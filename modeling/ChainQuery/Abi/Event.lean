import ChainQuery.Abi.Convert
import ChainQuery.Abi.Decode
import ChainQuery.Abi.Parameter
import ChainQuery.Chain.Block
import ChainQuery.Keccak

/-!
# Events

An event is told by the hash of its signature in the first topic of a log entry and by the number of
topics. Its indexed parameters are in the other topics, where types of variable size leave only a
hash, and the rest of them are encoded in the data.
-/

namespace ChainQuery

/-- An event with its parameters in the order of their declaration. -/
structure EventSignature where
  name : String
  parameters : List Parameter
deriving Repr, Inhabited, BEq

namespace EventSignature

def canonical (e : EventSignature) : String :=
  signatureText e.name (e.parameters.map Parameter.type)

/-- The first topic of every log entry of the event. -/
def topic (e : EventSignature) : String :=
  String.ofList ('0' :: 'x' :: Text.hexChars (keccak256 (Text.utf8 e.canonical)))

def indexedCount (e : EventSignature) : Nat :=
  (e.parameters.filter Parameter.indexed).length

/-- The types of the parameters that are found in the data of a log entry. -/
def dataTypes (e : EventSignature) : List AbiType :=
  (e.parameters.filter fun p => !p.indexed).map Parameter.type

/-- A log entry belongs to an event by its first topic and by the number of the others. -/
def isEventOf (e : EventSignature) (l : LogEntry) : Bool :=
  match l.topics with
  | [] => false
  | first :: rest => Text.equalFold first e.topic && rest.length == e.indexedCount

/-- The value of an indexed parameter. Of a reference type only the hash is there, which is given as
bytes. -/
def decodeTopic (t : AbiType) (topic : String) : Except ExecutionError Value :=
  match Text.readHex? (Text.dropHexMark topic.toList) with
  | none => .error (.decode .topicHex)
  | some raw =>
    if t.isReference then .ok (.bytes raw)
    else
      match Abi.decode? t raw with
      | some v => .ok v.toValue
      | none => .error (.decode .topic)

/-- The values of parameters in their order, taken from topics and from decoded data. -/
def collect (event : String) :
    List Parameter → List String → List AbiValue → Except ExecutionError (List (String × Value))
  | [], _, _ => .ok []
  | p :: ps, topics, values =>
    if p.indexed then
      match topics with
      | [] => .error (.decode (.missingTopic event p.name))
      | topic :: topics => do
        let v ← decodeTopic p.type topic
        return (p.name, v) :: (← collect event ps topics values)
    else
      match values with
      | [] => .error (.decode (.missingData event p.name))
      | value :: values => do
        return (p.name, value.toValue) :: (← collect event ps topics values)

/-- The parameters by name, in the order of their declaration. -/
def decode (e : EventSignature) (l : LogEntry) :
    Except ExecutionError (List (String × Value)) :=
  let values := if e.dataTypes.isEmpty then some [] else Abi.decodeAll? e.dataTypes l.data
  match values with
  | none => .error (.decode (.eventData e.name))
  | some values => collect e.name e.parameters (l.topics.drop 1) values

end EventSignature
end ChainQuery
