import ChainQuery.Value.Integer
import ChainQuery.Text.Ascii

/-!
# Comparing values

Equality, order and membership as predicates use them. Integers compare as numbers in whichever form
they are held, addresses without regard to the case of letters, also against strings, and `null`
equals only itself. Values of other different types cannot be compared.
-/

namespace ChainQuery.Value

/-- Whether two integers are equal as numbers of 256 bits. -/
def equalIntegers (a b : Value) : Except ExecutionError Bool := do
  let x ← a.toInt256
  let y ← b.toInt256
  return x == y

mutual

/-- Whether two values are equal; it fails when their types cannot be compared. -/
def equals : Value → Value → Except ExecutionError Bool
  | null, null => .ok true
  | null, _ => .ok false
  | _, null => .ok false
  | int a, int b => .ok (a == b)
  | int a, bigInt b => equalIntegers (int a) (bigInt b)
  | bigInt a, int b => equalIntegers (bigInt a) (int b)
  | bigInt a, bigInt b => equalIntegers (bigInt a) (bigInt b)
  | address a, address b => .ok (Text.equalFold a b)
  | address a, str b => .ok (Text.equalFold a b)
  | str a, address b => .ok (Text.equalFold a b)
  | str a, str b => .ok (a == b)
  | bool a, bool b => .ok (a == b)
  | bytes a, bytes b => .ok (a == b)
  | list as, list bs => if as.length = bs.length then equalItems as bs else .ok false
  | a, b => .error (.typeMismatch a.typeText b.typeText)

def equalItems : List Value → List Value → Except ExecutionError Bool
  | a :: as, b :: bs =>
    match equals a b with
    | .ok true => equalItems as bs
    | .ok false => .ok false
    | .error e => .error e
  | _, _ => .ok true

end

/-- Integers are ordered as numbers and strings by their characters, nothing else is ordered. -/
def compare : Value → Value → Except ExecutionError Ordering
  | int a, int b => .ok (Ord.compare a b)
  | int a, bigInt b => compareIntegers (int a) (bigInt b)
  | bigInt a, int b => compareIntegers (bigInt a) (int b)
  | bigInt a, bigInt b => compareIntegers (bigInt a) (bigInt b)
  | str a, str b => .ok (Ord.compare a b)
  | a, b => .error (.typeMismatch a.typeText b.typeText)
where
  compareIntegers (a b : Value) : Except ExecutionError Ordering := do
    let x ← a.toInt256
    let y ← b.toInt256
    return Ord.compare x y

/-- Whether a value is among the elements of a list, up to the first that equals it. -/
def memberOf (needle : Value) : List Value → Except ExecutionError Bool
  | [] => .ok false
  | item :: items =>
    match item.equals needle with
    | .ok true => .ok true
    | .ok false => memberOf needle items
    | .error e => .error e

def contains (list needle : Value) : Except ExecutionError Bool := do
  memberOf needle (← list.toList)

end ChainQuery.Value
