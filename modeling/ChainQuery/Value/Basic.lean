import ChainQuery.Value.Type
import ChainQuery.Text.Hex
import ChainQuery.Text.Digits

/-!
# Values

What a query computes with. Integers within 128 bits are held as numbers; a wider one is held by its
decimal text. An address keeps the spelling it was read in.
-/

namespace ChainQuery

inductive Value where
  | null
  | bool (b : Bool)
  | int (i : Int)
  | bigInt (text : String)
  | str (s : String)
  | bytes (data : List UInt8)
  | address (s : String)
  | list (items : List Value)
deriving Repr, Inhabited

namespace Value

mutual

/-- Equality as data, which tells apart the forms of one integer and the spellings of one address. -/
def beq : Value → Value → Bool
  | null, null => true
  | bool a, bool b => a == b
  | int a, int b => a == b
  | bigInt a, bigInt b => a == b
  | str a, str b => a == b
  | bytes a, bytes b => a == b
  | address a, address b => a == b
  | list as, list bs => beqItems as bs
  | _, _ => false

def beqItems : List Value → List Value → Bool
  | [], [] => true
  | a :: as, b :: bs => a.beq b && beqItems as bs
  | _, _ => false

end

mutual

theorem beq_iff_eq : ∀ a b : Value, a.beq b = true ↔ a = b
  | null, b => by cases b <;> simp [beq]
  | bool _, b => by cases b <;> simp [beq]
  | int _, b => by cases b <;> simp [beq]
  | bigInt _, b => by cases b <;> simp [beq]
  | str _, b => by cases b <;> simp [beq]
  | bytes _, b => by cases b <;> simp [beq]
  | address _, b => by cases b <;> simp [beq]
  | list as, b => by
    cases b with
    | list bs => simp [beq, beqItems_iff_eq as bs]
    | _ => simp [beq]

theorem beqItems_iff_eq : ∀ as bs : List Value, beqItems as bs = true ↔ as = bs
  | [], bs => by cases bs <;> simp [beqItems]
  | a :: as, bs => by
    cases bs with
    | nil => simp [beqItems]
    | cons b bs => simp [beqItems, beq_iff_eq a b, beqItems_iff_eq as bs]

end

instance : DecidableEq Value := fun a b =>
  if h : a.beq b = true then isTrue ((beq_iff_eq a b).1 h)
  else isFalse fun e => h ((beq_iff_eq a b).2 e)

/-- The type of a value. A list has the type of its first element. -/
def type : Value → ValueType
  | null => .any
  | bool _ => .bool
  | int _ => .int
  | bigInt _ => .int
  | str _ => .str
  | bytes _ => .bytes
  | address _ => .address
  | list [] => .list .any
  | list (item :: _) => .list item.type

def typeText (v : Value) : String :=
  v.type.text

def text : Value → String
  | null => "null"
  | bool b => if b then "true" else "false"
  | int i => Text.signedDecimal i
  | bigInt s => s
  | str s => s
  | bytes data => String.ofList ('0' :: 'x' :: Text.hexChars data)
  | address s => s
  | list items => "[" ++ ", ".intercalate (texts items) ++ "]"
where
  texts : List Value → List String
    | [] => []
    | item :: items => item.text :: texts items

def isNull : Value → Bool
  | null => true
  | _ => false

end Value
end ChainQuery
