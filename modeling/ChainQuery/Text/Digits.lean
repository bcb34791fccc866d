import ChainQuery.Text.Ascii

/-!
# Runs of digits

Digits of any radix up to sixteen: the value of one digit, the value of a run of them, and the two
grammars in which a run is read. `readRun?` wants at least one digit and nothing else.
`readGrouped?` lets `_` stand anywhere, takes the empty run for zero and is bounded. An integer is
written in decimal digits, and read back with one optional sign before them.
-/

namespace ChainQuery.Text

/-- The value of a digit, letters of either case counting from ten. -/
def digitValue? (c : Char) : Option Nat :=
  if '0' ≤ c ∧ c ≤ '9' then some (c.toNat - '0'.toNat)
  else if 'a' ≤ c ∧ c ≤ 'z' then some (c.toNat - 'a'.toNat + 10)
  else if 'A' ≤ c ∧ c ≤ 'Z' then some (c.toNat - 'A'.toNat + 10)
  else none

def digitBelow? (radix : Nat) (c : Char) : Option Nat :=
  (digitValue? c).filter (· < radix)

def digitChar (d : Nat) : Char :=
  if d < 10 then Char.ofNat ('0'.toNat + d) else Char.ofNat ('a'.toNat + (d - 10))

/-- The number that a list of digit values denotes, most significant first. -/
def ofDigits (radix : Nat) (ds : List Nat) : Nat :=
  ds.foldl (fun n d => n * radix + d) 0

/-- The digit values of a number, most significant first; zero has one digit. -/
def digits (radix : Nat) (n : Nat) : List Nat :=
  if _h : n < radix ∨ radix < 2 then [n]
  else digits radix (n / radix) ++ [n % radix]
termination_by n
decreasing_by
  have : 1 < radix := by omega
  exact Nat.div_lt_self (by omega) this

def render (radix : Nat) (n : Nat) : List Char :=
  (digits radix n).map digitChar

/-- The number that digits write, at least one of them. -/
def readRun? (radix : Nat) : List Char → Option Nat
  | [] => none
  | c :: cs => ((c :: cs).mapM (digitBelow? radix)).map (ofDigits radix)

/-- Reads digits below `radix` among which `_` may stand anywhere, no digit at all being zero, if
the number is below `bound`. -/
def readGrouped? (radix bound : Nat) (cs : List Char) : Option Nat :=
  (((cs.filter (· ≠ '_')).mapM (digitBelow? radix)).map (ofDigits radix)).filter (· < bound)

theorem ofDigits_append_singleton (radix : Nat) (ds : List Nat) (d : Nat) :
    ofDigits radix (ds ++ [d]) = ofDigits radix ds * radix + d := by
  simp [ofDigits]

theorem ofDigits_digits (radix n : Nat) : ofDigits radix (digits radix n) = n := by
  induction n using Nat.strongRecOn with
  | ind n ih =>
    rw [digits]
    split
    · simp [ofDigits]
    · rename_i h
      rw [ofDigits_append_singleton, ih _ (Nat.div_lt_self (by omega) (by omega))]
      rw [Nat.mul_comm]
      exact Nat.div_add_mod n radix

def decimal (n : Nat) : String :=
  String.ofList (render 10 n)

/-- The decimal text of an integer: a minus sign for a negative one, no plus sign. -/
def signedDecimal : Int → String
  | .ofNat n => decimal n
  | .negSucc n => String.ofList ('-' :: render 10 (n + 1))

def readSigned? : List Char → Option Int
  | '+' :: cs => (readRun? 10 cs).map Int.ofNat
  | '-' :: cs => (readRun? 10 cs).map fun n => -Int.ofNat n
  | cs => (readRun? 10 cs).map Int.ofNat

end ChainQuery.Text
