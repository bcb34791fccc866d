import ChainQuery.Binary64.Basic
import ChainQuery.Text.Digits

/-!
# The shortest decimal text of a double

The fewest digits that read back to the same double, and among decimals with that many digits the
nearest one. Doubles are written positionally whatever their size, without a decimal point when
they are whole, and `NaN`, `inf` and `-inf` stand for the rest.
-/

namespace ChainQuery.Binary64

/-- The real numbers that round to a double, in units of `2 ^ (exponent - 2)`. The ends belong to
the interval when the mantissa is even. -/
structure RoundingInterval where
  low : Nat
  middle : Nat
  high : Nat
  unit : Int
  closed : Bool

/-- The interval of a positive double. Below a power of two the gap is half as wide. -/
def interval (mantissa : Nat) (exponent : Int) : RoundingInterval :=
  { low :=
      if mantissa = mantissaBound / 2 ∧ minExponent < exponent then 4 * mantissa - 1
      else 4 * mantissa - 2
    middle := 4 * mantissa
    high := 4 * mantissa + 2
    unit := exponent - 2
    closed := mantissa % 2 = 0 }

/-- `x * 2 ^ unit` and `c * 10 ^ place` brought to one denominator. -/
def align (x : Nat) (unit : Int) (c : Nat) (place : Int) : Nat × Nat :=
  let two : Nat × Nat := match unit with
    | .ofNat k => (Nat.pow 2 k, 1)
    | .negSucc k => (1, Nat.pow 2 (k + 1))
  let ten : Nat × Nat := match place with
    | .ofNat k => (Nat.pow 10 k, 1)
    | .negSucc k => (1, Nat.pow 10 (k + 1))
  (x * two.1 * ten.2, c * ten.1 * two.2)

/-- Whether `c * 10 ^ place` rounds to the double of the interval. -/
def RoundingInterval.holds (i : RoundingInterval) (c : Nat) (place : Int) : Bool :=
  let lo := align i.low i.unit c place
  let hi := align i.high i.unit c place
  if i.closed then lo.1 ≤ lo.2 && hi.2 ≤ hi.1 else lo.1 < lo.2 && hi.2 < hi.1

/-- The multiple of `10 ^ place` that rounds to the double, the nearer one of two and the
larger one in a tie. -/
def RoundingInterval.onGrid? (i : RoundingInterval) (place : Int) : Option Nat :=
  let one := align i.middle i.unit 1 place
  let c := one.1 / one.2
  match i.holds c place, i.holds (c + 1) place with
  | true, false => some c
  | false, true => some (c + 1)
  | false, false => none
  | true, true => if 2 * (one.1 % one.2) < one.2 then some c else some (c + 1)

def leadingPlace (i : RoundingInterval) (start : Int) : Nat → Int
  | 0 => start
  | fuel + 1 =>
    let one := align i.middle i.unit 1 start
    if one.2 ≤ one.1 then start else leadingPlace i (start - 1) fuel

/-- The coarsest grid, from `place` downwards, that holds a decimal of the double. -/
def firstGrid (i : RoundingInterval) (place : Int) : Nat → Nat × Int
  | 0 => (0, place)
  | fuel + 1 =>
    match i.onGrid? place with
    | some c => (c, place)
    | none => firstGrid i (place - 1) fuel

/-- The shortest decimal `c * 10 ^ place` of a positive double. The search starts one place above the
leading digit, for a double just below a power of ten may have that power as its shortest decimal. -/
def shortest (mantissa : Nat) (exponent : Int) : Nat × Int :=
  let i := interval mantissa exponent
  let start : Int := (exponent + Int.ofNat mantissa.log2 + 1) * 30103 / 100000 + 1
  let lead := leadingPlace i start 4
  firstGrid i (lead + 1) 19

/-- The digits of `c * 10 ^ place` without an exponent. -/
def positional (c : Nat) (place : Int) : List Char :=
  match place with
  | .ofNat k => Text.render 10 c ++ List.replicate k '0'
  | .negSucc k =>
    let ds := Text.render 10 c
    let padded := List.replicate (k + 2 - ds.length) '0' ++ ds
    let whole := padded.length - (k + 1)
    padded.take whole ++ '.' :: padded.drop whole

def text : Binary64 → String
  | nan => "NaN"
  | infinite s => if s then "-inf" else "inf"
  | finite s m e =>
    let body :=
      if m = 0 then ['0']
      else
        let d := shortest m e
        positional d.1 d.2
    String.ofList (if s then '-' :: body else body)

end ChainQuery.Binary64
