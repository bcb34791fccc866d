import ChainQuery.Json.Basic
import ChainQuery.Binary64.Basic

/-!
# JSON numbers as doubles

Up to nineteen or twenty significant digits are gathered into a word of 64 bits, the rest only moves
the exponent, and the word is multiplied or divided by a power of ten. The result can therefore miss
the nearest double by one unit. A number beyond the largest double is refused.
-/

namespace ChainQuery

/-- The significant digits gathered so far and the power of ten they are to be scaled by. -/
structure Gathered where
  significand : Nat
  exponent : Int

namespace Gathered

/-- Gathers digits before the point: from the first one that does not fit, each only counts. -/
def whole (significand : Nat) : List Char → Gathered
  | [] => ⟨significand, 0⟩
  | c :: cs =>
    let next := significand * 10 + (c.toNat - '0'.toNat)
    if next < Nat.pow 2 64 then whole next cs else ⟨significand, Int.ofNat (cs.length + 1)⟩

/-- Gathers digits after the point: from the first one that does not fit, all are dropped. -/
def fraction (g : Gathered) : List Char → Gathered
  | [] => g
  | c :: cs =>
    let next := g.significand * 10 + (c.toNat - '0'.toNat)
    if next < Nat.pow 2 64 then fraction ⟨next, g.exponent - 1⟩ cs else g

end Gathered

namespace Numeral

def tenTo (n : Nat) : Binary64 :=
  Binary64.ofDecimal false 1 (Int.ofNat n)

/-- Scales a double by a power of ten, in steps of at most `10 ^ 308` when it shrinks. -/
def scale? (x : Binary64) (exponent : Int) : Nat → Option Binary64
  | 0 => some x
  | steps + 1 =>
    if exponent.natAbs ≤ 308 then
      if 0 ≤ exponent then
        match x.mul (tenTo exponent.natAbs) with
        | .infinite _ => none
        | y => some y
      else some (x.div (tenTo exponent.natAbs))
    else if x.isZero then some x
    else if 0 ≤ exponent then none
    else scale? (x.div (tenTo 308)) (exponent + 308) steps

def toBinary64? (n : Numeral) : Option Binary64 :=
  let g := Gathered.whole 0 n.whole
  let g := match n.fraction with
    | some ds => g.fraction ds
    | none => g
  let signed (x : Binary64) : Binary64 := if n.negative then x.neg else x
  let size := n.exponent.getD 0
  if Nat.pow 2 31 ≤ size.natAbs then
    if g.significand ≠ 0 ∧ 0 < size then none else some (signed (Binary64.ofNat 0))
  else (scale? (Binary64.ofNat g.significand) (g.exponent + size) 8).map signed

end Numeral

namespace Json

def binary64? : Json → Option Binary64
  | number n => n.toBinary64?
  | _ => none

end Json
end ChainQuery
