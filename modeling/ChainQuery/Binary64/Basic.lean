/-!
# Binary floating point of 64 bits

A number is a mantissa below `2 ^ 53` times a power of two that is at least `2 ^ -1074`, or an
infinity, or no number. Every operation computes its result exactly and rounds it once with
`ofRatio`, to the nearest representable number and to the even mantissa in a tie.
-/

namespace ChainQuery

/-- A double. A finite one is `mantissa * 2 ^ exponent`, with the sign kept also at zero. -/
inductive Binary64 where
  | nan
  | infinite (negative : Bool)
  | finite (negative : Bool) (mantissa : Nat) (exponent : Int)
deriving DecidableEq, Repr, Inhabited

namespace Binary64

/-- The exponent of the smallest numbers, which is also that of zero. -/
def minExponent : Int := -1074

def maxExponent : Int := 971

def mantissaBound : Nat := Nat.pow 2 53

/-- The natural number nearest to `num / den`, the even one of two. -/
def nearest (num den : Nat) : Nat :=
  let q := num / den
  let r := num % den
  if 2 * r < den then q
  else if den < 2 * r then q + 1
  else if q % 2 = 0 then q else q + 1

def nearestScaled (num den : Nat) (e : Int) : Nat :=
  match e with
  | .ofNat k => nearest num (den * Nat.pow 2 k)
  | .negSucc k => nearest (num * Nat.pow 2 (k + 1)) den

/-- The exponent at which `num / den` has a mantissa of 53 bits, or the smallest exponent. -/
def scaleOf (num den : Nat) : Int :=
  let guess : Int := Int.ofNat num.log2 - Int.ofNat den.log2 - 53
  let fits (e : Int) : Bool :=
    match e with
    | .ofNat k => num < den * Nat.pow 2 k * mantissaBound
    | .negSucc k => num * Nat.pow 2 (k + 1) < den * mantissaBound
  max minExponent (if fits guess then guess else guess + 1)

/-- The double nearest to `num / den`, infinite when it is too large. -/
def ofRatio (negative : Bool) (num den : Nat) : Binary64 :=
  if num = 0 then finite negative 0 minExponent
  else
    let e := scaleOf num den
    let m := nearestScaled num den e
    if m < mantissaBound then
      if maxExponent < e then infinite negative else finite negative m e
    else if maxExponent < e + 1 then infinite negative
    else finite negative (mantissaBound / 2) (e + 1)

def ofNat (n : Nat) : Binary64 :=
  ofRatio false n 1

/-- The double nearest to `significand * 10 ^ exponent`. Exponents that leave the range whatever the
significand are cut off before any power is computed. -/
def ofDecimal (negative : Bool) (significand : Nat) (exponent : Int) : Binary64 :=
  if significand = 0 then finite negative 0 minExponent
  else
    let size : Int := Int.ofNat (significand.log2 / 3 + 1)
    if 400 < exponent then infinite negative
    else if exponent + size < -400 then finite negative 0 minExponent
    else
      match exponent with
      | .ofNat k => ofRatio negative (significand * Nat.pow 10 k) 1
      | .negSucc k => ofRatio negative significand (Nat.pow 10 (k + 1))

/-- A finite number without its sign, as numerator and denominator. -/
def fraction (mantissa : Nat) (exponent : Int) : Nat × Nat :=
  match exponent with
  | .ofNat k => (mantissa * Nat.pow 2 k, 1)
  | .negSucc k => (mantissa, Nat.pow 2 (k + 1))

def isZero : Binary64 → Bool
  | finite _ m _ => m == 0
  | _ => false

def neg : Binary64 → Binary64
  | nan => nan
  | infinite s => infinite !s
  | finite s m e => finite (!s) m e

def mul : Binary64 → Binary64 → Binary64
  | nan, _ | _, nan => nan
  | infinite s, infinite t => infinite (s ^^ t)
  | infinite s, finite t m _ => if m = 0 then nan else infinite (s ^^ t)
  | finite s m _, infinite t => if m = 0 then nan else infinite (s ^^ t)
  | finite s m e, finite t n f =>
    let r := fraction (m * n) (e + f)
    ofRatio (s ^^ t) r.1 r.2

def div : Binary64 → Binary64 → Binary64
  | nan, _ | _, nan => nan
  | infinite _, infinite _ => nan
  | infinite s, finite t _ _ => infinite (s ^^ t)
  | finite s _ _, infinite t => finite (s ^^ t) 0 minExponent
  | finite s m e, finite t n f =>
    if n = 0 then (if m = 0 then nan else infinite (s ^^ t))
    else
      let p := fraction m e
      let q := fraction n f
      ofRatio (s ^^ t) (p.1 * q.2) (p.2 * q.1)

/-- Equality of numbers: both zeros are one, and no number equals `nan`. -/
def same : Binary64 → Binary64 → Bool
  | nan, _ | _, nan => false
  | x, y => x == y || (x.isZero && y.isZero)

/-- The order of the numbers. No number is below `nan` or above it. -/
def below : Binary64 → Binary64 → Bool
  | nan, _ | _, nan => false
  | infinite s, infinite t => s && !t
  | infinite s, finite _ _ _ => s
  | finite _ _ _, infinite t => !t
  | finite s m e, finite t n f =>
    let p := fraction m e
    let q := fraction n f
    let x : Int := if s then -Int.ofNat (p.1 * q.2) else Int.ofNat (p.1 * q.2)
    let y : Int := if t then -Int.ofNat (q.1 * p.2) else Int.ofNat (q.1 * p.2)
    x < y

/-- The smaller of two, or the number when one of them is `nan`. -/
def least (x y : Binary64) : Binary64 :=
  match x, y with
  | nan, y => y
  | x, nan => x
  | x, y => if y.below x then y else x

/-- The power with a natural exponent by repeated squaring, each product rounded. -/
def powNat (x : Binary64) (n : Nat) : Binary64 :=
  go x n (ofNat 1)
where
  go (x : Binary64) (n : Nat) (acc : Binary64) : Binary64 :=
    let acc := if n % 2 = 1 then acc.mul x else acc
    if _h : n / 2 = 0 then acc else go (x.mul x) (n / 2) acc
  termination_by n

def powInt (x : Binary64) : Int → Binary64
  | .ofNat n => powNat x n
  | .negSucc n => (ofNat 1).div (powNat x (n + 1))

/-- The integral part, kept between zero and `2 ^ bits - 1`; no number counts as zero. -/
def toNatClamped (bits : Nat) : Binary64 → Nat
  | nan => 0
  | infinite s => if s then 0 else Nat.pow 2 bits - 1
  | finite s m e =>
    if s then 0
    else
      let r := fraction m e
      min (r.1 / r.2) (Nat.pow 2 bits - 1)

end Binary64
end ChainQuery
