import ChainQuery.Binary64.Basic
import ChainQuery.Json.Held

/-!
# Retries

How often a failed request is tried again, and how long to wait before. The delay grows by a factor
from one retry to the next up to a limit, and is counted in whole milliseconds.
-/

namespace ChainQuery

/-- How often a request is repeated, and after which delays in milliseconds. -/
structure RetryConfig where
  /-- How often a request is tried again after its first failure. -/
  maxRetries : Nat := 3
  initialBackoff : Nat := 100
  maxBackoff : Nat := 10000
  multiplier : Binary64 := Binary64.ofNat 2
deriving DecidableEq, Repr, Inhabited

namespace RetryConfig

def never : RetryConfig :=
  { maxRetries := 0 }

/-- The exponent of the factor before a retry, held in 32 bits with sign. -/
def growth (attempt : Nat) : Int :=
  Int.bmod (Int.ofNat attempt - 1) (Nat.pow 2 32)

/-- The milliseconds to wait after the given number of failures, if the request is to be tried
again. -/
def nextDelay (c : RetryConfig) (attempt : Nat) : Option Nat :=
  if attempt = 0 ∨ c.maxRetries < attempt then none
  else
    let base := (Binary64.ofNat c.initialBackoff).mul (c.multiplier.powInt (growth attempt))
    some ((base.least (Binary64.ofNat c.maxBackoff)).toNatClamped 64)

theorem nextDelay_isSome_iff (c : RetryConfig) (attempt : Nat) :
    (c.nextDelay attempt).isSome = true ↔ 0 < attempt ∧ attempt ≤ c.maxRetries := by
  unfold nextDelay
  split
  · simp
    omega
  · simp
    omega

def toJson (c : RetryConfig) : Json :=
  .object [
    ("max_retries", .ofNat c.maxRetries),
    ("initial_backoff_ms", .ofNat c.initialBackoff),
    ("max_backoff_ms", .ofNat c.maxBackoff),
    ("multiplier", .number (Numeral.ofBinary64 c.multiplier))]

def ofJson? (j : Json) : Option RetryConfig := do
  let fields ← j.record? ["max_retries", "initial_backoff_ms", "max_backoff_ms", "multiplier"]
  let usual : RetryConfig := {}
  match fields with
  | [maxRetries, initialBackoff, maxBackoff, multiplier] =>
    return {
      maxRetries := ← Json.orDefault usual.maxRetries (Json.nat? 32) maxRetries
      initialBackoff := ← Json.orDefault usual.initialBackoff (Json.nat? 64) initialBackoff
      maxBackoff := ← Json.orDefault usual.maxBackoff (Json.nat? 64) maxBackoff
      multiplier := ← Json.orDefault usual.multiplier Json.binary64? multiplier }
  | _ => none

end RetryConfig
end ChainQuery
