import ChainQuery.Chain.Block
import ChainQuery.Chain.Error

/-!
# Sources of a chain

A run asks a chain for its head, for blocks and for the answers to calls, and asks a connector for
other chains. An answer may depend on everything that was asked before, so that a chain may grow,
fail for a while or change its mind between two questions.
-/

namespace ChainQuery

/-- A question of a run. -/
inductive Inquiry where
  | head
  | block (number : Nat)
  | call (contract : String) (data : List UInt8) (block : Option Nat)
  | connect (url : String)
deriving DecidableEq, Repr, Inhabited

/-- The questions so far, the last one first. -/
abbrev History := List Inquiry

/-- The answers of a chain, each by the questions that were asked before. -/
structure ChainSource where
  head : History → Except ChainError Nat
  /-- A block, or nothing while the chain has not reached its number. -/
  block : History → Nat → Except ChainError (Option Block)
  /-- What a contract returns for a call, at a block or at the head. -/
  call : History → String → List UInt8 → Option Nat → Except ChainError (List UInt8)

/-- What is found at an address, by the questions that were asked before. -/
abbrev Connector := History → String → Except ChainError ChainSource

end ChainQuery
