import ChainQuery.Abi.Address
import ChainQuery.Abi.Convert
import ChainQuery.Abi.Decode
import ChainQuery.Abi.Encode
import ChainQuery.Abi.Event
import ChainQuery.Abi.Parameter
import ChainQuery.Abi.Type
import ChainQuery.Abi.Value
import ChainQuery.Abi.Word
import ChainQuery.Binary64.Basic
import ChainQuery.Binary64.Reader
import ChainQuery.Binary64.Shortest
import ChainQuery.Chain.Block
import ChainQuery.Chain.Error
import ChainQuery.Chain.Json
import ChainQuery.Chain.Source
import ChainQuery.Config
import ChainQuery.Execution.Journal
import ChainQuery.Execution.Emission
import ChainQuery.Execution.Error
import ChainQuery.Execution.Filter
import ChainQuery.Execution.Program
import ChainQuery.Execution.Record
import ChainQuery.Execution.Scan
import ChainQuery.Execution.State
import ChainQuery.Execution.Statement
import ChainQuery.Expression.Builtin
import ChainQuery.Expression.Field
import ChainQuery.Expression.Literal
import ChainQuery.Expression.Operand
import ChainQuery.Expression.Predicate
import ChainQuery.Expression.Term
import ChainQuery.Expression.View
import ChainQuery.Json.Basic
import ChainQuery.Json.Held
import ChainQuery.Json.Number
import ChainQuery.Json.Printer
import ChainQuery.Json.Reader
import ChainQuery.Keccak
import ChainQuery.NameMap
import ChainQuery.Node.Client
import ChainQuery.Node.Convert
import ChainQuery.Node.Quantity
import ChainQuery.Node.Rpc
import ChainQuery.Output.Attribute
import ChainQuery.Output.Delivery
import ChainQuery.Output.Disk
import ChainQuery.Output.Error
import ChainQuery.Output.EventLog
import ChainQuery.Output.Folder
import ChainQuery.Output.Keyed
import ChainQuery.Output.LineLog
import ChainQuery.Output.Outputs
import ChainQuery.Output.Staging
import ChainQuery.Output.Table
import ChainQuery.Program.Addresses
import ChainQuery.Program.ContractRead
import ChainQuery.Program.Instruction
import ChainQuery.Program.Range
import ChainQuery.Proofs.Execution.Arrivals
import ChainQuery.Proofs.Execution.Atomicity
import ChainQuery.Proofs.Execution.Commitment
import ChainQuery.Proofs.Execution.Decisions
import ChainQuery.Proofs.Execution.Laws
import ChainQuery.Proofs.Execution.Ownership
import ChainQuery.Proofs.Execution.Steps
import ChainQuery.Proofs.Execution.Traces
import ChainQuery.Proofs.Output.Accounts
import ChainQuery.Proofs.Output.Files
import ChainQuery.Proofs.Output.OutputAccounts
import ChainQuery.Proofs.Output.Replay
import ChainQuery.Proofs.Output.Stages
import ChainQuery.Proofs.Output.TableAccounts
import ChainQuery.Proofs.Query.Compiled
import ChainQuery.Proofs.Query.Conditions
import ChainQuery.Proofs.Query.Steps
import ChainQuery.Proofs.Query.Structure
import ChainQuery.Proofs.Query.Takes
import ChainQuery.Proofs.Query.Tree
import ChainQuery.Proofs.Results
import ChainQuery.Query.Compiler
import ChainQuery.Query.Composer
import ChainQuery.Query.Error
import ChainQuery.Query.Scope
import ChainQuery.Query.Statement
import ChainQuery.Query.Written
import ChainQuery.Retry
import ChainQuery.Text.Ascii
import ChainQuery.Text.Blank
import ChainQuery.Text.CaseTable
import ChainQuery.Text.Digits
import ChainQuery.Text.EscapedTable
import ChainQuery.Text.Hex
import ChainQuery.Text.Lowercase
import ChainQuery.Text.Quoted
import ChainQuery.Text.Utf8
import ChainQuery.Time.Calendar
import ChainQuery.Time.Moment
import ChainQuery.Value.Basic
import ChainQuery.Value.Compare
import ChainQuery.Value.Integer
import ChainQuery.Value.Json
import ChainQuery.Value.Type
import ChainQuery.Wire
import ChainQuery.Proofs.Scan.Bounded
import ChainQuery.Proofs.Scan.Endless
import ChainQuery.Proofs.Execution.Moves
import ChainQuery.Proofs.Execution.Paths
import ChainQuery.Proofs.Failures.Accounts
import ChainQuery.Proofs.Failures.Handling
import ChainQuery.Proofs.Execution.Tandems
import ChainQuery.Proofs.Execution.Modes
import ChainQuery.Proofs.Execution.Reruns
import ChainQuery.Proofs.Text.Decimal
import ChainQuery.Proofs.Value.Integers
import ChainQuery.Proofs.Query.Stacks
import ChainQuery.Proofs.Query.Brackets
import ChainQuery.Proofs.Output.Rollback
import ChainQuery.Proofs.Output.Trails
import ChainQuery.Proofs.Output.Settling
import ChainQuery.Proofs.Output.Deferral
import ChainQuery.Proofs.Query.Predicates
import ChainQuery.Proofs.Query.FailedEvents
import ChainQuery.Proofs.Query.Declarations
import ChainQuery.Proofs.Query.Successors
import ChainQuery.Proofs.Execution.Soundness
import ChainQuery.Proofs.Execution.Surroundings
import ChainQuery.Proofs.Output.Handovers
import ChainQuery.Proofs.Output.Prefixes
import ChainQuery.Proofs.Execution.Fragments
import ChainQuery.Proofs.Execution.Endings
import ChainQuery.Proofs.Execution.Cuts
import ChainQuery.Proofs.Execution.Aborts
import ChainQuery.Proofs.Execution.Changes
import ChainQuery.Proofs.Execution.Agreement
import ChainQuery.Proofs.Execution.Containment
import ChainQuery.Proofs.Scan.Splitting
import ChainQuery.Proofs.Output.Retries
import ChainQuery.Proofs.Execution.Termination
import ChainQuery.Proofs.Execution.Groupings
import ChainQuery.Proofs.Execution.Criteria
import ChainQuery.Proofs.Abi.Conversions
import ChainQuery.Proofs.Abi.Emitted
import ChainQuery.Proofs.Output.Folders
import ChainQuery.Proofs.Output.Refusals
import ChainQuery.Proofs.Execution.Isolation
import ChainQuery.Proofs.Value.Order
import ChainQuery.Proofs.Expression.Calls
import ChainQuery.Proofs.Abi.Inverses
import ChainQuery.Proofs.Execution.Completions
import ChainQuery.Proofs.Execution.ContractReads
import ChainQuery.Proofs.Expression.Lists
import ChainQuery.Proofs.Expression.Names
import ChainQuery.Proofs.Expression.IntegerTexts
import ChainQuery.Proofs.Expression.Literals
import ChainQuery.Proofs.Expression.NestedLists
import ChainQuery.Proofs.Query.LiteralBounds
import ChainQuery.Proofs.Output.Departures
import ChainQuery.Proofs.Output.TableFiles
import ChainQuery.Proofs.Output.Reading
import ChainQuery.Proofs.Execution.LogLines
import ChainQuery.Proofs.Output.Merging
import ChainQuery.Proofs.Output.Markup
import ChainQuery.Proofs.Output.Xml
import ChainQuery.Proofs.Output.Documents
import ChainQuery.Proofs.Json.ReadBack
import ChainQuery.Proofs.Node.Envelopes
import ChainQuery.Proofs.Node.Requests
import ChainQuery.Proofs.Node.Answers
import ChainQuery.Proofs.Node.Quantities
import ChainQuery.Proofs.Execution.Leaves
import ChainQuery.Proofs.Execution.Destinations
