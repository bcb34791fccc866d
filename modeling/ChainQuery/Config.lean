import ChainQuery.Json.Reader
import ChainQuery.Retry

/-!
# Settings of a run

Where output goes and when, what happens on a failure, and how requests and logging are set up. All
settings have defaults. In JSON a section is an object or an array of its fields in order.
-/

namespace ChainQuery

/-- When committed output is due: at the end of its block or of the program. -/
inductive EmissionMode where
  | block
  | program
deriving DecidableEq, Repr, Inhabited

namespace EmissionMode

def keyword : EmissionMode → String
  | block => "block"
  | program => "program"

def ofKeyword? (word : String) : Option EmissionMode :=
  [block, program].find? fun m => m.keyword == word

/-- Reads a mode: its keyword, or an object that has the keyword as its only name. -/
def ofJson? : Json → Option EmissionMode
  | .string word => ofKeyword? word
  | .object [(word, .null)] => ofKeyword? word
  | _ => none

end EmissionMode

/-- How requests are repeated, and how many milliseconds each may take. -/
structure RequestConfig where
  retry : RetryConfig := {}
  timeout : Nat
deriving DecidableEq, Repr, Inhabited

namespace RequestConfig

def toJson (c : RequestConfig) : Json :=
  .object [("retry", c.retry.toJson), ("request_timeout_ms", .ofNat c.timeout)]

def ofJson? (timeout : Nat) (j : Json) : Option RequestConfig := do
  match ← j.record? ["retry", "request_timeout_ms"] with
  | [retry, limit] =>
    return {
      retry := ← Json.orDefault {} RetryConfig.ofJson? retry
      timeout := ← Json.orDefault timeout (Json.nat? 64) limit }
  | _ => none

end RequestConfig

/-- The level of the messages about a run, and levels for single components. -/
structure LogConfig where
  level : String := "info"
  components : List (String × String) := []
  structured : Bool := false
deriving DecidableEq, Repr, Inhabited

namespace LogConfig

def directiveName (component : String) : String :=
  component.map fun c => if c = '-' then '_' else c

/-- The levels as one text, the general one first. -/
def directives (c : LogConfig) : String :=
  c.components.foldl
    (fun text (component, level) => text ++ "," ++ directiveName component ++ "=" ++ level) c.level

def toJson (c : LogConfig) : Json :=
  .object [
    ("level", .string c.level),
    ("components", .object (c.components.map fun (name, level) => (name, .string level))),
    ("json", .bool c.structured)]

/-- Reads the levels of components, the last one of each name. -/
def components? : Json → Option (List (String × String))
  | .object fields =>
    (Json.sortFields fields).mapM fun (name, level) => level.string?.map fun text => (name, text)
  | _ => none

def ofJson? (j : Json) : Option LogConfig := do
  match ← j.record? ["level", "components", "json"] with
  | [level, components, structured] =>
    return {
      level := ← Json.orDefault "info" Json.string? level
      components := ← Json.orDefault [] components? components
      structured := ← Json.orDefault false Json.bool? structured }
  | _ => none

end LogConfig

structure RunConfig where
  outputFolder : Option String := none
  mode : EmissionMode := .block
  abortOnError : Bool := false
  /-- The milliseconds between two looks at a chain that has no further block yet. -/
  pollInterval : Nat := 2000
  deliveries : RequestConfig := { timeout := 10000 }
  log : LogConfig := {}
deriving DecidableEq, Repr, Inhabited

namespace RunConfig

def toJson (c : RunConfig) : Json :=
  .object [
    ("output_folder", (c.outputFolder.map Json.string).getD .null),
    ("emission_mode", .string c.mode.keyword),
    ("abort_on_error", .bool c.abortOnError),
    ("poll_interval_ms", .ofNat c.pollInterval),
    ("http", c.deliveries.toJson),
    ("log", c.log.toJson)]

def ofJson? (j : Json) : Option RunConfig := do
  let fields ← j.record? ["output_folder", "emission_mode", "abort_on_error", "poll_interval_ms",
    "http", "log"]
  match fields with
  | [outputFolder, mode, abortOnError, pollInterval, deliveries, log] =>
    return {
      outputFolder := ← Json.optional Json.string? outputFolder
      mode := ← Json.orDefault .block EmissionMode.ofJson? mode
      abortOnError := ← Json.orDefault false Json.bool? abortOnError
      pollInterval := ← Json.orDefault 2000 (Json.nat? 64) pollInterval
      deliveries := ← Json.orDefault { timeout := 10000 } (RequestConfig.ofJson? 10000) deliveries
      log := ← Json.orDefault {} LogConfig.ofJson? log }
  | _ => none

def read? (text : String) : Option RunConfig :=
  (Json.read? text).bind ofJson?

end RunConfig
end ChainQuery
