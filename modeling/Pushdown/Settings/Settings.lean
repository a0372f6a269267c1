import Pushdown.Dictionary
import Pushdown.Log
import Pushdown.Text.Blank
import Pushdown.Text.Quoted

/-!
# Settings

What applies where a request does not say otherwise, and the rules that settings have to keep.
-/

namespace Pushdown

structure Settings where
  environment : String := "release"
  logLevel : String := "info"
  dialect : String := "EXASOL"
  catalog : String := ""
  schema : String := ""
  quoteNames : Bool := false
  /-- How many statements of a batch are generated at a time; any number if zero. -/
  concurrency : Int := 4
  notes : Dictionary String String := {}
deriving Inhabited

namespace Settings

/-- Something wrong with settings. -/
inductive Problem where
  | notBoolean (key value : String)
  | notInteger (key value : String)
  | unknownEnvironment (environment : String)
  | unknownLogLevel (level : String)
  | dialectRequired
  | negativeConcurrency (concurrency : Int)
deriving DecidableEq, Inhabited

open Text (quoted) in
def Problem.text : Problem → String
  | notBoolean key value =>
    key ++ ": strconv.ParseBool: parsing " ++ quoted value ++ ": invalid syntax"
  | notInteger key value =>
    key ++ ": unable to cast " ++ quoted value ++ " of type string to int64"
  | unknownEnvironment environment => "unknown environment " ++ quoted environment
  | unknownLogLevel level => "unknown log level " ++ quoted level
  | dialectRequired => "dialect is required"
  | negativeConcurrency n => s!"concurrency must not be negative, got {n}"

def environments : List String := ["debug", "test", "release"]

/-- A problem that is there if the condition holds. -/
def problemIf (condition : Bool) (problem : Problem) : List Problem :=
  if condition then [problem] else []

/-- Everything that is wrong with the settings. -/
def problems (s : Settings) : List Problem :=
  problemIf (!environments.contains s.environment) (.unknownEnvironment s.environment) ++
    problemIf (!Log.Level.isName s.logLevel) (.unknownLogLevel s.logLevel) ++
    problemIf (Text.trim s.dialect == "") .dialectRequired ++
    problemIf (s.concurrency < 0) (.negativeConcurrency s.concurrency)

/-- The threshold of the log: the one that is set, unless it is the default, in which case the
environment decides. -/
def threshold (s : Settings) : String :=
  if s.logLevel ≠ "" ∧ s.logLevel ≠ "info" then s.logLevel
  else if s.environment = "debug" ∨ s.environment = "test" then "debug"
  else "info"

end Settings

end Pushdown
