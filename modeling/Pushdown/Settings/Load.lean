import Pushdown.Settings.EnvFile
import Pushdown.Settings.Settings
import Pushdown.Settings.Yaml.Fields

/-!
# Loading settings

Settings come from the defaults, a settings file, a file of variables and the environment, where
each overrides those before it, except that the file of variables never overrides the
environment. Everything that is wrong is reported at once.
-/

namespace Pushdown

/-- Why a file could not be read. -/
inductive FileError where
  | missing
  | directory
  | notDirectory
  | other (text : String)
deriving DecidableEq, Inhabited

/-- The error about the file at a path. -/
def FileError.message (path : String) : FileError → String
  | missing => "open " ++ path ++ ": no such file or directory"
  | directory => "read " ++ path ++ ": is a directory"
  | notDirectory => "open " ++ path ++ ": not a directory"
  | other text => text

namespace Settings

/-- Why there are no settings. -/
inductive LoadError where
  | unreadable (path : String) (error : FileError)
  | notSettings (path : String)
  | invalid (problems : List Problem)
deriving DecidableEq, Inhabited

/-- A list of problems in words. -/
def Problem.listText (problems : List Problem) : String :=
  (if problems.length = 1 then "1 error occurred:" else s!"{problems.length} errors occurred:") ++
    "\n" ++ String.join (problems.map fun p => "\t* " ++ p.text ++ "\n") ++ "\n"

def LoadError.message : LoadError → String
  | unreadable path e => "read config " ++ path ++ ": " ++ e.message path
  | notSettings path => "parse config " ++ path
  | invalid problems => "invalid configuration: " ++ Problem.listText problems

/-! ## The settings file -/

/-- The value of the field with a name, or the default if it has none. -/
def field? {α : Type} (fields : List Yaml.Field) (name : String) (default : α)
    (read? : Yaml.Node → Option (Option α)) : Option α :=
  match fields.filter (·.name == name) with
  | [] => some default
  | [field] => (read? field.value).map (·.getD default)
  | _ => none

/-- The notes with one more. One without a value is empty, and does not replace another. -/
def setNote? (notes : Dictionary String String) (field : Yaml.Field) :
    Option (Dictionary String String) := do
  match ← field.value.text? with
  | some text => some (notes.insert field.name text)
  | none => some (if notes.contains field.name then notes else notes.insert field.name "")

/-- The notes with those of a mapping. -/
def withNotes? (notes : Dictionary String String) (node : Yaml.Node) :
    Option (Option (Dictionary String String)) := do
  match ← node.record? with
  | some fields => (fields.foldlM setNote? notes).map some
  | none => some none

/-- The settings with the fields of a file; fields that are no settings do not count. -/
def ofFields? (s : Settings) (fields : List Yaml.Field) : Option Settings := do
  return {
    environment := ← field? fields "environment" s.environment Yaml.Node.text?
    logLevel := ← field? fields "log_level" s.logLevel Yaml.Node.text?
    dialect := ← field? fields "dialect" s.dialect Yaml.Node.text?
    catalog := ← field? fields "catalog" s.catalog Yaml.Node.text?
    schema := ← field? fields "schema" s.schema Yaml.Node.text?
    quoteNames := ← field? fields "quote_identifiers" s.quoteNames Yaml.Node.bool?
    concurrency := ← field? fields "concurrency" s.concurrency Yaml.Node.int?
    notes := ← field? fields "adapter_notes" s.notes (withNotes? s.notes) }

/-- The settings with the contents of a file. -/
def ofFile? (s : Settings) (text : String) : Option Settings := do
  match ← (← Yaml.read? text).record? with
  | some fields => s.ofFields? fields
  | none => some s

/-! ## The environment -/

/-- The mark that a variable with a note starts with. -/
def noteMark : String := "PUSHQL_NOTE_"

/-- A word with its first letter in capitals. A first character outside of ASCII is lost, one
replacement character standing for each byte of it. -/
def capitalize : List Char → List Char
  | [] => []
  | c :: rest =>
    if Text.isAscii c then c.toUpper :: rest
    else List.replicate c.utf8Size (Char.ofNat 0xFFFD) ++ rest

/-- The key of the note that a variable sets: `CATALOG_SEPARATOR` is `catalogSeparator`. -/
def noteKey (name : String) : String :=
  match (Text.lower name).toList.splitOn '_' with
  | [] => ""
  | first :: words => String.ofList (first ++ words.flatMap capitalize)

/-- The notes that variables set. -/
def environmentNotes (vars : List (String × String)) : List (String × String) :=
  vars.filterMap fun (name, value) =>
    let mark := noteMark.toList
    let cs := name.toList
    if mark.isPrefixOf cs && mark.length < cs.length then
      some (noteKey (String.ofList (cs.drop mark.length)), value)
    else none

/-- The settings with what variables set, and the problems with those that cannot be read, which
change nothing. -/
def withVariables (s : Settings) (vars : List (String × String)) :
    Settings × List Problem :=
  let text (name default : String) : String := (vars.lookup name).getD default
  let quote := "PUSHQL_QUOTE_IDENTIFIERS"
  let concurrency := "PUSHQL_CONCURRENCY"
  let quoteNames? := (vars.lookup quote).map fun value => (value, Text.readBool? value)
  let concurrency? := (vars.lookup concurrency).map fun value =>
    (value, Text.readInteger? value)
  let settings := { s with
    environment := text "PUSHQL_ENVIRONMENT" s.environment
    logLevel := text "PUSHQL_LOG_LEVEL" s.logLevel
    dialect := text "PUSHQL_DIALECT" s.dialect
    catalog := text "PUSHQL_CATALOG" s.catalog
    schema := text "PUSHQL_SCHEMA" s.schema
    quoteNames := (quoteNames?.bind (·.2)).getD s.quoteNames
    concurrency := (concurrency?.bind (·.2)).getD s.concurrency
    notes := s.notes.insertMany (environmentNotes vars) }
  let problems :=
    (match quoteNames? with
      | some (value, none) => [.notBoolean quote value]
      | _ => []) ++
    (match concurrency? with
      | some (value, none) => [.notInteger concurrency value]
      | _ => [])
  (settings, problems)

/-- Whether a variable can be in an environment: it has a name, and no zero character. -/
def isVariable (name value : String) : Bool :=
  name != "" && !name.contains (Char.ofNat 0) && !value.contains (Char.ofNat 0)

/-- The environment with the variables of a file that it does not have. -/
def mergeVariables (environment : List (String × String)) (file : Dictionary String String) :
    List (String × String) :=
  environment ++ file.entries.filter fun (name, value) =>
    isVariable name value && (environment.lookup name).isNone

/-! ## Everything together -/

/-- Where settings come from. -/
structure Sources where
  /-- The path of the settings file and what reading it gave. -/
  file : Option (String × Except FileError String) := none
  /-- The text of the file of variables, if there is one. -/
  envFile : Option String := none
  environment : List (String × String) := []

/-- The settings from all sources. -/
def load (sources : Sources) : Except LoadError Settings := do
  let base ← match sources.file with
    | none => .ok {}
    | some (path, .error e) => .error (.unreadable path e)
    | some (path, .ok text) =>
      match ofFile? {} text with
      | some settings => .ok settings
      | none => .error (.notSettings path)
  let file := (sources.envFile.map EnvFile.read).getD {}
  let (settings, problems) := base.withVariables (mergeVariables sources.environment file)
  match problems ++ settings.problems with
  | [] => return settings
  | problems => .error (.invalid problems)

end Settings

end Pushdown
