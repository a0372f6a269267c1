import Pushdown.Settings.Settings
import Pushdown.Text.Number

/-!
# Options of the command line

Options start with one or two hyphens; what is neither an option nor the value of one ends them.
The only argument behind the options is the file with the request.
-/

namespace Pushdown.CommandLine

structure Options where
  request : String := ""
  settingsFile : String := ""
  dialect : String := ""
  catalog : String := ""
  schema : String := ""
  quote : Bool := false
  respond : Bool := false
  capabilities : Bool := false
  dialects : Bool := false
deriving DecidableEq, Inhabited

/-- How an option changes the options so far. -/
inductive Setter where
  | text (set : Options → String → Options)
  | switch (set : Options → Bool → Options)

/-- An option that there is. -/
structure Flag where
  name : String
  usage : String
  setter : Setter

/-- All options in ascending order of their names. -/
def flags : List Flag := [
  ⟨"capabilities", "print the dialect capabilities",
    .switch fun o b => { o with capabilities := b }⟩,
  ⟨"catalog", "default catalog", .text fun o s => { o with catalog := s }⟩,
  ⟨"config", "YAML configuration file", .text fun o s => { o with settingsFile := s }⟩,
  ⟨"dialect", "default SQL dialect", .text fun o s => { o with dialect := s }⟩,
  ⟨"dialects", "print the registered dialects", .switch fun o b => { o with dialects := b }⟩,
  ⟨"quote", "quote every identifier", .switch fun o b => { o with quote := b }⟩,
  ⟨"request", "request file, - for standard input", .text fun o s => { o with request := s }⟩,
  ⟨"respond", "print the adapter JSON response", .switch fun o b => { o with respond := b }⟩,
  ⟨"schema", "default schema", .text fun o s => { o with schema := s }⟩]

/-- The text that explains the options. -/
def usage : String :=
  "Usage of pushql:\n" ++ String.join (flags.map fun flag =>
    "  -" ++ flag.name ++
      (match flag.setter with
        | .text _ => " string"
        | .switch _ => "") ++
      "\n    \t" ++ flag.usage ++ "\n")

/-- What is wrong with the arguments. -/
inductive UsageError where
  | badSyntax (argument : String)
  | undefined (name : String)
  | notBoolean (value name : String)
  | valueMissing (name : String)
  | tooManyFiles (count : Nat)
  | requestTwice
deriving DecidableEq, Inhabited

namespace UsageError

def message : UsageError → String
  | badSyntax argument => "bad flag syntax: " ++ argument
  | undefined name => "flag provided but not defined: -" ++ name
  | notBoolean value name =>
    "invalid boolean value " ++ Text.quoted value ++ " for -" ++ name ++ ": parse error"
  | valueMissing name => "flag needs an argument: -" ++ name
  | tooManyFiles count => s!"expected at most one request file, got {count}"
  | requestTwice => "request given both as -request and as an argument"

/-- Whether the options are explained along with the error. -/
def explains : UsageError → Bool
  | tooManyFiles _ | requestTwice => false
  | _ => true

end UsageError

/-- Why there are no options. -/
inductive Stop where
  | help
  | error (error : UsageError)
deriving DecidableEq, Inhabited

/-- An argument that is an option, as its name and the value behind an equals sign. -/
structure Given where
  name : String
  value : Option String

/-- Split an option at its first equals sign, which is not the first character. -/
def Given.ofChars (first : Char) (rest : List Char) : Given :=
  { name := String.ofList (first :: rest.takeWhile (· != '='))
    value := match rest.dropWhile (· != '=') with
      | [] => none
      | _ :: value => some (String.ofList value) }

/-- What an argument is. -/
inductive Argument where
  | option (given : Given)
  /-- Two hyphens alone, behind which there are no options. -/
  | terminator
  | malformed
  | other

/-- The option behind its hyphens. -/
def Argument.ofName : List Char → Argument
  | [] => .malformed
  | c :: rest => if c == '-' || c == '=' then .malformed else .option (.ofChars c rest)

def Argument.read (argument : String) : Argument :=
  match argument.toList with
  | ['-', '-'] => .terminator
  | '-' :: '-' :: name => .ofName name
  | '-' :: c :: rest => .ofName (c :: rest)
  | _ => .other

/-- The options and the arguments behind them. -/
def readFlags (o : Options) : List String → Except Stop (Options × List String)
  | [] => .ok (o, [])
  | argument :: rest =>
    match Argument.read argument with
    | .other => .ok (o, argument :: rest)
    | .terminator => .ok (o, rest)
    | .malformed => .error (.error (.badSyntax argument))
    | .option given =>
      match flags.find? (·.name == given.name) with
      | none =>
        if given.name = "help" ∨ given.name = "h" then .error .help
        else .error (.error (.undefined given.name))
      | some flag =>
        match flag.setter, given.value, rest with
        | .switch set, none, rest => readFlags (set o true) rest
        | .switch set, some value, rest =>
          match Text.readBool? value with
          | some b => readFlags (set o b) rest
          | none => .error (.error (.notBoolean value given.name))
        | .text set, some value, rest => readFlags (set o value) rest
        | .text set, none, value :: rest => readFlags (set o value) rest
        | .text _, none, [] => .error (.error (.valueMissing given.name))
termination_by args => args.length
decreasing_by all_goals grind

/-- The options that arguments give. -/
def Options.read (args : List String) : Except Stop Options := do
  let (o, files) ← readFlags {} args
  match files with
  | [] => return o
  | [file] =>
    if o.request ≠ "" then .error (.error .requestTwice) else return { o with request := file }
  | files => .error (.error (.tooManyFiles files.length))

/-- The settings with what the options set. -/
def Options.apply (o : Options) (s : Settings) : Settings :=
  { s with
    dialect := if o.dialect = "" then s.dialect else o.dialect
    catalog := if o.catalog = "" then s.catalog else o.catalog
    schema := if o.schema = "" then s.schema else o.schema
    quoteNames := o.quote || s.quoteNames }

end Pushdown.CommandLine
