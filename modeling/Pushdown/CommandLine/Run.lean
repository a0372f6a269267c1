import Pushdown.CommandLine.Options
import Pushdown.Service.Service
import Pushdown.Settings.Load

/-!
# The command

What the command prints and which code it exits with, as a function of its arguments and of
everything that it reads. It prints statements only if there is one for every request; a code of
its own tells the caller to run the query without the pushdown.
-/

namespace Pushdown.CommandLine

/-- What the command reads. -/
structure Inputs where
  /-- What reading the standard input gives. -/
  stdin : Except FileError String := .ok ""
  /-- What reading the file at a path gives. -/
  file : String → Except FileError String := fun _ => .error .missing
  environment : List (String × String) := []
  canceled : Bool := false

/-- What the command leaves behind. -/
structure Outcome where
  exitCode : Nat := 0
  stdout : String := ""
  stderr : String := ""
  log : List ServiceEntry := []

/-- A line of output. -/
def line (text : String) : String := text ++ "\n"

/-- Stop with a message. -/
def stop (exitCode : Nat) (message : String) : Outcome := { exitCode, stderr := line message }

/-- The outcome of arguments that cannot be used, or that ask for help. -/
def refuse : Stop → Outcome
  | .help => { stderr := usage }
  | .error e =>
    { exitCode := 2
      stderr := (if e.explains then line e.message ++ usage else "") ++ line e.message }

/-- The settings for some options. -/
def settings (w : Inputs) (o : Options) : Except Settings.LoadError Settings :=
  o.apply <$> Settings.load {
    file := if o.settingsFile = "" then none else some (o.settingsFile, w.file o.settingsFile)
    envFile := (w.file ".env").toOption
    environment := w.environment }

/-- The text of the request. -/
def request (w : Inputs) (o : Options) : Except String String :=
  if o.request = "" ∨ o.request = "-" then w.stdin.mapError (·.message "/dev/stdin")
  else (w.file o.request).mapError (·.message o.request)

/-- The code for a failure: three if the query should be run without the pushdown. -/
def failureCode (f : Failure) : Nat := if f.allowsFallback then 3 else 1

/-- The outcome of a call of the service. -/
def Outcome.ofAnswer {α : Type} (print : α → String) (a : Answer α) : Outcome :=
  match a.result with
  | .ok value => { stdout := print value, log := a.log }
  | .error f =>
    { stop (failureCode f) (f.category ++ ": " ++ f.message) with log := a.log }

/-- Keep the log entries that the settings ask for. -/
def Outcome.filterLog (o : Outcome) (s : Settings) : Outcome :=
  { o with log := o.log.filterMap (Log.Logger.ofNames "pushql" s.threshold).write? }

/-- Answer a request as the options say. -/
def answer (w : Inputs) (o : Options) (service : Service) : Outcome :=
  if o.dialects then { stdout := String.join (Registry.standard.ids.map line) }
  else if o.capabilities then
    match service.capabilities {} with
    | .ok names => { stdout := line ("\n".intercalate names) }
    | .error f => stop 1 f.message
  else
    match request w o with
    | .error message => stop 1 message
    | .ok text =>
      if o.respond then .ofAnswer (fun reply => line reply.write) (service.respond w.canceled text)
      else .ofAnswer (fun sqls => String.join (sqls.map line)) (service.handle w.canceled text)

/-- Run the command. -/
def run (w : Inputs) (args : List String) : Outcome :=
  match Options.read args with
  | .error reason => refuse reason
  | .ok o =>
    match settings w o with
    | .error e => stop 1 e.message
    | .ok s => (answer w o { settings := s }).filterLog s

/-- The files that the command may read. -/
def files (args : List String) : List String :=
  match Options.read args with
  | .error _ => []
  | .ok o => [".env", o.settingsFile, o.request].filter (· != "")

/-- A field of a log line, where `fresh` is the identifier of the request. -/
def fieldText (fresh : String) : String × FieldValue → String
  | (name, .text s) => Json.writeString name ++ ":" ++ Json.writeString s
  | (name, .fresh) => Json.writeString name ++ ":" ++ Json.writeString fresh
  | (name, .texts list) =>
    Json.writeString name ++ ":[" ++ ",".intercalate (list.map Json.writeString) ++ "]"

/-- A log entry as one line. -/
def logLine (fresh : String) (e : ServiceEntry) : String :=
  let fields := [("level", FieldValue.text e.level.name), ("logger", .text "pushql"),
    ("msg", .text e.message)] ++ e.fields
  line ("\x7b" ++ ",".intercalate (fields.map (fieldText fresh)) ++ "\x7d")

end Pushdown.CommandLine
