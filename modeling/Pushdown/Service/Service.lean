import Pushdown.Failure
import Pushdown.Request.Request
import Pushdown.Service.Reply
import Pushdown.Settings.Settings

/-!
# The service

From a request to its statement: the properties and notes of the request's schema, on top of the
settings, choose the dialect and the context in which the statement is generated. A batch of
requests is answered as a whole or not at all.
-/

namespace Pushdown

/-- The value of a field of a log entry. -/
inductive FieldValue where
  | text (text : String)
  | texts (texts : List String)
  /-- An identifier that is new for each request. -/
  | fresh
deriving DecidableEq, Inhabited

/-- An entry in the log of the service. -/
abbrev ServiceEntry := Log.Entry (String × FieldValue)

/-- What a call of the service returns, and what it writes to the log meanwhile. -/
structure Answer (α : Type) where
  result : Except Failure α
  log : List ServiceEntry := []

namespace Answer

variable {α β : Type}

def ok (value : α) : Answer α := { result := .ok value }

def fail (failure : Failure) : Answer α := { result := .error failure }

/-- Continue with a value, or stop at a failure. -/
def bind (a : Answer α) (f : α → Answer β) : Answer β :=
  match a.result with
  | .ok value =>
    let b := f value
    { b with log := a.log ++ b.log }
  | .error failure => { result := .error failure, log := a.log }

instance : Monad Answer where
  pure := ok
  bind := bind

/-- Say of a failure where it occurred. -/
def within (place : String) (a : Answer α) : Answer α :=
  { a with result := a.result.mapError (.within place) }

end Answer

/-- A dialect and the context in which a statement is generated. -/
structure Target where
  dialect : Dialect
  context : Context

/-- A generated statement. -/
structure Generated where
  sql : String
  dialect : String
deriving DecidableEq, Inhabited

structure Service where
  registry : Registry := .standard
  settings : Settings := {}

namespace Service

/-- The value of a property, unless it is blank. -/
def property (properties : Dictionary String String) (key default : String) : String :=
  match properties.get? key with
  | some value => if Text.trim value = "" then default else value
  | none => default

/-- The notes of the settings, overlaid with those of the schema. -/
def notes (s : Service) (schema : Schema) : Notes := s.settings.notes.overlay schema.notes

/-- The dialect of the requests for a schema. -/
def dialect (s : Service) (schema : Schema) : Except Failure Dialect :=
  (s.registry.resolve (property schema.properties "SQL_DIALECT" s.settings.dialect)
    (s.notes schema)).mapError .unknownDialect

/-- Whether all names are quoted in the statements for a schema. -/
def quoteNames (s : Service) (schema : Schema) : Except Failure Bool :=
  match schema.properties.get? "QUOTE_IDENTIFIERS" with
  | none => .ok s.settings.quoteNames
  | some value =>
    match Text.readBool? value with
    | some quote => .ok quote
    | none => .error (.malformed
        ⟨[.member "schemaMetadataInfo", .member "properties", .member "QUOTE_IDENTIFIERS"],
          .notQuoteFlag value⟩)

/-- Where the statement of a request goes. -/
def target (s : Service) (r : PushdownRequest) : Except Failure Target := do
  let dialect ← s.dialect r.schema
  let quoteNames ← s.quoteNames r.schema
  let properties := r.schema.properties
  return {
    dialect
    context := {
      catalog := property properties "CATALOG_NAME" s.settings.catalog
      schema := property properties "SCHEMA_NAME" s.settings.schema
      quoteNames
      multipleTables := r.hasMultipleTables } }

/-- The capabilities of the dialect of the requests for a schema. -/
def capabilities (s : Service) (schema : Schema) : Except Failure (List String) :=
  (·.profile.names) <$> s.dialect schema

/-- The text of a statement, which has to be there. -/
def generate (t : Target) : Option Statement → Except Failure String
  | none => .error (.construction ⟨Kind.select.name, .nothingToGenerate⟩)
  | some statement =>
    (t.dialect.generate t.context (some (.select statement))).mapError .unsupported

/-- The entry about a request that failed. -/
def rejection (fields : List (String × FieldValue)) (f : Failure) : ServiceEntry :=
  { level := .warn
    message := "pushdown rejected"
    fields := fields ++ [("error", .text f.message), ("class", .text f.category)] }

/-- The field that tells the requests apart. -/
def requestField : String × FieldValue := ("request_id", .fresh)

/-- Fail with an entry in the log. -/
def reject {α : Type} (fields : List (String × FieldValue)) (f : Failure) : Answer α :=
  { result := .error f, log := [rejection fields f] }

/-- Generate the statement of one request. Once the work is canceled nothing is generated. -/
def pushdown (s : Service) (canceled : Bool) : Option PushdownRequest → Answer Generated
  | none => .fail (if canceled then .canceled else .malformed { flaw := .noRequest })
  | some r =>
    if canceled then .fail .canceled
    else
      match s.target r with
      | .error f => reject [requestField] f
      | .ok t =>
        let dialectField := ("dialect", FieldValue.text t.dialect.id)
        match generate t r.statement with
        | .error f => reject [requestField, dialectField] f
        | .ok sql =>
          { result := .ok { sql, dialect := t.dialect.id }
            log := [{
              level := .debug
              message := "pushdown generated"
              fields := [requestField, dialectField, ("tables", .texts r.catalog.tableNames),
                ("sql", .text sql)] }] }

/-- Generate the statements of a batch from the given position on, in order. The first failure
cancels what comes after it. -/
def pushdownFrom (s : Service) (canceled : Bool) (position : Nat) :
    List (Option PushdownRequest) → Answer (List String)
  | [] => .ok []
  | r :: rest => do
    let first ← (s.pushdown canceled r).within s!"pushdown {position}"
    let more ← s.pushdownFrom canceled (position + 1) rest
    return first.sql :: more

/-- Generate the statements of a batch. -/
def pushdownAll (s : Service) (canceled : Bool) (requests : List (Option PushdownRequest)) :
    Answer (List String) :=
  s.pushdownFrom canceled 0 requests

/-- The documents of a text: the elements of an array, or the text itself. -/
def documents (text : String) : Except Failure (List String) :=
  let trimmed := Text.trim text
  if trimmed.toList.head? == some '[' then
    match Json.elements? (Json.content trimmed) with
    | none => .error (.malformed { flaw := .notBatch })
    | some [] => .error (.malformed { flaw := .emptyBatch })
    | some sources => .ok (sources.map String.ofList)
  else .ok [text]

/-- Read a pushdown request, or log why that is not possible. -/
def readPushdown (text : String) : Answer PushdownRequest :=
  match Request.readPushdown text with
  | .ok r => .ok r
  | .error e => reject [] (.ofRead e)

/-- Read the requests of a batch from the given position on. -/
def readFrom (position : Nat) : List String → Answer (List PushdownRequest)
  | [] => .ok []
  | text :: rest => do
    let first ← (readPushdown text).within s!"pushdown {position}"
    let more ← readFrom (position + 1) rest
    return first :: more

/-- The statements for a text that is one request or an array of requests. All of them are read
before the first statement is generated. -/
def handle (s : Service) (canceled : Bool) (text : String) : Answer (List String) :=
  match documents text with
  | .error f => .fail f
  | .ok [document] => do
    let r ← readPushdown document
    let generated ← s.pushdown canceled (some r)
    return [generated.sql]
  | .ok texts => do
    let requests ← readFrom 0 texts
    s.pushdownAll canceled (requests.map some)

/-- The reply to a request. Only pushdowns and questions about capabilities are answered. -/
def respond (s : Service) (canceled : Bool) (text : String) : Answer Reply :=
  match Request.read text with
  | .error e => reject [] (.ofRead e)
  | .ok r =>
    match r.type with
    | .pushdown => do
      let generated ← s.pushdown canceled r.pushdown
      return { type := r.type, sql := generated.sql, dialect := generated.dialect }
    | .getCapabilities =>
      { result := (fun names => { type := r.type, capabilities := names }) <$>
          s.capabilities r.schema }
    | type => .fail (.within type.name .unhandled)

end Service

end Pushdown
