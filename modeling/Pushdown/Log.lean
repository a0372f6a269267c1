import Pushdown.Text.Case

/-!
# Log entries

An entry has a level, a message and fields. A logger has a name, fields that go before those of
every entry, and a threshold: entries below it are dropped.
-/

namespace Pushdown.Log

/-- How much an entry matters, from the least. -/
inductive Level where
  | debug | info | warn | error | panic
deriving DecidableEq, Inhabited

namespace Level

def name : Level → String
  | debug => "debug"
  | info => "info"
  | warn => "warn"
  | error => "error"
  | panic => "panic"

/-- The place of a level in their order. -/
def rank : Level → Nat
  | debug => 0
  | info => 1
  | warn => 2
  | error => 3
  | panic => 4

/-- The threshold with this name, in any case. -/
def read? (s : String) : Option Level :=
  match Text.lower s with
  | "debug" => some debug
  | "info" => some info
  | "warn" | "warning" => some warn
  | "error" => some error
  | _ => none

/-- Whether a text names a threshold. -/
def isName (s : String) : Bool := (read? s).isSome

end Level

/-- A message with fields of any kind. -/
structure Entry (φ : Type) where
  level : Level
  message : String
  fields : List φ := []

structure Logger (φ : Type) where
  /-- A logger without a name has an empty one. -/
  name : String
  threshold : Level
  fields : List φ := []

namespace Logger

/-- A logger with a threshold by name; a text that names none stands for `info`. -/
def ofNames {φ : Type} (name level : String) : Logger φ :=
  { name, threshold := (Level.read? level).getD .info }

/-- The logger with further fields in every entry. -/
def withFields {φ : Type} (l : Logger φ) (fields : List φ) : Logger φ :=
  { l with fields := l.fields ++ fields }

/-- The entry as it is written, if it is. -/
def write? {φ : Type} (l : Logger φ) (e : Entry φ) : Option (Entry φ) :=
  if l.threshold.rank ≤ e.level.rank then some { e with fields := l.fields ++ e.fields } else none

end Logger

end Pushdown.Log
