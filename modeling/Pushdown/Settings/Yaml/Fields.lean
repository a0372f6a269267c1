import Pushdown.Settings.Yaml.Node
import Pushdown.Settings.Yaml.Value

/-!
# The fields of a mapping

A mapping as a list of fields with a name. Among its entries may be one, with the key `<<`, that
merges other mappings into it: what these have to say counts where the mapping itself, or one
that was merged before, says nothing.
-/

namespace Pushdown.Yaml

namespace Node

/-- What a scalar stands for, with its text. -/
def scalar? : Node → Option (String × Value)
  | scalar tag isPlain text => (Value.ofScalar? tag isPlain text).map fun value => (text, value)
  | reference _ target => target.scalar?
  | _ => none

/-- A value that is read from a scalar, where one that stands for nothing has none. -/
def scalarAs? {α : Type} (read : String → Value → Option α) (node : Node) :
    Option (Option α) := do
  match ← node.scalar? with
  | (_, .null) => some none
  | (text, value) => (read text value).map some

/-- The text of a scalar, whatever it stands for. -/
def text? : Node → Option (Option String) := scalarAs? fun text _ => some text

def bool? : Node → Option (Option Bool) := scalarAs? fun _ value => value.toBool?

def int? : Node → Option (Option Int) := scalarAs? fun _ value => value.toInt?

/-- Whether a key merges other mappings. -/
def isMerge : Node → Bool
  | scalar tag isPlain text => text == "<<" && (tag == some "!!merge" || (tag.isNone && isPlain))
  | _ => false

/-- Whether two keys of one mapping are written alike. -/
def sameKey : Node → Node → Bool
  | scalar _ _ a, scalar _ _ b => a == b
  | reference a _, reference b _ => a == b
  | reference a _, enclosing b => a == b
  | enclosing a, reference b _ => a == b
  | enclosing a, enclosing b => a == b
  | sequence _, sequence _ => true
  | mapping _, mapping _ => true
  | _, _ => false

/-- Whether a mapping has a key twice. -/
def hasTwice : List (Node × Node) → Bool
  | [] => false
  | (key, _) :: rest => rest.any (sameKey key ·.1) || hasTwice rest

mutual

/-- The entries of a mapping, and of all that are merged into it, those that count first in
front. Several mappings may only be merged as a sequence. -/
def layers? (isSource : Bool) : Node → Option (List (List (Node × Node)))
  | mapping entries => do
    let merged ← mergedLayers? entries
    some (entries :: merged)
  | reference _ target => layers? false target
  | sequence items => if isSource then itemLayers? items else none
  | _ => none

/-- What the entries of a mapping merge into it. -/
def mergedLayers? : List (Node × Node) → Option (List (List (Node × Node)))
  | [] => some []
  | (key, source) :: rest => if key.isMerge then layers? true source else mergedLayers? rest

/-- What the elements of a sequence merge. -/
def itemLayers? : List Node → Option (List (List (Node × Node)))
  | [] => some []
  | item :: rest => do
    let layers ← layers? false item
    let more ← itemLayers? rest
    some (layers ++ more)

end

end Node

/-- An entry by its name. -/
structure Field where
  name : String
  value : Node
  /-- Whether the name stands for a text, and not for something else that is written so. -/
  isText : Bool

/-- The fields of some entries. An entry without a key is none. -/
def fields? : List (Node × Node) → Option (List Field)
  | [] => some []
  | (key, value) :: rest =>
    if key.isMerge then fields? rest
    else do
      let (name, meaning) ← key.scalar?
      let more ← fields? rest
      some (if meaning == .null then more else ⟨name, value, meaning == .text name⟩ :: more)

/-- The fields of merged entries that are not there yet. -/
def mergeFields? (seen : List String) : List (List (Node × Node)) → Option (List Field)
  | [] => some []
  | entries :: rest =>
    if Node.hasTwice entries then none
    else do
      let fields := (← fields? entries).filter (!seen.contains ·.name)
      let more ← mergeFields? (seen ++ fields.map (·.name)) rest
      some (fields ++ more)

/-- The fields of a mapping in the order in which they are set. A merged field is set again where
the mapping itself has a name that is no text. -/
def Node.fields? (node : Node) : Option (List Field) := do
  match ← node.layers? false with
  | [] => some []
  | entries :: merged =>
    if Node.hasTwice entries then none
    else
      let fields ← Yaml.fields? entries
      let more ← mergeFields? ("<<" :: (fields.filter (·.isText)).map (·.name)) merged
      some (fields ++ more)

/-- The fields of a mapping, where a scalar that stands for nothing has none. -/
def Node.record? (node : Node) : Option (Option (List Field)) :=
  match node.fields? with
  | some fields => some (some fields)
  | none => node.scalarAs? fun _ _ => none

end Pushdown.Yaml
