/-!
# Dictionaries

Finite tables with at most one entry for each key, kept as a list of entries in the order in
which the keys were last set.
-/

namespace Pushdown

/-- A finite table from keys to values. -/
structure Dictionary (κ α : Type) where
  entries : List (κ × α) := []
deriving Inhabited

namespace Dictionary

variable {κ α : Type} [BEq κ]

def get? (d : Dictionary κ α) (key : κ) : Option α := d.entries.lookup key

def contains (d : Dictionary κ α) (key : κ) : Bool := (d.get? key).isSome

def erase (d : Dictionary κ α) (key : κ) : Dictionary κ α :=
  ⟨d.entries.filter fun entry => !(entry.1 == key)⟩

/-- Set the value of a key, in place of the one it may have. -/
def insert (d : Dictionary κ α) (key : κ) (value : α) : Dictionary κ α :=
  ⟨(d.erase key).entries ++ [(key, value)]⟩

def insertMany (d : Dictionary κ α) (entries : List (κ × α)) : Dictionary κ α :=
  entries.foldl (fun d entry => d.insert entry.1 entry.2) d

/-- The table of the given entries; of two entries for a key the later one counts. -/
def ofList (entries : List (κ × α)) : Dictionary κ α := insertMany {} entries

/-- The entries of both tables, where those of `top` win. -/
def overlay (base top : Dictionary κ α) : Dictionary κ α := base.insertMany top.entries

def keys (d : Dictionary κ α) : List κ := d.entries.map (·.1)

def isEmpty (d : Dictionary κ α) : Bool := d.entries.isEmpty

end Dictionary

/-- Texts in ascending order of their characters. -/
def sortTexts (texts : List String) : List String := texts.mergeSort (fun a b => decide (a ≤ b))

end Pushdown
