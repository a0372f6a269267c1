import Pushdown.Proofs.Sql.Phrase

/-!
# Bracketed items and precedence

The tokens of a text are first grouped by its brackets, parentheses as well as CASE and END, into
a list of items. Items are then read with the usual precedence: OR binds weakest, then AND, then
NOT, and the AND that follows a BETWEEN belongs to it. What the connectives and the operands between
them are read to is left open, so one reader serves for the shape of a condition and for its truth.

Texts that close their brackets are grouped independently of what stands around them, and operands
that hold no connective of their own are found again between connectives.
-/

namespace Pushdown

/-! ## Items -/

/-- Neither opens nor closes a bracket. -/
def Mark.isFlat : Mark → Bool
  | opens _ | closes _ => false
  | _ => true

/-- A token outside of brackets, or what a pair of brackets encloses. -/
inductive Item where
  | token (t : Token)
  | group (b : Bracket) (items : List Item)
deriving Inhabited

/-- What an item means for the items around it. -/
def Item.mark : Item → Mark
  | token t => t.mark
  | group .. => .plain

namespace Grouping

/-- The brackets that are open, each with the items before it, and the items since the last. -/
abbrev State := List (Bracket × List Item) × List Item

def step (s : State) (t : Token) : Option State :=
  match t.mark with
  | .opens b => some ((b, s.2) :: s.1, [])
  | .closes b =>
    match s.1 with
    | [] => none
    | (last, before) :: opened => if last = b then some (opened, before ++ [.group b s.2]) else none
  | _ => some (s.1, s.2 ++ [.token t])

theorem step_opens {s : State} {t : Token} {b : Bracket} (mark : t.mark = .opens b) :
    step s t = some ((b, s.2) :: s.1, []) := by
  simp [step, mark]

theorem step_closes {s : State} {t : Token} {b : Bracket} (mark : t.mark = .closes b)
    {before : List Item} {opened : List (Bracket × List Item)}
    (innermost : s.1 = (b, before) :: opened) :
    step s t = some (opened, before ++ [.group b s.2]) := by
  simp [step, mark, innermost]

theorem step_other {s : State} {t : Token} (opens : ∀ b, t.mark ≠ .opens b)
    (closes : ∀ b, t.mark ≠ .closes b) : step s t = some (s.1, s.2 ++ [.token t]) := by
  unfold step
  split
  · exact absurd ‹_› (opens _)
  · exact absurd ‹_› (closes _)
  · rfl

/-- What a step can do. -/
theorem step_cases {s s' : State} {t : Token} (h : step s t = some s') :
    (∃ b, t.mark = .opens b ∧ s' = ((b, s.2) :: s.1, [])) ∨
    (∃ b before opened, t.mark = .closes b ∧ s.1 = (b, before) :: opened ∧
      s' = (opened, before ++ [.group b s.2])) ∨
    (∀ b, t.mark ≠ .opens b) ∧ (∀ b, t.mark ≠ .closes b) ∧ s' = (s.1, s.2 ++ [.token t]) := by
  unfold step at h
  split at h
  · rename_i b mark
    exact .inl ⟨b, mark, by simpa using h.symm⟩
  · rename_i b mark
    split at h
    · contradiction
    · rename_i last before opened innermost
      split at h
      · rename_i same
        subst same
        exact .inr (.inl ⟨last, before, opened, mark, innermost, by simpa using h.symm⟩)
      · contradiction
  · rename_i opens closes
    exact .inr (.inr ⟨opens, closes, by simpa using h.symm⟩)

def run : State → List Token → Option State
  | s, [] => some s
  | s, t :: rest => (step s t).bind fun s => run s rest

/-- The items of a text that closes its brackets. -/
def items? (ts : List Token) : Option (List Item) :=
  match run ([], []) ts with
  | some ([], items) => some items
  | _ => none

theorem run_append (s : State) (ts us : List Token) :
    run s (ts ++ us) = (run s ts).bind fun s => run s us := by
  induction ts generalizing s with
  | nil => rfl
  | cons t ts ih => simp [run, ih, Option.bind_assoc]

/-- The same state inside of other brackets and behind other items. -/
def within (outer : State) : List (Bracket × List Item) → List Item → State
  | [], items => (outer.1, outer.2 ++ items)
  | (b, before) :: opened, items =>
    ((b, (within outer opened before).2) :: (within outer opened before).1, items)

theorem within_append (outer : State) (opened : List (Bracket × List Item))
    (items more : List Item) : within outer opened (items ++ more) =
      ((within outer opened items).1, (within outer opened items).2 ++ more) := by
  cases opened <;> simp [within]

theorem step_within {s s' : State} {t : Token} (h : step s t = some s') (outer : State) :
    step (within outer s.1 s.2) t = some (within outer s'.1 s'.2) := by
  rcases step_cases h with ⟨b, mark, rfl⟩ | ⟨b, before, opened, mark, innermost, rfl⟩ |
    ⟨opens, closes, rfl⟩
  · exact step_opens mark
  · rw [within_append, innermost]
    exact step_closes mark rfl
  · rw [within_append]
    exact step_other opens closes

theorem run_within {s s' : State} {ts : List Token} (h : run s ts = some s') (outer : State) :
    run (within outer s.1 s.2) ts = some (within outer s'.1 s'.2) := by
  induction ts generalizing s with
  | nil =>
    cases h
    rfl
  | cons t ts ih =>
    obtain ⟨next, first, rest⟩ := Option.bind_eq_some_iff.mp h
    simp [run, step_within first, ih rest]

/-- The tokens are grouped to the items, whatever stands around them. -/
def Groups (ts : List Token) (items : List Item) : Prop := run ([], []) ts = some ([], items)

namespace Groups

variable {ts us : List Token} {is js : List Item}

theorem items?_eq (h : Groups ts is) : items? ts = some is := by
  rw [Groups] at h
  rw [items?, h]

theorem unique (h : Groups ts is) (k : Groups ts js) : is = js := by
  rw [Groups, h] at k
  simpa using k

theorem run (h : Groups ts is) (s : State) : Grouping.run s ts = some (s.1, s.2 ++ is) := by
  have moved := run_within h s
  simpa [within] using moved

theorem nil : Groups [] [] := rfl

theorem append (h : Groups ts is) (k : Groups us js) : Groups (ts ++ us) (is ++ js) := by
  rw [Groups, run_append, h, Option.bind_some, k.run]

theorem token {t : Token} (flat : t.mark.isFlat) : Groups [t] [.token t] := by
  have opens : ∀ b, t.mark ≠ .opens b := fun b mark => by simp [mark, Mark.isFlat] at flat
  have closes : ∀ b, t.mark ≠ .closes b := fun b mark => by simp [mark, Mark.isFlat] at flat
  rw [Groups, Grouping.run, step_other opens closes]
  rfl

/-- Tokens that are no brackets are items by themselves. -/
theorem tokens {ts : List Token} (flat : ts.all (·.mark.isFlat)) : Groups ts (ts.map .token) := by
  induction ts with
  | nil => exact nil
  | cons t ts ih =>
    rw [List.all_cons, Bool.and_eq_true] at flat
    exact (token flat.1).append (ih flat.2)

/-- Brackets around a text make a group of its items. -/
theorem group {b : Bracket} {first last : Token} (opens : first.mark = .opens b)
    (closes : last.mark = .closes b) (h : Groups ts is) :
    Groups (first :: (ts ++ [last])) [.group b is] := by
  have closed : step ([(b, [])], is) last = some ([], [] ++ [.group b is]) := step_closes closes rfl
  rw [Groups, Grouping.run, step_opens opens, Option.bind_some, run_append, h.run]
  simp only [List.nil_append, Option.bind_some, Grouping.run, closed]

end Groups

/-- The items outside of all brackets that are open. -/
def base : List (Bracket × List Item) → List Item → List Item
  | [], items => items
  | (_, before) :: opened, _ => base opened before

theorem mem_base_append {opened : List (Bracket × List Item)} {items more : List Item} {i : Item}
    (h : i ∈ base opened (items ++ more)) : i ∈ base opened items ∨ opened = [] ∧ i ∈ more := by
  cases opened with
  | nil => simpa [base] using h
  | cons frame opened => exact .inl h

/-- A text is grouped if its brackets fit. If it is quiet, it adds nothing outside of all brackets
that groups conditions. -/
theorem run_of_nest {quiet : Bool} {ts : List Token} {after : List Bracket} {s : State}
    (h : nest quiet (s.1.map (·.1)) ts = some after)
    (plain : quiet → ∀ i ∈ base s.1 s.2, i.mark = .plain) :
    ∃ s', run s ts = some s' ∧ s'.1.map (·.1) = after ∧
      (quiet → ∀ i ∈ base s'.1 s'.2, i.mark = .plain) := by
  induction ts generalizing s with
  | nil => exact ⟨s, rfl, by simpa [nest] using h, plain⟩
  | cons t ts ih =>
    rcases s with ⟨opened, items⟩
    simp only [nest] at h
    split at h
    · rename_i mark
      rw [run, step_other (by simp [mark]) (by simp [mark])]
      refine ih h fun silent i member => ?_
      rcases mem_base_append member with old | ⟨-, new⟩
      · exact plain silent i old
      · rw [List.mem_singleton] at new
        rw [new]
        exact mark
    · rename_i b mark
      rw [run, step_opens mark]
      exact ih h plain
    · rename_i b mark
      rcases opened with _ | ⟨⟨last, before⟩, opened⟩
      · contradiction
      · simp only [List.map_cons] at h
        split at h
        · rename_i same
          subst same
          rw [run, step_closes mark rfl]
          refine ih h fun silent i member => ?_
          rcases mem_base_append member with old | ⟨-, new⟩
          · exact plain silent i old
          · rw [List.mem_singleton] at new
            rw [new]
            rfl
        · contradiction
    · rename_i opens closes
      split at h
      · contradiction
      · rename_i allowed
        rw [run, step_other opens closes]
        refine ih h fun silent i member => ?_
        rcases mem_base_append member with old | ⟨top, -⟩
        · exact plain silent i old
        · exact absurd top (by simpa [silent] using allowed)

/-- A text that closes its brackets is grouped. -/
theorem exists_groups {quiet : Bool} {ts : List Token} (h : nest quiet [] ts = some []) :
    ∃ items, Groups ts items ∧ (quiet → ∀ i ∈ items, i.mark = .plain) := by
  obtain ⟨⟨opened, items⟩, grouped, closed, plain⟩ :=
    run_of_nest (s := ([], [])) h (by simp [base])
  obtain rfl : opened = [] := by simpa using closed
  exact ⟨items, grouped, plain⟩

/-! ## The first item -/

/-- The bracket that an item is a group of. -/
def bracket? : Item → Option Bracket
  | .token _ => none
  | .group b _ => some b

/-- The kind of the first item outside of all brackets, which may be a bracket that is open. -/
def first? : List (Bracket × List Item) → List Item → Option (Option Bracket)
  | [], items => items.head?.map bracket?
  | (b, before) :: opened, _ => (first? opened before).or (some (some b))

theorem first?_append {opened : List (Bracket × List Item)} {items : List Item}
    {kind : Option Bracket} (h : first? opened items = some kind) (more : List Item) :
    first? opened (items ++ more) = some kind := by
  cases opened with
  | cons frame opened => exact h
  | nil =>
    cases items with
    | nil => simp [first?] at h
    | cons i items => exact h

theorem first?_eq_none {opened : List (Bracket × List Item)} {items : List Item}
    (h : first? opened items = none) : opened = [] ∧ items = [] := by
  cases opened with
  | cons frame opened => simp [first?] at h
  | nil => exact ⟨rfl, by simpa [first?] using h⟩

theorem step_first? {s s' : State} {t : Token} (h : step s t = some s') {kind : Option Bracket}
    (first : first? s.1 s.2 = some kind) : first? s'.1 s'.2 = some kind := by
  rcases step_cases h with ⟨b, -, rfl⟩ | ⟨b, before, opened, -, innermost, rfl⟩ | ⟨-, -, rfl⟩
  · simp [first?, first]
  · rw [innermost, first?] at first
    cases outer : first? opened before with
    | some other =>
      rw [outer] at first
      obtain rfl : other = kind := by simpa using first
      exact first?_append outer _
    | none =>
      obtain ⟨rfl, rfl⟩ := first?_eq_none outer
      simpa [outer, first?, bracket?] using first
  · exact first?_append first _

theorem run_first? {s s' : State} {ts : List Token} (h : run s ts = some s')
    {kind : Option Bracket} (first : first? s.1 s.2 = some kind) :
    first? s'.1 s'.2 = some kind := by
  induction ts generalizing s with
  | nil =>
    cases h
    exact first
  | cons t ts ih =>
    obtain ⟨next, stepped, rest⟩ := Option.bind_eq_some_iff.mp h
    exact ih rest (step_first? stepped first)

/-- The first item is a group exactly if the first token opens it. -/
theorem Groups.first {t : Token} {ts : List Token} {items : List Item}
    (h : Groups (t :: ts) items) : ∃ i rest, items = i :: rest ∧
      ∀ b, bracket? i = some b → t.mark = .opens b := by
  obtain ⟨next, stepped, rest⟩ := Option.bind_eq_some_iff.mp h
  have known : ∃ kind, first? next.1 next.2 = some kind ∧ ∀ b, kind = some b → t.mark = .opens b := by
    rcases step_cases stepped with ⟨b, mark, rfl⟩ | ⟨b, before, opened, -, innermost, -⟩ |
      ⟨-, -, rfl⟩
    · exact ⟨some b, rfl, by rintro _ ⟨⟩; exact mark⟩
    · simp at innermost
    · exact ⟨none, rfl, by simp⟩
  obtain ⟨kind, first, opens⟩ := known
  have last := run_first? rest first
  cases items with
  | nil => simp [first?] at last
  | cons i items =>
    refine ⟨i, items, rfl, fun b grouped => opens b ?_⟩
    simpa [first?, grouped] using last.symm

theorem Groups.ne_nil {ts : List Token} {items : List Item} (h : Groups ts items)
    (nonempty : ts ≠ []) : items ≠ [] := by
  obtain ⟨t, rest, rfl⟩ := List.exists_cons_of_ne_nil nonempty
  obtain ⟨i, others, rfl, -⟩ := h.first
  simp

end Grouping

end Pushdown
