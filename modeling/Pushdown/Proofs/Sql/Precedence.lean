import Pushdown.Proofs.Sql.Grouping
import Pushdown.Proofs.Syntax.Logic

/-!
# Precedence

The items of a text are read with the usual precedence: OR binds weakest, then AND, then NOT, and
the AND that follows a BETWEEN belongs to it. Groups are read before what stands around them. What
the connectives and the operands between them are read to is left open, so one reader serves for
the shape of a condition as well as for its truth.

A text stands by itself if no connective shows at its top level. Texts that stand by themselves are
found again between the connectives that join them.
-/

namespace Pushdown

/-- An item with what its inside was read to, if it is a group. -/
structure Entry (β : Type) where
  item : Item
  inside : Option β := none
deriving Inhabited

/-- A token by itself. -/
def Entry.ofToken {β : Type} (t : Token) : Entry β := { item := .token t }

@[simp] theorem Entry.ofToken_mark {β : Type} (t : Token) :
    (Entry.ofToken t : Entry β).item.mark = t.mark := rfl

namespace Item

variable {β : Type} (f : Bracket → List (Entry β) → β)

mutual

/-- Read the groups of an item, the inner ones first. -/
def entry : Item → Entry β
  | .token t => .ofToken t
  | .group b items => { item := .group b items, inside := some (f b (entries items)) }

def entries : List Item → List (Entry β)
  | [] => []
  | i :: items => i.entry :: entries items

end

theorem entries_eq_map (items : List Item) : entries f items = items.map (entry f) := by
  induction items with
  | nil => rw [entries, List.map_nil]
  | cons i items ih => rw [entries, ih, List.map_cons]

@[simp] theorem entry_item (i : Item) : (i.entry f).item = i := by
  cases i <;> simp [entry, Entry.ofToken]

@[simp] theorem entries_append (is js : List Item) :
    entries f (is ++ js) = entries f is ++ entries f js := by
  simp [entries_eq_map]

@[simp] theorem entries_items (is : List Item) : (entries f is).map Entry.item = is := by
  simp [entries_eq_map, Function.comp_def]

end Item

namespace Precedence

variable {α β : Type}

/-! ## Cutting at connectives -/

/-- Whether an AND is due to a BETWEEN behind the mark. -/
def due (owed : Bool) : Mark → Bool
  | .between => true
  | .and => false
  | _ => owed

/-- Whether a text is cut at the mark. The AND that is due to a BETWEEN is passed over. -/
def cuts (wanted : Mark) (owed : Bool) (m : Mark) : Bool := m == wanted && !(owed && m == .and)

/-- The parts of a text between the marks. -/
def cut (wanted : Mark) : Bool → List (Entry β) → List (List (Entry β))
  | _, [] => [[]]
  | owed, e :: es =>
    if cuts wanted owed e.item.mark then [] :: cut wanted (due owed e.item.mark) es
    else (cut wanted (due owed e.item.mark) es).modifyHead (e :: ·)

/-- Whether an AND is due behind the text, unless the text is cut. -/
def after (wanted : Mark) : Bool → List (Entry β) → Option Bool
  | owed, [] => some owed
  | owed, e :: es =>
    if cuts wanted owed e.item.mark then none else after wanted (due owed e.item.mark) es

theorem after_append (wanted : Mark) (owed : Bool) (es fs : List (Entry β)) :
    after wanted owed (es ++ fs) =
      (after wanted owed es).bind fun owed => after wanted owed fs := by
  induction es generalizing owed with
  | nil => rfl
  | cons e es ih =>
    simp only [List.cons_append, after]
    split
    · rfl
    · exact ih _

/-- A text that is not cut stays together in front of another one. -/
theorem cut_append {wanted : Mark} {owed last : Bool} {es : List (Entry β)}
    (whole : after wanted owed es = some last) (fs : List (Entry β)) :
    cut wanted owed (es ++ fs) = (cut wanted last fs).modifyHead (es ++ ·) := by
  induction es generalizing owed with
  | nil =>
    obtain rfl : owed = last := by simpa [after] using whole
    rw [List.nil_append]
    cases cut wanted owed fs <;> rfl
  | cons e es ih =>
    simp only [after] at whole
    split at whole
    · contradiction
    · rename_i passed
      simp only [List.cons_append, cut]
      rw [if_neg passed, ih whole]
      cases cut wanted last fs <;> simp

theorem cut_of_after {wanted : Mark} {owed last : Bool} {es : List (Entry β)}
    (whole : after wanted owed es = some last) : cut wanted owed es = [es] := by
  have alone := cut_append whole []
  simpa [cut] using alone

/-- A text that is not cut at a mark has no such mark, if no such mark is ever due. -/
theorem mark_ne_of_after {wanted : Mark} (special : wanted ≠ .and) {owed last : Bool}
    {es : List (Entry β)} (whole : after wanted owed es = some last) :
    ∀ e ∈ es, e.item.mark ≠ wanted := by
  induction es generalizing owed with
  | nil => simp
  | cons e es ih =>
    simp only [after] at whole
    split at whole
    · contradiction
    · rename_i passed
      rw [List.forall_mem_cons]
      refine ⟨fun same => passed ?_, ih whole⟩
      simp [cuts, same, special]

/-- A text of plain items and negations is not cut. -/
theorem after_of_calm {wanted : Mark} (special : wanted ∉ [.plain, .not]) (owed : Bool)
    {es : List (Entry β)} (calm : ∀ e ∈ es, e.item.mark ∈ [.plain, .not]) :
    after wanted owed es = some owed := by
  induction es with
  | nil => rfl
  | cons e es ih =>
    have rest := ih fun e member => calm e (List.mem_cons_of_mem _ member)
    have here := calm e (by simp)
    have passed : cuts wanted owed e.item.mark = false := by
      have different : e.item.mark ≠ wanted := fun same => special (same ▸ here)
      simp [cuts, different]
    have kept : due owed e.item.mark = owed := by
      simp only [List.mem_cons, List.not_mem_nil, or_false] at here
      rcases here with mark | mark <;> rw [mark] <;> rfl
    rw [after, passed, kept]
    exact rest

/-- A BETWEEN with the AND that is due to it is not cut. -/
theorem after_between {wanted : Mark} (special : wanted ∉ [.plain, .not, .between])
    {between and : Entry β} (marks : between.item.mark = .between ∧ and.item.mark = .and)
    {es ls hs : List (Entry β)} (calm : ∀ e ∈ es ++ ls ++ hs, e.item.mark ∈ [.plain, .not]) :
    after wanted false (es ++ [between] ++ ls ++ [and] ++ hs) = some false := by
  have others : wanted ∉ [.plain, .not] ∧ wanted ≠ .between := by
    simp only [List.mem_cons, List.not_mem_nil, or_false, not_or] at special ⊢
    exact ⟨⟨special.1, special.2.1⟩, special.2.2⟩
  have expr : after wanted false es = some false :=
    after_of_calm others.1 false fun e member => calm e (by simp [member])
  have low : after wanted true ls = some true :=
    after_of_calm others.1 true fun e member => calm e (by simp [member])
  have high : after wanted false hs = some false :=
    after_of_calm others.1 false fun e member => calm e (by simp [member])
  have opens : after wanted false [between] = some true := by
    simp [after, cuts, due, marks.1, others.2.symm]
  have closes : after wanted true [and] = some false := by
    simp [after, cuts, due, marks.2]
  simp only [after_append, expr, opens, low, closes, high, Option.bind_some]

section

variable {wanted : Mark} {joint : Entry β} {parts : List (List (Entry β))}

/-- A text is cut at a joint behind a part that is not cut. -/
theorem cut_joint (here : cuts wanted false joint.item.mark)
    (settled : due false joint.item.mark = false) {es : List (Entry β)}
    (whole : after wanted false es = some false) (fs : List (Entry β)) :
    cut wanted false (es ++ joint :: fs) = es :: cut wanted false fs := by
  rw [cut_append whole, cut, if_pos here, settled]
  simp

/-- Parts that are not cut are found again between joints. -/
theorem cut_intercalate (here : cuts wanted false joint.item.mark)
    (settled : due false joint.item.mark = false) (nonempty : parts ≠ [])
    (each : ∀ part ∈ parts, after wanted false part = some false) :
    cut wanted false ([joint].intercalate parts) = parts := by
  induction parts with
  | nil => contradiction
  | cons part parts ih =>
    have whole := each part (by simp)
    cases parts with
    | nil => simpa [List.intercalate] using cut_of_after whole
    | cons next parts =>
      have rest := ih (by simp) fun part member => each part (List.mem_cons_of_mem _ member)
      have split : [joint].intercalate (part :: next :: parts) =
          part ++ joint :: [joint].intercalate (next :: parts) := by
        simp [List.intercalate, List.intersperse]
      rw [split, cut_joint here settled whole, rest]

/-- Joints at which nothing is cut keep the parts together. -/
theorem after_intercalate (passed : cuts wanted false joint.item.mark = false)
    (settled : due false joint.item.mark = false)
    (each : ∀ part ∈ parts, after wanted false part = some false) :
    after wanted false ([joint].intercalate parts) = some false := by
  induction parts with
  | nil => rfl
  | cons part parts ih =>
    have whole := each part (by simp)
    cases parts with
    | nil => simpa [List.intercalate] using whole
    | cons next parts =>
      have rest := ih fun part member => each part (List.mem_cons_of_mem _ member)
      have split : [joint].intercalate (part :: next :: parts) =
          part ++ joint :: [joint].intercalate (next :: parts) := by
        simp [List.intercalate, List.intersperse]
      rw [split, after_append, whole, Option.bind_some, after, passed, settled, rest]
      rfl

end

end Precedence

/-! ## Reading -/

/-- How conditions are read: what the connectives mean, and what stands between them. -/
structure Reader (α β : Type) extends Connectives α where
  operand : List (Entry β) → α

namespace Reader

variable {α β : Type} (r : Reader α β)

open Precedence (cut after cut_of_after cut_intercalate after_intercalate after_of_calm
  after_between)
open Connectives (joined)

/-- Read what stands between two connectives. -/
def negation : List (Entry β) → α
  | [] => r.operand []
  | e :: es => if e.item.mark = .not then r.not (negation es) else r.operand (e :: es)

def conjunction (es : List (Entry β)) : α := joined r.and ((cut .and false es).map r.negation)

/-- Read a condition. -/
def condition (es : List (Entry β)) : α := joined r.or ((cut .or false es).map r.conjunction)

/-- No connective shows at the top level of the text, nor does a part of a CASE. -/
structure Stands (es : List (Entry β)) : Prop where
  or : after .or false es = some false
  and : after .and false es = some false
  case : after (.separates .case) false es = some false

theorem Stands.of_calm {es : List (Entry β)} (calm : ∀ e ∈ es, e.item.mark ∈ [.plain, .not]) :
    Stands es :=
  ⟨after_of_calm (by decide) false calm, after_of_calm (by decide) false calm,
    after_of_calm (by decide) false calm⟩

theorem Stands.of_between {between and : Entry β}
    (marks : between.item.mark = .between ∧ and.item.mark = .and) {es ls hs : List (Entry β)}
    (calm : ∀ e ∈ es ++ ls ++ hs, e.item.mark ∈ [.plain, .not]) :
    Stands (es ++ [between] ++ ls ++ [and] ++ hs) :=
  ⟨after_between (by decide) marks calm, after_between (by decide) marks calm,
    after_between (by decide) marks calm⟩

variable {es : List (Entry β)}

theorem negation_of_head {e : Entry β} (other : e.item.mark ≠ .not) :
    r.negation (e :: es) = r.operand (e :: es) := by
  rw [negation, if_neg other]

theorem conjunction_of_stands (h : Stands es) : r.conjunction es = r.negation es := by
  rw [conjunction, cut_of_after h.and]
  rfl

/-- A text that stands by itself is read as the operand of its negations. -/
theorem condition_of_stands (h : Stands es) : r.condition es = r.negation es := by
  rw [condition, cut_of_after h.or]
  exact r.conjunction_of_stands h

/-- Conditions with AND between them are read one by one. -/
theorem condition_and {joint : Entry β} {parts : List (List (Entry β))}
    (mark : joint.item.mark = .and) (nonempty : parts ≠ []) (each : ∀ part ∈ parts, Stands part) :
    r.condition ([joint].intercalate parts) = joined r.and (parts.map r.negation) := by
  have whole : after .or false ([joint].intercalate parts) = some false :=
    after_intercalate (by rw [mark]; rfl) (by rw [mark]; rfl) fun part member => (each part member).or
  have found : cut .and false ([joint].intercalate parts) = parts :=
    cut_intercalate (by rw [mark]; rfl) (by rw [mark]; rfl) nonempty
      fun part member => (each part member).and
  rw [condition, cut_of_after whole, List.map_singleton, joined, conjunction, found]

/-- Conditions with OR between them are read one by one. -/
theorem condition_or {joint : Entry β} {parts : List (List (Entry β))}
    (mark : joint.item.mark = .or) (nonempty : parts ≠ []) (each : ∀ part ∈ parts, Stands part) :
    r.condition ([joint].intercalate parts) = joined r.or (parts.map r.negation) := by
  have found : cut .or false ([joint].intercalate parts) = parts :=
    cut_intercalate (by rw [mark]; rfl) (by rw [mark]; rfl) nonempty
      fun part member => (each part member).or
  rw [condition, found, List.map_congr_left fun part member =>
    r.conjunction_of_stands (each part member)]

end Reader

end Pushdown
