import Mathlib.Data.List.Forall2
import Pushdown.Proofs.Sql.Composition
import Pushdown.Proofs.Sql.Precedence

/-!
# Interpretations of conditions

An interpretation reads the text of a condition: it takes the text apart into tokens, groups them
by brackets and reads the groups with the usual precedence. Parentheses mean what they enclose.

`Interpretation.Reads` says what a rendered text is read as. It is stronger for a text that
`StandsAs` its meaning, which may be negated or joined with others. The lemmas follow the functions
that put conditions together.
-/

namespace Pushdown

open Grouping (Groups)

/-- How the texts of conditions are read. -/
structure Interpretation (α β : Type) extends Reader α β where
  /-- What is kept of the inside of a group. -/
  inside : Bracket → List (Entry β) → β
  /-- Parentheses mean what they enclose. -/
  grouped : ∀ items es, operand [⟨.group .paren items, some (inside .paren es)⟩] =
    toReader.condition es

/-- The items of a value, none of which groups anything. -/
structure HasItems (p : Profile) (quoteNames : Bool) (s : Sql) (items : List Item) : Prop where
  grouped : Groups (s.tokens p quoteNames) items
  plain : ∀ i ∈ items, i.mark = .plain
  nonempty : items ≠ []

theorem IsValue.exists_items {p : Profile} {quoteNames : Bool} {s : Sql}
    (h : IsValue p quoteNames s) : ∃ items, HasItems p quoteNames s items := by
  obtain ⟨items, grouped, plain⟩ := Grouping.exists_groups h.phrase.nested
  exact ⟨items, grouped, plain rfl, grouped.ne_nil h.nonempty⟩

/-! ## Lists of texts -/

namespace Grouping.Groups

theorem intercalate {sep : List Token} {js : List Item} (separator : Groups sep js)
    {tss : List (List Token)} {iss : List (List Item)} (each : List.Forall₂ Groups tss iss) :
    Groups (sep.intercalate tss) (js.intercalate iss) := by
  induction each with
  | nil => exact .nil
  | cons first rest ih =>
    rename_i ts is tss iss
    cases rest with
    | nil => simpa [List.intercalate] using first
    | cons second rest =>
      simp only [List.intercalate, List.intersperse, List.flatten_cons] at ih ⊢
      exact first.append (separator.append ih)

theorem parens {ts : List Token} {items : List Item} (h : Groups ts items) :
    Groups (.symbol '(' :: (ts ++ [.symbol ')'])) [.group .paren items] :=
  .group (by decide) (by decide) h

/-- Parentheses around a text make a group of its items. -/
theorem enclosed {p : Profile} {quoteNames : Bool} {s : Sql} {items : List Item}
    (h : Groups (s.tokens p quoteNames) items) :
    Groups ((Sql.parens s).tokens p quoteNames) [.group .paren items] := by
  have opening : Lexer.plainTokens "(".toList = [.symbol '('] := by decide
  have closing : Lexer.plainTokens ")".toList = [.symbol ')'] := by decide
  simp only [Sql.parens, Sql.tokens_append, Sql.tokens_raw, opening, closing]
  exact h.parens

end Grouping.Groups

theorem Sql.tokens_joinWith (p : Profile) (quoteNames : Bool) (separator : String)
    (parts : List Sql) : (Sql.joinWith separator parts).tokens p quoteNames =
      (Lexer.plainTokens separator.toList).intercalate (parts.map (Sql.tokens p quoteNames)) := by
  induction parts with
  | nil => rfl
  | cons part parts ih =>
    cases parts with
    | nil => simp [Sql.joinWith, List.intercalate]
    | cons next parts =>
      simp only [Sql.joinWith, List.intercalate, List.intersperse, List.flatten_cons, List.map_cons,
        Sql.tokens_append, Sql.tokens_raw] at ih ⊢
      rw [ih]

theorem Item.entries_intercalate {β : Type} (f : Bracket → List (Entry β) → β) (js : List Item)
    (iss : List (List Item)) :
    entries f (js.intercalate iss) = (entries f js).intercalate (iss.map (entries f)) := by
  induction iss with
  | nil => rfl
  | cons is iss ih =>
    cases iss with
    | nil => simp [List.intercalate]
    | cons next iss =>
      simp only [List.intercalate, List.intersperse, List.flatten_cons, List.map_cons,
        Item.entries_append] at ih ⊢
      rw [ih]

namespace Interpretation

variable {α β : Type} (r : Interpretation α β)

def entries (items : List Item) : List (Entry β) := Item.entries r.inside items

/-- The meaning of a text, if its quotes and brackets fit. -/
def read (p : Profile) (text : String) : Option α :=
  (Lexer.scan p text.toList).bind fun ts =>
    (Grouping.items? ts).map fun items => r.condition (r.entries items)

/-- What the text is read as. -/
def Reads (p : Profile) (quoteNames : Bool) (s : Sql) (a : α) : Prop :=
  ∃ items, Groups (s.tokens p quoteNames) items ∧
    Precedence.after (.separates .case) false (r.entries items) = some false ∧
    r.condition (r.entries items) = a

/-- What the text is read as, also next to connectives. -/
def StandsAs (p : Profile) (quoteNames : Bool) (s : Sql) (a : α) : Prop :=
  ∃ items, Groups (s.tokens p quoteNames) items ∧ Reader.Stands (r.entries items) ∧
    r.negation (r.entries items) = a

section

variable {r} {p : Profile} {quoteNames : Bool} {s t : Sql} {a : α}

theorem Reads.read_eq (h : r.Reads p quoteNames s a) {quiet : Bool}
    (phrase : Phrase p quoteNames quiet s) : r.read p (s.write p quoteNames) = some a := by
  obtain ⟨items, grouped, -, rfl⟩ := h
  simp [read, phrase.scanned, grouped.items?_eq]

theorem StandsAs.reads (h : r.StandsAs p quoteNames s a) : r.Reads p quoteNames s a := by
  obtain ⟨items, grouped, stands, rfl⟩ := h
  exact ⟨items, grouped, stands.case, r.condition_of_stands stands⟩

/-- Only the tokens of a text matter. -/
theorem StandsAs.congr (h : r.StandsAs p quoteNames s a)
    (same : s.tokens p quoteNames = t.tokens p quoteNames) : r.StandsAs p quoteNames t a := by
  rw [StandsAs, ← same]
  exact h

/-- The entries of a text in brackets. -/
theorem entries_group (b : Bracket) (items : List Item) :
    r.entries [.group b items] = [⟨.group b items, some (r.inside b (r.entries items))⟩] := by
  simp [entries, Item.entries, Item.entry]

theorem entries_tokens (ts : List Token) : r.entries (ts.map .token) = ts.map .ofToken := by
  simp [entries, Item.entries_eq_map, Function.comp_def, Item.entry]

theorem entries_token (t : Token) : r.entries [.token t] = [.ofToken t] := entries_tokens [t]

theorem entries_cons (t : Token) (items : List Item) :
    r.entries (.token t :: items) = .ofToken t :: r.entries items := rfl

theorem entries_append (is js : List Item) : r.entries (is ++ js) = r.entries is ++ r.entries js :=
  Item.entries_append r.inside is js

theorem mark_of_mem_entries {items : List Item} {e : Entry β} (member : e ∈ r.entries items) :
    ∃ i ∈ items, e.item.mark = i.mark := by
  rw [entries, Item.entries_eq_map] at member
  obtain ⟨i, listed, rfl⟩ := List.mem_map.mp member
  exact ⟨i, listed, by rw [Item.entry_item]⟩

theorem stands_of_calm {items : List Item} (calm : ∀ i ∈ items, i.mark ∈ [.plain, .not]) :
    Reader.Stands (r.entries items) := by
  refine .of_calm fun e member => ?_
  obtain ⟨i, listed, mark⟩ := mark_of_mem_entries member
  rw [mark]
  exact calm i listed

/-- A text that does not begin with NOT is read as an operand. -/
theorem negation_of_first {i : Item} {items : List Item} (other : i.mark ≠ .not) :
    r.negation (r.entries (i :: items)) = r.operand (r.entries (i :: items)) := by
  rw [entries, Item.entries]
  exact r.negation_of_head (by simpa using other)

/-- A text that begins with a value and shows no connective stands as an operand. -/
theorem value_standsAs {first rest : List Item} (value : HasItems p quoteNames t first)
    (grouped : Groups (s.tokens p quoteNames) (first ++ rest))
    (stands : Reader.Stands (r.entries (first ++ rest))) :
    r.StandsAs p quoteNames s (r.operand (r.entries (first ++ rest))) := by
  obtain ⟨i, others, rfl⟩ := List.exists_cons_of_ne_nil value.nonempty
  exact ⟨_, grouped, stands, negation_of_first (by simp [value.plain i (by simp)])⟩

/-- The items behind the first value of a BETWEEN. -/
def rangeItems (low high : List Item) : List Item :=
  .token (.word "BETWEEN") :: (low ++ .token (.word "AND") :: high)

theorem between_standsAs {e l h : Sql} {expr low high : List Item}
    (he : HasItems p quoteNames e expr) (hl : HasItems p quoteNames l low)
    (hh : HasItems p quoteNames h high) :
    r.StandsAs p quoteNames (e ++ Sql.raw " BETWEEN " ++ l ++ Sql.raw " AND " ++ h)
      (r.operand (r.entries (expr ++ rangeItems low high))) := by
  have between : Lexer.plainTokens " BETWEEN ".toList = [.word "BETWEEN"] := by decide
  have and : Lexer.plainTokens " AND ".toList = [.word "AND"] := by decide
  have betweenMark : (Item.token (.word "BETWEEN")).mark = .between := by decide
  have andMark : (Item.token (.word "AND")).mark = .and := by decide
  have split : expr ++ rangeItems low high =
      expr ++ [Item.token (.word "BETWEEN")] ++ low ++ [Item.token (.word "AND")] ++ high := by
    simp [rangeItems]
  refine value_standsAs he ?_ ?_
  · simp only [split, Sql.tokens_append, Sql.tokens_raw, between, and]
    exact (((he.grouped.append (.token (by decide))).append hl.grouped).append
      (.token (by decide))).append hh.grouped
  · simp only [split, entries_append, entries_token]
    refine .of_between ⟨betweenMark, andMark⟩ fun e member => ?_
    rw [← entries_append, ← entries_append] at member
    obtain ⟨i, listed, mark⟩ := mark_of_mem_entries member
    simp only [List.mem_append] at listed
    rcases listed with (listed | listed) | listed
    · rw [mark, he.plain i listed]
      decide
    · rw [mark, hl.plain i listed]
      decide
    · rw [mark, hh.plain i listed]
      decide

/-- A value with a text behind it that shows no connective. -/
theorem calm_standsAs {e : Sql} {expr rest : List Item} (he : HasItems p quoteNames e expr)
    (ht : Groups (t.tokens p quoteNames) rest) (calm : ∀ i ∈ rest, i.mark ∈ [.plain, .not]) :
    r.StandsAs p quoteNames (e ++ t) (r.operand (r.entries (expr ++ rest))) := by
  refine value_standsAs he ?_ (stands_of_calm fun i member => ?_)
  · rw [Sql.tokens_append]
    exact he.grouped.append ht
  · rcases List.mem_append.mp member with first | second
    · rw [he.plain i first]
      decide
    · exact calm i second

/-- A value with words behind it that show no connective. -/
theorem words_standsAs {e : Sql} {expr : List Item} (he : HasItems p quoteNames e expr)
    {text : String} {ts : List Token} (tokens : Lexer.plainTokens text.toList = ts)
    (calm : ∀ t ∈ ts, t.mark ∈ [.plain, .not]) :
    r.StandsAs p quoteNames (e ++ Sql.raw text)
      (r.operand (r.entries (expr ++ ts.map .token))) := by
  refine calm_standsAs he ?_ (by simpa [Item.mark] using calm)
  rw [Sql.tokens_raw, tokens]
  refine .tokens (List.all_eq_true.mpr fun t member => ?_)
  have here := calm t member
  simp only [List.mem_cons, List.not_mem_nil, or_false] at here
  rcases here with mark | mark <;> rw [mark] <;> rfl

/-- A condition in parentheses may stand next to connectives. -/
theorem Reads.parens (h : r.Reads p quoteNames s a) : r.StandsAs p quoteNames (Sql.parens s) a := by
  obtain ⟨items, grouped, -, rfl⟩ := h
  refine ⟨[.group .paren items], grouped.enclosed, stands_of_calm (by simp [Item.mark]), ?_⟩
  rw [negation_of_first (by simp [Item.mark]), entries_group, r.grouped]

/-- The items of a negation. -/
def notItems (items : List Item) : List Item := [.token (.word "NOT"), .group .paren items]

theorem stands_not (items : List Item) : Reader.Stands (r.entries (notItems items)) := by
  have mark : (Item.token (.word "NOT")).mark = .not := by decide
  refine stands_of_calm fun i member => ?_
  simp only [notItems, List.mem_cons, List.not_mem_nil, or_false] at member
  rcases member with rfl | rfl
  · rw [mark]
    decide
  · exact List.mem_cons_self

theorem negation_not (items : List Item) :
    r.negation (r.entries (notItems items)) = r.not (r.condition (r.entries items)) := by
  have mark : (Entry.ofToken (.word "NOT") : Entry β).item.mark = .not := by
    rw [Entry.ofToken_mark]
    decide
  have split : notItems items = [Item.token (.word "NOT")] ++ [Item.group .paren items] := rfl
  rw [split, entries_append, entries_token, entries_group, List.singleton_append, Reader.negation,
    if_pos mark, r.negation_of_head (by simp [Item.mark]), r.grouped]

theorem Reads.not (h : r.Reads p quoteNames s a) :
    r.StandsAs p quoteNames (Sql.raw "NOT (" ++ s ++ Sql.raw ")") (r.not a) := by
  obtain ⟨items, grouped, -, rfl⟩ := h
  have opening : Lexer.plainTokens "NOT (".toList = [.word "NOT", .symbol '('] := by decide
  have closing : Lexer.plainTokens ")".toList = [.symbol ')'] := by decide
  have word : Groups [.word "NOT"] [.token (.word "NOT")] := .token (by decide)
  refine ⟨notItems items, ?_, stands_not items, negation_not items⟩
  simp only [Sql.tokens_append, Sql.tokens_raw, opening, closing]
  exact word.append (Groups.parens grouped)

/-- The items of texts that stand by themselves. -/
theorem exists_items {parts : List Sql} {as : List α}
    (each : List.Forall₂ (r.StandsAs p quoteNames) parts as) :
    ∃ iss, List.Forall₂ Groups (parts.map (Sql.tokens p quoteNames)) iss ∧
      (∀ is ∈ iss, Reader.Stands (r.entries is)) ∧
      iss.map (fun is => r.negation (r.entries is)) = as := by
  induction each with
  | nil => exact ⟨[], .nil, by simp, rfl⟩
  | cons first rest ih =>
    obtain ⟨items, grouped, stands, rfl⟩ := first
    obtain ⟨iss, groups, standing, rfl⟩ := ih
    exact ⟨items :: iss, .cons grouped groups, by simpa [stands] using standing, rfl⟩

/-- Texts that stand by themselves, with a connective between them. -/
theorem joinWith_reads {word : String} {combine : List α → α}
    (tokens : Lexer.plainTokens (" " ++ word ++ " ").toList = [.word word])
    (mark : (Token.word word).mark ∈ [.and, .or])
    (law : ∀ parts, parts ≠ [] → (∀ part ∈ parts, Reader.Stands part) →
      r.condition ([Entry.ofToken (.word word)].intercalate parts) =
        Connectives.joined combine (parts.map r.negation))
    {parts : List Sql} {as : List α} (nonempty : as ≠ [])
    (each : List.Forall₂ (r.StandsAs p quoteNames) parts as) :
    r.Reads p quoteNames (Sql.joinWith (" " ++ word ++ " ") parts)
      (Connectives.joined combine as) := by
  obtain ⟨iss, groups, stands, rfl⟩ := exists_items each
  have joint : Groups [.word word] [.token (.word word)] := by
    refine .token ?_
    simp only [List.mem_cons, List.not_mem_nil, or_false] at mark
    rcases mark with mark | mark <;> rw [mark] <;> rfl
  have standing : ∀ part ∈ iss.map r.entries, Reader.Stands part := by simpa using stands
  refine ⟨[.token (.word word)].intercalate iss, ?_, ?_, ?_⟩
  · rw [Sql.tokens_joinWith, tokens]
    exact joint.intercalate groups
  · have whole : Precedence.after (.separates .case) false
        ([Entry.ofToken (.word word)].intercalate (iss.map r.entries)) = some false := by
      simp only [List.mem_cons, List.not_mem_nil, or_false] at mark
      refine Precedence.after_intercalate ?_ ?_ fun part member => (standing part member).case
      · rcases mark with mark | mark <;> simp [mark, Precedence.cuts]
      · rcases mark with mark | mark <;> simp [mark, Precedence.due]
    rw [entries, Item.entries_intercalate]
    exact whole
  · have whole := law (iss.map r.entries) (by simpa using nonempty) standing
    rw [List.map_map] at whole
    rw [entries, Item.entries_intercalate]
    exact whole

/-- What an operand of a connective is read as. -/
def ReadsOperand (r : Interpretation α β) (p : Profile) (quoteNames : Bool) (n : Node) (s : Sql)
    (a : α) : Prop :=
  r.Reads p quoteNames s a ∧ (n.isConnective = false → r.StandsAs p quoteNames s a)

theorem ReadsOperand.of {n : Node} (h : r.StandsAs p quoteNames s a) :
    r.ReadsOperand p quoteNames n s a := ⟨h.reads, fun _ => h⟩

/-- A connective is read as the connective of what its operands are read as, and vanishes if there
is only one. -/
theorem connect_reads {word : String} {combine : List α → α}
    (tokens : Lexer.plainTokens (" " ++ word ++ " ").toList = [.word word])
    (mark : (Token.word word).mark ∈ [.and, .or])
    (law : ∀ parts, parts ≠ [] → (∀ part ∈ parts, Reader.Stands part) →
      r.condition ([Entry.ofToken (.word word)].intercalate parts) =
        Connectives.joined combine (parts.map r.negation))
    {conditions : List (Node × Sql)} {as : List α} (nonempty : as ≠ [])
    (each : List.Forall₂ (fun c a => r.ReadsOperand p quoteNames c.1 c.2 a) conditions as) :
    r.Reads p quoteNames (Render.connect word conditions) (Connectives.joined combine as) := by
  rcases conditions with _ | ⟨first, _ | ⟨second, rest⟩⟩
  · exact absurd (List.forall₂_nil_left_iff.mp each) nonempty
  · obtain ⟨a, rfl, reads⟩ : ∃ a, as = [a] ∧ r.ReadsOperand p quoteNames first.1 first.2 a := by
      rcases each with _ | ⟨reads, ⟨⟩⟩
      exact ⟨_, rfl, reads⟩
    have alone : Render.connect word [first] = first.2 := by
      simp [Render.connect, Sql.joinWith]
    rw [alone]
    exact reads.1
  · -- With several operands, those that are connectives themselves are in parentheses.
    refine joinWith_reads tokens mark law nonempty ?_
    rw [List.forall₂_map_left_iff]
    refine each.imp fun c a reads => ?_
    simp only [List.length_cons, Nat.lt_add_left_iff_pos, Nat.zero_lt_succ, decide_true,
      Bool.and_true]
    split
    · exact reads.1.parens
    · rename_i other
      exact reads.2 (by simpa using other)

theorem connect_and_reads {conditions : List (Node × Sql)} {as : List α}
    (nonempty : as ≠ [])
    (each : List.Forall₂ (fun c a => r.ReadsOperand p quoteNames c.1 c.2 a) conditions as) :
    r.Reads p quoteNames (Render.connect "AND" conditions) (Connectives.joined r.and as) := by
  have mark : (Item.token (.word "AND")).mark = .and := by decide
  exact connect_reads (by decide) (by decide)
    (fun _ found standing => r.condition_and mark found standing) nonempty each

theorem connect_or_reads {conditions : List (Node × Sql)} {as : List α}
    (nonempty : as ≠ [])
    (each : List.Forall₂ (fun c a => r.ReadsOperand p quoteNames c.1 c.2 a) conditions as) :
    r.Reads p quoteNames (Render.connect "OR" conditions) (Connectives.joined r.or as) := by
  have mark : (Item.token (.word "OR")).mark = .or := by decide
  exact connect_reads (by decide) (by decide)
    (fun _ found standing => r.condition_or mark found standing) nonempty each

/-- The rendered operands of a connective, each with what it is read as. -/
theorem readsOperands {operands : List Node} {condition : Node → Render.Result Sql} {f : Node → α}
    (each : ∀ o ∈ operands, ∀ t, condition o = .ok t → r.ReadsOperand p quoteNames o t (f o))
    {parts : List Sql} (rendered : operands.map condition = parts.map .ok) :
    List.Forall₂ (fun c a => r.ReadsOperand p quoteNames c.1 c.2 a) (operands.zip parts)
      (operands.map f) := by
  induction operands generalizing parts with
  | nil => exact .nil
  | cons o operands ih =>
    cases parts with
    | nil => simp at rendered
    | cons part parts =>
      simp only [List.map_cons, List.cons.injEq] at rendered
      exact .cons (each o (by simp) part rendered.1)
        (ih (fun o member => each o (List.mem_cons_of_mem _ member)) rendered.2)

section

variable {operands : List Node} {condition : Node → Render.Result Sql} {f : Node → α}
  (nonempty : operands ≠ [])
  (each : ∀ o ∈ operands, ∀ t, condition o = .ok t → r.ReadsOperand p quoteNames o t (f o))

include nonempty each

theorem and_reads (whole : Render.connective "AND" operands (operands.map condition) = .ok s) :
    r.Reads p quoteNames s (Connectives.joined r.and (operands.map f)) := by
  obtain ⟨parts, rendered, rfl⟩ := Render.connective_eq_ok.mp whole
  exact connect_and_reads (by simpa using nonempty) (readsOperands each rendered)

theorem or_reads (whole : Render.connective "OR" operands (operands.map condition) = .ok s) :
    r.Reads p quoteNames s (Connectives.joined r.or (operands.map f)) := by
  obtain ⟨parts, rendered, rfl⟩ := Render.connective_eq_ok.mp whole
  exact connect_or_reads (by simpa using nonempty) (readsOperands each rendered)

end

end

end Interpretation

end Pushdown
