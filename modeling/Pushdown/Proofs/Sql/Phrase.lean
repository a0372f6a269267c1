import Pushdown.Proofs.Sql.Rendering
import Pushdown.Proofs.Sql.Token

/-!
# Phrases

A statement is put together from fragments, and each fragment has tokens of its own. The text of
the statement has the same tokens if no two fragments merge where they meet. A `Draft` is a
beginning of a text for which this holds; it also records the brackets that are open before and
after it, where CASE and END count as brackets. A `Phrase` is a draft that opens and closes nothing.
A quiet phrase has no word at its top level that groups conditions, which is how values look.

The rules below add one part at a time, so the functions of the renderer are followed step by
step. What they ask of a constant text can be decided.
-/

namespace Pushdown

/-! ## Brackets -/

/-- What encloses a part of a text. -/
inductive Bracket where
  | paren
  /-- From CASE to END. -/
  | case
deriving DecidableEq, Inhabited

/-- What a token means for the grouping of a text. -/
inductive Mark where
  | plain | or | and | not | between
  | opens (b : Bracket)
  | closes (b : Bracket)
  /-- Stands between the parts of a bracket. -/
  | separates (b : Bracket)
deriving DecidableEq, Inhabited

/-- The words that group a text. -/
def groupingWords : List (String × Mark) := [
  ("OR", .or), ("AND", .and), ("NOT", .not), ("BETWEEN", .between), ("CASE", .opens .case),
  ("END", .closes .case), ("WHEN", .separates .case), ("THEN", .separates .case),
  ("ELSE", .separates .case)]

namespace Token

def mark : Token → Mark
  | .word text => (groupingWords.lookup (Text.upper text)).getD .plain
  | .symbol c =>
    if c = '(' then .opens .paren
    else if c = ')' then .closes .paren
    else if c = ',' then .separates .paren
    else .plain
  | _ => .plain

/-- Marks that no word has belong to symbols. -/
theorem exists_symbol_of_mark {t : Token} {m : Mark} (mark : t.mark = m) (marked : m ≠ .plain)
    (never : ∀ entry ∈ groupingWords, entry.2 ≠ m) : ∃ c, t = .symbol c := by
  cases t with
  | symbol c => exact ⟨c, rfl⟩
  | word text =>
    cases found : groupingWords.lookup (Text.upper text) with
    | none => exact absurd mark.symm (by simpa [Token.mark, found] using marked)
    | some known =>
      obtain ⟨before, after, split, -⟩ := List.lookup_eq_some_iff.mp found
      have listed : (Text.upper text, known) ∈ groupingWords := by simp [split]
      have same : known = m := by simpa [Token.mark, found] using mark
      exact absurd same (never _ listed)
  | _ => exact absurd mark.symm marked

/-- Only an opening parenthesis opens one. -/
theorem mark_eq_opens_paren {t : Token} : t.mark = .opens .paren ↔ t = .symbol '(' := by
  constructor
  · intro mark
    obtain ⟨c, rfl⟩ := exists_symbol_of_mark mark (by decide) (by decide)
    grind [Token.mark]
  · rintro rfl
    rfl

/-- Only a closing parenthesis closes one. -/
theorem mark_eq_closes_paren {t : Token} : t.mark = .closes .paren ↔ t = .symbol ')' := by
  constructor
  · intro mark
    obtain ⟨c, rfl⟩ := exists_symbol_of_mark mark (by decide) (by decide)
    grind [Token.mark]
  · rintro rfl
    rfl

/-- Neither a quotation nor the beginning of a comment nor the end of a statement. -/
def isHarmless : Token → Bool
  | .word _ | .number _ => true
  | .symbol c => c != ';'
  | _ => false

end Token

/-- The brackets that are open after some tokens. If `quiet` is set, only plain tokens and
brackets may stand outside of all brackets. -/
def nest (quiet : Bool) : List Bracket → List Token → Option (List Bracket)
  | opened, [] => some opened
  | opened, t :: rest =>
    match t.mark with
    | .plain => nest quiet opened rest
    | .opens b => nest quiet (b :: opened) rest
    | .closes b =>
      match opened with
      | [] => none
      | last :: opened => if last = b then nest quiet opened rest else none
    | _ => if quiet && opened.isEmpty then none else nest quiet opened rest

theorem nest_append (quiet : Bool) (opened : List Bracket) (ts us : List Token) :
    nest quiet opened (ts ++ us) = (nest quiet opened ts).bind fun opened => nest quiet opened us := by
  induction ts generalizing opened with
  | nil => rfl
  | cons t ts ih =>
    simp only [List.cons_append, nest]
    split
    · exact ih _
    · exact ih _
    · split
      · rfl
      · split
        · exact ih _
        · rfl
    · split
      · rfl
      · exact ih _

/-- Brackets that were open before stay open. -/
theorem nest_frame {quiet quiet' : Bool} {opened after : List Bracket} {ts : List Token}
    (h : nest quiet opened ts = some after) {outer : List Bracket}
    (level : outer = [] → quiet' → quiet) :
    nest quiet' (opened ++ outer) ts = some (after ++ outer) := by
  induction ts generalizing opened with
  | nil =>
    obtain rfl : opened = after := by simpa [nest] using h
    rfl
  | cons t ts ih =>
    simp only [nest] at h ⊢
    split at h
    · exact ih h
    · exact ih h
    · split at h
      · contradiction
      · split at h
        · rename_i same
          simpa [same] using ih h
        · contradiction
    · split at h
      · contradiction
      · rename_i allowed
        rw [if_neg, ih h]
        intro top
        simp only [Bool.and_eq_true, List.isEmpty_iff, List.append_eq_nil_iff] at top
        simp [top.2.1, level top.2.2 top.1] at allowed

theorem nest_plain {t : Token} (plain : t.mark = .plain) (quiet : Bool) (opened : List Bracket) :
    nest quiet opened [t] = some opened := by
  simp [nest, plain]

/-! ## The tokens of fragments -/

/-- The tokens of a fragment that stands by itself. -/
def Fragment.tokens (p : Profile) (quoteNames : Bool) : Fragment → List Token
  | .raw s => Lexer.plainTokens s.toList
  | .name s => [if quoteNames || p.needsQuotes s then .quoted s else .word s]
  | .text s => [.string s]

/-- The tokens of all fragments. -/
def Sql.tokens (p : Profile) (quoteNames : Bool) (s : Sql) : List Token :=
  s.flatMap (Fragment.tokens p quoteNames)

section

variable (p : Profile) (quoteNames : Bool)

@[simp] theorem Sql.tokens_nil : Sql.tokens p quoteNames [] = [] := rfl

@[simp] theorem Sql.tokens_cons (f : Fragment) (s : Sql) :
    Sql.tokens p quoteNames (f :: s) = f.tokens p quoteNames ++ s.tokens p quoteNames := rfl

@[simp] theorem Sql.tokens_append (s t : Sql) :
    Sql.tokens p quoteNames (s ++ t) = s.tokens p quoteNames ++ t.tokens p quoteNames := by
  simp [Sql.tokens]

theorem Sql.tokens_raw (text : String) :
    Sql.tokens p quoteNames (Sql.raw text) = Lexer.plainTokens text.toList := by
  simp [Sql.raw, Fragment.tokens]

end

/-- A text that holds no marks of the dialect, no comment and no semicolon. -/
def IsPlainText (p : Profile) (text : String) : Prop :=
  text.toList.all (Lexer.isOrdinary p) ∧ (Lexer.plainTokens text.toList).all Token.isHarmless

/-- The same of a text that only has characters which every dialect writes, and some others. -/
def isPlainText (others : List Char) (text : String) : Bool :=
  text.toList.all (fun c => Lexer.isCommon c || others.contains c) &&
    (Lexer.plainTokens text.toList).all Token.isHarmless

theorem IsPlainText.of {p : Profile} (marks : Lexer.HasMarks p) {others : List Char}
    (ordinary : ∀ c ∈ others, Lexer.isOrdinary p c) {text : String}
    (h : isPlainText others text) : IsPlainText p text := by
  simp only [isPlainText, Bool.and_eq_true, List.all_eq_true, Bool.or_eq_true,
    List.contains_iff_mem] at h
  refine ⟨?_, List.all_eq_true.mpr h.2⟩
  rw [List.all_eq_true]
  intro c member
  rcases h.1 c member with common | other
  · exact marks.common c common
  · exact ordinary c other

theorem IsPlainText.append {p : Profile} {a b : String} (first : IsPlainText p a)
    (second : IsPlainText p b) (meets : Lexer.endsIdle a.toList ∨ Lexer.startsApart b.toList) :
    IsPlainText p (a ++ b) := by
  have tokens : Lexer.plainTokens (a ++ b).toList =
      Lexer.plainTokens a.toList ++ Lexer.plainTokens b.toList := by
    rw [String.toList_append]
    rcases meets with idle | apart
    · exact Lexer.plainTokens_append_of_idle idle
    · exact Lexer.plainTokens_append_of_starts apart
  exact ⟨by simp only [String.toList_append, List.all_append, first.1, second.1, Bool.and_self],
    by simp only [tokens, List.all_append, first.2, second.2, Bool.and_self]⟩

/-- A text outside of quotes that takes the open brackets from `before` to `after`. -/
structure IsPart (p : Profile) (quiet : Bool) (before : List Bracket) (text : String)
    (after : List Bracket) : Prop where
  plain : IsPlainText p text
  nested : nest quiet before (Lexer.plainTokens text.toList) = some after

/-- A text outside of quotes that closes the brackets it opens. -/
abbrev IsText (p : Profile) (quiet : Bool) (text : String) : Prop := IsPart p quiet [] text []

namespace IsPart

variable {p : Profile} {quiet quiet' : Bool} {before middle after : List Bracket} {a b : String}

theorem append (first : IsPart p quiet before a middle) (second : IsPart p quiet middle b after)
    (meets : Lexer.endsIdle a.toList ∨ Lexer.startsApart b.toList) :
    IsPart p quiet before (a ++ b) after := by
  refine ⟨first.plain.append second.plain meets, ?_⟩
  rw [String.toList_append]
  rcases meets with idle | apart
  · rw [Lexer.plainTokens_append_of_idle idle, nest_append, first.nested]
    exact second.nested
  · rw [Lexer.plainTokens_append_of_starts apart, nest_append, first.nested]
    exact second.nested

/-- A text keeps the brackets that are open around it. -/
theorem frame (h : IsPart p quiet before a after) (outer : List Bracket)
    (level : outer = [] → quiet' → quiet) :
    IsPart p quiet' (before ++ outer) a (after ++ outer) := ⟨h.plain, nest_frame h.nested level⟩

/-- A constant text. -/
theorem const (marks : Lexer.HasMarks p)
    (h : isPlainText [] a && nest quiet before (Lexer.plainTokens a.toList) == some after) :
    IsPart p quiet before a after := by
  rw [Bool.and_eq_true, beq_iff_eq] at h
  exact ⟨.of marks (by simp) h.1, h.2⟩

end IsPart

/-! ## Drafts -/

/-- What may follow a draft. -/
inductive Ending where
  /-- Anything. -/
  | apart
  /-- A point, or what starts apart. -/
  | name
  /-- What starts apart. -/
  | within
deriving DecidableEq, Inhabited

def Ending.Holds (s : Lexer.State) : Ending → Prop
  | apart => s = .plain .nothing
  | name => s.isName
  | within => True

/-- A beginning of a text, in which no two fragments merge. -/
structure Draft (p : Profile) (quoteNames quiet : Bool) (before after : List Bracket)
    (ending : Ending) (s : Sql) : Prop where
  plain : ∀ text, .raw text ∈ s → IsPlainText p text
  scanned : Lexer.scan p (s.write p quoteNames).toList = some (s.tokens p quoteNames)
  nested : nest quiet before (s.tokens p quoteNames) = some after
  ends : ending.Holds (Lexer.run p (.plain .nothing) (s.write p quoteNames).toList).2

/-- A complete part of a text. -/
abbrev Phrase (p : Profile) (quoteNames quiet : Bool) (s : Sql) : Prop :=
  Draft p quoteNames quiet [] [] .within s

/-- The words that show how a condition is put together. -/
def keywords : List String := groupingWords.map (·.1) ++ ["IN", "IS", "NULL"]

/-- The dialect can be read back: its marks are single characters, and the words that show how a
condition is put together are reserved. -/
structure Profile.Legible (p : Profile) : Prop where
  marks : Lexer.HasMarks p
  reserved : ∀ word ∈ keywords, p.reserved.contains word

/-- How the dialect reads a word that stands without quotes. -/
def Profile.fold (p : Profile) (word : String) : String :=
  match p.identifierCase with
  | .upper => Text.upper word
  | .lower => Text.lower word
  | _ => word

/-- A name that needs no quotes is a regular word, not reserved, that the dialect reads as it is. -/
theorem Profile.bare_of_needsQuotes {p : Profile} {a : String} (bare : p.needsQuotes a = false) :
    isRegularName a.toList ∧ Text.upper a ∉ p.reserved ∧ p.fold a = a := by
  simp only [needsQuotes, List.contains_eq_mem, decide_eq_true_eq] at bare
  split at bare
  · contradiction
  · rename_i regular
    split at bare
    · contradiction
    · rename_i free
      simp only [Bool.or_eq_true, decide_eq_true_eq, Bool.not_eq_true', not_or,
        Bool.not_eq_false] at regular
      refine ⟨regular.2, free, ?_⟩
      unfold fold
      split <;> simp_all

/-- A part of a name that may be qualified by others. -/
def IsNamePart (p : Profile) : Token → Prop
  | .quoted _ => True
  | .word w => Text.upper w ∉ p.reserved
  | .symbol c => c = '.'
  | _ => False

namespace IsNamePart

variable {p : Profile} {quoteNames : Bool}

theorem ofName (a : String) : ∀ t ∈ (Fragment.name a).tokens p quoteNames, IsNamePart p t := by
  simp only [Fragment.tokens, List.mem_singleton, forall_eq]
  split
  · trivial
  · rename_i bare
    simp only [Bool.or_eq_true, not_or, Bool.not_eq_true] at bare
    exact (Profile.bare_of_needsQuotes bare.2).2.1

theorem ne_keyword (legible : p.Legible) {w : String} (h : IsNamePart p (.word w))
    (keyword : String) (known : keyword ∈ keywords) : Text.upper w ≠ keyword := by
  rintro rfl
  exact h (by simpa using legible.reserved _ known)

theorem mark (legible : p.Legible) {t : Token} (h : IsNamePart p t) : t.mark = .plain := by
  cases t with
  | quoted name => rfl
  | word w =>
    have unknown : groupingWords.lookup (Text.upper w) = none := by
      rw [List.lookup_eq_none_iff]
      intro entry member
      have listed : entry.1 ∈ keywords := List.mem_append_left _ (List.mem_map_of_mem member)
      simpa using h.ne_keyword legible entry.1 listed
    simp [Token.mark, unknown]
  | symbol c =>
    obtain rfl : c = '.' := h
    decide
  | number _ | string _ | comment => exact absurd h id

end IsNamePart

/-- What a constant text does to a draft. -/
def isStep (quiet : Bool) (before : List Bracket) (start : Ending) (text : String)
    (after : List Bracket) (stop : Ending) : Bool :=
  isPlainText [] text && text != "" &&
    (start == .apart || Lexer.startsApart text.toList) &&
    nest quiet before (Lexer.plainTokens text.toList) == some after &&
    (stop == .within || stop == .apart && Lexer.endsIdle text.toList)

namespace Draft

variable {p : Profile} {quoteNames quiet quiet' : Bool} {before middle after : List Bracket}
  {start stop : Ending} {s t : Sql}

theorem nil : Draft p quoteNames quiet before before .apart [] :=
  ⟨by simp, rfl, rfl, rfl⟩

theorem weaken (h : Draft p quoteNames quiet before after start s) :
    Draft p quoteNames quiet before after .within s :=
  ⟨h.plain, h.scanned, h.nested, trivial⟩

/-- A quiet text may stand where conditions are grouped. -/
theorem unquiet (h : Draft p quoteNames quiet before after start s) :
    Draft p quoteNames false before after start s := by
  have kept : nest false (before ++ []) (s.tokens p quoteNames) = some (after ++ []) :=
    nest_frame h.nested (by simp)
  exact ⟨h.plain, h.scanned, by simpa using kept, h.ends⟩

/-- Anything may follow a draft that stands apart. -/
theorem append_of_apart (h : Draft p quoteNames quiet before middle .apart s)
    (k : Draft p quoteNames quiet middle after stop t) :
    Draft p quoteNames quiet before after stop (s ++ t) := by
  have idle : (Lexer.run p (.plain .nothing) (s.write p quoteNames).toList).2 = .plain .nothing :=
    h.ends
  refine ⟨?_, ?_, ?_, ?_⟩
  · intro text member
    rcases List.mem_append.mp member with first | second
    · exact h.plain text first
    · exact k.plain text second
  · rw [Sql.write_append, String.toList_append, Sql.tokens_append]
    exact Lexer.scan_append_of_idle h.scanned k.scanned idle
  · rw [Sql.tokens_append, nest_append, h.nested]
    exact k.nested
  · rw [Sql.write_append, String.toList_append, Lexer.run_append, idle]
    exact k.ends

/-- A text that starts apart may follow any draft. -/
theorem append_of_starts (marks : Lexer.HasMarks p)
    (h : Draft p quoteNames quiet before middle start s)
    (k : Draft p quoteNames quiet middle after stop t) {c : Char} {rest : List Char}
    (text : (t.write p quoteNames).toList = c :: rest) (apart : Lexer.isApart c) :
    Draft p quoteNames quiet before after stop (s ++ t) := by
  refine ⟨?_, ?_, ?_, ?_⟩
  · intro text member
    rcases List.mem_append.mp member with first | second
    · exact h.plain text first
    · exact k.plain text second
  · rw [Sql.write_append, String.toList_append, Sql.tokens_append]
    refine Lexer.scan_append_of_starts marks h.scanned k.scanned ?_
    rw [text]
    exact apart
  · rw [Sql.tokens_append, nest_append, h.nested]
    exact k.nested
  · obtain ⟨last, settled, -⟩ := Option.map_eq_some_iff.mp h.scanned
    have ordinary := marks.apart apart
    have ends := k.ends
    rw [text] at ends
    rw [Sql.write_append, String.toList_append, Lexer.run_append, text]
    simp only [Lexer.run, Lexer.step_apart settled apart ordinary,
      Lexer.step_apart (s := .plain .nothing) rfl apart ordinary] at ends ⊢
    exact ends

/-- A phrase may follow a draft that stands apart. -/
theorem part (h : Draft p quoteNames quiet before after .apart s)
    (k : Phrase p quoteNames quiet' t) (level : after = [] → quiet → quiet') :
    Draft p quoteNames quiet before after .within (s ++ t) := by
  refine h.append_of_apart ⟨k.plain, k.scanned, ?_, trivial⟩
  simpa using nest_frame k.nested level

/-- A text outside of quotes. -/
theorem ofText {text : String} (plain : IsPlainText p text)
    (nested : nest quiet before (Lexer.plainTokens text.toList) = some after)
    (ends : stop = .within ∨ stop = .apart ∧ Lexer.endsIdle text.toList) :
    Draft p quoteNames quiet before after stop (Sql.raw text) := by
  refine ⟨?_, ?_, ?_, ?_⟩
  · simp [Sql.raw, plain]
  · simpa [Sql.raw, Fragment.write, Fragment.tokens] using Lexer.scan_ordinary plain.1
  · simpa [Sql.raw, Fragment.tokens] using nested
  · rcases ends with rfl | ⟨rfl, idle⟩
    · exact trivial
    · simp [Sql.raw, Fragment.write, Ending.Holds, Lexer.run_ordinary _ plain.1, eq_of_beq idle]

theorem ofIsText {text : String} (h : IsText p quiet text) :
    Phrase p quoteNames quiet (Sql.raw text) := ofText h.plain h.nested (.inl rfl)

/-- Add a text outside of quotes. -/
theorem raw (marks : Lexer.HasMarks p) (h : Draft p quoteNames quiet before middle start s)
    {text : String} (plain : IsPlainText p text)
    (meets : start = .apart ∨ text ≠ "" ∧ Lexer.startsApart text.toList)
    (nested : nest quiet middle (Lexer.plainTokens text.toList) = some after)
    (ends : stop = .within ∨ stop = .apart ∧ Lexer.endsIdle text.toList) :
    Draft p quoteNames quiet before after stop (s ++ Sql.raw text) := by
  have k : Draft p quoteNames quiet middle after stop (Sql.raw text) := ofText plain nested ends
  rcases meets with rfl | ⟨nonempty, apart⟩
  · exact h.append_of_apart k
  · obtain ⟨c, rest, chars⟩ : ∃ c rest, text.toList = c :: rest :=
      List.exists_cons_of_ne_nil (by simpa using nonempty)
    rw [chars] at apart
    exact h.append_of_starts marks k (by simpa [Sql.raw, Fragment.write] using chars) apart

/-- Add a text that may be empty. -/
theorem maybe (marks : Lexer.HasMarks p) (h : Draft p quoteNames quiet before middle start s)
    {text : String} (part : IsPart p quiet middle text after)
    (apart : Lexer.startsApart text.toList) :
    Draft p quoteNames quiet before after .within (s ++ Sql.raw text) := by
  by_cases missing : text = ""
  · subst missing
    have none : (Fragment.raw "").tokens p quoteNames = [] := by
      change Lexer.plainTokens "".toList = []
      decide
    have nested := h.nested
    obtain rfl : middle = after := by simpa [Lexer.plainTokens, Lexer.Pending.run,
      Lexer.Pending.tokens, nest] using part.nested
    refine ⟨?_, ?_, ?_, trivial⟩
    · intro text member
      rcases List.mem_append.mp member with old | new
      · exact h.plain text old
      · obtain rfl : text = "" := by simpa [Sql.raw] using new
        exact part.plain
    · simpa [Sql.raw, Fragment.write, none] using h.scanned
    · simpa [Sql.raw, none] using nested
  · exact h.raw marks part.plain (.inr ⟨missing, apart⟩) part.nested (.inl rfl)

/-- Add a constant text. -/
theorem const (marks : Lexer.HasMarks p) (h : Draft p quoteNames quiet before middle start s)
    {text : String} (after : List Bracket) (stop : Ending)
    (step : isStep quiet middle start text after stop) :
    Draft p quoteNames quiet before after stop (s ++ Sql.raw text) := by
  simp only [isStep, Bool.and_eq_true, Bool.or_eq_true, beq_iff_eq, bne_iff_ne] at step
  obtain ⟨⟨⟨⟨plain, nonempty⟩, meets⟩, nested⟩, ends⟩ := step
  refine h.raw marks (IsPlainText.of marks (by simp) plain) ?_ nested ends
  exact meets.imp_right fun apart => ⟨nonempty, apart⟩

/-- Add a constant text and a phrase behind it. -/
theorem also (marks : Lexer.HasMarks p) (h : Draft p quoteNames quiet before middle start s)
    (text : String) (after : List Bracket) (step : isStep quiet middle start text after .apart)
    (k : Phrase p quoteNames quiet' t) (level : after = [] → quiet → quiet') :
    Draft p quoteNames quiet before after .within (s ++ Sql.raw text ++ t) :=
  (h.const marks after .apart step).part k level

/-- Add a closing parenthesis. -/
theorem close (marks : Lexer.HasMarks p)
    (h : Draft p quoteNames quiet before (.paren :: after) start s) :
    Draft p quoteNames quiet before after .apart (s ++ Sql.raw ")") := by
  have tokens : Lexer.plainTokens ")".toList = [.symbol ')'] := by decide
  have plain : isPlainText [] ")" := by decide
  refine h.raw marks (.of marks (by simp) plain) (.inr (by decide)) ?_ (.inr (by decide))
  rw [tokens]
  simp [nest, Token.mark]

/-- Begin with a constant text. -/
theorem ofConst (marks : Lexer.HasMarks p) {text : String} (after : List Bracket) (stop : Ending)
    (step : isStep quiet before .apart text after stop) :
    Draft p quoteNames quiet before after stop (Sql.raw text) :=
  nil.const marks after stop step

/-- The token of a name groups nothing. -/
theorem name_mark (legible : p.Legible) (quoteNames : Bool) (a : String) :
    ∀ t ∈ (Fragment.name a).tokens p quoteNames, t.mark = .plain :=
  fun t member => (IsNamePart.ofName a t member).mark legible

theorem isCommon_of_isRegularName {chars : List Char} (regular : isRegularName chars) {c : Char}
    (member : c ∈ chars) : Lexer.isCommon c := by
  have letter : Lexer.isWordChar c := by
    cases chars with
    | nil => contradiction
    | cons first rest =>
      simp only [isRegularName, Bool.and_eq_true, List.all_eq_true] at regular
      rcases List.mem_cons.mp member with rfl | member
      · simp [Lexer.isWordChar, Char.isAlphanum, regular.1]
      · exact regular.2 c member
  simp [Lexer.isCommon, letter]

/-- A name reads as one token. -/
theorem run_name (legible : p.Legible) (quoteNames : Bool) (a : String) :
    ∃ state, state.isName ∧ Lexer.run p (.plain .nothing) (p.writeName quoteNames a).toList =
        ([], state) ∧ state.settle = some ((Fragment.name a).tokens p quoteNames) := by
  simp only [Profile.writeName, Fragment.tokens]
  by_cases quoted : quoteNames || p.needsQuotes a
  · rw [if_pos quoted, if_pos quoted]
    exact ⟨.quotedMark a.toList, rfl, Lexer.run_quotedName legible.marks a,
      by simp [Lexer.State.settle]⟩
  · rw [if_neg quoted, if_neg quoted]
    have bare := quoted
    simp only [Bool.or_eq_true, not_or, Bool.not_eq_true] at bare
    have regular := (Profile.bare_of_needsQuotes bare.2).1
    have ordinary : a.toList.all (Lexer.isOrdinary p) := by
      rw [List.all_eq_true]
      intro c member
      exact legible.marks.common c (isCommon_of_isRegularName regular member)
    refine ⟨.plain (.word a.toList), rfl, ?_, ?_⟩
    · rw [Lexer.run_ordinary _ ordinary, Lexer.Pending.run_name regular]
    · simp [Lexer.State.settle, Lexer.Pending.tokens]

theorem writeName_starts (legible : p.Legible) (quoteNames : Bool) (a : String) :
    ∃ c rest, (p.writeName quoteNames a).toList = c :: rest ∧ c.isDigit = false := by
  unfold Profile.writeName
  by_cases quoted : quoteNames || p.needsQuotes a
  · obtain ⟨mark, opens⟩ := legible.marks.opens
    rw [if_pos quoted]
    refine ⟨mark, _, by simp [Profile.quotedName, opens]; rfl, ?_⟩
    refine Bool.eq_false_iff.mpr fun digit => ?_
    have ordinary := legible.marks.common mark
      (by simp [Lexer.isCommon, Lexer.isWordChar, Char.isAlphanum, digit])
    exact absurd opens (Lexer.isOrdinary_iff.mp ordinary).1
  · rw [if_neg quoted]
    simp only [Bool.or_eq_true, not_or, Bool.not_eq_true] at quoted
    have regular := (Profile.bare_of_needsQuotes quoted.2).1
    cases chars : a.toList with
    | nil => simp [chars, isRegularName] at regular
    | cons c rest =>
      simp only [chars, isRegularName, Bool.and_eq_true] at regular
      exact ⟨c, rest, rfl, Lexer.isDigit_of_isAlpha regular.1⟩

theorem ofName (legible : p.Legible) (a : String) :
    Draft p quoteNames quiet before before .name [.name a] := by
  obtain ⟨state, isName, run, settled⟩ := run_name legible quoteNames a
  refine ⟨by simp, ?_, ?_, ?_⟩
  · simp [Fragment.write, Lexer.scan, run, settled]
  · have plain := name_mark legible quoteNames a
    simp only [Sql.tokens_cons, Sql.tokens_nil, List.append_nil]
    simp only [Fragment.tokens, List.mem_singleton, forall_eq] at plain ⊢
    exact nest_plain plain quiet before
  · simpa [Fragment.write, run, Ending.Holds] using isName

/-- Add a name. -/
theorem name (legible : p.Legible) (h : Draft p quoteNames quiet before after .apart s)
    (a : String) : Draft p quoteNames quiet before after .name (s ++ [Fragment.name a]) :=
  h.append_of_apart (ofName legible a)

/-- Add a point and a name behind a name. -/
theorem dot (legible : p.Legible) (h : Draft p quoteNames quiet before after .name s) (a : String) :
    Draft p quoteNames quiet before after .name (s ++ Sql.raw "." ++ [Fragment.name a]) := by
  have next : Draft p quoteNames quiet after after .name [.name a] := ofName legible a
  obtain ⟨state, isName, run, settled⟩ := run_name legible quoteNames a
  obtain ⟨c, rest, chars, undigit⟩ := writeName_starts legible quoteNames a
  obtain ⟨last, settled', whole⟩ := Lexer.run_dot legible.marks
    (s := (Lexer.run p (.plain .nothing) (s.write p quoteNames).toList).2)
    rfl h.ends run chars undigit
  have text : (Sql.write p quoteNames (s ++ Sql.raw "." ++ [Fragment.name a])).toList =
      (s.write p quoteNames).toList ++ '.' :: (p.writeName quoteNames a).toList := by
    simp [Sql.raw, Fragment.write]
  have point : (Fragment.raw ".").tokens p quoteNames = [.symbol '.'] := by
    change Lexer.plainTokens ".".toList = _
    decide
  refine ⟨?_, ?_, ?_, ?_⟩
  · intro text member
    simp only [Sql.raw, List.append_assoc, List.mem_append, List.mem_cons, List.not_mem_nil,
      or_false, Fragment.raw.injEq, reduceCtorEq] at member
    rcases member with member | rfl
    · exact h.plain text member
    · have plain : isPlainText [] "." := by decide
      exact IsPlainText.of legible.marks (by simp) plain
  · have first := h.scanned
    simp only [Lexer.scan, settled', Option.map_some, Option.some.injEq] at first
    rw [Lexer.scan, text, whole]
    simp [settled, ← first, Sql.raw, point]
  · rw [Sql.tokens_append, Sql.tokens_append, nest_append, nest_append, h.nested]
    have kept := next.nested
    simp only [Sql.raw, Sql.tokens_cons, Sql.tokens_nil, List.append_nil, Option.bind_some] at kept ⊢
    rw [point, nest_plain rfl, Option.bind_some, kept]
  · rw [text, whole]
    exact isName

/-- Add a string constant. -/
theorem text (marks : Lexer.HasMarks p) (h : Draft p quoteNames quiet before after .apart s)
    (a : String) : Draft p quoteNames quiet before after .within (s ++ [Fragment.text a]) := by
  refine h.append_of_apart ⟨by simp, ?_, ?_, trivial⟩
  · simpa [Fragment.write, Fragment.tokens] using Lexer.scan_quotedText marks a
  · simp [Fragment.tokens, nest, Token.mark]

/-- A text that stands between the parts of a list and leaves the open brackets alone. -/
structure Separates (p : Profile) (quiet : Bool) (opened : List Bracket) (separator : String) :
    Prop extends IsPart p quiet opened separator opened where
  nonempty : separator ≠ ""
  apart : Lexer.startsApart separator.toList
  idle : Lexer.endsIdle separator.toList

theorem Separates.const (marks : Lexer.HasMarks p) {opened : List Bracket} {separator : String}
    (step : isStep quiet opened .within separator opened .apart) :
    Separates p quiet opened separator := by
  simp only [isStep, Bool.and_eq_true, Bool.or_eq_true, beq_iff_eq, bne_iff_ne, reduceCtorEq,
    false_or, true_and] at step
  obtain ⟨⟨⟨⟨plain, nonempty⟩, apart⟩, nested⟩, idle⟩ := step
  exact ⟨⟨.of marks (by simp) plain, nested⟩, nonempty, apart, idle⟩

/-- Add phrases with a separator between them. -/
theorem joinWith (marks : Lexer.HasMarks p) (h : Draft p quoteNames quiet before after .apart s)
    {separator : String} (step : Separates p quiet after separator) {parts : List Sql}
    (each : ∀ t ∈ parts, Phrase p quoteNames quiet' t) (level : after = [] → quiet → quiet') :
    Draft p quoteNames quiet before after .within (s ++ Sql.joinWith separator parts) := by
  unfold Sql.joinWith
  induction parts generalizing s with
  | nil => simpa using h.weaken
  | cons t parts ih =>
    have first := h.part (each t (by simp)) level
    cases parts with
    | nil => simpa using first
    | cons u parts =>
      have separated : Draft p quoteNames quiet before after .apart
          (s ++ t ++ Sql.raw separator) :=
        first.raw marks step.plain (.inr ⟨step.nonempty, step.apart⟩) step.nested
          (.inr ⟨rfl, step.idle⟩)
      have rest := ih separated fun v member => each v (List.mem_cons_of_mem _ member)
      simpa [List.intersperse] using rest

end Draft

namespace Phrase

variable {p : Profile} {quoteNames quiet quiet' : Bool} {s : Sql}

/-- A phrase is a draft that nothing stands before. -/
theorem draft (h : Phrase p quoteNames quiet s) :
    Draft p quoteNames quiet [] [] .within s := h

/-- A separator that changes nothing. -/
def isSeparator (quiet : Bool) (text : String) : Bool :=
  isStep quiet [] .within text [] .apart

theorem joinWith (marks : Lexer.HasMarks p) {separator : String}
    (step : isSeparator quiet separator) {parts : List Sql}
    (each : ∀ t ∈ parts, Phrase p quoteNames quiet t) :
    Phrase p quoteNames quiet (Sql.joinWith separator parts) :=
  Draft.nil.joinWith marks (.const marks step) each fun _ h => h

/-- A clause behind its keyword, or nothing. -/
theorem clause (marks : Lexer.HasMarks p) {before after : List Bracket} {ending : Ending}
    (h : Draft p quoteNames quiet before after ending s) (keyword : String)
    (step : isStep quiet after .within keyword after .apart) {t : Option Sql}
    (each : ∀ u ∈ t, Phrase p quoteNames quiet' u) (level : after = [] → quiet → quiet') :
    Draft p quoteNames quiet before after .within (s ++ Render.clause keyword t) := by
  cases t with
  | none => simpa [Render.clause] using h.weaken
  | some t =>
    have added := (h.weaken.const marks after .apart step).part (each t rfl) level
    simpa [Render.clause] using added

theorem parens (marks : Lexer.HasMarks p) (h : Phrase p quoteNames quiet s) :
    Draft p quoteNames true [] [] .apart (Sql.parens s) :=
  ((Draft.ofConst marks [.paren] .apart (by decide)).part h (by simp)).const marks [] .apart
    (by decide)

end Phrase

end Pushdown
