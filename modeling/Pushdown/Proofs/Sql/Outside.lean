import Pushdown.Proofs.Sql.Conditions

/-!
# Tokens outside of brackets

What a text shows are its tokens outside of all brackets. They decide how the text is taken apart
together with what stands around it, and they do not depend on what its brackets enclose.

Values show little: most of them are calls, conversions and CASE, of which only the name can be
seen. The lemmas follow the functions that put values together. They hold for every kind of tokens
that takes in the harmless ones, which neither relate values nor name a condition nor belong to a
clause.
-/

namespace Pushdown

open Grouping (Groups)

/-! ## Tokens that are shown -/

/-- How many brackets are open after some tokens, and the tokens outside of all brackets. -/
def outside : Nat → List Token → Nat × List Token
  | depth, [] => (depth, [])
  | depth, t :: rest =>
    match t.mark with
    | .opens _ => outside (depth + 1) rest
    | .closes _ => outside (depth - 1) rest
    | _ =>
      let (after, shown) := outside depth rest
      (after, if depth = 0 then t :: shown else shown)

theorem outside_append (depth : Nat) (ts us : List Token) :
    outside depth (ts ++ us) = ((outside (outside depth ts).1 us).1,
      (outside depth ts).2 ++ (outside (outside depth ts).1 us).2) := by
  induction ts generalizing depth with
  | nil => rfl
  | cons t ts ih =>
    simp only [List.cons_append, outside]
    split
    · exact ih _
    · exact ih _
    · rw [ih]
      split <;> simp

/-- Inside of brackets, a text that closes what it opens shows nothing. -/
theorem outside_of_nest {quiet : Bool} {opened after : List Bracket} {ts : List Token}
    (h : nest quiet opened ts = some after) (depth : Nat) :
    outside (opened.length + depth + 1) ts = (after.length + depth + 1, []) := by
  induction ts generalizing opened with
  | nil =>
    obtain rfl : opened = after := by simpa [nest] using h
    rfl
  | cons t ts ih =>
    simp only [nest] at h
    split at h
    · rename_i mark
      simp [outside, mark, ih h]
    · rename_i b mark
      have deeper := ih h
      simp only [List.length_cons, Nat.add_right_comm _ 1] at deeper
      simp [outside, mark, deeper]
    · rename_i b mark
      split at h
      · contradiction
      · split at h
        · have outer := ih h
          simp [outside, mark, Nat.add_right_comm _ 1, outer]
        · contradiction
    · rename_i plain opens closes
      split at h
      · contradiction
      · have kept := ih h
        unfold outside
        split
        · exact absurd ‹_› (opens _)
        · exact absurd ‹_› (closes _)
        · simp [kept]

/-- The token of an item, if it is one. -/
def Item.token? : Item → Option Token
  | .token t => some t
  | .group .. => none

namespace Grouping

/-- What a step shows outside of all brackets. -/
theorem step_outside {s s' : State} {t : Token} (h : step s t = some s') :
    outside s.1.length [t] = (s'.1.length, (outside s.1.length [t]).2) ∧
      (base s'.1 s'.2).filterMap Item.token? =
        (base s.1 s.2).filterMap Item.token? ++ (outside s.1.length [t]).2 := by
  rcases step_cases h with ⟨b, mark, rfl⟩ | ⟨b, before, opened, mark, innermost, rfl⟩ |
    ⟨opens, closes, rfl⟩
  · simp [outside, mark, base]
  · rw [innermost]
    cases opened <;> simp [outside, mark, base, Item.token?]
  · unfold outside
    split
    · exact absurd ‹_› (opens _)
    · exact absurd ‹_› (closes _)
    · cases within : s.1 <;> simp [outside, base, Item.token?]

theorem run_outside {s s' : State} {ts : List Token} (h : run s ts = some s') :
    (outside s.1.length ts).1 = s'.1.length ∧
      (base s'.1 s'.2).filterMap Item.token? =
        (base s.1 s.2).filterMap Item.token? ++ (outside s.1.length ts).2 := by
  induction ts generalizing s with
  | nil =>
    cases h
    simp [outside]
  | cons t ts ih =>
    obtain ⟨next, first, rest⟩ := Option.bind_eq_some_iff.mp h
    obtain ⟨level, shown⟩ := step_outside first
    obtain ⟨last, all⟩ := ih rest
    rw [← List.singleton_append, outside_append, level]
    exact ⟨last, by rw [all, shown, List.append_assoc]⟩

/-- The tokens outside of brackets are those among the items. -/
theorem Groups.outside {ts : List Token} {items : List Item} (h : Groups ts items) :
    Pushdown.outside 0 ts = (0, items.filterMap Item.token?) := by
  obtain ⟨level, shown⟩ := run_outside h
  simp only [List.length_nil, base, List.filterMap_nil, List.nil_append] at level shown
  exact Prod.ext level shown.symm

/-- The parts of a name are items by themselves. -/
theorem Groups.names {p : Profile} (legible : p.Legible) {ts : List Token}
    (parts : ∀ t ∈ ts, IsNamePart p t) : Groups ts (ts.map .token) := by
  refine .tokens (List.all_eq_true.mpr fun t member => ?_)
  rw [(parts t member).mark legible]
  rfl

end Grouping

theorem Item.filterMap_token? (ts : List Token) :
    (ts.map Item.token).filterMap Item.token? = ts := by
  simp [List.filterMap_map, Function.comp_def, Item.token?]

/-- Names show all their parts. -/
theorem outside_of_names {p : Profile} (legible : p.Legible) {ts : List Token}
    (parts : ∀ t ∈ ts, IsNamePart p t) : outside 0 ts = (0, ts) := by
  rw [(Groups.names legible parts).outside, Item.filterMap_token?]

/-! ## Texts that show one kind of tokens -/

/-- Outside of all brackets, the text shows only tokens of the kind. -/
def showsOnly (kind : Token → Bool) (before after : Nat) (text : String) : Bool :=
  let (depth, shown) := outside before (Lexer.plainTokens text.toList)
  depth == after && shown.all kind

/-- The same of the fragments of a statement. -/
def Sql.ShowsOnly (p : Profile) (quoteNames : Bool) (kind : Token → Bool) (before after : Nat)
    (s : Sql) : Prop :=
  (outside before (s.tokens p quoteNames)).1 = after ∧
    ∀ t ∈ (outside before (s.tokens p quoteNames)).2, kind t

namespace Sql.ShowsOnly

variable {p : Profile} {quoteNames : Bool} {kind : Token → Bool} {before middle after : Nat}
  {s t : Sql}

theorem append (h : s.ShowsOnly p quoteNames kind before middle)
    (k : t.ShowsOnly p quoteNames kind middle after) :
    (s ++ t).ShowsOnly p quoteNames kind before after := by
  obtain ⟨rfl, first⟩ := h
  obtain ⟨rfl, second⟩ := k
  rw [ShowsOnly, Sql.tokens_append, outside_append]
  refine ⟨rfl, fun u member => ?_⟩
  rcases List.mem_append.mp member with member | member
  · exact first u member
  · exact second u member

theorem const {text : String} (h : showsOnly kind before after text) :
    (Sql.raw text).ShowsOnly p quoteNames kind before after := by
  rw [showsOnly, Bool.and_eq_true, beq_iff_eq, List.all_eq_true] at h
  rw [ShowsOnly, Sql.tokens_raw]
  exact h

theorem none : ShowsOnly p quoteNames kind before before [] := ⟨rfl, by simp [outside]⟩

/-- What stands in brackets does not show. -/
theorem inside {quiet : Bool} (phrase : Phrase p quoteNames quiet s) (depth : Nat) :
    s.ShowsOnly p quoteNames kind (depth + 1) (depth + 1) := by
  have hidden := outside_of_nest phrase.nested depth
  rw [List.length_nil, Nat.zero_add] at hidden
  rw [ShowsOnly, hidden]
  exact ⟨rfl, by simp⟩

theorem text {value : String} (other : kind (.string value)) (depth : Nat) :
    ShowsOnly p quoteNames kind depth depth [.text value] := by
  refine ⟨rfl, fun t member => ?_⟩
  by_cases top : depth = 0
  · obtain rfl : t = .string value := by
      simpa [Fragment.tokens, outside, Token.mark, top] using member
    exact other
  · simp [Fragment.tokens, outside, Token.mark, top] at member

/-- A clause inside of brackets. -/
theorem clause {keyword : String} {depth : Nat}
    (step : showsOnly kind (depth + 1) (depth + 1) keyword) {quiet : Bool} {t : Option Sql}
    (h : ∀ u ∈ t, Phrase p quoteNames quiet u) :
    (Render.clause keyword t).ShowsOnly p quoteNames kind (depth + 1) (depth + 1) := by
  cases t with
  | none => exact none
  | some t => exact (const step).append (inside (h t rfl) depth)

/-- A call from its name to its closing parenthesis. -/
theorem call {opening : String} (step : showsOnly kind 0 1 opening) {quiet : Bool}
    (h : Phrase p quoteNames quiet s) (closing : showsOnly kind 1 0 ")") :
    (Sql.raw opening ++ s ++ Sql.raw ")").ShowsOnly p quoteNames kind 0 0 :=
  ((const step).append (inside h 0)).append (const closing)

theorem joinWith {separator : String} {depth : Nat}
    (step : (Sql.raw separator).ShowsOnly p quoteNames kind depth depth) {parts : List Sql}
    (each : ∀ t ∈ parts, t.ShowsOnly p quoteNames kind depth depth) :
    (Sql.joinWith separator parts).ShowsOnly p quoteNames kind depth depth := by
  unfold Sql.joinWith
  induction parts with
  | nil => exact none
  | cons part parts ih =>
    have first := each part (by simp)
    have rest := ih fun t member => each t (by simp [member])
    cases parts with
    | nil => simpa using first
    | cons next parts => exact first.append (step.append rest)

theorem imp (h : s.ShowsOnly p quoteNames kind before after) {wider : Token → Bool}
    (weaker : ∀ t, kind t → wider t) : s.ShowsOnly p quoteNames wider before after :=
  ⟨h.1, fun t member => weaker t (h.2 t member)⟩

end Sql.ShowsOnly

/-! ## Kinds of tokens -/

/-- Relates the value before it to what follows. -/
def Token.relates : Token → Bool
  | .symbol c => ['=', '<', '>'].contains c
  | .word w => ["BETWEEN", "IN", "IS", "LIKE"].contains (Text.upper w)
  | _ => false

/-- The name of a call that is a condition. -/
def Token.matchesPattern : Token → Bool
  | .word w => Text.upper w == "REGEXP_LIKE"
  | _ => false

/-- Neither relates values nor names a condition. -/
def Token.isFree (t : Token) : Bool := !t.relates && !t.matchesPattern

/-- The word, in capital or small letters. -/
def Token.isWord (name : String) : Token → Bool
  | .word w => Text.upper w == name
  | _ => false

/-- The words that take a FROM clause and an ORDER BY clause apart. -/
def clauseWords : List String := ["JOIN", "ON", "ASC", "DESC", "NULLS"]

/-- Does not take a clause apart. -/
def Token.isContent (t : Token) : Bool := clauseWords.all fun name => !t.isWord name

theorem Token.isWord_of_isContent {t : Token} (h : t.isContent) {name : String}
    (known : name ∈ clauseWords) : t.isWord name = false := by
  have other := List.all_eq_true.mp h name known
  simpa using other

/-- What every dialect may show in a value. -/
def Token.isInert (t : Token) : Bool := t.isFree && t.isContent

theorem Token.isFree_of_isInert (t : Token) (h : t.isInert) : t.isFree := by
  rw [isInert, Bool.and_eq_true] at h
  exact h.1

theorem Token.isContent_of_isInert (t : Token) (h : t.isInert) : t.isContent := by
  rw [isInert, Bool.and_eq_true] at h
  exact h.2

/-- A text that shows tokens of a kind shows tokens of every wider kind. -/
theorem showsOnly_imp {kind wider : Token → Bool} (weaker : ∀ t, kind t → wider t)
    {before after : Nat} {text : String} (h : showsOnly kind before after text) :
    showsOnly wider before after text := by
  simp only [showsOnly, Bool.and_eq_true, List.all_eq_true] at h ⊢
  exact ⟨h.1, fun t member => weaker t (h.2 t member)⟩

/-- Inside of brackets, a text that closes its own brackets shows nothing. -/
theorem showsOnly_of_nest {kind : Token → Bool} {quiet : Bool} {text : String}
    (nested : nest quiet [] (Lexer.plainTokens text.toList) = some []) (depth : Nat) :
    showsOnly kind (depth + 1) (depth + 1) text := by
  have hidden := outside_of_nest nested depth
  rw [List.length_nil, Nat.zero_add] at hidden
  simp [showsOnly, hidden]

/-- A constant text that shows only what every dialect may show. -/
theorem Sql.ShowsOnly.inert {p : Profile} {quoteNames : Bool} {kind : Token → Bool}
    (admits : ∀ t, t.isInert → kind t) {before after : Nat} {text : String}
    (h : showsOnly Token.isInert before after text) :
    (Sql.raw text).ShowsOnly p quoteNames kind before after := .const (showsOnly_imp admits h)

/-! ## Values -/

/-- What the function writes outside of brackets. -/
def FunctionSpec.shows (kind : Token → Bool) (spec : FunctionSpec) : Bool :=
  match spec.style with
  | .keyword => showsOnly kind 0 0 spec.name
  | .unary | .operator => true
  | .call | .other _ => showsOnly kind 0 1 (spec.name ++ "(")

/-- Both spellings of the type show only tokens of the kind. -/
def TypeSpec.shows (kind : Token → Bool) (spec : TypeSpec) : Bool :=
  showsOnly kind 0 0 spec.name && showsOnly kind 0 0 spec.localTimeZone

/-- The template of a constant shows only tokens of the kind. -/
def Profile.ShowsTemplate (p : Profile) (kind : Token → Bool) (template : String) : Prop :=
  ∃ front opened back, IsTemplate p template front opened back ∧
    showsOnly kind 0 opened.length front ∧ showsOnly kind opened.length 0 back

section

variable {kind wider : Token → Bool} (weaker : ∀ t, kind t → wider t)

include weaker

theorem FunctionSpec.shows_imp {spec : FunctionSpec} (h : spec.shows kind) : spec.shows wider := by
  unfold shows at h ⊢
  split <;> simp_all [showsOnly_imp weaker]

theorem TypeSpec.shows_imp {spec : TypeSpec} (h : spec.shows kind) : spec.shows wider := by
  rw [shows, Bool.and_eq_true] at h ⊢
  exact ⟨showsOnly_imp weaker h.1, showsOnly_imp weaker h.2⟩

theorem Profile.ShowsTemplate.imp {p : Profile} {template : String}
    (h : p.ShowsTemplate kind template) : p.ShowsTemplate wider template := by
  obtain ⟨front, opened, back, isTemplate, before, behind⟩ := h
  exact ⟨front, opened, back, isTemplate, showsOnly_imp weaker before, showsOnly_imp weaker behind⟩

end

/-- Two texts show what each of them shows. -/
theorem showsOnly_append {kind : Token → Bool} {before middle after : Nat} {a b : String}
    (first : showsOnly kind before middle a) (second : showsOnly kind middle after b)
    (meets : Lexer.endsIdle a.toList ∨ Lexer.startsApart b.toList) :
    showsOnly kind before after (a ++ b) := by
  have tokens : Lexer.plainTokens (a ++ b).toList =
      Lexer.plainTokens a.toList ++ Lexer.plainTokens b.toList := by
    rw [String.toList_append]
    rcases meets with idle | apart
    · exact Lexer.plainTokens_append_of_idle idle
    · exact Lexer.plainTokens_append_of_starts apart
  simp only [showsOnly, Bool.and_eq_true, beq_iff_eq, tokens, outside_append] at first second ⊢
  obtain ⟨rfl, first⟩ := first
  obtain ⟨rfl, second⟩ := second
  simp [first, second]

namespace Render

open Sql (raw joinWith parens)

variable {d : Dialect} {p : Profile} {quoteNames : Bool} {kind : Token → Bool}

/-- What stands in parentheses does not show. -/
theorem parens_showsOnly {quiet : Bool} {t : Sql} (h : Phrase p quoteNames quiet t) :
    (parens t).ShowsOnly p quoteNames kind 0 0 := .call rfl h rfl

/-- What stands in a CASE does not show. -/
theorem truthCase_showsOnly {t : Sql} (h : Phrase p quoteNames false t) :
    (truthCase t).ShowsOnly p quoteNames kind 0 0 := by
  have asked : (raw "CASE WHEN " ++ t).ShowsOnly p quoteNames kind 0 1 :=
    (Sql.ShowsOnly.const rfl).append (.inside h 0)
  have negated : (raw "CASE WHEN " ++ t ++ raw " THEN 1 WHEN NOT (" ++ t).ShowsOnly p quoteNames
      kind 0 2 := (asked.append (.const rfl)).append (.inside h 1)
  exact negated.append (.const rfl)

theorem fill_showsOnly {template : String} (h : p.ShowsTemplate kind template)
    (strings : ∀ value, kind (.string value)) (value : String) :
    (Sql.fill p template value).ShowsOnly p quoteNames kind 0 0 := by
  obtain ⟨front, opened, back, isTemplate, before, behind⟩ := h
  have unlessEmpty {text : String} {before after : Nat} (step : showsOnly kind before after text) :
      (Sql.rawUnlessEmpty text).ShowsOnly p quoteNames kind before after := by
    unfold Sql.rawUnlessEmpty
    split
    · rename_i empty
      have nothing : Lexer.plainTokens "".toList = [] := by decide
      rw [showsOnly, empty, nothing] at step
      simpa [Sql.ShowsOnly, outside] using step
    · exact .const step
  rw [Sql.fill_of_isTemplate isTemplate]
  exact ((unlessEmpty before).append (.text (strings value) _)).append (unlessEmpty behind)

section

variable (admits : ∀ t, t.isInert → kind t)

include admits

theorem numeral_showsOnly {text : String} (h : IsNumeral text) :
    (raw text).ShowsOnly p quoteNames kind 0 0 := by
  obtain ⟨signs, body, tokens, sign⟩ := h.tokens
  have number : kind (.number body) := admits _ rfl
  have plus : kind (.symbol '+') := admits _ (by decide)
  have minus : kind (.symbol '-') := admits _ (by decide)
  rw [Sql.ShowsOnly, Sql.tokens_raw, tokens]
  rcases sign with rfl | rfl | rfl <;> simp [outside, Token.mark, number, plus, minus]

theorem literal_showsOnly (dates : d.profile.ShowsTemplate kind d.profile.dateLiteral)
    (timestamps : d.profile.ShowsTemplate kind d.profile.timestampLiteral) {l : Literal}
    (format : l.KeepsFormat) :
    Ensures (Sql.ShowsOnly d.profile quoteNames kind 0 0) (literal d l) := by
  have strings (value : String) : kind (.string value) := admits _ rfl
  intro s h
  unfold literal at h
  unfold Literal.KeepsFormat at format
  cases type : l.type <;> simp only [type] at h format
  case null =>
    cases h
    exact .inert admits (by decide)
  case bool =>
    split at h
    · cases h
      rcases format with value | value <;> rw [value] <;> exact .inert admits (by decide)
    · cases h
      split <;> exact .inert admits (by decide)
  case exactNumeric =>
    cases h
    exact numeral_showsOnly admits (.of_isExactNumeric format)
  case double =>
    cases h
    exact numeral_showsOnly admits (.of_isFiniteDouble format)
  case string =>
    cases h
    exact .text (strings l.value) _
  case date =>
    cases h
    exact fill_showsOnly dates strings l.value
  case timestamp | timestampUtc =>
    cases h
    exact fill_showsOnly timestamps strings l.value
  case interval =>
    simp only [bind_eq_ok, require_eq_ok, pure_eq_ok] at h
    obtain ⟨-, -, rfl⟩ := h
    have value : Sql.ShowsOnly d.profile quoteNames kind 0 0
        (raw "INTERVAL " ++ [Fragment.text l.value]) :=
      (Sql.ShowsOnly.inert admits (by decide)).append (.text (strings l.value) 0)
    cases range : l.interval.range
    · exact value.append (.inert admits (by decide))
    · exact value.append (.inert admits (by decide))
    · simp [range, IntervalRange.isKnown] at format

theorem extract_showsOnly {part : DatePart} (known : ∀ name, part ≠ .other name) {arg : Result Sql}
    (h : Ensures (Phrase p quoteNames false) arg) :
    Ensures (Sql.ShowsOnly p quoteNames kind 0 0) (extract d part arg) := by
  intro s whole
  obtain ⟨a, rendered, forms⟩ := extract_eq_ok whole
  have phrase := h a rendered
  rcases forms with rfl | rfl | ⟨format, type, found, rfl⟩
  · refine .call (showsOnly_imp admits ?_) phrase rfl
    cases part with
    | other name => exact absurd rfl (known name)
    | _ => decide +kernel
  · refine .call (showsOnly_imp admits ?_) phrase rfl
    cases part with
    | other name => exact absurd rfl (known name)
    | _ => decide +kernel
  · have types : type = "INTEGER" ∨ type = "REAL" := by
      cases part <;> simp [strftimeFormat?] at found <;> simp [← found.2]
    have opening : (raw "CAST(STRFTIME(").ShowsOnly p quoteNames kind 0 2 :=
      .inert admits (by decide)
    have formatted := (opening.append (.text (admits (.string format) rfl) 2)).append
      (@Sql.ShowsOnly.const p quoteNames kind 2 2 ", " rfl)
    have opened := formatted.append (.inside phrase 1)
    rcases types with rfl | rfl
    · exact opened.append (.inert admits (by decide))
    · exact opened.append (.inert admits (by decide))

/-- A type shows its name at most. -/
theorem typeName_showsOnly (types : d.profile.types.Forall fun spec => spec.shows kind)
    {type : DataType} {name : String} (h : d.profile.typeName? type = some name) :
    showsOnly kind 0 0 name := by
  simp only [Profile.typeName?, Option.bind_eq_bind, Option.bind_eq_some_iff] at h
  obtain ⟨spec, found, h⟩ := h
  have known := types.get? found
  rw [TypeSpec.shows, Bool.and_eq_true] at known
  obtain ⟨plain, zoned⟩ := known
  have number (n : Int) : showsOnly kind 1 1 (toString n) :=
    showsOnly_of_nest ((IsNumeral.toString_int n).nested false []) 0
  have last (n : Int) : showsOnly kind 1 0 (toString n ++ ")") :=
    showsOnly_append (number n) rfl (.inr (by decide))
  have open_ {text : String} (h : showsOnly kind 1 0 text) :
      showsOnly kind 0 0 (spec.name ++ ("(" ++ text)) := by
    have opening : showsOnly kind 0 1 "(" := rfl
    exact showsOnly_append plain (showsOnly_append opening h (.inl (by decide)))
      (.inr (Lexer.startsApart_append (by decide)))
  have two (n m : Int) : showsOnly kind 1 0 (toString n ++ (", " ++ (toString m ++ ")"))) :=
    showsOnly_append (number n) (showsOnly_append rfl (last m) (.inl (by decide)))
      (.inr (Lexer.startsApart_append (by decide)))
  have range (r : IntervalRange) : showsOnly kind 0 0 (spec.name ++ (" " ++ r.qualifier)) := by
    have qualifier : r.qualifier = "DAY TO SECOND" ∨ r.qualifier = "YEAR TO MONTH" := by
      cases r <;> simp [IntervalRange.qualifier]
    refine showsOnly_append plain ?_ (.inr (Lexer.startsApart_append (by decide)))
    rcases qualifier with same | same <;> rw [same] <;> exact showsOnly_imp admits (by decide)
  split at h
  · split at h
    · contradiction
    · exact Option.some.inj h ▸ zoned
  · split at h
    · exact Option.some.inj h ▸ plain
    · split at h <;> cases h
      · simp only [String.append_assoc]
        exact open_ (two type.precision type.scale)
      · simp only [String.append_assoc]
        exact open_ (last type.size)
      · simp only [String.append_assoc]
        exact open_ (last type.size)
      · simp only [String.append_assoc]
        exact range type.range
      · exact plain

theorem cast_showsOnly (readable : d.Readable)
    (types : d.profile.castStyle = .doubleColon →
      d.profile.types.Forall fun spec => spec.shows kind)
    {type : DataType} {arg : Result Sql} (h : Ensures (Phrase d.profile quoteNames false) arg) :
    Ensures (Sql.ShowsOnly d.profile quoteNames kind 0 0) (cast d type arg) := by
  intro s whole
  obtain ⟨name, a, found, rendered, rfl⟩ := cast_eq_ok.mp whole
  have phrase := h a rendered
  split
  · rename_i style
    have colons : showsOnly kind 0 0 "::" := showsOnly_imp admits (by decide)
    have spelled := typeName_showsOnly admits (types style) found
    exact (parens_showsOnly phrase).append (.const (showsOnly_append colons spelled (.inl (by decide))))
  · have spelled : showsOnly kind 1 1 name :=
      showsOnly_of_nest (typeName_isText readable found).nested 0
    have closed : showsOnly kind 1 0 (name ++ ")") :=
      showsOnly_append spelled rfl (.inr (by decide))
    have ending : showsOnly kind 1 0 (" AS " ++ name ++ ")") := by
      rw [String.append_assoc]
      exact showsOnly_append rfl closed (.inl (by decide))
    exact ((Sql.ShowsOnly.inert admits (by decide)).append (.inside phrase 0)).append
      (.const ending)

theorem groupConcat_showsOnly {arg : Result Sql} {distinct : Bool} {order : Option (Result Sql)}
    {separator : Option String} (ha : Ensures (Phrase p quoteNames false) arg)
    (ho : ∀ r ∈ order, Ensures (Phrase p quoteNames false) r) :
    Ensures (Sql.ShowsOnly p quoteNames kind 0 0)
      (groupConcat d arg distinct order separator) := by
  intro s whole
  obtain ⟨-, a, o, rendered, orderRendered, rfl⟩ := groupConcat_eq_ok.mp whole
  have ordered := Ensures.part ho orderRendered
  have value : ((if distinct then raw "DISTINCT " else []) ++ a).ShowsOnly p quoteNames
      kind 1 1 := by
    refine Sql.ShowsOnly.append ?_ (.inside (ha a rendered) 0)
    split
    · exact .const rfl
    · exact .none
  have text (t : String) : Sql.ShowsOnly p quoteNames kind 1 1 [.text t] :=
    .text (admits (.string t) rfl) 1
  have needed : Sql.ShowsOnly p quoteNames kind 1 1
      ((separator.map fun s => [.text s]).getD [.text ","]) := by
    cases separator <;> exact text _
  have given (keyword : String) (step : showsOnly kind 1 1 keyword) (t : Option String) :
      (clause keyword (t.map fun s => [.text s])).ShowsOnly p quoteNames kind 1 1 := by
    cases t with
    | none => exact .none
    | some t => exact (Sql.ShowsOnly.const step).append (text t)
  have sorted : (clause " " o).ShowsOnly p quoteNames kind 1 1 := .clause rfl ordered
  have opened (opening : String) (step : showsOnly Token.isInert 0 1 opening) :=
    (@Sql.ShowsOnly.inert p quoteNames kind admits 0 1 opening step).append value
  have comma := @Sql.ShowsOnly.const p quoteNames kind 1 1 ", " rfl
  have closing := @Sql.ShowsOnly.const p quoteNames kind 1 0 ")" rfl
  have reopening := @Sql.ShowsOnly.inert p quoteNames kind admits 1 1 ") WITHIN GROUP ("
    (by decide)
  cases d.concatStyle with
  | groupConcat =>
    exact (((opened "GROUP_CONCAT(" (by decide)).append sorted).append
      (given " SEPARATOR " rfl separator)).append closing
  | groupConcatArgument =>
    have separated : (clause ", " (if distinct then none
        else separator.map fun s => [.text s])).ShowsOnly p quoteNames kind 1 1 := by
      split
      · exact .none
      · exact given ", " rfl separator
    exact (((opened "GROUP_CONCAT(" (by decide)).append separated).append sorted).append closing
  | stringAgg =>
    exact (((opened "STRING_AGG(" (by decide)).append (given ", " rfl separator)).append
      sorted).append closing
  | stringAggSeparator =>
    exact ((((opened "STRING_AGG(" (by decide)).append comma).append needed).append
      sorted).append closing
  | stringAggWithin =>
    refine ((((opened "STRING_AGG(" (by decide)).append comma).append needed).append
      closing).append ?_
    cases o with
    | none => exact .none
    | some o => exact .call (showsOnly_imp admits (by decide)) (ordered o rfl) rfl
  | listagg since =>
    refine (((((opened "LISTAGG(" (by decide)).append comma).append needed).append
      reopening).append ?_).append closing
    cases o with
    | none => exact .const rfl
    | some o => exact .inside (ordered o rfl) 0

section

variable (marks : Lexer.HasMarks p)

include marks

omit admits in
theorem case_showsOnly {basis : Option (Result Sql)} {branches : List (Result Sql × Result Sql)}
    {otherwise : Option (Result Sql)} (hb : ∀ r ∈ basis, Ensures (Phrase p quoteNames false) r)
    (hc : ∀ b ∈ branches, Ensures (Phrase p quoteNames false) b.1 ∧
      Ensures (Phrase p quoteNames false) b.2)
    (he : ∀ r ∈ otherwise, Ensures (Phrase p quoteNames false) r) :
    Ensures (Sql.ShowsOnly p quoteNames kind 0 0) (case d basis branches otherwise) := by
  intro s whole
  obtain ⟨b, parts, e, basisRendered, rendered, otherwiseRendered, rfl⟩ := case_eq_ok.mp whole
  have basisPhrase := Ensures.part hb basisRendered
  have each : ∀ part ∈ parts, part.ShowsOnly p quoteNames kind 1 1 := by
    refine Ensures.parts (fun r member => ?_) rendered
    obtain ⟨⟨condition, result⟩, listed, rfl⟩ := List.mem_map.mp member
    intro part whole
    obtain ⟨c, r, conditionRendered, resultRendered, rfl⟩ := branch_eq_ok.mp whole
    obtain ⟨conditionPhrase, resultPhrase⟩ := hc _ listed
    have asked := branchCondition_phrase (d := d) marks basisPhrase
      (conditionPhrase c conditionRendered)
    exact (((Sql.ShowsOnly.const rfl).append (.inside asked 0)).append (.const rfl)).append
      (.inside (resultPhrase r resultRendered) 0)
  have answers : Sql.ShowsOnly p quoteNames kind 1 1 parts.flatten := by
    clear rendered whole
    induction parts with
    | nil => exact .none
    | cons part parts ih =>
      exact (each part (by simp)).append (ih fun t member => each t (by simp [member]))
  have based : (if d.has .simpleCase then clause " " b else []).ShowsOnly p quoteNames
      kind 1 1 := by
    split
    · exact .clause rfl basisPhrase
    · exact .none
  have otherwisePhrase := Ensures.part he otherwiseRendered
  exact ((((Sql.ShowsOnly.const rfl).append based).append answers).append
    (.clause rfl otherwisePhrase)).append (.const rfl)

theorem aggregate_showsOnly
    (spellings : d.profile.aggregates.Forall fun spelling => showsOnly kind 0 1 (spelling ++ "("))
    {name : String} {distinct : Bool} {args : List (Result Sql)} {filter : Option (Result Sql)}
    (ha : ∀ r ∈ args, Ensures (Phrase p quoteNames false) r)
    (hf : ∀ r ∈ filter, Ensures (Phrase p quoteNames false) r) :
    Ensures (Sql.ShowsOnly p quoteNames kind 0 0) (aggregate d name distinct args filter) := by
  intro s whole
  obtain ⟨spelling, a, f, found, argsRendered, filterRendered, rfl⟩ := aggregate_eq_ok.mp whole
  refine (Sql.ShowsOnly.call (spellings.get? found)
    (aggregateArguments_phrase marks ha a argsRendered) rfl).append ?_
  obtain ⟨-, c, rendered, rfl⟩ := filterClause_eq_ok.mp filterRendered
  have condition := Ensures.part hf rendered
  cases c with
  | none => exact .none
  | some c => exact .call (showsOnly_imp admits (by decide)) (condition c rfl) rfl

theorem window_showsOnly
    (spellings : d.profile.windowFunctions.Forall fun spelling =>
      showsOnly kind 0 1 (spelling ++ "("))
    {name : String} {args partition : List (Result Sql)} {order : Option (Result Sql)}
    {bounds : Option Frame} (ha : ∀ r ∈ args, Ensures (Phrase p quoteNames false) r)
    (hp : ∀ r ∈ partition, Ensures (Phrase p quoteNames false) r)
    (ho : ∀ r ∈ order, Ensures (Phrase p quoteNames false) r)
    (checked : ∀ f ∈ bounds, Build.checkFrame f = .ok ()) :
    Ensures (Sql.ShowsOnly p quoteNames kind 0 0)
      (window d name args partition order bounds) := by
  intro s whole
  obtain ⟨-, spelling, l, t, o, found, argsRendered, partitionRendered, orderRendered, rfl⟩ :=
    window_eq_ok.mp whole
  have list := windowList_phrase marks name (Ensures.parts ha argsRendered)
  have parts := windowParts_phrase marks (Ensures.parts hp partitionRendered)
    (Ensures.part ho orderRendered) checked
  exact ((((Sql.ShowsOnly.const (spellings.get? found)).append (.inside list 0)).append
    (.inert admits (by decide))).append (.inside parts 0)).append (.const rfl)

omit admits in
theorem apply_showsOnly {nodeKind : Kind} {spec : FunctionSpec} (readable : spec.IsReadable p)
    (spelled : spec.shows kind) {args : List (Result Sql)}
    (h : ∀ r ∈ args, Ensures (Phrase p quoteNames false) r) :
    Ensures (Sql.ShowsOnly p quoteNames kind 0 0) (apply d nodeKind spec args) := by
  intro s whole
  rcases apply_eq_ok whole with ⟨style, rfl⟩ | ⟨arg, rest, style, rendered, rfl⟩ |
    ⟨parts, style, rendered, rfl⟩ | ⟨parts, style, rendered, rfl⟩
  · simp only [FunctionSpec.shows, style] at spelled
    exact .const spelled
  · simp only [FunctionSpec.IsReadable, style] at readable
    have phrase : Phrase p quoteNames false arg := h (.ok arg) (by simp [rendered]) arg rfl
    have inner : Phrase p quoteNames false (raw (spec.name ++ " ") ++ arg) :=
      (Draft.ofText readable.1.plain (readable.1.toIsPart.frame [] (by simp)).nested
        (.inr ⟨rfl, readable.1.idle⟩)).part phrase (by simp)
    rw [Sql.ShowsOnly, unary_tokens]
    exact parens_showsOnly inner
  · simp only [FunctionSpec.IsReadable, style] at readable
    exact parens_showsOnly (operator_phrase marks readable (Ensures.parts h rendered))
  · have opening : showsOnly kind 0 1 (spec.name ++ "(") := by
      rcases style with style | ⟨code, style⟩ <;>
        simpa only [FunctionSpec.shows, style] using spelled
    exact .call opening (list_phrase marks (Ensures.parts h rendered)) rfl

end

end

end Render

end Pushdown
