import Pushdown.Proofs.Sql.Outside
import Pushdown.Proofs.Sql.TruthValues

/-!
# Relations

The leaves of a condition are relations if they are search conditions, and values if they are not.
A relation shows itself outside of all brackets: by a comparison sign, by one of the words LIKE,
BETWEEN, IN and IS, or as a call of `REGEXP_LIKE`, which gives no value.
-/

namespace Pushdown

open Grouping (Groups)

/-! ## Relations -/

/-- Whether the items between the connectives of a condition are a relation. -/
def isRelation (items : List Item) : Bool :=
  (items.filterMap Item.token?).any Token.relates ||
    match items with
    | [.token t, .group .paren _] => t.matchesPattern
    | _ => false

/-- Whether the text is a search condition: read with the usual precedence, it joins relations. -/
def isSearchCondition (p : Profile) (text : String) : Bool :=
  match Logic.reading.read p text with
  | some tree => tree.leaves.all isRelation
  | none => false

/-- The text shows no connective, and what it shows is a relation or is none. -/
def Sql.ShowsLeaf (p : Profile) (quoteNames relation : Bool) (s : Sql) : Prop :=
  ∃ items, Logic.reading.StandsAs p quoteNames s (.leaf items) ∧ isRelation items = relation

section

variable {p : Profile} {quoteNames relation : Bool} {s : Sql}

/-- A leaf that no parentheses enclose shows its own items. -/
theorem Sql.ReadsLeaf.standsAs (h : s.ReadsLeaf p quoteNames) {items : List Item}
    (grouped : Groups (s.tokens p quoteNames) items)
    (other : ∀ inner, items ≠ [.group .paren inner]) :
    Logic.reading.StandsAs p quoteNames s (.leaf items) := by
  obtain ⟨leaf, items', grouped', stands, same⟩ := h
  obtain rfl := grouped.unique grouped'
  refine ⟨items, grouped, stands, ?_⟩
  cases items with
  | nil => rfl
  | cons i items =>
    by_cases negated : i.mark = .not
    · rw [Interpretation.entries, Item.entries, Reader.negation, if_pos (by simpa using negated)]
        at same
      contradiction
    · rw [Interpretation.negation_of_first negated, Logic.operand_eq_leaf other]

/-- A leaf that shows a relating token is a relation. -/
theorem Sql.ReadsLeaf.showsRelation (h : s.ReadsLeaf p quoteNames)
    (relates : (outside 0 (s.tokens p quoteNames)).2.any Token.relates) :
    s.ShowsLeaf p quoteNames true := by
  obtain ⟨_, items, grouped, _⟩ := id h
  rw [grouped.outside] at relates
  refine ⟨items, h.standsAs grouped fun inner same => ?_, by simp [isRelation, relates]⟩
  simp [same, Item.token?] at relates

theorem Sql.ShowsLeaf.parens (h : s.ShowsLeaf p quoteNames relation) :
    (Sql.parens s).ShowsLeaf p quoteNames relation := by
  obtain ⟨items, stands, known⟩ := h
  exact ⟨items, stands.reads.parens, known⟩

end

/-! ## Texts without relations -/

section

variable {p : Profile} {quoteNames : Bool} {kind : Token → Bool} {depth : Nat} {s : Sql}

/-- What a text shows is shown if more follows. -/
theorem Sql.exists_outside_left (h : ∃ t ∈ (outside depth (s.tokens p quoteNames)).2, kind t)
    (t : Sql) : ∃ u ∈ (outside depth ((s ++ t).tokens p quoteNames)).2, kind u := by
  obtain ⟨u, member, known⟩ := h
  rw [Sql.tokens_append, outside_append]
  exact ⟨u, List.mem_append_left _ member, known⟩

/-- What a text shows is shown behind a text that closes its brackets. -/
theorem Sql.exists_outside_right {t : Sql}
    (level : (outside depth (t.tokens p quoteNames)).1 = depth)
    (h : ∃ u ∈ (outside depth (s.tokens p quoteNames)).2, kind u) :
    ∃ u ∈ (outside depth ((t ++ s).tokens p quoteNames)).2, kind u := by
  obtain ⟨u, member, known⟩ := h
  rw [Sql.tokens_append, outside_append, level]
  exact ⟨u, List.mem_append_right _ member, known⟩

end

/-- Does not relate values. -/
def Token.isUnrelated (t : Token) : Bool := !t.relates

theorem Token.isUnrelated_of_isFree (t : Token) (h : t.isFree) : t.isUnrelated := by
  rw [isFree, Bool.and_eq_true] at h
  exact h.1

/-- A name relates nothing: the words that do are reserved. -/
theorem IsNamePart.isUnrelated {p : Profile} (legible : p.Legible) (like : "LIKE" ∈ p.reserved)
    {t : Token} (h : IsNamePart p t) : t.isUnrelated := by
  cases t with
  | quoted name => rfl
  | word w =>
    have between := h.ne_keyword legible "BETWEEN" (by decide)
    have isIn := h.ne_keyword legible "IN" (by decide)
    have is := h.ne_keyword legible "IS" (by decide)
    have like : Text.upper w ≠ "LIKE" := fun same => h (same ▸ like)
    simp [Token.isUnrelated, Token.relates, between, isIn, is, like]
  | symbol c =>
    obtain rfl : c = '.' := h
    decide
  | number _ | string _ | comment => exact absurd h id

section

variable {p : Profile} {quoteNames : Bool} {s : Sql}

/-- Where nothing relates values and no condition is called, there is no relation. -/
theorem isRelation_eq_false {items : List Item}
    (unrelated : ∀ t ∈ items.filterMap Item.token?, t.isUnrelated)
    (uncalled : ∀ t inner, items = [.token t, .group .paren inner] → t.matchesPattern = false) :
    isRelation items = false := by
  have plain : (items.filterMap Item.token?).any Token.relates = false := by
    rw [List.any_eq_false]
    intro t member
    simpa [Token.isUnrelated] using unrelated t member
  unfold isRelation
  rw [plain, Bool.false_or]
  split
  · exact uncalled _ _ rfl
  · rfl

/-- A term of free tokens is no relation. -/
theorem IsTerm.showsValue (term : IsTerm p quoteNames s)
    (free : s.ShowsOnly p quoteNames Token.isFree 0 0) : s.ShowsLeaf p quoteNames false := by
  obtain ⟨items, grouped, -⟩ := Grouping.exists_groups term.phrase.nested
  have shown := free.2
  rw [grouped.outside] at shown
  refine ⟨items, term.readsLeaf.standsAs grouped fun inner same =>
    term.not_enclosed inner (same ▸ grouped), isRelation_eq_false (fun t member =>
      t.isUnrelated_of_isFree (shown t member)) fun t inner same => ?_⟩
  have here := shown t (by simp [same, Item.token?])
  rw [Token.isFree, Bool.and_eq_true, Bool.not_eq_true', Bool.not_eq_true'] at here
  exact here.2

/-- A leaf that shows no relation, but a token that cannot call one, is no relation. -/
theorem Sql.ReadsLeaf.showsValue (h : s.ReadsLeaf p quoteNames)
    (unrelated : s.ShowsOnly p quoteNames Token.isUnrelated 0 0)
    (free : ∃ t ∈ (outside 0 (s.tokens p quoteNames)).2, t.isFree) :
    s.ShowsLeaf p quoteNames false := by
  obtain ⟨_, items, grouped, _⟩ := id h
  have shown := unrelated.2
  rw [grouped.outside] at shown free
  obtain ⟨t, member, free⟩ := free
  refine ⟨items, h.standsAs grouped fun inner same => ?_,
    isRelation_eq_false shown fun u inner same => ?_⟩
  · simp [same, Item.token?] at member
  · obtain rfl : t = u := by simpa [same, Item.token?] using member
    rw [Token.isFree, Bool.and_eq_true, Bool.not_eq_true', Bool.not_eq_true'] at free
    exact free.2

end

/-! ## Values -/

/-- A text that shows something, and shows no relation. -/
def showsSign (text : String) : Bool :=
  showsOnly Token.isFree 0 0 text && (outside 0 (Lexer.plainTokens text.toList)).2 != []

theorem Sql.of_showsSign (p : Profile) (quoteNames : Bool) {text : String} (h : showsSign text) :
    (Sql.raw text).ShowsOnly p quoteNames Token.isUnrelated 0 0 ∧
      ∃ t ∈ (outside 0 ((Sql.raw text).tokens p quoteNames)).2, t.isFree := by
  rw [showsSign, Bool.and_eq_true, bne_iff_ne] at h
  have free : (Sql.raw text).ShowsOnly p quoteNames Token.isFree 0 0 := .const h.1
  refine ⟨free.imp Token.isUnrelated_of_isFree, ?_⟩
  obtain ⟨t, member⟩ := List.exists_mem_of_ne_nil _ h.2
  rw [← Sql.tokens_raw p quoteNames] at member
  exact ⟨t, member, free.2 t member⟩

namespace FunctionSpec

/-- What the function writes outside of brackets shows no relation. -/
def isFree (spec : FunctionSpec) : Bool :=
  match spec.style with
  | .keyword => showsOnly Token.isFree 0 0 spec.name
  | .unary => showsSign (spec.name ++ " ")
  | .operator => showsSign (" " ++ spec.name ++ " ")
  | .call | .other _ => showsOnly Token.isFree 0 1 (spec.name ++ "(")

theorem shows_of_isFree {spec : FunctionSpec} (h : spec.isFree) : spec.shows Token.isFree := by
  unfold isFree at h
  unfold FunctionSpec.shows
  split <;> simp_all only

end FunctionSpec

/-- The template of a constant shows no relation. -/
def Profile.FreeTemplate (p : Profile) (template : String) : Prop :=
  p.ShowsTemplate Token.isFree template

namespace Render

open Sql (raw joinWith parens)

variable {d : Dialect} {ctx : Context} {p : Profile} {quoteNames : Bool}

theorem cast_term (readable : d.Readable) (style : d.profile.castStyle ≠ .doubleColon)
    {type : DataType} {arg : Result Sql} (h : Ensures (Phrase d.profile quoteNames false) arg) :
    Ensures (IsTerm d.profile quoteNames) (cast d type arg) := by
  intro s whole
  have value := cast_value readable h s whole
  obtain ⟨name, a, -, -, rfl⟩ := cast_eq_ok.mp whole
  rw [if_neg style] at value ⊢
  exact .ofRaw value.phrase (by decide)

section

variable (marks : Lexer.HasMarks p) {kind : Kind} {spec : FunctionSpec}
  (readable : spec.IsReadable p) (free : spec.isFree) {args : List (Result Sql)}
  (values : ∀ r ∈ args, Ensures (IsValue p quoteNames) r)

include marks readable free values

/-- A function is no relation, unless it is an infix operator around a single argument. -/
theorem apply_showsValue
    (unrelated : ∀ r ∈ args, Ensures (Sql.ShowsOnly p quoteNames Token.isUnrelated 0 0) r)
    {s : Sql} (whole : apply d kind spec args = .ok s) :
    s.ShowsLeaf p quoteNames false ∨ ∃ a, args = [.ok a] ∧ s = parens a := by
  have value := apply_value marks readable (fun r member => (values r member).condition) s whole
  rcases apply_eq_ok whole with ⟨style, rfl⟩ | ⟨arg, rest, style, rendered, rfl⟩ |
    ⟨parts, style, rendered, rfl⟩ | ⟨parts, style, rendered, rfl⟩
  · simp only [FunctionSpec.IsReadable, FunctionSpec.isFree, style] at readable free
    exact .inl ((IsTerm.ofRaw value.phrase readable.2).showsValue (.const free))
  · simp only [FunctionSpec.IsReadable, FunctionSpec.isFree, style] at readable free
    have operand : IsValue p quoteNames arg := values (.ok arg) (by simp [rendered]) arg rfl
    have plain := unrelated (.ok arg) (by simp [rendered]) arg rfl
    have sign := Sql.of_showsSign p quoteNames free
    have inner : (raw (spec.name ++ " ") ++ arg).ShowsLeaf p quoteNames false :=
      (unary_term readable operand).readsLeaf.showsValue (sign.1.append plain)
        (Sql.exists_outside_left sign.2 arg)
    obtain ⟨items, stands, known⟩ := inner.parens
    exact .inl ⟨items, stands.congr (unary_tokens ..).symm, known⟩
  · simp only [FunctionSpec.IsReadable, FunctionSpec.isFree, style] at readable free
    have each := Ensures.parts values rendered
    have plain := Ensures.parts unrelated rendered
    have sign := Sql.of_showsSign p quoteNames free
    rcases parts with _ | ⟨first, _ | ⟨second, parts⟩⟩
    · refine .inl (Sql.ShowsLeaf.parens ⟨[], ⟨[], .nil, ?_, rfl⟩, rfl⟩)
      exact Interpretation.stands_of_calm (by simp)
    · exact .inr ⟨first, rendered, by simp [joinWith]⟩
    · refine .inl (Sql.ShowsLeaf.parens ?_)
      refine (operator_readsLeaf marks readable each).showsValue (.joinWith sign.1 plain) ?_
      have split : joinWith (" " ++ spec.name ++ " ") (first :: second :: parts) =
          first ++ (raw (" " ++ spec.name ++ " ") ++
            joinWith (" " ++ spec.name ++ " ") (second :: parts)) := by
        simp [joinWith, List.intersperse]
      rw [split]
      exact Sql.exists_outside_right (plain first (by simp)).1 (Sql.exists_outside_left sign.2 _)
  · have opens : OpensCall p spec.name := by
      rcases style with style | ⟨code, style⟩ <;>
        simpa only [FunctionSpec.IsReadable, style] using readable
    have opening : showsOnly Token.isFree 0 1 (spec.name ++ "(") := by
      rcases style with style | ⟨code, style⟩ <;>
        simpa only [FunctionSpec.isFree, style] using free
    have each := Ensures.parts values rendered
    exact .inl ((call_term opens value.phrase).showsValue (.call opening
      (list_phrase marks fun t member => (each t member).condition) (by decide)))

end

end Render

end Pushdown
