import Pushdown.Proofs.Sql.Shown

/-!
# Words that take clauses apart

A clause is read from the words between its parts: JOIN and ON in a FROM clause, the direction and
the position of NULL behind a sort key. Every built-in dialect reserves JOIN, ON, ASC and DESC, so a
name is none of them unless it is quoted, and none of the spellings in its tables shows one of them.
The words about NULL are not reserved, but they only mean something in twos.
-/

namespace Pushdown

open Grouping (Groups)
open Render (node asOperand Ensures)

/-! ## Reading the end of a list -/

section

variable {α μ : Type} (token? : α → Option Token)

/-- What stands before the words, if the list ends with them. Both are given from their ends. -/
def beforeWords? : List String → List α → Option (List α)
  | [], as => some as
  | _ :: _, [] => none
  | word :: words, a :: as =>
    if (token? a).any (Token.isWord word) then beforeWords? words as else none

/-- Take an ending off the list, if it has one: what stands before it and what the ending means. -/
def splitEnding (endings : List (List String × μ)) (absent : μ) (as : List α) : List α × μ :=
  (endings.findSome? fun ending =>
    (beforeWords? token? ending.1.reverse as.reverse).map fun rest => (rest.reverse, ending.2)).getD
      (as, absent)

variable {token?}

/-- Words of which one does not occur do not end the list. -/
theorem beforeWords?_eq_none {words : List String} {word : String} (listed : word ∈ words)
    {as : List α} (never : ∀ a ∈ as, (token? a).any (Token.isWord word) = false) :
    beforeWords? token? words as = none := by
  induction words generalizing as with
  | nil => contradiction
  | cons first words ih =>
    cases as with
    | nil => rfl
    | cons a as =>
      rw [beforeWords?]
      split
      · rename_i here
        rcases List.mem_cons.mp listed with rfl | listed
        · simp [never a (by simp)] at here
        · exact ih listed fun a member => never a (List.mem_cons_of_mem _ member)
      · rfl

theorem splitEnding_of_none {endings : List (List String × μ)} {absent : μ} {as : List α}
    (none : ∀ ending ∈ endings, beforeWords? token? ending.1.reverse as.reverse = none) :
    splitEnding token? endings absent as = (as, absent) := by
  have nothing : (endings.findSome? fun ending =>
      (beforeWords? token? ending.1.reverse as.reverse).map fun rest =>
        (rest.reverse, ending.2)) = .none := by
    rw [List.findSome?_eq_none_iff]
    intro ending member
    rw [none ending member, Option.map_none]
  rw [splitEnding, nothing, Option.getD_none]

/-- An ending is taken off whatever it stands behind. -/
theorem splitEnding_append {endings : List (List String × μ)} {written : List α} {meaning : μ}
    (found : ∀ rest, (endings.findSome? fun ending =>
      (beforeWords? token? ending.1.reverse (written.reverse ++ rest)).map fun rest =>
        (rest.reverse, ending.2)) = some (rest.reverse, meaning)) (absent : μ) (as : List α) :
    splitEnding token? endings absent (as ++ written) = (as, meaning) := by
  rw [splitEnding, List.reverse_append, found, Option.getD_some, List.reverse_reverse]

end

/-! ## Reading a text -/

/-- The items of a text, if its quotes and brackets fit. -/
def textItems? (p : Profile) (text : String) : Option (List Item) :=
  (Lexer.scan p text.toList).bind Grouping.items?

theorem Grouping.Groups.textItems?_eq {p : Profile} {quoteNames quiet : Bool} {s : Sql}
    {items : List Item} (grouped : Groups (s.tokens p quoteNames) items)
    (phrase : Phrase p quoteNames quiet s) :
    textItems? p (s.write p quoteNames) = some items := by
  rw [textItems?, phrase.scanned, Option.bind_some, grouped.items?_eq]

/-- The items of words. -/
def wordItems (words : List String) : List Item := words.map fun word => .token (.word word)

theorem wordItems_append (words more : List String) :
    wordItems (words ++ more) = wordItems words ++ wordItems more := List.map_append

theorem Grouping.Groups.words {words : List String}
    (flat : ∀ word ∈ words, (Token.word word).mark.isFlat) :
    Groups (words.map .word) (wordItems words) := by
  have all : (words.map Token.word).all (·.mark.isFlat) := by simpa using flat
  simpa [wordItems, Function.comp_def] using Groups.tokens all

/-- What a text shows are the tokens among its items. -/
theorem Sql.ShowsOnly.items {p : Profile} {quoteNames : Bool} {kind : Token → Bool} {s : Sql}
    (h : s.ShowsOnly p quoteNames kind 0 0) {items : List Item}
    (grouped : Groups (s.tokens p quoteNames) items) :
    ∀ i ∈ items, ∀ t ∈ i.token?, kind t := by
  intro i member t same
  have shown := h.2
  rw [grouped.outside] at shown
  exact shown t (List.mem_filterMap.mpr ⟨i, member, same⟩)

/-! ## Dialects -/

/-- The words that take clauses apart can be told from what the dialect writes inside of them. -/
structure Dialect.TellsClauses (d : Dialect) : Prop extends d.Readable where
  reserved : ∀ word ∈ ["JOIN", "ON", "ASC", "DESC"], d.profile.reserved.contains word
  shows : d.Shows Token.isContent
  pattern : d.profile.regexp.shows Token.isContent

/-- A part of a name is no word that the dialect reserves. -/
theorem IsNamePart.isWord_eq_false {p : Profile} {t : Token} (h : IsNamePart p t) {word : String}
    (reserved : p.reserved.contains word) : t.isWord word = false := by
  cases t with
  | word w =>
    refine Bool.eq_false_iff.mpr fun same => h ?_
    rw [eq_of_beq same]
    simpa using reserved
  | _ => rfl

namespace Builtin

section

variable (b : Builtin) (notes : Notes)

theorem functions_inert :
    (b.build notes).profile.functions.Forall fun spec => spec.shows Token.isInert := by
  have standard : standardFunctions.Forall fun spec => spec.shows Token.isInert := by
    decide +kernel
  cases b with
  | generic => exact standard
  | bigQuery | exasol | mySql | postgreSql => exact standard.insertMany (by decide +kernel)
  | oracle => exact standard.insert _ (by decide +kernel)
  | sqlite => exact (standard.filter _).insertMany (by decide +kernel)
  | sqlServer => exact (standard.insertMany (by decide +kernel)).eraseAll _

theorem aggregates_inert : (b.build notes).profile.aggregates.Forall fun spelling =>
    showsOnly Token.isInert 0 1 (spelling ++ "(") := by
  have standard : standardAggregates.Forall fun spelling =>
    showsOnly Token.isInert 0 1 (spelling ++ "(") := by decide +kernel
  cases b with
  | bigQuery | generic | mySql | postgreSql => exact standard
  | exasol | sqlServer => exact standard.insertMany (by decide +kernel)
  | oracle => exact standard.insert _ (by decide +kernel)
  | sqlite =>
    simp only [build, sqliteProfile]
    decide +kernel

theorem windows_inert : (b.build notes).profile.windowFunctions.Forall fun spelling =>
    showsOnly Token.isInert 0 1 (spelling ++ "(") := by
  have standard : standardWindowFunctions.Forall fun spelling =>
    showsOnly Token.isInert 0 1 (spelling ++ "(") := by decide +kernel
  cases b with
  | exasol | oracle => exact standard.insertMany (by decide +kernel)
  | bigQuery | generic | mySql | postgreSql | sqlite | sqlServer => exact standard

/-- Only one dialect writes the type of a conversion outside of parentheses. -/
theorem types_inert (style : (b.build notes).profile.castStyle = .doubleColon) :
    (b.build notes).profile.types.Forall fun spec => spec.shows Token.isInert := by
  have standard : standardTypes.Forall fun spec => spec.shows Token.isInert := by decide +kernel
  cases b with
  | postgreSql => exact standard.insertMany (by decide +kernel)
  | _ => simp [build, bigQueryProfile, exasolProfile, genericProfile, mySqlProfile, oracleProfile,
      sqliteProfile, sqlServerProfile] at style

/-- What a built-in dialect takes from its tables shows nothing but what every dialect may show,
whatever its marks are. -/
theorem quotedBy_shows {first last : String} (nulls : NullSorting) (omitAscending : Bool)
    (supported : CapabilitySet)
    (marks : Lexer.HasMarks (((b.build notes).sorting nulls omitAscending supported).quotedBy
      first last).profile) :
    (((b.build notes).sorting nulls omitAscending supported).quotedBy first last).Shows
      Token.isInert where
  admits _ inert := inert
  functions := b.functions_inert notes
  aggregates := b.aggregates_inert notes
  windows := b.windows_inert notes
  types := b.types_inert notes
  dates := ⟨_, _, _, b.dates_template marks notes, by cases b <;> decide, by cases b <;> decide⟩
  timestamps :=
    ⟨_, _, _, b.timestamps_template marks notes, by cases b <;> decide, by cases b <;> decide⟩

theorem shows_inert (mark : b = .generic → notes.NamesMark) :
    (b.build notes).Shows Token.isInert :=
  b.quotedBy_shows notes _ _ _ (b.hasMarks notes mark)

theorem regexp_content : (b.build notes).profile.regexp.shows Token.isContent := by
  have same : (b.build notes).profile.regexp = (b.build {}).profile.regexp := by cases b <;> rfl
  rw [same]
  cases b <;> decide

/-- Every built-in dialect tells its clauses apart, however it sorts and whatever features it has. -/
theorem sorting_tellsClauses (mark : b = .generic → notes.NamesMark) (nulls : NullSorting)
    (omitAscending : Bool) (supported : CapabilitySet) :
    ((b.build notes).sorting nulls omitAscending supported).TellsClauses := by
  have readable := b.sorting_readable notes mark nulls omitAscending supported
  have standard : ∀ word ∈ ["JOIN", "ON", "ASC", "DESC"], word ∈ standardReserved := by
    decide +kernel
  have inert := b.quotedBy_shows notes nulls omitAscending supported readable.legible.marks
  exact { readable with
    reserved := fun word member => b.reserves_standard notes (standard word member)
    pattern := b.regexp_content notes
    shows := inert.imp Token.isContent_of_isInert }

theorem tellsClauses (mark : b = .generic → notes.NamesMark) : (b.build notes).TellsClauses :=
  b.sorting_tellsClauses notes mark (b.build notes).profile.nullSorting
    (b.build notes).profile.omitAscending (b.build notes).profile.supported

end

end Builtin

end Pushdown
