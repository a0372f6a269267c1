import Pushdown.Dialect.Builtin
import Pushdown.Proofs.Dictionary
import Pushdown.Proofs.Sql.Phrase

/-!
# Readable dialects

The texts that a dialect takes from its tables go into statements as they are. A dialect is
readable if these texts cannot merge with their neighbours, hold no marks and close every bracket
that they open. All built-in dialects are readable; the generic one only if the notes name a mark
that it does not write elsewhere.
-/

namespace Pushdown

/-- The text takes the open brackets from `before` to `after` and stands apart at its end. -/
structure Leads (p : Profile) (before : List Bracket) (text : String) (after : List Bracket) :
    Prop extends IsPart p true before text after where
  idle : Lexer.endsIdle text.toList

/-- The tokens do not begin with a parenthesis. -/
def beginsBare (ts : List Token) : Bool := ts.head? != some (.symbol '(')

/-- The text has tokens and does not begin with a parenthesis. -/
def isNamed (text : String) : Bool :=
  Lexer.plainTokens text.toList != [] && beginsBare (Lexer.plainTokens text.toList)

/-- The spelling of a function with its arguments in parentheses. -/
structure OpensCall (p : Profile) (spelling : String) : Prop where
  leads : Leads p [] (spelling ++ "(") [.paren]
  named : isNamed (spelling ++ "(")

/-- The function can be told from its arguments. -/
def FunctionSpec.IsReadable (p : Profile) (spec : FunctionSpec) : Prop :=
  match spec.style with
  | .keyword => IsText p true spec.name ∧ isNamed spec.name
  | .unary => Leads p [] (spec.name ++ " ") [] ∧ isNamed (spec.name ++ " ")
  | .operator => Leads p [] (" " ++ spec.name ++ " ") []
  | .call | .other _ => OpensCall p spec.name

/-- Both spellings of the type stand for types. -/
def TypeSpec.IsReadable (p : Profile) (spec : TypeSpec) : Prop :=
  IsText p true spec.name ∧ IsText p true spec.localTimeZone

/-- The template of a constant: what stands before it and what stands behind it. -/
structure IsTemplate (p : Profile) (template front : String) (opened : List Bracket)
    (back : String) : Prop where
  parts : template = front ++ "%s" ++ back
  once : '%' ∉ front.toList ∧ '%' ∉ back.toList
  leads : Leads p [] front opened
  named : beginsBare (Lexer.plainTokens front.toList)
  plain : IsPlainText p back
  apart : Lexer.startsApart back.toList
  nested : nest true opened (Lexer.plainTokens back.toList) = some []

/-- Every statement of the dialect can be read back. -/
structure Dialect.Readable (d : Dialect) : Prop where
  unmarked : d.marked = []
  legible : d.profile.Legible
  regexp : d.profile.regexp.IsReadable d.profile
  functions : d.profile.functions.Forall (·.IsReadable d.profile)
  aggregates : d.profile.aggregates.Forall (OpensCall d.profile)
  windows : d.profile.windowFunctions.Forall (OpensCall d.profile)
  types : d.profile.types.Forall (·.IsReadable d.profile)
  colons : d.profile.castStyle = .doubleColon → Lexer.isOrdinary d.profile ':'
  dummyTable : IsText d.profile true d.profile.dummyTable
  dates : ∃ front opened back, IsTemplate d.profile d.profile.dateLiteral front opened back
  timestamps : ∃ front opened back,
    IsTemplate d.profile d.profile.timestampLiteral front opened back

/-! ## Checking the tables -/

/-- Characters that only some dialects write outside of quotes. -/
def rareMarks : List Char := ['%', '|', '~', ':']

def leads (others : List Char) (before : List Bracket) (text : String) (after : List Bracket) :
    Bool :=
  isPlainText others text && nest true before (Lexer.plainTokens text.toList) == some after &&
    Lexer.endsIdle text.toList

def isQuietText (others : List Char) (text : String) : Bool :=
  isPlainText others text && nest true [] (Lexer.plainTokens text.toList) == some []

def opensCall (others : List Char) (spelling : String) : Bool :=
  leads others [] (spelling ++ "(") [.paren] && isNamed (spelling ++ "(")

def FunctionSpec.isReadable (others : List Char) (spec : FunctionSpec) : Bool :=
  match spec.style with
  | .keyword => isQuietText others spec.name && isNamed spec.name
  | .unary => leads others [] (spec.name ++ " ") [] && isNamed (spec.name ++ " ")
  | .operator => leads others [] (" " ++ spec.name ++ " ") []
  | .call | .other _ => opensCall others spec.name

def TypeSpec.isReadable (others : List Char) (spec : TypeSpec) : Bool :=
  isQuietText others spec.name && isQuietText others spec.localTimeZone

section

variable {p : Profile} (marks : Lexer.HasMarks p) {others : List Char}
  (ordinary : ∀ c ∈ others, Lexer.isOrdinary p c)

include marks ordinary

theorem Leads.of {before after : List Bracket} {text : String}
    (h : leads others before text after) : Leads p before text after := by
  simp only [leads, Bool.and_eq_true, beq_iff_eq] at h
  exact ⟨⟨.of marks ordinary h.1.1, h.1.2⟩, h.2⟩

theorem IsText.of {text : String} (h : isQuietText others text) : IsText p true text := by
  simp only [isQuietText, Bool.and_eq_true, beq_iff_eq] at h
  exact ⟨.of marks ordinary h.1, h.2⟩

theorem OpensCall.of {spelling : String} (h : opensCall others spelling) :
    OpensCall p spelling := by
  rw [opensCall, Bool.and_eq_true] at h
  exact ⟨.of marks ordinary h.1, h.2⟩

theorem FunctionSpec.IsReadable.of {spec : FunctionSpec} (h : spec.isReadable others) :
    spec.IsReadable p := by
  unfold isReadable at h
  unfold IsReadable
  split at h
  · rw [Bool.and_eq_true] at h
    exact ⟨.of marks ordinary h.1, h.2⟩
  · rw [Bool.and_eq_true] at h
    exact ⟨.of marks ordinary h.1, h.2⟩
  · exact .of marks ordinary h
  · exact OpensCall.of marks ordinary h
  · exact OpensCall.of marks ordinary h

theorem TypeSpec.IsReadable.of {spec : TypeSpec} (h : spec.isReadable others) :
    spec.IsReadable p := by
  rw [isReadable, Bool.and_eq_true] at h
  exact ⟨.of marks ordinary h.1, .of marks ordinary h.2⟩

/-- Entries that pass the check are readable. -/
theorem functions_readable {entries : List (String × FunctionSpec)}
    (h : entries.all fun entry => entry.2.isReadable others) :
    ∀ entry ∈ entries, entry.2.IsReadable p :=
  fun entry member => .of marks ordinary (List.all_eq_true.mp h entry member)

theorem spellings_readable {entries : List (String × String)}
    (h : entries.all fun entry => opensCall others entry.2) :
    ∀ entry ∈ entries, OpensCall p entry.2 :=
  fun entry member => OpensCall.of marks ordinary (List.all_eq_true.mp h entry member)

theorem types_readable {entries : List (TypeKind × TypeSpec)}
    (h : entries.all fun entry => entry.2.isReadable others) :
    ∀ entry ∈ entries, entry.2.IsReadable p :=
  fun entry member => .of marks ordinary (List.all_eq_true.mp h entry member)

end

/-- A template that passes the check. -/
def isTemplate (template front : String) (opened : List Bracket) (back : String) : Bool :=
  template == front ++ "%s" ++ back && !front.toList.contains '%' && !back.toList.contains '%' &&
    leads [] [] front opened && beginsBare (Lexer.plainTokens front.toList) &&
    isPlainText [] back && Lexer.startsApart back.toList &&
    nest true opened (Lexer.plainTokens back.toList) == some []

theorem IsTemplate.of {p : Profile} (marks : Lexer.HasMarks p) {template front : String}
    {opened : List Bracket} {back : String} (h : isTemplate template front opened back) :
    IsTemplate p template front opened back := by
  have none : ∀ c ∈ ([] : List Char), Lexer.isOrdinary p c := by simp
  simp only [isTemplate, Bool.and_eq_true, beq_iff_eq, Bool.not_eq_true',
    List.contains_eq_mem, decide_eq_false_iff_not] at h
  obtain ⟨⟨⟨⟨⟨⟨⟨parts, front⟩, back⟩, leads⟩, named⟩, plain⟩, apart⟩, nested⟩ := h
  exact ⟨parts, ⟨front, back⟩, .of marks none leads, named, .of marks none plain, apart, nested⟩

/-! ## The built-in dialects -/

/-- The dialect with settings of a caller's own for the order of rows: where NULL sorts, whether the
ascending direction is left out, and the features, of which one is the position of NULL. -/
def Dialect.sorting (d : Dialect) (nulls : NullSorting) (omitAscending : Bool)
    (supported : CapabilitySet) : Dialect :=
  { d with profile := { d.profile with nullSorting := nulls, omitAscending, supported } }

/-- The dialect with other marks around names. -/
def Dialect.quotedBy (d : Dialect) (first last : String) : Dialect :=
  { d with profile := { d.profile with quoteOpen := first, quoteClose := last } }

theorem Sql.tokens_quotedBy (d : Dialect) (first last : String) (quoteNames : Bool) (s : Sql) :
    s.tokens (d.quotedBy first last).profile quoteNames = s.tokens d.profile quoteNames := rfl

theorem Render.defaultRule_quotedBy (d : Dialect) (first last : String) (ctx : Context)
    (visit : Node → Result Sql) (n : Node) :
    defaultRule (d.quotedBy first last) ctx visit n = defaultRule d ctx visit n := by
  cases n <;> rfl

/-- The marks around names come in when a statement is written out, not before. -/
theorem Render.node_quotedBy (d : Dialect) (first last : String) (ctx : Context) (n : Node) :
    node (d.quotedBy first last) ctx n = node d ctx n := by
  induction n using Node.induction with
  | step n below =>
    rw [node_eq, node_eq d, defaultRule_quotedBy, defaultRule_congr below]
    rfl

/-- The notes name one character that the generic dialect writes nowhere else as its mark, or
none, so that it takes the double quote. -/
def Notes.NamesMark (notes : Notes) : Prop :=
  Text.trim (notes.text "identifierQuoteString") = "" ∨
    ∃ c, notes.text "identifierQuoteString" = String.singleton c ∧
      Lexer.isCommon c = false ∧ c ≠ '\''

theorem Lexer.HasMarks.of {p : Profile} (first last : Char)
    (opens : p.quoteOpen = String.singleton first) (closes : p.quoteClose = String.singleton last)
    (rare : isCommon first = false ∧ isCommon last = false) (quote : first ≠ '\'') :
    HasMarks p := by
  have opens : p.quoteOpen.toList = [first] := by simp [opens]
  have closes : p.quoteClose.toList = [last] := by simp [closes]
  refine ⟨⟨first, opens⟩, ⟨last, closes⟩, fun c common => ?_, by simpa [opens] using quote⟩
  refine isOrdinary_iff.mpr ⟨?_, ?_, ?_⟩
  · rintro same
    obtain rfl : first = c := by simpa [opens] using same
    simp [common] at rare
  · rintro same
    obtain rfl : last = c := by simpa [closes] using same
    simp [common] at rare
  · rintro rfl
    contradiction

namespace Builtin

/-- What the dialect writes outside of quotes besides the common characters. -/
def others : Builtin → List Char
  | generic => []
  | _ => rareMarks

theorem hasMarks (b : Builtin) (notes : Notes) (mark : b = .generic → notes.NamesMark) :
    Lexer.HasMarks (b.build notes).profile := by
  cases b with
  | generic =>
    simp only [build, genericProfile]
    by_cases blank : Text.trim (notes.text "identifierQuoteString") = ""
    · simp only [if_pos blank]
      exact .of '"' '"' (by rfl) (by rfl) (by decide) (by decide)
    · simp only [if_neg blank]
      rcases mark rfl with absurdity | ⟨c, named, rare, quote⟩
      · exact absurd absurdity blank
      · exact .of c c named named ⟨rare, rare⟩ quote
  | sqlServer => exact .of '[' ']' (by rfl) (by rfl) (by decide) (by decide)
  | bigQuery | mySql =>
    exact .of (Char.ofNat 0x60) (Char.ofNat 0x60) (by rfl) (by rfl) (by decide) (by decide)
  | exasol | oracle | postgreSql | sqlite =>
    exact .of '"' '"' (by rfl) (by rfl) (by decide) (by decide)

/-- Every dialect reserves what the standard reserves. -/
theorem reserves_standard (b : Builtin) (notes : Notes) {word : String}
    (member : word ∈ standardReserved) : (b.build notes).profile.reserved.contains word := by
  have standard : standardReserved.contains word := by simpa using member
  have extended (extra : List String) : (reservedWords extra).contains word := by
    simp [reservedWords, List.mem_eraseDups, member]
  cases b with
  | bigQuery | exasol | generic => exact standard
  | mySql | oracle | postgreSql | sqlite | sqlServer =>
    simp only [build, mySqlProfile, oracleProfile, postgreSqlProfile, sqliteProfile,
      sqlServerProfile]
    exact extended _

theorem others_ordinary (b : Builtin) (notes : Notes) :
    ∀ c ∈ b.others, Lexer.isOrdinary (b.build notes).profile c := by
  cases b with
  | generic => simp [others]
  | _ =>
    refine List.all_eq_true.mp ?_
    unfold Lexer.isOrdinary
    simp only [build, bigQueryProfile, exasolProfile, mySqlProfile, oracleProfile,
      postgreSqlProfile, sqliteProfile, sqlServerProfile]
    decide

section

variable {p : Profile} (marks : Lexer.HasMarks p) (b : Builtin) (notes : Notes)
  (ordinary : ∀ c ∈ b.others, Lexer.isOrdinary p c)

include marks ordinary

theorem functions_forall : (b.build notes).profile.functions.Forall (·.IsReadable p) := by
  have none : ∀ c ∈ ([] : List Char), Lexer.isOrdinary p c := by simp
  have standard : standardFunctions.Forall (·.IsReadable p) :=
    functions_readable marks none (by decide +kernel)
  cases b with
  | generic => exact standard
  | bigQuery | exasol | mySql | postgreSql =>
    exact standard.insertMany (functions_readable marks ordinary (by decide +kernel))
  | oracle => exact standard.insert _ (.of marks ordinary (by decide +kernel))
  | sqlite =>
    exact (standard.filter _).insertMany (functions_readable marks ordinary (by decide +kernel))
  | sqlServer =>
    exact (standard.insertMany (functions_readable marks ordinary (by decide +kernel))).eraseAll _

theorem aggregates_forall : (b.build notes).profile.aggregates.Forall (OpensCall p) := by
  have none : ∀ c ∈ ([] : List Char), Lexer.isOrdinary p c := by simp
  have standard : standardAggregates.Forall (OpensCall p) :=
    spellings_readable marks none (by decide +kernel)
  cases b with
  | bigQuery | generic | mySql | postgreSql => exact standard
  | exasol | sqlServer =>
    exact standard.insertMany (spellings_readable marks ordinary (by decide +kernel))
  | oracle => exact standard.insert _ (OpensCall.of marks ordinary (by decide +kernel))
  | sqlite =>
    simp only [build, sqliteProfile]
    exact spellings_readable marks ordinary (by decide +kernel)

theorem windows_forall : (b.build notes).profile.windowFunctions.Forall (OpensCall p) := by
  have none : ∀ c ∈ ([] : List Char), Lexer.isOrdinary p c := by simp
  have standard : standardWindowFunctions.Forall (OpensCall p) :=
    spellings_readable marks none (by decide +kernel)
  cases b with
  | exasol | oracle =>
    exact standard.insertMany (spellings_readable marks ordinary (by decide +kernel))
  | bigQuery | generic | mySql | postgreSql | sqlite | sqlServer => exact standard

theorem types_forall : (b.build notes).profile.types.Forall (·.IsReadable p) := by
  have none : ∀ c ∈ ([] : List Char), Lexer.isOrdinary p c := by simp
  have standard : standardTypes.Forall (·.IsReadable p) :=
    types_readable marks none (by decide +kernel)
  cases b with
  | generic => exact standard
  | exasol | postgreSql =>
    exact standard.insertMany (types_readable marks ordinary (by decide +kernel))
  | mySql =>
    exact ((standard.insertMany (types_readable marks ordinary (by decide +kernel))).erase _).erase _
  | sqlServer =>
    exact (standard.insertMany (types_readable marks ordinary (by decide +kernel))).erase _
  | bigQuery | oracle | sqlite =>
    simp only [build, bigQueryProfile, oracleProfile, sqliteProfile]
    exact types_readable marks ordinary (by decide +kernel)

theorem regexp_readable : (b.build notes).profile.regexp.IsReadable p := by
  have same : (b.build notes).profile.regexp = (b.build {}).profile.regexp := by cases b <;> rfl
  rw [same]
  refine .of marks ordinary ?_
  cases b <;> decide

theorem dummyTable_quiet : IsText p true (b.build notes).profile.dummyTable := by
  have same : (b.build notes).profile.dummyTable = (b.build {}).profile.dummyTable := by
    cases b <;> rfl
  rw [same]
  refine .of marks ordinary ?_
  cases b <;> decide

end

theorem colons_ordinary (b : Builtin) (notes : Notes) {p : Profile}
    (ordinary : ∀ c ∈ b.others, Lexer.isOrdinary p c)
    (style : (b.build notes).profile.castStyle = .doubleColon) : Lexer.isOrdinary p ':' := by
  cases b with
  | postgreSql => exact ordinary ':' (by decide)
  | _ => exact absurd style (by simp [build, bigQueryProfile, exasolProfile, genericProfile,
      mySqlProfile, oracleProfile, sqliteProfile, sqlServerProfile])

/-- What stands before the text of a date, what this leaves open, and what stands behind. -/
def dateParts : Builtin → String × List Bracket × String
  | sqlServer => ("CAST(", [.paren], " AS DATE)")
  | sqlite => ("DATE(", [.paren], ")")
  | _ => ("DATE ", [], "")

/-- The same around the text of a timestamp. -/
def timestampParts : Builtin → String × List Bracket × String
  | sqlServer => ("CAST(", [.paren], " AS DATETIME2)")
  | sqlite => ("", [], "")
  | bigQuery => ("DATETIME ", [], "")
  | _ => ("TIMESTAMP ", [], "")

section

variable {p : Profile} (marks : Lexer.HasMarks p) (b : Builtin) (notes : Notes)

include marks

theorem dates_template : IsTemplate p (b.build notes).profile.dateLiteral b.dateParts.1
    b.dateParts.2.1 b.dateParts.2.2 := by
  have same : (b.build notes).profile.dateLiteral = (b.build {}).profile.dateLiteral := by
    cases b <;> rfl
  rw [same]
  refine .of marks ?_
  cases b <;> decide

theorem timestamps_template : IsTemplate p (b.build notes).profile.timestampLiteral
    b.timestampParts.1 b.timestampParts.2.1 b.timestampParts.2.2 := by
  have same : (b.build notes).profile.timestampLiteral = (b.build {}).profile.timestampLiteral := by
    cases b <;> rfl
  rw [same]
  refine .of marks ?_
  cases b <;> decide

end

section

variable (b : Builtin) (notes : Notes)

/-- A built-in dialect with marks of a caller's own is readable if it writes them nowhere else. -/
theorem quotedBy_readable {first last : String} (nulls : NullSorting) (omitAscending : Bool)
    (supported : CapabilitySet)
    (marks : Lexer.HasMarks ((b.build notes).quotedBy first last).profile)
    (ordinary : ∀ c ∈ b.others, Lexer.isOrdinary ((b.build notes).quotedBy first last).profile c) :
    (((b.build notes).sorting nulls omitAscending supported).quotedBy first last).Readable := by
  have standard : ∀ word ∈ keywords, word ∈ standardReserved := by decide +kernel
  have legible : (((b.build notes).sorting nulls omitAscending supported).quotedBy
      first last).profile.Legible :=
    ⟨⟨marks.opens, marks.closes, marks.common, marks.quote⟩,
      fun word member => b.reserves_standard notes (standard word member)⟩
  exact {
    unmarked := by cases b <;> rfl
    legible
    regexp := b.regexp_readable legible.marks notes ordinary
    functions := b.functions_forall legible.marks notes ordinary
    aggregates := b.aggregates_forall legible.marks notes ordinary
    windows := b.windows_forall legible.marks notes ordinary
    types := b.types_forall legible.marks notes ordinary
    colons := b.colons_ordinary notes ordinary
    dummyTable := b.dummyTable_quiet legible.marks notes ordinary
    dates := ⟨_, _, _, b.dates_template legible.marks notes⟩
    timestamps := ⟨_, _, _, b.timestamps_template legible.marks notes⟩ }

variable (mark : b = .generic → notes.NamesMark)

include mark

/-- Every built-in dialect is readable, however it sorts and whatever features it has; the generic
one if the notes name a mark. -/
theorem sorting_readable (nulls : NullSorting) (omitAscending : Bool)
    (supported : CapabilitySet) :
    ((b.build notes).sorting nulls omitAscending supported).Readable :=
  b.quotedBy_readable notes nulls omitAscending supported (b.hasMarks notes mark)
    (b.others_ordinary notes)

theorem readable : (b.build notes).Readable :=
  b.sorting_readable notes mark (b.build notes).profile.nullSorting
    (b.build notes).profile.omitAscending (b.build notes).profile.supported

end

end Builtin

end Pushdown
