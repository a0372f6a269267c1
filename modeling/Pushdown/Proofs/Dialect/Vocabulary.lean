import Pushdown.Proofs.Dialect.Readable
import Pushdown.Proofs.Sql.Expressible
import Pushdown.Proofs.Sql.Gaps

/-!
# The words of dialects

What a dialect takes from its tables for functions, types and constants fits between operands: a
function begins where an operand may begin, an operator stands between two of them, and the name of
a type is complete. This holds of all built-in dialects. Three of them have an operator that takes
any number of operands, so it can be written without any.
-/

namespace Pushdown

/-- The function is called with its arguments in parentheses. -/
def FunctionSpec.isCall (spec : FunctionSpec) : Bool :=
  match spec.style with
  | .call | .other _ => true
  | .operator | .unary | .keyword => false

/-- The spellings of all functions and operators. -/
def Profile.specs (p : Profile) : List FunctionSpec := p.regexp :: p.functions.entries.map (·.2)

/-- The names of the functions and operators of a dialect. -/
def Profile.vocabulary (p : Profile) : Vocabulary where
  calls := (p.specs.filter FunctionSpec.isCall).map (·.name) ++ p.aggregates.entries.map (·.2) ++
    p.windowFunctions.entries.map (·.2)
  operators := (p.specs.filter fun spec => spec.style = .operator).map (·.name)

/-- The text is one word that only some dialects know. -/
def isOwnWord (text : String) : Bool :=
  Lexer.plainTokens text.toList == [.word text] && commonRole? text == none

/-- The function begins where an operand may begin and has operands where it takes arguments. -/
def FunctionSpec.fits (spec : FunctionSpec) : Bool :=
  match spec.style with
  | .keyword => leadsAlways Gap.beginnings spec.name [.ended]
  | .unary => leadsAlways Gap.beginnings ("(" ++ spec.name ++ " ") [.needed]
  | .operator => spec.arity ≠ 0 &&
      (isOwnWord spec.name || leadsAlways [.ended] (" " ++ spec.name ++ " ") [.needed])
  | .call | .other _ => isOwnWord spec.name

/-- Both spellings of the type are complete. -/
def TypeSpec.fits (spec : TypeSpec) : Bool :=
  leadsAlways [.needed] spec.name [.ended] &&
    (spec.localTimeZone = "" || leadsAlways [.needed] spec.localTimeZone [.ended])

/-- With its text, the template is an operand. -/
def FitsTemplate (template : String) : Prop :=
  ∃ front back, (template = front ++ "%s" ++ back ∧ '%' ∉ front.toList ∧ '%' ∉ back.toList) ∧
    leadsAlways Gap.beginnings front (.ended :: Gap.beginnings) ∧ leadsAlways [.ended] back [.ended]

/-- The words of the dialect fit between operands. -/
structure Dialect.Fits (d : Dialect) : Prop where
  /-- No name is that of a function and of an operator. -/
  separate : ∀ word ∈ d.profile.vocabulary.operators, word ∉ d.profile.vocabulary.calls
  regexp : d.profile.regexp.fits
  functions : d.profile.functions.Forall (·.fits)
  aggregates : d.profile.aggregates.Forall (isOwnWord ·)
  windows : d.profile.windowFunctions.Forall (isOwnWord ·)
  types : d.profile.types.Forall (·.fits)
  dummyTable : d.profile.dummyTable = "" ∨ leadsAlways [.needed] d.profile.dummyTable [.ended]
  dates : FitsTemplate d.profile.dateLiteral
  timestamps : FitsTemplate d.profile.timestampLiteral

/-! ## Where the words lead -/

namespace Vocabulary

variable {v : Vocabulary} {name : String}

/-- The name of a function opens its call. -/
theorem leads_call (own : isOwnWord name) (listed : name ∈ v.calls)
    (separate : name ∉ v.operators) : v.leads Gap.beginnings (name ++ "(") [.called] := by
  rw [isOwnWord, Bool.and_eq_true, beq_iff_eq, beq_iff_eq] at own
  have opening : Lexer.plainTokens "(".toList = [.symbol '('] := by decide
  have word : v.role (.word name) = .call := by simp [role, own.2, listed, separate]
  have paren : v.role (.symbol '(') = .opens := rfl
  have roles : (Lexer.plainTokens (name ++ "(").toList).map v.role = [.call, .opens] := by
    rw [String.toList_append, Lexer.plainTokens_append_of_starts (by decide), own.1, opening]
    simp [word, paren]
  rw [leads_iff, roles]
  decide

/-- A word between operands is an operator. -/
theorem leads_operator (own : isOwnWord name) (listed : name ∈ v.operators) :
    v.leads [.ended] (" " ++ name ++ " ") [.needed] := by
  rw [isOwnWord, Bool.and_eq_true, beq_iff_eq, beq_iff_eq] at own
  have blank : Lexer.plainTokens " ".toList = [] := by decide
  have idle : Lexer.endsIdle " ".toList := by decide
  have roles : (Lexer.plainTokens (" " ++ name ++ " ").toList).map v.role = [.joins] := by
    rw [String.toList_append, Lexer.plainTokens_append_of_starts (by decide), String.toList_append,
      Lexer.plainTokens_append_of_idle idle, own.1, blank]
    simp [role, own.2, listed]
  rw [leads_iff, roles]
  decide

end Vocabulary

/-- Where the spelling of the function leads. -/
def FunctionSpec.Leads (v : Vocabulary) (spec : FunctionSpec) : Prop :=
  match spec.style with
  | .keyword => v.leads Gap.beginnings spec.name [.ended]
  | .unary => v.leads Gap.beginnings ("(" ++ spec.name ++ " ") [.needed]
  | .operator => spec.arity ≠ 0 ∧ v.leads [.ended] (" " ++ spec.name ++ " ") [.needed]
  | .call | .other _ => v.leads Gap.beginnings (spec.name ++ "(") [.called]

namespace Dialect.Fits

variable {d : Dialect} (h : d.Fits)

include h

/-- The name of a function is not that of an operator. -/
theorem leads_call {name : String} (own : isOwnWord name)
    (listed : name ∈ d.profile.vocabulary.calls) :
    d.profile.vocabulary.leads Gap.beginnings (name ++ "(") [.called] :=
  Vocabulary.leads_call own listed fun operator => h.separate name operator listed

theorem spec_leads {spec : FunctionSpec} (listed : spec ∈ d.profile.specs) :
    spec.Leads d.profile.vocabulary := by
  have fits : spec.fits := by
    rcases List.mem_cons.mp listed with rfl | listed
    · exact h.regexp
    · obtain ⟨entry, member, rfl⟩ := List.mem_map.mp listed
      exact h.functions entry member
  have called (call : spec.isCall) : spec.name ∈ d.profile.vocabulary.calls := by
    have kept := List.mem_filter.mpr ⟨listed, call⟩
    exact List.mem_append_left _ (List.mem_append_left _ (List.mem_map_of_mem kept))
  unfold FunctionSpec.fits at fits
  unfold FunctionSpec.Leads
  split at fits
  · exact Vocabulary.leads_of_always fits
  · exact Vocabulary.leads_of_always fits
  · rename_i style
    simp only [Bool.and_eq_true, Bool.or_eq_true, decide_eq_true_eq] at fits
    refine ⟨fits.1, ?_⟩
    rcases fits.2 with own | common
    · have kept : spec ∈ d.profile.specs.filter fun spec => spec.style = .operator :=
        List.mem_filter.mpr ⟨listed, by simp [style]⟩
      exact Vocabulary.leads_operator own (List.mem_map_of_mem kept)
    · exact Vocabulary.leads_of_always common
  · rename_i style
    exact h.leads_call fits (called (by simp [FunctionSpec.isCall, style]))
  · rename_i style
    exact h.leads_call fits (called (by simp [FunctionSpec.isCall, style]))

theorem function_leads {name : String} {spec : FunctionSpec}
    (found : d.profile.functions.get? name = some spec) : spec.Leads d.profile.vocabulary :=
  h.spec_leads (List.mem_cons_of_mem _ (List.mem_map_of_mem (Dictionary.mem_of_get? found)))

theorem aggregate_leads {name spelling : String}
    (found : d.profile.aggregates.get? name = some spelling) :
    d.profile.vocabulary.leads Gap.beginnings (spelling ++ "(") [.called] := by
  have listed := List.mem_map_of_mem (f := Prod.snd) (Dictionary.mem_of_get? found)
  exact h.leads_call (h.aggregates.get? found)
    (List.mem_append_left _ (List.mem_append_right _ listed))

theorem window_leads {name spelling : String}
    (found : d.profile.windowFunctions.get? name = some spelling) :
    d.profile.vocabulary.leads Gap.beginnings (spelling ++ "(") [.called] := by
  have listed := List.mem_map_of_mem (f := Prod.snd) (Dictionary.mem_of_get? found)
  exact h.leads_call (h.windows.get? found) (List.mem_append_right _ listed)

end Dialect.Fits

/-! ## The built-in dialects -/

namespace Builtin

/-- The notes change nothing in the tables of spellings. -/
theorem spellings_build (b : Builtin) (notes : Notes) :
    ((b.build notes).profile.functions = (b.build {}).profile.functions ∧
      (b.build notes).profile.regexp = (b.build {}).profile.regexp ∧
      (b.build notes).profile.aggregates = (b.build {}).profile.aggregates ∧
      (b.build notes).profile.windowFunctions = (b.build {}).profile.windowFunctions) ∧
    (b.build notes).profile.types = (b.build {}).profile.types ∧
    (b.build notes).profile.dummyTable = (b.build {}).profile.dummyTable ∧
    (b.build notes).profile.dateLiteral = (b.build {}).profile.dateLiteral ∧
    (b.build notes).profile.timestampLiteral = (b.build {}).profile.timestampLiteral := by
  cases b <;> exact ⟨⟨rfl, rfl, rfl, rfl⟩, rfl, rfl, rfl, rfl⟩

theorem vocabulary_build (b : Builtin) (notes : Notes) :
    (b.build notes).profile.vocabulary = (b.build {}).profile.vocabulary := by
  obtain ⟨⟨functions, regexp, aggregates, windows⟩, -⟩ := b.spellings_build notes
  simp only [Profile.vocabulary, Profile.specs, functions, regexp, aggregates, windows]

theorem functions_fit (b : Builtin) (notes : Notes) :
    (b.build notes).profile.functions.Forall (·.fits) := by
  have standard : standardFunctions.Forall (·.fits) := by decide +kernel
  cases b with
  | generic => exact standard
  | bigQuery | exasol | mySql | postgreSql => exact standard.insertMany (by decide +kernel)
  | oracle => exact standard.insert _ (by decide +kernel)
  | sqlite => exact (standard.filter _).insertMany (by decide +kernel)
  | sqlServer => exact (standard.insertMany (by decide +kernel)).eraseAll _

theorem aggregates_fit (b : Builtin) (notes : Notes) :
    (b.build notes).profile.aggregates.Forall (isOwnWord ·) := by
  have standard : standardAggregates.Forall (isOwnWord ·) := by decide +kernel
  cases b with
  | bigQuery | generic | mySql | postgreSql => exact standard
  | exasol | sqlServer => exact standard.insertMany (by decide +kernel)
  | oracle => exact standard.insert _ (by decide +kernel)
  | sqlite =>
    simp only [build, sqliteProfile]
    decide +kernel

theorem windows_fit (b : Builtin) (notes : Notes) :
    (b.build notes).profile.windowFunctions.Forall (isOwnWord ·) := by
  have standard : standardWindowFunctions.Forall (isOwnWord ·) := by decide +kernel
  cases b with
  | exasol | oracle => exact standard.insertMany (by decide +kernel)
  | bigQuery | generic | mySql | postgreSql | sqlite | sqlServer => exact standard

theorem types_fit (b : Builtin) (notes : Notes) :
    (b.build notes).profile.types.Forall (·.fits) := by
  have standard : standardTypes.Forall (·.fits) := by decide +kernel
  cases b with
  | generic => exact standard
  | exasol | postgreSql => exact standard.insertMany (by decide +kernel)
  | mySql => exact ((standard.insertMany (by decide +kernel)).erase _).erase _
  | sqlServer => exact (standard.insertMany (by decide +kernel)).erase _
  | bigQuery | oracle | sqlite =>
    simp only [build, bigQueryProfile, oracleProfile, sqliteProfile]
    decide +kernel

/-- The texts of a dialect outside of its tables. -/
theorem texts_fit (b : Builtin) :
    ((∀ word ∈ (b.build {}).profile.vocabulary.operators,
        word ∉ (b.build {}).profile.vocabulary.calls) ∧
      (b.build {}).profile.regexp.fits ∧
      ((b.build {}).profile.dummyTable = "" ∨
        leadsAlways [.needed] (b.build {}).profile.dummyTable [.ended])) ∧
    ∀ template ∈ [((b.build {}).profile.dateLiteral, b.dateParts.1, b.dateParts.2.2),
        ((b.build {}).profile.timestampLiteral, b.timestampParts.1, b.timestampParts.2.2)],
      (template.1 = template.2.1 ++ "%s" ++ template.2.2 ∧ '%' ∉ template.2.1.toList ∧
        '%' ∉ template.2.2.toList) ∧
      leadsAlways Gap.beginnings template.2.1 (.ended :: Gap.beginnings) ∧
      leadsAlways [.ended] template.2.2 [.ended] := by
  cases b <;> decide +kernel

/-- The words of every built-in dialect fit between operands, whatever the notes say. -/
theorem fits (b : Builtin) (notes : Notes) : (b.build notes).Fits := by
  obtain ⟨⟨-, regexp, -, -⟩, -, dummyTable, dates, timestamps⟩ := b.spellings_build notes
  obtain ⟨⟨separate, pattern, dummy⟩, templates⟩ := b.texts_fit
  exact {
    separate := by
      rw [vocabulary_build]
      exact separate
    regexp := by
      rw [regexp]
      exact pattern
    functions := b.functions_fit notes
    aggregates := b.aggregates_fit notes
    windows := b.windows_fit notes
    types := b.types_fit notes
    dummyTable := by
      rw [dummyTable]
      exact dummy
    dates := by
      rw [dates]
      exact ⟨_, _, templates _ (List.mem_cons_self ..)⟩
    timestamps := by
      rw [timestamps]
      exact ⟨_, _, templates _ (List.mem_cons_of_mem _ (List.mem_singleton_self _))⟩ }

/-- The dialects with an operator for texts that takes any number of operands. -/
def joinsTexts (b : Builtin) : Bool := [oracle, postgreSql, sqlite].contains b

/-- Only CONCAT can be an operator that takes any number of operands. -/
theorem variadic_iff (b : Builtin) (notes : Notes) (name : String) :
    (∃ spec, (b.build notes).profile.functions.get? name = some spec ∧ spec.style = .operator ∧
      spec.arity < 0) ↔ name = "CONCAT" ∧ b.joinsTexts := by
  rw [(b.spellings_build notes).1.1]
  constructor
  · rintro ⟨spec, found, style, arity⟩
    have table : ∀ entry ∈ (b.build {}).profile.functions.entries, entry.2.style = .operator →
        entry.2.arity < 0 → entry.1 = "CONCAT" ∧ b.joinsTexts := by
      cases b <;> decide +kernel
    exact table _ (Dictionary.mem_of_get? found) style arity
  · rintro ⟨rfl, joins⟩
    have found : b.joinsTexts →
        (b.build {}).profile.functions.get? "CONCAT" = some ⟨"||", .operator, -1⟩ := by
      cases b <;> decide +kernel
    exact ⟨_, found joins, rfl, by decide⟩

end Builtin

end Pushdown
