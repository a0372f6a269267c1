import Mathlib.Data.Nat.Digits.Defs
import Pushdown.Proofs.Dialect.Capability
import Pushdown.Proofs.Sql.Leaf
import Pushdown.Proofs.Sql.Parts
import Pushdown.Proofs.Syntax.Positions

/-!
# The length of rendered constructs

Quoting at most doubles a text, and what a construct adds of its own is short: the spellings of a
dialect come from its tables, and a number has few digits. There is one bound for each function of
the renderer, in which a part that was refused counts nothing.
-/

namespace Pushdown

/-! ## Quoting -/

theorem length_doubleMark_le (mark : Char) (chars : List Char) :
    (doubleMark [mark] 0 chars).length ≤ 2 * chars.length := by
  induction chars with
  | nil => simp [doubleMark]
  | cons c chars ih =>
    rw [doubleMark]
    split
    · simp only [List.length_cons, List.length_nil, List.length_append, Nat.zero_add, Nat.sub_self]
      omega
    · simp only [List.length_cons]
      omega

theorem Profile.length_writeName_le {p : Profile} (marks : Lexer.HasMarks p) (always : Bool)
    (name : String) : (p.writeName always name).length ≤ 2 * name.length + 2 := by
  obtain ⟨first, opens⟩ := marks.opens
  obtain ⟨last, closes⟩ := marks.closes
  have doubled := length_doubleMark_le last name.toList
  have opening : p.quoteOpen.length = 1 := by rw [← String.length_toList, opens]; rfl
  have closing : p.quoteClose.length = 1 := by rw [← String.length_toList, closes]; rfl
  rw [String.length_toList] at doubled
  unfold writeName
  split
  · simp only [quotedName, String.length_append, String.length_ofList, opening, closing, closes]
    omega
  · omega

theorem StringEscape.length_char_le (e : StringEscape) (c : Char) : (e.char c).length ≤ 2 := by
  unfold char
  split <;> split <;> simp

theorem Profile.length_quotedText_le (p : Profile) (text : String) :
    (p.quotedText text).length ≤ 2 * text.length + 2 := by
  have doubled (chars : List Char) :
      (chars.flatMap p.stringEscape.char).length ≤ 2 * chars.length := by
    induction chars with
    | nil => simp
    | cons c chars ih =>
      have := p.stringEscape.length_char_le c
      simp only [List.flatMap_cons, List.length_append, List.length_cons]
      omega
  have := doubled text.toList
  rw [String.length_toList] at this
  simp only [quotedText, String.length_append, String.length_ofList]
  have : "'".length = 1 := rfl
  omega

/-- A machine number has at most nineteen digits and a sign. -/
theorem length_repr_le {n : Int} (fits : Text.fitsInt64 n) : n.repr.length ≤ 20 := by
  simp only [Text.fitsInt64, Bool.and_eq_true, decide_eq_true_eq] at fits
  have digits {m : Nat} (bound : m ≤ 9223372036854775808) : (Nat.repr m).length ≤ 19 :=
    Nat.repr_length m 19 (by decide) (by norm_num; omega)
  rw [Int.repr_eq_if]
  split
  · have := @digits n.toNat (by omega)
    omega
  · have := @digits (-n).toNat (by omega)
    simp only [String.length_append]
    have : "-".length = 1 := rfl
    omega

/-! ## Short dialects -/

/-- The texts that a dialect writes besides those of its tables. -/
def Profile.ownTexts (p : Profile) : List String :=
  [p.regexp.name, p.dummyTable, p.dateLiteral, p.timestampLiteral]

/-- The texts that a dialect writes are short. -/
structure Dialect.Concise (d : Dialect) : Prop extends Dialect.Readable d where
  texts_short : ∀ text ∈ d.profile.ownTexts, text.length ≤ 30
  functions_short : d.profile.functions.Forall (·.name.length ≤ 30)
  aggregates_short : d.profile.aggregates.Forall (·.length ≤ 30)
  windows_short : d.profile.windowFunctions.Forall (·.length ≤ 30)
  types_short : d.profile.types.Forall fun spec =>
    spec.name.length ≤ 30 ∧ spec.localTimeZone.length ≤ 30
  simpleCase : d.has .simpleCase

namespace Builtin

variable (b : Builtin) (notes : Notes)

theorem functions_short : (b.build notes).profile.functions.Forall (·.name.length ≤ 30) := by
  have standard : standardFunctions.Forall (·.name.length ≤ 30) := by decide +kernel
  cases b with
  | generic => exact standard
  | bigQuery | exasol | mySql | postgreSql => exact standard.insertMany (by decide +kernel)
  | oracle => exact standard.insert _ (by decide)
  | sqlite => exact (standard.filter _).insertMany (by decide +kernel)
  | sqlServer => exact (standard.insertMany (by decide +kernel)).eraseAll _

theorem aggregates_short : (b.build notes).profile.aggregates.Forall (·.length ≤ 30) := by
  have standard : standardAggregates.Forall (·.length ≤ 30) := by decide +kernel
  cases b with
  | bigQuery | generic | mySql | postgreSql => exact standard
  | exasol | sqlServer => exact standard.insertMany (by decide +kernel)
  | oracle => exact standard.insert _ (by decide)
  | sqlite =>
    simp only [build, sqliteProfile]
    decide +kernel

theorem windows_short : (b.build notes).profile.windowFunctions.Forall (·.length ≤ 30) := by
  have standard : standardWindowFunctions.Forall (·.length ≤ 30) := by decide +kernel
  cases b with
  | exasol | oracle => exact standard.insertMany (by decide +kernel)
  | bigQuery | generic | mySql | postgreSql | sqlite | sqlServer => exact standard

theorem types_short : (b.build notes).profile.types.Forall fun spec =>
    spec.name.length ≤ 30 ∧ spec.localTimeZone.length ≤ 30 := by
  have standard : standardTypes.Forall fun spec =>
      spec.name.length ≤ 30 ∧ spec.localTimeZone.length ≤ 30 := by decide +kernel
  cases b with
  | generic => exact standard
  | exasol | postgreSql => exact standard.insertMany (by decide +kernel)
  | mySql => exact ((standard.insertMany (by decide +kernel)).erase _).erase _
  | sqlServer => exact (standard.insertMany (by decide +kernel)).erase _
  | bigQuery | oracle | sqlite =>
    simp only [build, bigQueryProfile, oracleProfile, sqliteProfile]
    decide +kernel

/-- Every built-in dialect is concise; the generic one if the notes name no mark of their own. -/
theorem concise (mark : b = .generic → Text.trim (notes.text "identifierQuoteString") = "") :
    (b.build notes).Concise where
  toReadable := b.readable notes fun generic => .inl (mark generic)
  texts_short := by
    have regexp : (b.build notes).profile.regexp = (b.build {}).profile.regexp := by
      cases b <;> rfl
    have dummy : (b.build notes).profile.dummyTable = (b.build {}).profile.dummyTable := by
      cases b <;> rfl
    have dates : (b.build notes).profile.dateLiteral = (b.build {}).profile.dateLiteral := by
      cases b <;> rfl
    have timestamps : (b.build notes).profile.timestampLiteral =
        (b.build {}).profile.timestampLiteral := by cases b <;> rfl
    rw [Profile.ownTexts, regexp, dummy, dates, timestamps]
    cases b <;> decide +kernel
  functions_short := b.functions_short notes
  aggregates_short := b.aggregates_short notes
  windows_short := b.windows_short notes
  types_short := b.types_short notes
  simpleCase := b.has_simpleCase notes

end Builtin

/-! ## Statements and their parts -/

namespace Sql

variable (d : Dialect) (quoteNames : Bool)

/-- The number of characters of a statement. -/
def size (s : Sql) : Nat := (s.write d.profile quoteNames).length

@[simp] theorem size_nil : size d quoteNames [] = 0 := rfl

@[simp] theorem size_cons (f : Fragment) (s : Sql) :
    size d quoteNames (f :: s) =
      (f.write d.profile quoteNames).length + size d quoteNames s := by
  simp [size]

@[simp] theorem size_append (s t : Sql) :
    size d quoteNames (s ++ t) = size d quoteNames s + size d quoteNames t := by
  simp [size]

@[simp] theorem size_raw (text : String) : size d quoteNames (raw text) = text.toList.length := by
  simp [size, raw, Fragment.write, String.length_toList]

@[simp] theorem size_parens (s : Sql) :
    size d quoteNames (parens s) = size d quoteNames s + 2 := by
  simp [parens]
  omega

theorem size_joinWith_le (separator : String) (parts : List Sql) :
    size d quoteNames (joinWith separator parts) ≤
      (parts.map fun s => size d quoteNames s + separator.length).sum := by
  unfold joinWith
  induction parts with
  | nil => simp
  | cons part parts ih =>
    cases parts with
    | nil => simp
    | cons next parts =>
      simp only [List.intersperse_cons_cons, List.flatten_cons, size_append, size_raw,
        String.length_toList, List.map_cons, List.sum_cons] at ih ⊢
      omega

variable {d quoteNames}

/-- A constant in a template is as long as both. -/
theorem size_fill_le {template front : String} {opened : List Bracket} {back : String}
    (h : IsTemplate d.profile template front opened back) (value : String) :
    size d quoteNames (fill d.profile template value) ≤
      template.length + (2 * value.length + 2) := by
  have short (text : String) : size d quoteNames (rawUnlessEmpty text) ≤ text.length := by
    unfold rawUnlessEmpty
    split <;> simp [String.length_toList]
  have first := short front
  have last := short back
  have middle := d.profile.length_quotedText_le value
  rw [fill_of_isTemplate h, h.parts]
  simp only [size_append, size_cons, size_nil, Fragment.write, String.length_append]
  omega

end Sql

namespace Render

open Sql (raw joinWith parens)

section

variable (d : Dialect) (quoteNames : Bool)

/-- The length of a part, nothing if it was refused. -/
def cost : Result Sql → Nat
  | .ok s => s.size d quoteNames
  | .error _ => 0

/-- The length of parts with room for what may stand around each of them. -/
def toll (parts : List (Result Sql)) : Nat := (parts.map fun part => cost d quoteNames part + 35).sum

@[simp] theorem cost_ok (s : Sql) : cost d quoteNames (.ok s) = s.size d quoteNames := rfl

@[simp] theorem toll_nil : toll d quoteNames [] = 0 := rfl

@[simp] theorem toll_cons (part : Result Sql) (parts : List (Result Sql)) :
    toll d quoteNames (part :: parts) = cost d quoteNames part + 35 + toll d quoteNames parts := by
  simp [toll]

@[simp] theorem toll_append (parts others : List (Result Sql)) :
    toll d quoteNames (parts ++ others) = toll d quoteNames parts + toll d quoteNames others := by
  simp [toll]

end

variable {d : Dialect} {quoteNames : Bool} {s : Sql}

/-- Parts with a short separator between them. -/
theorem size_joinWith_le_toll {separator : String} (short : separator.length ≤ 35)
    (parts : List Sql) :
    (joinWith separator parts).size d quoteNames ≤ toll d quoteNames (parts.map .ok) := by
  refine (Sql.size_joinWith_le d quoteNames separator parts).trans ?_
  induction parts with
  | nil => simp
  | cons part parts ih =>
    simp only [List.map_cons, List.sum_cons, toll_cons, cost_ok]
    omega

theorem size_clause_le {keyword : String} (short : keyword.length ≤ 35) (part : Option Sql) :
    (clause keyword part).size d quoteNames ≤ toll d quoteNames (part.map .ok).toList := by
  cases part with
  | none => simp [clause]
  | some t =>
    simp only [clause, Sql.size_append, Sql.size_raw, String.length_toList, Option.map_some,
      Option.toList_some, toll_cons, cost_ok]
    omega

/-! ## Positions -/

theorem cost_asPredicate_le (n : Node) (rendered : Result Sql) :
    cost d quoteNames (asPredicate d n rendered) ≤ cost d quoteNames rendered + 5 := by
  cases outcome : asPredicate d n rendered with
  | error e => simp [cost]
  | ok s =>
    rcases asPredicate_eq_ok outcome with rfl | ⟨-, ⟨l, -, -, rfl⟩ | ⟨c, t, -, -, rfl, rfl⟩⟩
    · simp
    · unfold truthText
      split <;> simp
    · simp

/-- Only a condition that is turned into a value is written twice. -/
theorem cost_asOperand_le (n : Node) (rendered : Result Sql) :
    cost d quoteNames (asOperand d n rendered) ≤
      n.copies d * cost d quoteNames rendered + 40 := by
  cases outcome : asOperand d n rendered with
  | error e => simp [cost]
  | ok s =>
    obtain ⟨t, rfl, rfl⟩ := asOperand_eq_ok.mp outcome
    unfold operandText Node.copies truthCase
    cases n.isPredicate with
    | true =>
      cases d.has .booleanLiterals with
      | true => simp
      | false =>
        simp
        omega
    | false =>
      simp only [Bool.false_eq_true, if_false, false_and, Nat.one_mul, cost_ok]
      split <;> simp

/-! ## Predicates -/

theorem size_connective_le {word : String} (short : word.length ≤ 10) {operands : List Node}
    {conditions : List (Result Sql)} (matching : operands.length = conditions.length)
    (h : connective word operands conditions = .ok s) :
    s.size d quoteNames ≤ toll d quoteNames conditions := by
  obtain ⟨parts, rfl, rfl⟩ := connective_eq_ok.mp h
  refine (Sql.size_joinWith_le d quoteNames _ _).trans ?_
  generalize (operands.zip parts).length = several
  clear h
  induction parts generalizing operands with
  | nil => simp
  | cons part parts ih =>
    cases operands with
    | nil => simp at matching
    | cons operand operands =>
      have rest := @ih operands (by simpa using matching)
      simp only [List.zip_cons_cons, List.map_cons, List.sum_cons, toll_cons, cost_ok]
      refine Nat.add_le_add ?_ rest
      have separator : (" " ++ word ++ " ").length ≤ 12 := by
        simp only [← String.length_toList] at short ⊢
        simp
        omega
      split
      · rw [Sql.size_parens]
        omega
      · omega

theorem size_not_le {condition : Result Sql} (h : not condition = .ok s) :
    s.size d quoteNames ≤ toll d quoteNames [condition] := by
  obtain ⟨c, rfl, rfl⟩ := not_eq_ok.mp h
  simp
  omega

theorem size_comparison_le {op : ComparisonOp} (known : ∀ symbol, op ≠ .other symbol)
    {left right : Result Sql} (h : comparison op left right = .ok s) :
    s.size d quoteNames ≤ toll d quoteNames [left, right] := by
  obtain ⟨l, r, rfl, rfl, rfl⟩ := comparison_eq_ok.mp h
  have short : op.symbol.length ≤ 2 := by
    cases op with
    | other symbol => exact absurd rfl (known symbol)
    | _ => decide
  simp [String.length_toList]
  omega

theorem size_like_le {expr pattern : Result Sql} {escape : Option (Result Sql)}
    (h : like expr pattern escape = .ok s) :
    s.size d quoteNames ≤ toll d quoteNames (expr :: pattern :: escape.toList) := by
  obtain ⟨e, p, x, rfl, rfl, rfl, rfl⟩ := like_eq_ok.mp h
  have := @size_clause_le d quoteNames " ESCAPE " (by decide) x
  simp
  omega

theorem size_between_le {expr low high : Result Sql} (h : between expr low high = .ok s) :
    s.size d quoteNames ≤ toll d quoteNames [expr, low, high] := by
  obtain ⟨e, l, h, rfl, rfl, rfl, rfl⟩ := between_eq_ok.mp h
  simp
  omega

theorem size_inList_le {expr : Result Sql} {values : List (Result Sql)}
    (h : inList expr values = .ok s) :
    s.size d quoteNames ≤ toll d quoteNames (expr :: values) := by
  obtain ⟨e, vs, rfl, rfl, rfl⟩ := inList_eq_ok.mp h
  have := @size_joinWith_le_toll d quoteNames ", " (by decide) vs
  simp
  omega

theorem size_inSubquery_le {expr statement : Result Sql}
    (h : inSubquery d expr statement = .ok s) :
    s.size d quoteNames ≤ toll d quoteNames [expr, statement] := by
  obtain ⟨-, e, t, rfl, rfl, rfl⟩ := inSubquery_eq_ok.mp h
  simp
  omega

theorem size_isNull_le {expr : Result Sql} (h : isNull expr = .ok s) :
    s.size d quoteNames ≤ toll d quoteNames [expr] := by
  obtain ⟨e, rfl, rfl⟩ := isNull_eq_ok.mp h
  simp

theorem size_isNotNull_le {expr : Result Sql} (h : isNotNull expr = .ok s) :
    s.size d quoteNames ≤ toll d quoteNames [expr] := by
  obtain ⟨e, rfl, rfl⟩ := isNotNull_eq_ok.mp h
  simp

/-! ## Calls -/

theorem size_apply_le {kind : Kind} {spec : FunctionSpec} (short : spec.name.length ≤ 30)
    {args : List (Result Sql)} (h : apply d kind spec args = .ok s) :
    s.size d quoteNames ≤ toll d quoteNames args + 35 := by
  rcases apply_eq_ok h with ⟨-, rfl⟩ | ⟨arg, rest, -, rfl, rfl⟩ | ⟨parts, -, rfl, rfl⟩ |
    ⟨parts, -, rfl, rfl⟩
  · simp [String.length_toList]
    omega
  · simp [String.length_toList]
    omega
  · have between : (" " ++ spec.name ++ " ").length ≤ 35 := by
      simp [← String.length_toList] at short ⊢
      omega
    have := @size_joinWith_le_toll d quoteNames _ between parts
    simp
    omega
  · have := @size_joinWith_le_toll d quoteNames ", " (by decide) parts
    simp [String.length_toList]
    omega

/-- The parts of the branches of a CASE. -/
def branchParts (branches : List (Result Sql × Result Sql)) : List (Result Sql) :=
  branches.flatMap fun branch => [branch.1, branch.2]

@[simp] theorem branchParts_cons (branch : Result Sql × Result Sql)
    (branches : List (Result Sql × Result Sql)) :
    branchParts (branch :: branches) = branch.1 :: branch.2 :: branchParts branches := rfl

theorem size_case_le (simpleCase : d.has .simpleCase) {basis : Option (Result Sql)}
    {branches : List (Result Sql × Result Sql)} {otherwise : Option (Result Sql)}
    (h : case d basis branches otherwise = .ok s) :
    s.size d quoteNames ≤
      toll d quoteNames (basis.toList ++ branchParts branches ++ otherwise.toList) + 10 := by
  obtain ⟨b, parts, e, rfl, rendered, rfl, rfl⟩ := case_eq_ok.mp h
  have first := @size_clause_le d quoteNames " " (by decide) b
  have last := @size_clause_le d quoteNames " ELSE " (by decide) e
  have middle : Sql.size d quoteNames parts.flatten ≤ toll d quoteNames (branchParts branches) := by
    clear h first last
    induction branches generalizing parts with
    | nil =>
      obtain rfl : parts = [] := by simpa using rendered.symm
      simp
    | cons pair branches ih =>
      obtain ⟨condition, result⟩ := pair
      cases parts with
      | nil => simp at rendered
      | cons part parts =>
        simp only [List.map_cons, List.cons.injEq] at rendered
        obtain ⟨c, r, rfl, rfl, rfl⟩ := branch_eq_ok.mp rendered.1
        have same : branchCondition d b c = c := by
          unfold branchCondition
          cases b <;> simp [simpleCase]
        have rest := ih parts rendered.2
        simp [same]
        omega
  simp [simpleCase]
  omega

theorem size_extract_le {part : DatePart} (known : ∀ name, part ≠ .other name) {arg : Result Sql}
    (h : extract d part arg = .ok s) :
    s.size d quoteNames ≤ toll d quoteNames [arg] + 10 := by
  have short : part.name.length ≤ 6 := by
    cases part with
    | other name => exact absurd rfl (known name)
    | _ => decide
  obtain ⟨a, rfl, rfl | rfl | ⟨format, type, taken, rfl⟩⟩ := extract_eq_ok h
  · simp [String.length_toList]
    omega
  · simp [String.length_toList]
    omega
  · have format_short : format.length ≤ 2 ∧ type.length ≤ 7 := by
      cases part <;> cases taken <;> decide
    have := d.profile.length_quotedText_le format
    simp [String.length_toList, Fragment.write]
    omega

theorem length_typeName_le (concise : d.Concise) {type : DataType}
    (fits : ∀ n ∈ [type.precision, type.scale, type.size], Text.fitsInt64 n) {name : String}
    (found : d.profile.typeName? type = some name) : name.length ≤ 74 := by
  simp only [Profile.typeName?, Option.bind_eq_bind, Option.bind_eq_some_iff] at found
  obtain ⟨spec, listed, found⟩ := found
  have short : spec.name.length ≤ 30 ∧ spec.localTimeZone.length ≤ 30 :=
    concise.types_short _ (Dictionary.mem_of_get? listed)
  have precision := length_repr_le (fits type.precision (by simp))
  have scale := length_repr_le (fits type.scale (by simp))
  have size := length_repr_le (fits type.size (by simp))
  have range : type.range.qualifier.length ≤ 13 := by
    unfold IntervalRange.qualifier
    split <;> decide
  split at found
  · split at found
    · contradiction
    · cases found
      omega
  · split at found
    · cases found
      omega
    · split at found
      all_goals
        cases found
        simp [toString, ← String.length_toList] at short precision scale size range ⊢
        omega

theorem size_cast_le (concise : d.Concise) {type : DataType}
    (fits : ∀ n ∈ [type.precision, type.scale, type.size], Text.fitsInt64 n) {arg : Result Sql}
    (h : cast d type arg = .ok s) : s.size d quoteNames ≤ toll d quoteNames [arg] + 60 := by
  obtain ⟨name, a, found, rfl, rfl⟩ := cast_eq_ok.mp h
  have := length_typeName_le concise fits found
  split <;> simp [String.length_toList] <;> omega

theorem size_aggregate_le (concise : d.Concise) {name : String} {distinct : Bool}
    {args : List (Result Sql)} {filter : Option (Result Sql)}
    (h : aggregate d name distinct args filter = .ok s) :
    s.size d quoteNames ≤ toll d quoteNames (args ++ filter.toList) + 50 := by
  obtain ⟨spelling, a, f, found, arguments, filtered, rfl⟩ := aggregate_eq_ok.mp h
  have short : spelling.length ≤ 30 := concise.aggregates_short _ (Dictionary.mem_of_get? found)
  obtain ⟨parts, rfl, rfl⟩ := aggregateArguments_eq_ok.mp arguments
  obtain ⟨-, c, rfl, rfl⟩ := filterClause_eq_ok.mp filtered
  have list := @size_joinWith_le_toll d quoteNames ", " (by decide) parts
  have condition : (filterText c).size d quoteNames ≤ toll d quoteNames (c.map .ok).toList := by
    cases c <;> simp [filterText]
    omega
  have inside : Sql.size d quoteNames (if parts.isEmpty then raw "*"
      else (if distinct then raw "DISTINCT " else []) ++ joinWith ", " parts) ≤
        toll d quoteNames (parts.map .ok) + 9 := by
    split
    · simp
    · cases distinct <;> simp <;> omega
  have opening : (raw (spelling ++ "(")).size d quoteNames ≤ 31 := by
    simp [String.length_toList]
    omega
  have closing : (raw ")").size d quoteNames = 1 := by simp
  simp only [Sql.size_append, toll_append] at inside ⊢
  omega

theorem size_concatCall_le (style : ConcatStyle) (distinct : Bool) (arg : Sql) (order : Option Sql)
    (separator : Option String) :
    (concatCall style distinct arg order separator).size d quoteNames ≤
      toll d quoteNames (.ok arg :: (order.map .ok).toList) +
        2 * (separator.map String.length).getD 0 + 60 := by
  have value : Sql.size d quoteNames ((if distinct then raw "DISTINCT " else []) ++ arg) ≤
      Sql.size d quoteNames arg + 9 := by
    cases distinct <;> simp
    omega
  have ordered := @size_clause_le d quoteNames " " (by decide) order
  have separated := d.profile.length_quotedText_le (separator.getD ",")
  have given (keyword : String) (short : keyword.length ≤ 11) :
      (clause keyword (separator.map fun s => [.text s])).size d quoteNames ≤
        2 * (separator.map String.length).getD 0 + 13 := by
    cases separator with
    | none => simp [clause]
    | some text =>
      simp [clause, Fragment.write, String.length_toList] at separated ⊢
      omega
  have needed : Sql.size d quoteNames ((separator.map fun s => [.text s]).getD [.text ","]) ≤
      2 * (separator.map String.length).getD 0 + 4 := by
    cases separator with
    | none =>
      have : ",".length = 1 := rfl
      simp [Fragment.write] at separated ⊢
      omega
    | some text =>
      simp [Fragment.write] at separated ⊢
      omega
  have comma := given ", " (by decide)
  have word := given " SEPARATOR " (by decide)
  have optional : (clause ", " (if distinct then none
      else separator.map fun s => [.text s])).size d quoteNames ≤
        2 * (separator.map String.length).getD 0 + 13 := by
    split
    · simp [clause]
    · exact comma
  have within : ((order.map fun s => raw " WITHIN GROUP (" ++ s ++ raw ")").getD []).size d
      quoteNames ≤ toll d quoteNames (order.map .ok).toList := by
    cases order <;> simp
    omega
  have sorted : (order.getD (raw "ORDER BY NULL")).size d quoteNames ≤
      toll d quoteNames (order.map .ok).toList + 13 := by
    cases order <;> simp
    omega
  cases style
  all_goals
    simp only [concatCall, Sql.size_append, Sql.size_raw, String.reduceToList, List.length_cons,
      List.length_nil, toll_cons, cost_ok] at value ⊢
    omega

theorem size_groupConcat_le {arg : Result Sql} {distinct : Bool} {order : Option (Result Sql)}
    {separator : Option String} (h : groupConcat d arg distinct order separator = .ok s) :
    s.size d quoteNames ≤ toll d quoteNames (arg :: order.toList) +
      2 * (separator.map String.length).getD 0 + 60 := by
  obtain ⟨-, a, o, rfl, rfl, rfl⟩ := groupConcat_eq_ok.mp h
  exact size_concatCall_le ..

/-- The numbers of a window frame. -/
def frameOffsets (f : Frame) : List Int := f.start.offset :: (f.stop.map (·.offset)).toList

theorem length_frameBound_le {b : FrameBound} (fits : Text.fitsInt64 b.offset) :
    (frameBound b).length ≤ 30 := by
  have := length_repr_le fits
  unfold frameBound
  split <;> simp [toString, ← String.length_toList] at this ⊢ <;> omega

theorem length_frame_le {f : Frame} (fits : ∀ n ∈ frameOffsets f, Text.fitsInt64 n)
    (checked : Build.checkFrame f = .ok ()) : (frame f).length ≤ 80 := by
  have units : f.units.name.length ≤ 5 := by
    rcases units_of_checkFrame checked with same | same <;> simp [same, ← String.length_toList]
  have start := length_frameBound_le (fits f.start.offset (by simp [frameOffsets]))
  unfold frame
  split
  · simp [← String.length_toList] at units start ⊢
    omega
  · rename_i stop given
    have stop := length_frameBound_le (fits stop.offset (by simp [frameOffsets, given]))
    simp [← String.length_toList] at units start stop ⊢
    omega

theorem size_window_le (concise : d.Concise) {name : String} {args partition : List (Result Sql)}
    {order : Option (Result Sql)} {bounds : Option Frame}
    (framed : ∀ f ∈ bounds, (frame f).length ≤ 80)
    (h : window d name args partition order bounds = .ok s) :
    s.size d quoteNames ≤ toll d quoteNames (args ++ partition ++ order.toList) + 150 := by
  obtain ⟨-, spelling, l, p, o, found, rfl, rfl, rfl, rfl⟩ := window_eq_ok.mp h
  have short : spelling.length ≤ 30 := concise.windows_short _ (Dictionary.mem_of_get? found)
  have list : (windowList name l).size d quoteNames ≤ toll d quoteNames (l.map .ok) + 1 := by
    have := @size_joinWith_le_toll d quoteNames ", " (by decide) l
    unfold windowList
    split
    · simp
    · omega
  have parts : (joinWith " " (windowParts p o bounds)).size d quoteNames ≤
      toll d quoteNames (p.map .ok) + toll d quoteNames (o.map .ok).toList + 100 := by
    have partition := @size_joinWith_le_toll d quoteNames ", " (by decide) p
    refine (Sql.size_joinWith_le d quoteNames " " _).trans ?_
    simp only [windowParts, List.map_append, List.sum_append]
    refine Nat.le_trans (Nat.add_le_add (Nat.add_le_add
      (?_ : _ ≤ toll d quoteNames (p.map .ok) + 14) (?_ : _ ≤ toll d quoteNames (o.map .ok).toList))
      (?_ : _ ≤ 81)) (by omega)
    · split
      · simp
      · simp [← String.length_toList]
        omega
    · cases o <;> simp [← String.length_toList]
    · cases bounds with
      | none => simp
      | some f =>
        have := framed f rfl
        simp [← String.length_toList] at this ⊢
        omega
  simp [String.length_toList]
  omega

/-! ## Clauses -/

theorem size_limit_le {l : Limit} (fits : Text.fitsInt64 l.count ∧ Text.fitsInt64 l.offset)
    (h : limit d l = .ok s) : s.size d quoteNames ≤ 80 := by
  obtain rfl := limit_eq_ok h
  have count := length_repr_le fits.1
  have offset := length_repr_le fits.2
  rw [Sql.size_raw]
  unfold limitText
  repeat' split
  all_goals
    simp [toString, String.length_toList]
    omega

theorem size_selectList_le {star : Bool} {items : List (Result Sql)}
    (h : selectList d star items = .ok s) :
    s.size d quoteNames ≤ toll d quoteNames items + 4 := by
  rw [selectList_eq_ok] at h
  split at h
  · subst h
    simp
  · obtain ⟨parts, rfl, rfl⟩ := h
    have := @size_joinWith_le_toll d quoteNames ", " (by decide) parts
    split
    · unfold anyValue
      split <;> simp
    · omega

theorem cost_selectItem_le (marks : Lexer.HasMarks d.profile) (aliasName : String)
    (expr : Result Sql) :
    cost d quoteNames (selectItem aliasName expr) ≤ cost d quoteNames expr + 8 * aliasName.length := by
  cases outcome : selectItem aliasName expr with
  | error e => simp [cost]
  | ok s =>
    obtain ⟨e, rfl, rfl⟩ := selectItem_eq_ok.mp outcome
    have := Profile.length_writeName_le marks quoteNames aliasName
    split
    · simp
    · rename_i given
      have : aliasName.length ≠ 0 := by simpa using given
      simp [Fragment.write]
      omega

theorem size_tableAlias_le (marks : Lexer.HasMarks d.profile) (aliasName : String) :
    (tableAlias d aliasName).size d quoteNames ≤ 2 * aliasName.length + 6 := by
  have := Profile.length_writeName_le marks quoteNames aliasName
  unfold tableAlias
  split <;> simp [Fragment.write] <;> omega

theorem size_join_le {type : JoinType} {left right condition : Result Sql} {rightKind : Kind}
    (h : join d type left rightKind right condition = .ok s) :
    s.size d quoteNames ≤ toll d quoteNames [left, right, condition] := by
  obtain ⟨keyword, l, r, c, found, rfl, rfl, rfl, rfl⟩ := join_eq_ok.mp h
  have short : keyword.length ≤ 16 := by
    have all : ∀ word ∈ ["INNER JOIN", "LEFT OUTER JOIN", "RIGHT OUTER JOIN", "FULL OUTER JOIN"],
        word.length ≤ 16 := by decide
    exact all keyword (joinKeyword_eq_ok found)
  split <;> simp [String.length_toList] <;> omega

theorem size_subSelect_le (marks : Lexer.HasMarks d.profile) {statement : Result Sql}
    {aliasName : String} (h : subSelect d statement aliasName = .ok s) :
    s.size d quoteNames ≤ toll d quoteNames [statement] + 2 * aliasName.length := by
  obtain ⟨-, t, rfl, rfl⟩ := subSelect_eq_ok.mp h
  have := @size_tableAlias_le d quoteNames marks aliasName
  simp
  omega

theorem cost_sortKey_le (ascending nullsLast : Bool) (expr : Result Sql) :
    cost d quoteNames (sortKey d ascending nullsLast expr) ≤ cost d quoteNames expr + 20 := by
  cases outcome : sortKey d ascending nullsLast expr with
  | error e => simp [cost]
  | ok s =>
    obtain ⟨e, rfl, rfl⟩ := sortKey_eq_ok.mp outcome
    have short : (direction d ascending nullsLast).length ≤ 20 := by
      unfold direction
      repeat' split
      all_goals decide
    simp [String.length_toList]
    omega

theorem size_groupBy_le {exprs : List (Result Sql)} (h : groupBy exprs = .ok s) :
    s.size d quoteNames ≤ toll d quoteNames exprs + 9 := by
  obtain ⟨parts, rfl, rfl⟩ := groupBy_eq_ok.mp h
  have := @size_joinWith_le_toll d quoteNames ", " (by decide) parts
  simp
  omega

theorem size_select_le (concise : d.Concise) {limit : Option (Result Sql)} {list : Result Sql}
    {source filter grouping having order : Option (Result Sql)}
    (h : select d limit list source filter grouping having order = .ok s) :
    s.size d quoteNames ≤ toll d quoteNames (limit.toList ++ list :: (source.toList ++ filter.toList ++
      grouping.toList ++ having.toList ++ order.toList)) + 50 := by
  obtain ⟨n, l, f, w, g, v, o, rfl, rfl, rfl, rfl, rfl, rfl, rfl, rfl⟩ := select_eq_ok.mp h
  have filter := @size_clause_le d quoteNames " WHERE " (by decide) w
  have grouping := @size_clause_le d quoteNames " " (by decide) g
  have having := @size_clause_le d quoteNames " HAVING " (by decide) v
  have order := @size_clause_le d quoteNames " " (by decide) o
  have source : (fromClause d f).size d quoteNames ≤ toll d quoteNames (f.map .ok).toList + 40 := by
    have dummy := concise.texts_short d.profile.dummyTable (by simp [Profile.ownTexts])
    unfold fromClause
    split
    · simp
      omega
    · split <;> simp [String.length_toList]
      omega
  have limit : (limitOnTop d n).size d quoteNames + (limitAtEnd d n).size d quoteNames ≤
      toll d quoteNames (n.map .ok).toList := by
    have := @size_clause_le d quoteNames " " (by decide) n
    unfold limitOnTop limitAtEnd
    split
    · cases n <;> simp
    · simpa
  simp
  omega

end Render

end Pushdown
