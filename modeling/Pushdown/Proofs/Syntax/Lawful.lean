import Pushdown.Proofs.Sql.Numeral
import Pushdown.Proofs.Syntax.Scoping
import Pushdown.Proofs.Text.Case

/-!
# The laws of a tree

`Node.Lawful` says of one node what a generator may rely on: which parts are never empty, which
clauses need each other, what the condition of a join may refer to, and how a constant is written.
The laws do not mention how a node is constructed. `Node.lawful_of_wellFormed` shows that what the
construction of the nodes checks is enough for all of them.
-/

namespace Pushdown

/-! ## Formats of constants -/

namespace LiteralFormat

/-- As many digits and nothing else. -/
structure DigitRun (count : Nat) (cs : List Char) : Prop where
  length : cs.length = count
  digits : ∀ c ∈ cs, c.isDigit

def IsSign (cs : List Char) : Prop := cs = [] ∨ cs = ['+'] ∨ cs = ['-']

/-- Digits, with an optional sign in front and an optional fraction of at least one digit. -/
def IsExactNumeric (cs : List Char) : Prop :=
  ∃ sign whole fraction, cs = sign ++ (whole ++ fraction) ∧ IsSign sign ∧
    (whole ≠ [] ∧ ∀ c ∈ whole, c.isDigit) ∧
    (fraction = [] ∨ ∃ digits, fraction = '.' :: digits ∧ digits ≠ [] ∧ ∀ c ∈ digits, c.isDigit)

/-- A decimal number, whose sign, fraction and exponent are optional, that a double can hold. -/
def IsDouble (cs : List Char) : Prop :=
  ∃ sign whole fraction exponent d, cs = sign ++ (whole ++ fraction ++ exponent) ∧ IsSign sign ∧
    (∀ c ∈ whole, c.isDigit) ∧ Lexer.IsFraction fraction ∧ Lexer.IsExponent exponent ∧
    (whole ≠ [] ∨ ∃ digit rest, fraction = '.' :: digit :: rest) ∧
    Text.Decimal.read? cs = some d ∧ d.fitsDouble

/-- Year, month and day. -/
def IsDate (cs : List Char) : Prop :=
  ∃ year month day, cs = year ++ '-' :: (month ++ '-' :: day) ∧
    DigitRun 4 year ∧ DigitRun 2 month ∧ DigitRun 2 day

/-- A date and a time of day, in which a second may have a fraction of one to nine digits. -/
def IsTimestamp (cs : List Char) : Prop :=
  ∃ date hour minute second fraction,
    cs = date ++ ' ' :: (hour ++ ':' :: (minute ++ ':' :: (second ++ fraction))) ∧
    IsDate date ∧ DigitRun 2 hour ∧ DigitRun 2 minute ∧ DigitRun 2 second ∧
    (fraction = [] ∨
      ∃ count digits, fraction = '.' :: digits ∧ 1 ≤ count ∧ count ≤ 9 ∧ DigitRun count digits)

/-- A digit behind an optional sign, then digits, blanks and separators. -/
def IsInterval (cs : List Char) : Prop :=
  ∃ sign first rest, cs = sign ++ first :: rest ∧ IsSign sign ∧ first.isDigit ∧
    ∀ c ∈ rest, c.isDigit ∨ c ∈ [' ', ':', '.', '-']

theorem eq_sign_append (cs : List Char) : ∃ sign, IsSign sign ∧ cs = sign ++ Text.dropSign cs := by
  unfold Text.dropSign
  split
  · exact ⟨['+'], .inr (.inl rfl), rfl⟩
  · exact ⟨['-'], .inr (.inr rfl), rfl⟩
  · exact ⟨[], .inl rfl, rfl⟩

/-! The template of a format is read from left to right: runs of digits with separators between
them. -/

theorem fits_digits {count : Nat} {template cs : List Char}
    (h : fits (List.replicate count '0' ++ template) cs) :
    ∃ run rest, cs = run ++ rest ∧ DigitRun count run ∧ fits template rest := by
  induction count generalizing cs with
  | zero => exact ⟨[], cs, rfl, ⟨rfl, by simp⟩, h⟩
  | succ count ih =>
    cases cs with
    | nil => simp [List.replicate_succ, fits] at h
    | cons c cs =>
      simp only [List.replicate_succ, List.cons_append, fits, Bool.and_eq_true] at h
      obtain ⟨run, rest, rfl, digits, fitting⟩ := ih h.2
      exact ⟨c :: run, rest, rfl, ⟨by simp [digits.length], by simpa using ⟨h.1, digits.digits⟩⟩,
        fitting⟩

theorem fits_separator {separator : Char} {template cs : List Char} (mark : separator ≠ '0')
    (h : fits (separator :: template) cs) :
    ∃ rest, cs = separator :: rest ∧ fits template rest := by
  cases cs with
  | nil => simp [fits] at h
  | cons c cs =>
    rw [fits] at h
    · simp only [Bool.and_eq_true, beq_iff_eq] at h
      exact ⟨cs, by rw [h.1], h.2⟩
    · exact mark

theorem eq_nil_of_fits {cs : List Char} (h : fits [] cs) : cs = [] := by
  cases cs with
  | nil => rfl
  | cons c cs => simp [fits] at h

/-- The template of a date, cut into its runs. -/
theorem dateTemplate_eq (template : List Char) : "0000-00-00".toList ++ template =
    List.replicate 4 '0' ++ '-' :: (List.replicate 2 '0' ++ '-' ::
      (List.replicate 2 '0' ++ template)) := by
  have cut : "0000-00-00".toList = List.replicate 4 '0' ++ '-' :: (List.replicate 2 '0' ++ '-' ::
    List.replicate 2 '0') := by decide
  simp only [cut, List.append_assoc, List.cons_append]

theorem IsDate.of_fits {template cs : List Char} (h : fits ("0000-00-00".toList ++ template) cs) :
    ∃ date rest, cs = date ++ rest ∧ IsDate date ∧ fits template rest := by
  rw [dateTemplate_eq] at h
  obtain ⟨year, rest, rfl, years, h⟩ := fits_digits h
  obtain ⟨rest, rfl, h⟩ := fits_separator (by decide) h
  obtain ⟨month, rest, rfl, months, h⟩ := fits_digits h
  obtain ⟨rest, rfl, h⟩ := fits_separator (by decide) h
  obtain ⟨day, rest, rfl, days, h⟩ := fits_digits h
  exact ⟨_, rest, by simp, ⟨year, month, day, rfl, years, months, days⟩, h⟩

theorem IsDate.of_isDate {cs : List Char} (h : isDate cs) : IsDate cs := by
  rw [isDate, ← List.append_nil "0000-00-00".toList] at h
  obtain ⟨date, rest, rfl, isDate, h⟩ := IsDate.of_fits h
  rwa [eq_nil_of_fits h, List.append_nil]

theorem IsTimestamp.of_isTimestamp {cs : List Char} (h : isTimestamp cs) : IsTimestamp cs := by
  have cut : "0000-00-00 00:00:00".toList = "0000-00-00".toList ++ ' ' ::
      (List.replicate 2 '0' ++ ':' :: (List.replicate 2 '0' ++ ':' ::
        (List.replicate 2 '0' ++ []))) := by decide
  simp only [isTimestamp, Bool.and_eq_true, cut] at h
  obtain ⟨fitting, fraction⟩ := h
  obtain ⟨date, rest, front, isDate, fitting⟩ := IsDate.of_fits fitting
  obtain ⟨rest, rfl, fitting⟩ := fits_separator (by decide) fitting
  obtain ⟨hour, rest, rfl, hours, fitting⟩ := fits_digits fitting
  obtain ⟨rest, rfl, fitting⟩ := fits_separator (by decide) fitting
  obtain ⟨minute, rest, rfl, minutes, fitting⟩ := fits_digits fitting
  obtain ⟨rest, rfl, fitting⟩ := fits_separator (by decide) fitting
  obtain ⟨second, rest, rfl, seconds, fitting⟩ := fits_digits fitting
  obtain rfl := eq_nil_of_fits fitting
  refine ⟨date, hour, minute, second, cs.drop 19, ?_, isDate, hours, minutes, seconds, ?_⟩
  · have whole := List.take_append_drop 19 cs
    rw [front] at whole
    simpa using whole.symm
  · unfold isSecondFraction at fraction
    split at fraction
    · exact .inl ‹_›
    · rename_i digits point
      simp only [Bool.and_eq_true, decide_eq_true_eq, List.all_eq_true] at fraction
      exact .inr ⟨_, digits, point, fraction.1.1, fraction.1.2, rfl, fraction.2⟩
    · contradiction

theorem IsExactNumeric.of_isExactNumeric {cs : List Char} (h : isExactNumeric cs) :
    IsExactNumeric cs := by
  simp only [isExactNumeric, Bool.and_eq_true, Bool.not_eq_true', List.isEmpty_eq_false_iff] at h
  obtain ⟨nonempty, tail⟩ := h
  obtain ⟨sign, isSign, signed⟩ := eq_sign_append cs
  refine ⟨sign, (Text.dropSign cs).takeWhile Char.isDigit,
    (Text.dropSign cs).dropWhile Char.isDigit, by rwa [List.takeWhile_append_dropWhile], isSign,
    ⟨nonempty, List.all_eq_true.mp List.all_takeWhile⟩, ?_⟩
  split at tail
  · exact .inl ‹_›
  · rename_i digits point
    simp only [Bool.and_eq_true, Bool.not_eq_true', List.isEmpty_eq_false_iff,
      List.all_eq_true] at tail
    exact .inr ⟨digits, point, tail⟩
  · contradiction

theorem IsDouble.of_isFiniteDouble {cs : List Char} (h : Text.isFiniteDouble cs) : IsDouble cs := by
  unfold Text.isFiniteDouble at h
  split at h
  · rename_i d read
    obtain ⟨whole, fraction, exponent, chars, digits, isFraction, isExponent, nonempty⟩ :=
      IsNumeral.parts_of_read read
    obtain ⟨sign, isSign, signed⟩ := eq_sign_append cs
    exact ⟨sign, whole, fraction, exponent, d, chars ▸ signed, isSign, List.all_eq_true.mp digits,
      isFraction, isExponent, nonempty, read, h⟩
  · contradiction

theorem IsInterval.of_isInterval {cs : List Char} (h : isInterval cs) : IsInterval cs := by
  unfold isInterval at h
  split at h
  · contradiction
  · rename_i first rest chars
    obtain ⟨sign, isSign, signed⟩ := eq_sign_append cs
    simp only [Bool.and_eq_true, List.all_eq_true, Bool.or_eq_true] at h
    refine ⟨sign, first, rest, chars ▸ signed, isSign, h.1, fun c member => ?_⟩
    simpa using h.2 c member

end LiteralFormat

/-- The text of the constant has the format of its type. -/
def Literal.Formatted (l : Literal) : Prop :=
  match l.type with
  | .null => l.value = ""
  | .bool => l.value = "true" ∨ l.value = "false"
  | .exactNumeric => LiteralFormat.IsExactNumeric l.value.toList
  | .double => LiteralFormat.IsDouble l.value.toList
  | .string => True
  | .date => LiteralFormat.IsDate l.value.toList
  | .timestamp | .timestampUtc => LiteralFormat.IsTimestamp l.value.toList
  | .interval => LiteralFormat.IsInterval l.value.toList ∧ l.interval.kind = .interval
  | .other _ => False

theorem Literal.KeepsFormat.formatted {l : Literal} (h : l.KeepsFormat) : l.Formatted := by
  obtain ⟨type, value, interval⟩ := l
  cases type with
  | null | bool | string | other _ => exact h
  | exactNumeric => exact .of_isExactNumeric h
  | double => exact .of_isFiniteDouble h
  | date => exact .of_isDate h
  | timestamp | timestampUtc => exact .of_isTimestamp h
  | interval => exact ⟨.of_isInterval h.1, h.2.1⟩

/-! ## Laws -/

/-- The parameters that the family of the type needs are there and fit together. -/
def DataType.IsValid (t : DataType) : Prop :=
  match t.kind with
  | .decimal => 1 ≤ t.precision ∧ 0 ≤ t.scale ∧ t.scale ≤ t.precision
  | .varchar | .char => 1 ≤ t.size
  | .interval => t.range = .yearToMonth ∨ t.range = .dayToSeconds
  | .double | .date | .timestamp | .boolean | .geometry | .hashtype => True
  | .other _ => False

theorem DataType.isValid_of_checkType {kind : Kind} {t : DataType}
    (h : Build.checkType kind t = .ok ()) : t.IsValid := by
  unfold Build.checkType at h
  unfold IsValid
  cases family : t.kind with
  | decimal =>
    simp only [family] at h
    split at h
    · exact absurd h Build.fail_ne_ok
    · show 1 ≤ t.precision ∧ 0 ≤ t.scale ∧ t.scale ≤ t.precision
      omega
  | varchar | char =>
    simp only [family] at h
    split at h
    · exact absurd h Build.fail_ne_ok
    · show 1 ≤ t.size
      omega
  | interval =>
    simp only [family] at h
    split at h
    · rename_i known
      show t.range = .yearToMonth ∨ t.range = .dayToSeconds
      cases range : t.range <;> simp_all [IntervalRange.isKnown]
    · exact absurd h Build.fail_ne_ok
  | double | date | timestamp | boolean | geometry | hashtype => trivial
  | other name =>
    simp only [family] at h
    exact absurd h Build.fail_ne_ok

/-- The clauses of the statement go together. -/
structure Select.Lawful (s : Statement) : Prop where
  grouping : s.aggregation = .groupBy ↔ s.grouping.isSome
  having : s.having.isSome → s.aggregation = .singleGroup ∨ s.aggregation = .groupBy
  source : s.filter.isSome ∨ s.grouping.isSome → s.source.isSome

theorem Select.KeepsRules.lawful {s : Statement} (h : s.KeepsRules) : s.Lawful where
  grouping := h.grouping
  having given := by
    cases aggregation : s.aggregation with
    | none => exact absurd aggregation (h.having given)
    | singleGroup => exact .inl rfl
    | groupBy => exact .inr rfl
    | other name => exact absurd aggregation (h.aggregation name)
  source clause := by
    cases source : s.source with
    | none => simp [h.clauses source] at clause
    | some item => rfl

namespace Node

/-- The columns of the tree that stand in no nested statement. -/
def OwnColumn (n : Node) (c : Column) : Prop := .column c ∈ n.walk fun m => m.kind != .select

/-- What a generator may rely on. -/
def Lawful : Node → Prop
  | select s => s.Lawful
  | join type left right condition =>
    left.isFromItem ∧ right.isFromItem ∧
      ∀ c, condition.OwnColumn c → c.qualifier ∈ (join type left right condition).sources
  | and operands | or operands => operands ≠ []
  | inList _ values => values ≠ []
  | inSubquery _ s => s.list.star = false ∧ ∃ item, s.list.items = [item]
  | case _ branches _ => branches ≠ []
  | groupBy exprs => exprs ≠ []
  | orderBy keys => keys ≠ []
  | limit l => 0 ≤ l.count ∧ 0 ≤ l.offset
  | literal l => l.Formatted
  | cast _ type => type.IsValid
  | function name _ | aggregate name _ _ _ => Text.upper name = name
  | window name _ _ order frame => Text.upper name = name ∧ (frame.isSome → order.isSome)
  | selectList _ | table _ | subSelect .. | column _ | not _ | comparison .. | like .. => True
  | regexpLike .. | between .. | isNull _ | isNotNull _ | extract .. | groupConcat .. => True

/-- What is everywhere in a tree is everywhere below each of its nodes. -/
theorem Everywhere.of_mem {P : Node → Prop} {m n : Node} (h : n.Everywhere P)
    (member : m ∈ n.nodes) : m.Everywhere P := by
  induction n using Node.induction with
  | step n ih =>
    rw [nodes_eq, List.mem_cons, List.mem_flatMap] at member
    rcases member with rfl | ⟨c, child, member⟩
    · exact h
    · exact ih c child (h.child child) member

/-- The laws of a node follow from what is checked when it and the nodes below it are
constructed. -/
theorem lawful_of_wellFormed {n : Node} (h : n.WellFormed) : n.Lawful := by
  have rules : n.KeepsRules := h.root
  cases n with
  | select s => exact Select.KeepsRules.lawful rules
  | join type left right condition =>
    obtain ⟨-, leftItem, rightItem, inside⟩ := rules
    refine ⟨leftItem, rightItem, fun c own => dangling?_eq_none inside own ?_⟩
    have wellFormed : condition.WellFormed := h.child (by simp [children])
    exact wellFormed.qualifier_ne (mem_nodes_of_mem_walk own)
  | inSubquery expr s =>
    have one : Build.projectsOne s.list := rules
    simp only [Build.projectsOne, Bool.and_eq_true, Bool.not_eq_true', beq_iff_eq] at one
    exact ⟨one.1, List.length_eq_one_iff.mp one.2⟩
  | literal l => exact Literal.KeepsFormat.formatted rules
  | cast arg type => exact DataType.isValid_of_checkType rules
  | function name args => exact Text.upper_eq_self_iff.mpr rules
  | aggregate name distinct args filter => exact Text.upper_eq_self_iff.mpr rules.1
  | window name args partition order frame =>
    obtain ⟨capitalized, -, framed⟩ := rules
    refine ⟨Text.upper_eq_self_iff.mpr capitalized, fun given => ?_⟩
    obtain ⟨f, some⟩ := Option.isSome_iff_exists.mp given
    exact (framed f some).1
  | and _ | or _ | inList _ _ | case _ _ _ | groupBy _ | orderBy _ | limit _ => exact rules
  | selectList _ | table _ | subSelect _ _ | column _ | not _ | comparison _ _ _ | like _ _ _
  | regexpLike _ _ | between _ _ _ | isNull _ | isNotNull _ | extract _ _ | groupConcat _ _ _ _ =>
    trivial

theorem WellFormed.everywhere_lawful {n : Node} (h : n.WellFormed) : n.Everywhere Lawful :=
  fun _ member => lawful_of_wellFormed (h.of_mem member)

end Node

end Pushdown
