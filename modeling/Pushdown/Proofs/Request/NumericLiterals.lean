import Pushdown.Dialect.Builtin
import Pushdown.Proofs.Json.Scalar
import Pushdown.Proofs.Request.Agreement
import Pushdown.Proofs.Request.Unchecked
import Pushdown.Proofs.Sql.Rendering
import Pushdown.Proofs.Syntax.Lawful
import Pushdown.Proofs.Text.Decimal

/-!
# Numeric constants

Numbers stand in a statement without quotes, so it matters which texts are taken for numbers: signs,
digits, a point and an exponent in their order, and of those only what a double can hold. An accepted
number is written as it was sent, whether a document has it as a number or as a string.
-/

namespace Pushdown

/-! ## Which texts are numbers -/

namespace Text.Numeral

/-- Digits without an exponent, with digits on both sides of the point if there is one. -/
structure IsExact (n : Numeral) : Prop where
  whole : n.whole.val ≠ []
  fraction : ∀ ds ∈ n.fraction, ds.val ≠ []
  exponent : n.exponent = none

theorem isExactNumeric_iff {cs : List Char} :
    LiteralFormat.isExactNumeric cs ↔ ∃ n : Numeral, n.IsExact ∧ cs = n.chars := by
  constructor
  · intro valid
    obtain ⟨sign, whole, point, rfl, isSign, ⟨some, digits⟩, isFraction⟩ :=
      LiteralFormat.IsExactNumeric.of_isExactNumeric valid
    obtain ⟨sign, rfl⟩ : ∃ s : Sign, sign = s.chars := by
      rcases isSign with rfl | rfl | rfl
      · exact ⟨.none, rfl⟩
      · exact ⟨.plus, rfl⟩
      · exact ⟨.minus, rfl⟩
    rcases isFraction with rfl | ⟨decimals, rfl, someDecimals, all⟩
    · refine ⟨⟨sign, ⟨whole, digits⟩, none, none, .inl some⟩, ⟨some, by simp, rfl⟩, ?_⟩
      simp [chars, fractionChars]
    · refine ⟨⟨sign, ⟨whole, digits⟩, .some ⟨decimals, all⟩, none, .inl some⟩,
        ⟨some, by simpa using someDecimals, rfl⟩, ?_⟩
      simp [chars, fractionChars]
  · rintro ⟨n, exact, rfl⟩
    have bare := n.dropSign_chars
    rw [exact.exponent, Option.map_none, Option.getD_none, List.append_nil] at bare
    have stops : ∀ c ∈ (fractionChars n.fraction).head?, c.isDigit = false := by
      cases n.fraction with
      | none => simp [fractionChars]
      | some ds =>
        rintro c ⟨⟩
        rfl
    obtain ⟨front, behind⟩ := span_digits n.whole.property stops
    have some_whole := exact.whole
    simp only [LiteralFormat.isExactNumeric, bare, front, behind, Bool.and_eq_true,
      Bool.not_eq_true', List.isEmpty_eq_false_iff]
    refine ⟨some_whole, ?_⟩
    have fraction := exact.fraction
    cases point : n.fraction with
    | none => rfl
    | some ds =>
      have nonempty := fraction ds (by simp [point])
      have digits := ds.property
      simpa [fractionChars] using ⟨nonempty, digits⟩

/-- All characters of a number are ones that a number in a document may have. -/
theorem isNumberChar_chars (n : Numeral) : ∀ c ∈ n.chars, Json.isNumberChar c := by
  have digits (ds : Digits) : ∀ c ∈ ds.val, Json.isNumberChar c := by
    intro c member
    simp [Json.isNumberChar, ds.property c member]
  have signs (sign : Sign) : ∀ c ∈ sign.chars, Json.isNumberChar c := by
    cases sign <;> simp [Sign.chars, Json.isNumberChar]
  intro c member
  rw [chars, List.mem_append, List.mem_append, List.mem_append] at member
  rcases member with sign | (whole | point) | exponent
  · exact signs _ c sign
  · exact digits _ c whole
  · cases fraction : n.fraction with
    | none => simp [fraction, fractionChars] at point
    | some ds =>
      rw [fraction, fractionChars, List.mem_cons] at point
      rcases point with rfl | decimal
      · decide
      · exact digits ds c decimal
  · cases some : n.exponent with
    | none => simp [some] at exponent
    | some x =>
      rw [some, Option.map_some, Option.getD_some, Exponent.chars, List.mem_cons,
        List.mem_append] at exponent
      rcases exponent with rfl | sign | digit
      · rcases x.isMark with same | same <;> rw [same] <;> decide
      · exact signs _ c sign
      · exact digits _ c digit

end Text.Numeral

namespace Build

theorem literal_double_iff {v : String} :
    (∃ l, literal .double v = .ok l) ↔ Text.isFiniteDouble v.toList := by
  cases finite : Text.isFiniteDouble v.toList with
  | true => simp [literal, finite]
  | false =>
    simp only [literal, finite, Bool.false_eq_true, if_false, iff_false, not_exists]
    intro l
    split <;> exact fail_ne_ok

theorem literal_exactNumeric_iff {v : String} :
    (∃ l, literal .exactNumeric v = .ok l) ↔ LiteralFormat.isExactNumeric v.toList := by
  cases valid : LiteralFormat.isExactNumeric v.toList with
  | true => simp [literal, valid]
  | false =>
    simp only [literal, valid, Bool.false_eq_true, if_false, iff_false, not_exists]
    intro l
    exact fail_ne_ok

end Build

/-- The types of constants that are numbers. -/
def LiteralType.IsNumeric (type : LiteralType) : Prop := type = .exactNumeric ∨ type = .double

theorem LiteralType.IsNumeric.chars {type : LiteralType} (numeric : type.IsNumeric) {v : String}
    {l : Literal} (built : Build.literal type v = .ok l) :
    ∃ n : Text.Numeral, v.toList = n.chars := by
  rcases numeric with rfl | rfl
  · have valid := Build.literal_exactNumeric_iff.mp ⟨l, built⟩
    obtain ⟨n, -, same⟩ := Text.Numeral.isExactNumeric_iff.mp valid
    exact ⟨n, same⟩
  · exact Text.Numeral.exists_of_isFiniteDouble (Build.literal_double_iff.mp ⟨l, built⟩)

/-! ## How a number is sent -/

/-- The value of a member means this text: it is a number with this spelling, or a string. -/
inductive Json.Sends : Source → String → Prop
  | number {c : Char} {cs : List Char} (first : c.isDigit ∨ c = '-')
      (all : ∀ d ∈ cs, isNumberChar d) : Sends (c :: cs) (String.ofList (c :: cs))
  | string {inside : List Char} {v : String} (inString : IsString inside)
      (means : string? ('"' :: inside ++ ['"']) = some v) : Sends ('"' :: inside ++ ['"']) v

/-- A scalar that shows as an ASCII text is read as it was sent. -/
theorem Json.Sends.display {source : Source} {v text : String} (sent : Sends source v)
    {value : Scalar} (read : scalar? source = some value) (shown : value.display? = some text)
    (ascii : ∀ c ∈ text.toList, Text.isAscii c) : text = v := by
  cases sent with
  | number first all =>
    rw [scalar?_number first all] at read
    split at read
    · obtain rfl := Option.some.inj read
      exact (Option.some.inj shown).symm
    · contradiction
  | string inString means =>
    obtain ⟨w, rfl, same⟩ := scalar?_string inString read
    obtain rfl : w = text := Option.some.inj shown
    exact Option.some.inj ((same ascii).symm.trans means)

theorem Expression.noOperator :
    ∀ tag ∈ constants.map Prod.fst, operators.lookup tag = none := by decide

/-- A number is read as it was sent. -/
theorem Expression.read_numeric {r : Readers} {catalog : Catalog} {o : Object} {scopes : List Scope}
    {tag : String} (tagged : o.tag = .ok tag) {type : LiteralType}
    (constant : constants.lookup tag = some type) (numeric : type.IsNumeric)
    {source : Json.Source} {v : String} (there : o.source? "value" = some source)
    (sent : Json.Sends source v) {n : Node} (read : Expression.read r catalog o scopes = .ok n) :
    n = .literal { type, value := v } ∧ ∃ l, Build.literal type v = .ok l := by
  have unary : operators.lookup tag = none := by
    obtain ⟨front, behind, same, -⟩ := List.lookup_eq_some_iff.mp constant
    have listed : tag ∈ constants.map Prod.fst := by simp [same]
    exact noOperator tag listed
  have plain : Expression.constant o type =
      (o.scalar "value" >>= fun value => Node.literal <$> Read.build (Build.literal type value)) := by
    rcases numeric with rfl | rfl <;> rfl
  rw [Expression.read, tagged] at read
  simp only [bind, Except.bind, unary, constant] at read
  rw [plain] at read
  simp only [bind_eq_ok, map_eq_ok, Read.build_eq_ok] at read
  obtain ⟨text, scalar, l, built, rfl⟩ := read
  obtain ⟨m, chars⟩ := numeric.chars built
  have ascii : ∀ c ∈ text.toList, Text.isAscii c := by
    intro c member
    rw [chars] at member
    exact Json.isAscii_of_isNumberChar (m.isNumberChar_chars c member)
  have option := toOption_eq_some.mpr scalar
  rw [Object.toOption_scalar, there, Option.bind_some] at option
  obtain ⟨value, found, shown⟩ := Option.bind_eq_some_iff.mp option
  obtain rfl := sent.display found shown ascii
  have other : type ≠ .null ∧ type ≠ .bool := by
    rcases numeric with rfl | rfl <;> decide
  exact ⟨congrArg Node.literal (Build.eq_of_literal built other), l, built⟩

/-- Numbers are exact. A text is a double if it is a number below half a step above the largest
double, and an exact number if it is digits with an optional sign and an optional fraction. What was
accepted is written into a statement as it was sent, in every dialect. -/
theorem numbers_are_exact :
    (∀ v, (∃ l, Build.literal .double v = .ok l) → ∃ n : Text.Numeral, v.toList = n.chars) ∧
    (∀ (v : String) (n : Text.Numeral), v.toList = n.chars → n.ExponentWithin 5 →
      ((∃ l, Build.literal .double v = .ok l) ↔ |n.value| < 2 ^ 1024 - 2 ^ 970)) ∧
    (∀ v, (∃ l, Build.literal .exactNumeric v = .ok l) ↔
      ∃ n : Text.Numeral, n.IsExact ∧ v.toList = n.chars) ∧
    ∀ (r : Readers) (catalog : Catalog) (o : Object) (scopes : List Scope) (tag : String)
      (type : LiteralType) (source : Json.Source) (v : String) (node : Node),
      o.tag = .ok tag → Expression.constants.lookup tag = some type → type.IsNumeric →
      o.source? "value" = some source → Json.Sends source v →
      Expression.read r catalog o scopes = .ok node →
      node = .literal { type, value := v } ∧
        ∀ (d : Dialect) (ctx : Context), d.marked = [] → d.generate ctx (some node) = .ok v := by
  refine ⟨?_, ?_, ?_, ?_⟩
  · intro v built
    exact Text.Numeral.exists_of_isFiniteDouble (Build.literal_double_iff.mp built)
  · intro v n chars short
    rw [Build.literal_double_iff, chars]
    exact Text.Numeral.isFiniteDouble_iff short
  · intro v
    rw [Build.literal_exactNumeric_iff]
    exact Text.Numeral.isExactNumeric_iff
  · intro r catalog o scopes tag type source v node tagged constant numeric there sent read
    obtain ⟨rfl, -⟩ := Expression.read_numeric tagged constant numeric there sent read
    refine ⟨rfl, ?_⟩
    intro d ctx unmarked
    have written : Render.literal d { type, value := v } = .ok (Sql.raw v) := by
      rcases numeric with rfl | rfl <;> rfl
    rw [Dialect.generate, Render.node_literal unmarked, written]
    simp [bind, Except.bind, pure, Except.pure, Sql.write, Sql.raw, Fragment.write]

/-- Half a step above the largest double, below zero. -/
def Text.Numeral.overflow : Text.Numeral where
  sign := .minus
  whole := ⟨['1'], List.all_eq_true.mp (by decide)⟩
  fraction := some ⟨"7976931348623159".toList, List.all_eq_true.mp (by decide)⟩
  exponent := some ⟨'E', .none, ⟨['3', '0', '8'], List.all_eq_true.mp (by decide)⟩, .inr rfl,
    by decide⟩
  nonempty := .inl (by decide)

/-- The number -1.5e3 as a string, with one digit as an escape. -/
def escapedNumber : Object :=
  { members := .ofList
      [("type", "\"literal_double\"".toList), ("value", "\"-\\u0031.5e3\"".toList)] }

theorem escaped_number_is_exact :
    ((¬ ∃ l, Build.literal .double "-1.7976931348623159E308" = .ok l) ∧
      ¬ |Text.Numeral.overflow.value| < 2 ^ 1024 - 2 ^ 970) ∧
    ∃ node, Expression.read ⟨fun o _ => o.refuse .nullObject, fun o _ _ => o.refuse .nullObject,
        fun o _ => o.refuse .nullObject⟩ default escapedNumber [] = .ok node ∧
      ∀ (b : Builtin) (notes : Notes) (ctx : Context),
        (b.build notes).generate ctx (some node) = .ok "-1.5e3" := by
  obtain ⟨-, double, -, same⟩ := numbers_are_exact
  constructor
  · have tooLarge : ¬ ∃ l, Build.literal .double "-1.7976931348623159E308" = .ok l := by
      rw [Build.literal_double_iff]
      decide +kernel
    have short : Text.Numeral.overflow.ExponentWithin 5 := by
      simp [Text.Numeral.ExponentWithin, Text.Numeral.overflow]
    have chars : "-1.7976931348623159E308".toList = Text.Numeral.overflow.chars := by decide
    exact ⟨tooLarge, mt (double _ _ chars short).mpr tooLarge⟩
  · have tagged : escapedNumber.tag = .ok "literal_double" := by decide +kernel
    have scalar : escapedNumber.scalar "value" = .ok "-1.5e3" := by decide +kernel
    have constant : Expression.constants.lookup "literal_double" = some .double := by decide
    have unary : Expression.operators.lookup "literal_double" = none := by decide
    have built : Build.literal .double "-1.5e3" = .ok { type := .double, value := "-1.5e3" } := by
      decide +kernel
    have read : Expression.read ⟨fun o _ => o.refuse .nullObject,
        fun o _ _ => o.refuse .nullObject, fun o _ => o.refuse .nullObject⟩ default
        escapedNumber [] = .ok (.literal { type := .double, value := "-1.5e3" }) := by
      simp [Expression.read, Expression.constant, tagged, scalar, constant, unary, built, bind,
        Except.bind, Read.build, Functor.map, Except.map]
    have inString : Json.IsString "-\\u0031.5e3".toList := by
      apply Json.IsString.char (by decide) (by decide) (by decide)
      apply Json.IsString.code (List.all_eq_true.mp (by decide))
      iterate 4 apply Json.IsString.char (by decide) (by decide) (by decide)
      exact .nil
    have sent : Json.Sends "\"-\\u0031.5e3\"".toList "-1.5e3" :=
      .string inString (by decide +kernel)
    obtain ⟨-, written⟩ := same _ _ escapedNumber [] "literal_double" .double _ "-1.5e3" _ tagged
      constant (.inr rfl) (by decide +kernel) sent read
    refine ⟨_, read, ?_⟩
    intro b notes ctx
    apply written
    cases b <;> rfl

end Pushdown
