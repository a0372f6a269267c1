import Pushdown.Proofs.Json.Strings
import Pushdown.Proofs.Request.NumericLiterals
import Pushdown.Proofs.Sql.Numeral
import Pushdown.Proofs.Sql.Parts
import Pushdown.Proofs.Text.Integer

/-!
# Integers of a request

Every integer of a request is read in the same way, whether a document has it as a number or as a
string: in base ten, unless a zero stands in front of its other digits. Row limits and the sizes of
data types are then written into a statement as the numbers that were read.
-/

namespace Pushdown

open Text (Whole)

/-! ## Members -/

namespace Object

variable {o : Object} {key : String} {n : Whole}

/-- The value of the member is this number, or a string with its text. -/
def SendsWhole (o : Object) (key : String) (n : Whole) : Prop :=
  ∃ source, o.source? key = some source ∧ Json.Sends source (String.ofList n.chars)

/-- The integer at a key is this one, or without one the member is refused. -/
def ReadsAs (o : Object) (key : String) (default : ℤ) : Option ℤ → Prop
  | some x => o.integer key default = .ok x
  | none => ∃ flaw, o.integer key default = o.refuseAt key flaw

/-- An integer is read in one way only. -/
theorem ReadsAs.unique {default : ℤ} {x y : Option ℤ} (first : o.ReadsAs key default x)
    (second : o.ReadsAs key default y) : x = y := by
  cases x with
  | none =>
    cases y with
    | none => rfl
    | some y =>
      obtain ⟨flaw, refused⟩ := first
      exact absurd (refused.symm.trans second) refuseAt_ne_ok
  | some x =>
    cases y with
    | none =>
      obtain ⟨flaw, refused⟩ := second
      exact absurd (refused.symm.trans first) refuseAt_ne_ok
    | some y => exact congrArg some (Except.ok.inj (first.symm.trans second))

theorem SendsWhole.has (sent : o.SendsWhole key n) : o.has key := by
  obtain ⟨source, there, -⟩ := sent
  rw [Object.has, there]
  rfl

/-- The text of the member is that of the number, unless no double is near it. -/
theorem SendsWhole.scalar (sent : o.SendsWhole key n) :
    o.scalar key = .ok (String.ofList n.chars) ∨
      (¬ Text.isFiniteDouble n.chars ∧ o.scalar key = o.refuseAt key .invalidValue) := by
  obtain ⟨source, there, sent⟩ := sent
  have member : o.source key = .ok source := Object.source_eq_ok.mpr there
  generalize text : String.ofList n.chars = v at sent
  cases sent with
  | number first all =>
    have decoded := Json.scalar?_number first all
    rw [String.ofList_injective text]
    split at decoded
    · left
      simp only [Object.scalar, member, bind, Except.bind, decoded]
      rfl
    · right
      refine ⟨‹_›, ?_⟩
      simp only [Object.scalar, member, bind, Except.bind, decoded]
  | string inString means =>
    have ascii : ∀ c ∈ v.toList, Text.isAscii c := by
      rw [← text, String.toList_ofList, ← n.chars_numeral]
      exact fun c member => Json.isAscii_of_isNumberChar (n.numeral.isNumberChar_chars c member)
    left
    simp only [Object.scalar, member, bind, Except.bind,
      Json.scalar?_asciiString inString means ascii]
    rfl

/-- Every integer is read in base ten or, with a zero in front, in base eight. -/
theorem SendsWhole.readsAs (sent : o.SendsWhole key n) (default : ℤ) :
    o.ReadsAs key default n.read? := by
  have read : o.integer key default = o.scalar key >>= fun text =>
      match Text.readInteger? text with
      | some n => .ok n
      | none => o.refuseAt key (.notInteger text) := by
    rw [Object.integer, sent.has]
    rfl
  rcases sent.scalar with text | ⟨tooLarge, refused⟩
  · rw [text] at read
    simp only [bind, Except.bind, Text.Whole.readInteger?_chars] at read
    cases number : n.read? with
    | some x =>
      rw [number] at read
      exact read
    | none =>
      rw [number] at read
      exact ⟨_, read⟩
  · rw [refused] at read
    cases number : n.read? with
    | some x => exact absurd (Text.Whole.isFiniteDouble_chars number) tooLarge
    | none => exact ⟨_, read⟩

/-- A member that is sent is read in one way, and it is read in base ten exactly if no zero in front
of its digits makes a difference. -/
theorem SendsWhole.readsAs_inTen?_iff (sent : o.SendsWhole key n) (default : ℤ) :
    o.ReadsAs key default n.inTen? ↔ ¬ n.Misread := by
  rw [← Text.Whole.read?_eq_inTen?_iff]
  constructor
  · exact fun ten => (sent.readsAs default).unique ten
  · rintro same
    rw [← same]
    exact sent.readsAs default

/-- An integer that is not misread is its value. -/
theorem SendsWhole.integer_eq_ok (sent : o.SendsWhole key n) (plain : ¬ n.Misread) {default x : ℤ} :
    o.integer key default = .ok x ↔ Text.fitsInt64 n.value ∧ n.value = x := by
  have ten := (sent.readsAs_inTen?_iff default).mpr plain
  rw [Text.Whole.inTen?] at ten
  by_cases fits : Text.fitsInt64 n.value
  · rw [if_pos fits] at ten
    have read : o.integer key default = .ok n.value := ten
    simp [read, fits]
  · rw [if_neg fits] at ten
    obtain ⟨flaw, refused⟩ := ten
    simp [refused, fits, refuseAt_ne_ok]

end Object

/-! ## Numbers in a text -/

/-- The numbers that the runs of digits in a text stand for. -/
def numbersIn (cs : List Char) : List ℕ :=
  ((cs.splitOnP fun c => !c.isDigit).filter (· ≠ [])).map (Nat.ofDigitChars 10 · 0)

/-- What is no digit keeps numbers apart. -/
theorem numbersIn_append_cons (front behind : List Char) {c : Char} (apart : c.isDigit = false) :
    numbersIn (front ++ c :: behind) = numbersIn front ++ numbersIn behind := by
  have separates : (!c.isDigit) = true := by simp [apart]
  have parts := List.splitOnP_append_cons (p := fun c => !c.isDigit) front behind separates
  rw [numbersIn, parts, List.filter_append, List.map_append]
  rfl

@[simp] theorem numbersIn_nil : numbersIn [] = [] := rfl

@[simp] theorem numbersIn_cons {c : Char} (apart : c.isDigit = false) (behind : List Char) :
    numbersIn (c :: behind) = numbersIn behind :=
  numbersIn_append_cons [] behind apart

@[simp] theorem numbersIn_toDigits (n : ℕ) : numbersIn (Nat.toDigits 10 n) = [n] := by
  have digits : ∀ c ∈ Nat.toDigits 10 n, (!c.isDigit) = false := by
    intro c member
    simp [Nat.isDigit_of_mem_toDigits (by decide) (by decide) member]
  have some : Nat.toDigits 10 n ≠ [] := Nat.toDigits_ne_nil
  rw [numbersIn, List.splitOnP_eq_singleton digits]
  simp [some, Nat.ofDigitChars_toDigits]

/-- A printed number in front of what is no digit. -/
@[simp] theorem numbersIn_toDigits_append_cons (n : ℕ) {c : Char} (apart : c.isDigit = false)
    (behind : List Char) :
    numbersIn (Nat.toDigits 10 n ++ c :: behind) = n :: numbersIn behind := by
  rw [numbersIn_append_cons _ _ apart, numbersIn_toDigits, List.singleton_append]

/-- The numbers of a row limit, in the order in which the style writes them. -/
def Limit.numbers (style : LimitStyle) (l : Limit) : List ℕ :=
  if l.offset ≤ 0 then [l.count.toNat]
  else if style = .fetchFirst then [l.offset.toNat, l.count.toNat]
  else [l.count.toNat, l.offset.toNat]

/-- A row limit is written with the numbers that it has. -/
theorem Render.numbersIn_limit {d : Dialect} {l : Limit} {s : Sql} (count : 0 ≤ l.count)
    (rendered : limit d l = .ok s) :
    ∃ text, s = Sql.raw text ∧ numbersIn text.toList = l.numbers d.profile.limitStyle := by
  refine ⟨_, limit_eq_ok rendered, ?_⟩
  by_cases skips : 0 < l.offset
  · have offset : ¬ l.offset ≤ 0 := by omega
    have printed := toString_of_nonneg (Int.le_of_lt skips)
    cases style : d.profile.limitStyle with
    | top => simp [limit, bind_eq_ok, checkIf, skips, style, refuse] at rendered
    | fetchFirst =>
      simp only [limitText, Limit.numbers, skips, offset, if_true, if_false, printed,
        toString_of_nonneg count]
      simp [toString]
    | limitOffset | other =>
      simp only [limitText, Limit.numbers, skips, offset, if_true, if_false, printed,
        toString_of_nonneg count]
      simp [toString]
  · have offset : l.offset ≤ 0 := by omega
    cases d.profile.limitStyle with
    | top | limitOffset | other | fetchFirst =>
      simp only [limitText, Limit.numbers, skips, offset, if_true, if_false,
        toString_of_nonneg count]
      simp [toString]

/-- The name of a character type is followed by its size. -/
theorem Profile.numbersIn_typeName {p : Profile} {t : DataType} {spec : TypeSpec} {name : String}
    (found : p.types.get? t.kind = some spec) (sized : spec.noParams = false)
    (text : t.kind = .varchar ∨ t.kind = .char) (size : 0 ≤ t.size)
    (named : p.typeName? t = some name) :
    numbersIn name.toList = numbersIn spec.name.toList ++ [t.size.toNat] := by
  have written : spec.name ++ "(" ++ toString t.size ++ ")" = name := by
    rw [typeName?, found] at named
    rcases text with kind | kind <;> simpa [sized, kind, toString] using named
  rw [← written, toString_of_nonneg size]
  simp [numbersIn_append_cons]

/-! ## From the request to the statement -/

theorem Object.has_of_child {o : Object} {key : String} {inner : Object}
    (read : o.child key = .ok inner) : o.has key := by
  obtain ⟨source, present, -⟩ := bind_eq_ok.mp read
  rw [has, source_eq_ok.mp present]
  rfl

theorem Build.limit_eq_ok {count offset : ℤ} {l : Limit} :
    limit count offset = .ok l ↔ 0 ≤ count ∧ 0 ≤ offset ∧ l = ⟨count, offset⟩ := by
  unfold limit
  split
  · simp only [fail_ne_ok, false_iff]
    omega
  · split
    · simp only [fail_ne_ok, false_iff]
      omega
    · rw [Except.ok.injEq]
      constructor
      · rintro rfl
        exact ⟨by omega, by omega, rfl⟩
      · exact fun ⟨_, _, same⟩ => same.symm

/-- A row limit has the numbers that its object sends. -/
theorem StatementReader.limit?_eq_ok {o inner : Object} {count offset : Whole}
    (child : o.child "limit" = .ok inner) (counted : inner.SendsWhole "numElements" count)
    (plain : ¬ count.Misread)
    (skipped : inner.SendsWhole "offset" offset ∨ inner.has "offset" = false ∧ offset.value = 0)
    (plain' : ¬ offset.Misread) {l : Option Limit} :
    limit? o = .ok l ↔ (Text.fitsInt64 count.value ∧ 0 ≤ count.value) ∧
      (Text.fitsInt64 offset.value ∧ 0 ≤ offset.value) ∧ l = some ⟨count.value, offset.value⟩ := by
  have second {y : ℤ} :
      inner.integer "offset" 0 = .ok y ↔ Text.fitsInt64 offset.value ∧ offset.value = y := by
    rcases skipped with sent | ⟨absent, zero⟩
    · exact sent.integer_eq_ok plain'
    · rw [Object.integer, absent, zero]
      simp [Text.fitsInt64, pure, Except.pure]
  have parts : limit? o = inner.integer "numElements" 0 >>= fun count =>
      inner.integer "offset" 0 >>= fun offset => some <$> Read.build (Build.limit count offset) := by
    rw [limit?, Object.has_of_child child, child]
    simp only [bind, Except.bind, counted.has]
    rfl
  simp only [parts, bind_eq_ok, map_eq_ok, Read.build_eq_ok, Build.limit_eq_ok,
    counted.integer_eq_ok plain, second]
  constructor
  · rintro ⟨_, ⟨fits, rfl⟩, _, ⟨fits', rfl⟩, _, ⟨nonneg, nonneg', rfl⟩, rfl⟩
    exact ⟨⟨fits, nonneg⟩, ⟨fits', nonneg'⟩, rfl⟩
  · rintro ⟨⟨fits, nonneg⟩, ⟨fits', nonneg'⟩, rfl⟩
    exact ⟨_, ⟨fits, rfl⟩, _, ⟨fits', rfl⟩, _, ⟨nonneg, nonneg', rfl⟩, rfl⟩

theorem DataType.size_of_read {o : Object} {t : DataType} {n : Whole} (read : DataType.read o = .ok t)
    (sent : o.SendsWhole "size" n) (plain : ¬ n.Misread) : t.size = n.value := by
  obtain ⟨name, -, read⟩ := bind_eq_ok.mp read
  split at read
  · exact absurd read Object.refuseAt_ne_ok
  · simp only [bind_eq_ok] at read
    obtain ⟨_, -, _, -, size, sized, _, -, _, -, _, -, _, -, _, -, read⟩ := read
    have same := ((sent.integer_eq_ok plain).mp sized).2.symm
    split at read
    all_goals
      simp only [bind_eq_ok, pure_eq_ok] at read
      obtain ⟨_, -, rfl⟩ := read
      exact same

/-- An integer is read in base ten unless a zero in front of its digits is taken for the mark of
base eight. With a zero in front, digits of base eight are read in that base, which makes a
difference from eight on, and other digits are refused. A row limit or a size that is not misread is
written into a statement as the number that was sent. -/
theorem integers_in_ten {o : Object} {key : String} {n : Whole} (sent : o.SendsWhole key n) :
    (∀ default, o.ReadsAs key default n.read? ∧ (o.ReadsAs key default n.inTen? ↔ ¬ n.Misread)) ∧
    (¬ n.Misread → key = "numElements" →
      ∀ (outer : Object) (offset : Whole), outer.child "limit" = .ok o →
        (o.SendsWhole "offset" offset ∨ o.has "offset" = false ∧ offset.value = 0) →
        ¬ offset.Misread →
        (∀ l, StatementReader.limit? outer = .ok l ↔ (Text.fitsInt64 n.value ∧ 0 ≤ n.value) ∧
          (Text.fitsInt64 offset.value ∧ 0 ≤ offset.value) ∧ l = some ⟨n.value, offset.value⟩) ∧
        ∀ (d : Dialect) (s : Sql), 0 ≤ n.value → Render.limit d ⟨n.value, offset.value⟩ = .ok s →
          ∃ text, s = Sql.raw text ∧ numbersIn text.toList =
            Limit.numbers d.profile.limitStyle ⟨n.value, offset.value⟩) ∧
    (¬ n.Misread → key = "size" →
      ∀ t : DataType, DataType.read o = .ok t →
        t.size = n.value ∧
        ∀ (p : Profile) (spec : TypeSpec) (name : String), p.types.get? t.kind = some spec →
          spec.noParams = false → t.kind = .varchar ∨ t.kind = .char → 0 ≤ n.value →
          p.typeName? t = some name →
          numbersIn name.toList = numbersIn spec.name.toList ++ [n.value.toNat]) := by
  refine ⟨?_, ?_, ?_⟩
  · intro default
    exact ⟨sent.readsAs default, sent.readsAs_inTen?_iff default⟩
  · rintro plain rfl outer offset child skipped plain'
    constructor
    · intro l
      exact StatementReader.limit?_eq_ok child sent plain skipped plain'
    · intro d s nonneg rendered
      exact Render.numbersIn_limit nonneg rendered
  · rintro plain rfl t read
    have size := DataType.size_of_read read sent plain
    refine ⟨size, ?_⟩
    intro p spec name found sized text nonneg named
    rw [← size] at nonneg ⊢
    exact Profile.numbersIn_typeName found sized text nonneg named

/-- Twelve as a string, and behind it three as a number. -/
def limited : Object :=
  { members := .ofList [("limit", "\x7b\"numElements\":\"12\",\"offset\":3\x7d".toList)] }

theorem integers_in_ten_limited :
    StatementReader.limit? limited = .ok (some ⟨12, 3⟩) ∧
      ∃ text, Render.limit (Builtin.postgreSql.build {}) ⟨12, 3⟩ = .ok (Sql.raw text) ∧
        numbersIn text.toList = [12, 3] := by
  let inner : Object :=
    { path := [.member "limit"]
      members := .ofList [("numElements", "\"12\"".toList), ("offset", "3".toList)] }
  let twelve : Whole := ⟨false, ⟨['1', '2'], List.all_eq_true.mp (by decide)⟩, by decide⟩
  let three : Whole := ⟨false, ⟨['3'], List.all_eq_true.mp (by decide)⟩, by decide⟩
  have unpadded {n : Whole} (plain : ¬ n.Padded) : ¬ n.Misread := fun misread => plain misread.1
  have child : limited.child "limit" = .ok inner := by
    have source : limited.source "limit" =
        .ok "\x7b\"numElements\":\"12\",\"offset\":3\x7d".toList :=
      Object.source_eq_ok.mpr (by decide +kernel)
    have members : Json.members? "\x7b\"numElements\":\"12\",\"offset\":3\x7d".toList =
        some [("numElements", "\"12\"".toList), ("offset", "3".toList)] := by decide +kernel
    rw [Object.child, source]
    simp only [bind, Except.bind, Object.read, members]
    rfl
  have counted : inner.SendsWhole "numElements" twelve := by
    refine ⟨"\"12\"".toList, by decide +kernel, ?_⟩
    have inString : Json.IsString ['1', '2'] :=
      .char (by decide) (by decide) (by decide) (.char (by decide) (by decide) (by decide) .nil)
    exact .string inString (by decide +kernel)
  have skipped : inner.SendsWhole "offset" three :=
    ⟨"3".toList, by decide +kernel, .number (.inl (by decide)) (by simp)⟩
  obtain ⟨-, limits, -⟩ := integers_in_ten counted
  obtain ⟨read, written⟩ := limits (unpadded (by decide)) rfl limited three child (.inl skipped)
    (unpadded (by decide))
  have twelve_eq : twelve.value = 12 := by decide
  have three_eq : three.value = 3 := by decide
  rw [twelve_eq, three_eq] at read written
  obtain ⟨text, same, numbers⟩ := written (Builtin.postgreSql.build {}) _ (by decide) rfl
  exact ⟨(read _).mpr ⟨by decide, by decide, rfl⟩, text, congrArg Except.ok same, numbers⟩

set_option maxRecDepth 10000 in
/-- Ten with a zero in front is read as eight, although it fits into 64 bits, and a statement is
limited to eight rows. -/
theorem padded_limit_is_octal :
    let ten : Whole := ⟨false, ⟨['0', '1', '0'], List.all_eq_true.mp (by decide)⟩, by decide⟩
    let limit : Object := { members := .ofList [("numElements", "\"010\"".toList)] }
    let text := "\x7b\"type\":\"pushdown\",\"pushdownRequest\":\x7b\"type\":\"select\",
      \"from\":\x7b\"type\":\"table\",\"name\":\"T\"\x7d,
      \"limit\":\x7b\"numElements\":\"010\"\x7d\x7d\x7d"
    (limit.SendsWhole "numElements" ten ∧ ten.value = 10 ∧ Text.fitsInt64 ten.value ∧
      limit.integer "numElements" 0 = .ok 8) ∧
    ∃ r, Request.readPushdown text = .ok r ∧
      (Builtin.postgreSql.build {}).generate { quoteNames := true } (r.statement.map .select) =
        .ok "SELECT * FROM \"T\" LIMIT 8" := by
  intro ten limit text
  have same : text = String.ofList _ := rfl
  have shown : (Request.readPushdown text).toOption.map (fun r =>
      ((Builtin.postgreSql.build {}).generate { quoteNames := true }
        (r.statement.map .select)).toOption) = some (some "SELECT * FROM \"T\" LIMIT 8") := by
    rw [same, Request.readPushdown, Request.read, Object.readDocument_ofList]
    decide +kernel
  have sent : limit.SendsWhole "numElements" ten := by
    refine ⟨"\"010\"".toList, by decide +kernel, ?_⟩
    have inString : Json.IsString ['0', '1', '0'] := by
      iterate 3 apply Json.IsString.char (by decide) (by decide) (by decide)
      exact .nil
    exact .string inString (by decide +kernel)
  have eight : ten.read? = some 8 := by decide
  have read := sent.readsAs 0
  rw [eight] at read
  refine ⟨⟨sent, by decide, by decide, read⟩, ?_⟩
  obtain ⟨r, accepted, written⟩ := Request.exists_of_toOption shown
  exact ⟨r, accepted, toOption_eq_some.mp written⟩

end Pushdown
