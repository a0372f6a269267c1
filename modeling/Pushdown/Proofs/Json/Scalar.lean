import Pushdown.Json.Scalar
import Pushdown.Proofs.Json.Grammar
import Pushdown.Proofs.Json.Stream
import Pushdown.Proofs.Text.Bytes

/-!
# Scalars are read as they are written

A number keeps the spelling that it has in the document. A string with an ASCII value is read as
that value, also if the document writes characters of it as escapes: reading it from a stream of
bytes comes to the same as reading its characters.
-/

namespace Pushdown.Json

open Text (bytes charOf isAscii)

variable {s : Stream} {b : UInt8} {rest : List UInt8}

/-! ## In front of a value -/

theorem Stream.skipSpaceUpTo_delivers (h : s.Delivers (b :: rest))
    (visible : isSpaceByte b = false) {limit : Nat} (enough : s.work ≤ limit) :
    (skipSpaceUpTo limit s).Delivers (b :: rest) ∧ (skipSpaceUpTo limit s).peek = b := by
  induction limit generalizing s with
  | zero =>
    have := h.work_pos
    omega
  | succ limit ih =>
    rw [skipSpaceUpTo]
    rcases h.step with ⟨c, more, same, some, here, -, -⟩ | ⟨zero, ⟨none, -⟩ | ⟨t, next, later, less, -⟩⟩
    · obtain ⟨rfl, rfl⟩ := List.cons.inj same
      rw [here, visible, if_neg (by decide), if_pos (by simpa using some)]
      exact ⟨h, here⟩
    · contradiction
    · have stays : isSpaceByte 0 = false := by decide
      rw [zero, stays, if_neg (by decide), if_neg (by decide), next]
      exact ih later (by omega)

theorem Stream.skipSpace_delivers (h : s.Delivers (b :: rest)) (visible : isSpaceByte b = false) :
    s.skipSpace.Delivers (b :: rest) ∧ s.skipSpace.peek = b :=
  skipSpaceUpTo_delivers h visible h.2

theorem bytes_cons_ascii {c : Char} (ascii : isAscii c) (cs : List Char) :
    bytes (c :: cs) = UInt8.ofNat c.toNat :: bytes cs := by
  rw [bytes, List.flatMap_cons, Text.utf8EncodeChar_ascii ascii]
  rfl

/-- The value that starts with this character is no container. -/
structure StartsSimple (c : Char) : Prop where
  ascii : isAscii c
  visible : isSpace c = false
  other : c ∉ [',', ':', '{', '[']

theorem isSpace_of_isSpaceByte (space : Stream.isSpaceByte b) : isSpace (charOf b) := by
  simp only [Stream.isSpaceByte, Bool.or_eq_true, beq_iff_eq] at space
  rcases space with ((rfl | rfl) | rfl) | rfl <;> decide

theorem scalarWithin?_simple {c : Char} (simple : StartsSimple c)
    (h : s.Delivers (UInt8.ofNat c.toNat :: rest)) (here : s.skipSpace.peek = UInt8.ofNat c.toNat)
    (depth : Nat) : scalarWithin? depth s = simple? s.skipSpace := by
  have read : Char.ofNat s.skipSpace.peek.toNat = c := by
    rw [here]
    exact Text.charOf_ofNat simple.ascii
  cases depth with
  | zero => rfl
  | succ depth =>
    have other := simple.other
    rw [scalarWithin?, read]
    split
    · simp at other
    · simp at other
    · rfl

/-- A value that is no container is read where it starts. -/
theorem scalar?_simple {c : Char} {cs : List Char} (simple : StartsSimple c)
    (noEnd : Char.ofNat 0 ∉ c :: cs) :
    ∃ t : Stream, t.Delivers (UInt8.ofNat c.toNat :: bytes cs) ∧ t.peek = UInt8.ofNat c.toNat ∧
      scalar? (c :: cs) = (simple? t).map (·.1) := by
  have first := Text.charOf_ofNat simple.ascii
  have start : (Stream.ofBytes (bytes (c :: cs))).Delivers (UInt8.ofNat c.toNat :: bytes cs) := by
    rw [← bytes_cons_ascii simple.ascii]
    exact Stream.ofBytes_delivers (Text.bytes_visible noEnd)
  have visible : Stream.isSpaceByte (UInt8.ofNat c.toNat) = false := by
    apply Bool.eq_false_iff.mpr
    intro space
    have contrary := isSpace_of_isSpaceByte space
    rw [first, simple.visible] at contrary
    contradiction
  obtain ⟨once, here⟩ := Stream.skipSpace_delivers start visible
  obtain ⟨twice, there⟩ := Stream.skipSpace_delivers once visible
  have unseparated : ((UInt8.ofNat c.toNat) == ','.toNat.toUInt8 ||
      (UInt8.ofNat c.toNat) == ':'.toNat.toUInt8) = false := by
    apply Bool.eq_false_iff.mpr
    intro separator
    have other := simple.other
    simp only [Bool.or_eq_true, beq_iff_eq] at separator
    rcases separator with same | same <;> rw [← first, same] at other <;> revert other <;> decide
  refine ⟨_, twice, there, ?_⟩
  rw [scalar?, atValue, here, unseparated, if_neg (by decide), scalarWithin?_simple simple once there]

/-! ## Numbers -/

theorem isAscii_of_isDigit {c : Char} (digit : c.isDigit) : isAscii c := by
  have value : c.toNat = c.val.toNat := rfl
  have nine : '9'.val.toNat = 57 := rfl
  simp only [Char.isDigit, ge_iff_le, UInt32.le_iff_toNat_le, Bool.and_eq_true,
    decide_eq_true_eq] at digit
  rw [isAscii, decide_eq_true_eq]
  omega

theorem isAscii_of_isNumberChar {c : Char} (part : isNumberChar c) : isAscii c := by
  simp only [isNumberChar, Bool.or_eq_true, beq_iff_eq] at part
  rcases part with ((((digit | rfl) | rfl) | rfl) | rfl) | rfl
  · exact isAscii_of_isDigit digit
  all_goals decide

/-- A number does not end with its block. -/
theorem numberUpTo_zero (zero : s.peek = 0) (front : List Char) (limit : Nat) :
    numberUpTo front (limit + 1) s =
      match s.next? with
      | some t => numberUpTo front limit t
      | none => (front.reverse, s) := by
  have outside : isNumberChar (Char.ofNat 0) = false := by decide
  cases next : s.next? <;> simp [numberUpTo, zero, outside, next]

/-- The characters of a number are read to the end. -/
theorem numberUpTo_delivers {cs : List Char} (all : ∀ c ∈ cs, isNumberChar c)
    (h : s.Delivers (bytes cs)) (front : List Char) {limit : Nat} (enough : s.work ≤ limit) :
    (numberUpTo front limit s).1 = front.reverse ++ cs := by
  induction limit generalizing s cs front with
  | zero =>
    cases cs with
    | nil => simp [numberUpTo]
    | cons c cs =>
      rw [bytes_cons_ascii (isAscii_of_isNumberChar (all c (by simp)))] at h
      have := h.work_pos
      omega
  | succ limit ih =>
    cases cs with
    | nil =>
      rcases h.step with ⟨b, more, same, -⟩ | ⟨zero, ⟨-, ended⟩ | ⟨t, next, later, less, -⟩⟩
      · cases same
      · simp [numberUpTo_zero zero, ended]
      · rw [numberUpTo_zero zero, next]
        exact ih all later front (by omega)
    | cons c cs =>
      have part := all c (by simp)
      have ascii := isAscii_of_isNumberChar part
      have split := bytes_cons_ascii ascii cs
      rcases h.step with ⟨b, more, same, -, here, later, less⟩ |
        ⟨zero, ⟨none, -⟩ | ⟨t, next, later, less, -⟩⟩
      · obtain ⟨rfl, rfl⟩ := List.cons.inj (split.symm.trans same)
        have read : Char.ofNat s.peek.toNat = c := by
          rw [here]
          exact Text.charOf_ofNat ascii
        have rest := ih (fun d member => all d (List.mem_cons_of_mem c member)) later (c :: front)
          (by omega)
        rw [numberUpTo, read, if_pos part, rest]
        simp
      · rw [split] at none
        contradiction
      · rw [numberUpTo_zero zero, next]
        exact ih all later front (by omega)

/-- A number is read with its spelling, if a finite double is near it. -/
theorem scalar?_number {c : Char} {cs : List Char} (first : c.isDigit ∨ c = '-')
    (all : ∀ d ∈ cs, isNumberChar d) :
    scalar? (c :: cs) =
      if Text.isFiniteDouble (c :: cs) then some (.number (String.ofList (c :: cs))) else none := by
  have part : isNumberChar c := by
    rcases first with digit | rfl
    · simp [isNumberChar, digit]
    · decide
  have ascii := isAscii_of_isNumberChar part
  have noEnd : Char.ofNat 0 ∉ c :: cs := by
    intro member
    have inside : isNumberChar (Char.ofNat 0) := by
      rcases List.mem_cons.mp member with same | member
      · rwa [same]
      · exact all _ member
    contradiction
  have simple : StartsSimple c := by
    refine ⟨ascii, ?_, ?_⟩
    · rcases first with digit | rfl
      · exact isSpace_of_isDigit digit
      · decide
    · intro separator
      revert part
      simp only [List.mem_cons, List.not_mem_nil, or_false] at separator
      rcases separator with rfl | rfl | rfl | rfl <;> decide
  obtain ⟨t, delivers, here, read⟩ := scalar?_simple simple noEnd
  obtain ⟨later, less⟩ := delivers.skip here
  have enough : t.skip.work ≤ t.budget := Nat.le_of_lt (Nat.lt_of_lt_of_le less delivers.2)
  have spelled := numberUpTo_delivers all later [c] enough
  have known : (c.isDigit || c == '-') = true := by simpa using first
  have peeked : Char.ofNat t.peek.toNat = c := by
    rw [here]
    exact Text.charOf_ofNat ascii
  have number : simple? t = number? t := by
    rw [simple?, peeked]
    split <;> first | rfl | contradiction
  rw [read, number, number?]
  simp only [peeked, known, if_true, spelled, List.reverse_singleton, List.singleton_append]
  split <;> rfl

/-! ## Strings -/

section

variable {front : List UInt8} {limit : Nat}

theorem stringUpTo_quote (here : s.peek = 0x22) :
    stringUpTo front (limit + 1) s = some (front.reverse, s.skip) := by
  rw [stringUpTo, here]
  rfl

theorem stringUpTo_escape (here : s.peek = 0x5C) :
    stringUpTo front (limit + 1) s =
      (escape? s).bind fun (bs, t) => stringUpTo (bs.reverse ++ front) limit t := by
  rw [stringUpTo, here]
  rfl

theorem stringUpTo_zero (here : s.peek = 0) :
    stringUpTo front (limit + 1) s = s.next?.bind fun t => stringUpTo front limit t := by
  rw [stringUpTo, here]
  rfl

theorem stringUpTo_byte (quote : s.peek ≠ 0x22) (escape : s.peek ≠ 0x5C) (some : s.peek ≠ 0) :
    stringUpTo front (limit + 1) s = stringUpTo (s.peek :: front) limit s.skip := by
  rw [stringUpTo]
  split <;> first | contradiction | rfl

/-- What has been read stays in front. -/
theorem prefix_of_stringUpTo {out : List UInt8} {t : Stream}
    (read : stringUpTo front limit s = some (out, t)) : front.reverse <+: out := by
  induction limit generalizing s front with
  | zero => contradiction
  | succ limit ih =>
    by_cases quote : s.peek = 0x22
    · rw [stringUpTo_quote quote] at read
      obtain ⟨rfl, -⟩ := Prod.mk.inj (Option.some.inj read)
      exact List.prefix_rfl
    by_cases escape : s.peek = 0x5C
    · rw [stringUpTo_escape escape] at read
      obtain ⟨⟨bs, u⟩, -, read⟩ := Option.bind_eq_some_iff.mp read
      have more := ih read
      rw [List.reverse_append, List.reverse_reverse] at more
      exact (List.prefix_append _ _).trans more
    by_cases zero : s.peek = 0
    · rw [stringUpTo_zero zero] at read
      obtain ⟨u, -, read⟩ := Option.bind_eq_some_iff.mp read
      exact ih read
    · rw [stringUpTo_byte quote escape zero] at read
      have more := ih read
      rw [List.reverse_cons] at more
      exact (List.prefix_append _ _).trans more

theorem stringUpTo_char {c : Char} (ascii : isAscii c) (noQuote : c ≠ '"') (noEscape : c ≠ '\\')
    (here : s.peek = UInt8.ofNat c.toNat) (shows : s.peek ≠ 0) :
    stringUpTo front (limit + 1) s = stringUpTo (UInt8.ofNat c.toNat :: front) limit s.skip := by
  have read := Text.charOf_ofNat ascii
  rw [← here] at read
  rw [stringUpTo_byte, here]
  · intro quote
    rw [quote] at read
    exact noQuote read.symm
  · intro escape
    rw [escape] at read
    exact noEscape read.symm
  · exact shows

/-- A byte above ASCII is read as part of the string. -/
theorem mem_of_stringUpTo_high (high : 0x80 ≤ s.peek) {out : List UInt8} {t : Stream}
    (read : stringUpTo front (limit + 1) s = some (out, t)) : s.peek ∈ out := by
  have other {b : UInt8} (low : ¬ 0x80 ≤ b) : s.peek ≠ b := by
    intro same
    exact low (same ▸ high)
  rw [stringUpTo_byte (other (by decide)) (other (by decide)) (other (by decide))] at read
  exact (prefix_of_stringUpTo read).subset (List.mem_reverse.mpr List.mem_cons_self)

end

/-! ### Escapes -/

theorem escapeUpTo_zero (here : s.peek = 0) (limit : Nat) :
    escapeUpTo (limit + 1) s = s.next?.bind fun t => escapeUpTo limit t := by
  rw [escapeUpTo, here]
  rfl

theorem escapeUpTo_other {letter : Char} (here : Char.ofNat s.peek.toNat = letter)
    (some : s.peek ≠ 0) (noCode : letter ≠ 'u') (limit : Nat) :
    escapeUpTo (limit + 1) s =
      (escaped? letter).map fun c => ([c.toNat.toUInt8], s.unescape 1 1) := by
  have shows : (s.peek == 0) = false := by simpa using some
  rw [escapeUpTo, here]
  split
  · contradiction
  · rw [shows, if_neg (by decide)]

theorem escapeUpTo_code (here : Char.ofNat s.peek.toNat = 'u') (limit : Nat) :
    escapeUpTo (limit + 1) s =
      (codeBytes? s).bind fun (bs, taken, t) => some (bs, t.unescape taken bs.length) := by
  rw [escapeUpTo, here]
  rfl

/-- An escape of one letter is the character that the letter stands for. -/
theorem escapeUpTo_letter {letter c : Char} (known : escaped? letter = some c)
    (ascii : isAscii letter) (h : s.Delivers (UInt8.ofNat letter.toNat :: rest))
    (behind : 0 < s.passed) {limit : Nat} {bs : List UInt8} {t : Stream}
    (read : escapeUpTo limit s = some (bs, t)) : bs = [c.toNat.toUInt8] ∧ t.Delivers rest := by
  induction limit generalizing s with
  | zero => contradiction
  | succ limit ih =>
    rcases h.step with ⟨b, more, same, shows, here, -, -⟩ |
      ⟨zero, ⟨none, -⟩ | ⟨u, next, later, -, passed⟩⟩
    · obtain ⟨rfl, rfl⟩ := List.cons.inj same
      have letterHere : Char.ofNat s.peek.toNat = letter := by
        rw [here]
        exact Text.charOf_ofNat ascii
      have noCode : letter ≠ 'u' := by
        rintro rfl
        contradiction
      rw [escapeUpTo_other letterHere (here ▸ shows) noCode, known, Option.map_some] at read
      obtain ⟨rfl, rfl⟩ := Prod.mk.inj (Option.some.inj read)
      have later := h.unescape (h.filled_of_peek here) behind 1 (by omega)
      exact ⟨rfl, by simpa using later⟩
    · contradiction
    · rw [escapeUpTo_zero zero, next] at read
      exact ih later (by omega) read

theorem hexByte_lt (b : UInt8) : hexByte b < 16 := by
  have bound (c : Char) : (hexValue? c).getD 0 < 16 := by
    simp only [hexValue?]
    split
    · rename_i digit
      have value : c.toNat = c.val.toNat := rfl
      have nine : '9'.val.toNat = 57 := rfl
      simp only [Char.isDigit, ge_iff_le, UInt32.le_iff_toNat_le, Bool.and_eq_true,
        decide_eq_true_eq] at digit
      simp only [Option.getD_some, show '0'.toNat = 48 from rfl]
      omega
    · simp only [show 'a'.toNat = 97 from rfl, show 'f'.toNat = 102 from rfl,
        show 'A'.toNat = 65 from rfl, show 'F'.toNat = 70 from rfl]
      split
      · simp only [Option.getD_some]
        omega
      · split
        · simp only [Option.getD_some]
          omega
        · simp
  exact bound _

theorem hexCode_lt {digits : List UInt8} (four : digits.length = 4) : hexCode digits < 0x10000 := by
  obtain ⟨a, b, c, d, rfl⟩ : ∃ a b c d, digits = [a, b, c, d] := by
    match digits, four with
    | [a, b, c, d], _ => exact ⟨a, b, c, d, rfl⟩
  have := hexByte_lt a
  have := hexByte_lt b
  have := hexByte_lt c
  have := hexByte_lt d
  simp only [hexCode, List.foldl_cons, List.foldl_nil]
  omega

theorem exists_high_of_utf8EncodeChar {c : Char} (high : isAscii c = false) :
    ∃ b ∈ String.utf8EncodeChar c, 0x80 ≤ b := by
  obtain ⟨some, above⟩ := Text.utf8EncodeChar_high high
  obtain ⟨b, rest, split⟩ := List.exists_cons_of_ne_nil some
  have member : b ∈ String.utf8EncodeChar c := by simp [split]
  exact ⟨b, member, above b member⟩

theorem isAscii_pair {n m : Nat} {c : Char} (paired : pair? n m = some c) : isAscii c = false := by
  rw [pair?] at paired
  split at paired
  · rename_i halves
    obtain rfl := Option.some.inj paired
    simp only [isHighHalf, isLowHalf, Bool.and_eq_true, decide_eq_true_eq] at halves
    rw [isAscii, Text.toNat_ofNat, decide_eq_false_iff_not]
    · omega
    · exact .inr ⟨by omega, by omega⟩
  · contradiction

/-- A code below the ASCII bound is its character, and any other code is no ASCII character. -/
theorem codeBytes?_cases {u : UInt8} {digits : List UInt8} (four : digits.length = 4)
    (h : s.Delivers (u :: digits ++ rest)) {bs : List UInt8} {taken : Nat} {t : Stream}
    (read : codeBytes? s = some (bs, taken, t)) :
    (hexCode digits < 0x80 ∧ bs = [UInt8.ofNat (hexCode digits)] ∧ taken = 5 ∧
      t.Delivers (u :: digits ++ rest) ∧ t.passed = s.passed ∧ t.passed + 5 ≤ t.filled) ∨
    (0x80 ≤ hexCode digits ∧ ∃ b ∈ bs, 0x80 ≤ b) := by
  rw [codeBytes?] at read
  obtain ⟨v, there, read⟩ := Option.bind_eq_some_iff.mp read
  obtain ⟨delivers, passed, enough⟩ := h.ensureUpTo there
  have code : (v.ahead.drop 1).take 4 = digits := by
    obtain ⟨same, -⟩ := delivers.take_ahead (n := 5) (by omega)
    have cut : (v.ahead.drop 1).take 4 = (v.ahead.take 5).drop 1 := by rw [List.drop_take]
    have whole : (u :: digits ++ rest).take 5 = u :: digits := by
      rw [List.cons_append, List.take_succ_cons, ← four, List.take_left]
    rw [cut, same, whole]
    rfl
  have most := hexCode_lt four
  simp only [code] at read
  split at read
  · rename_i half
    simp only [isHighHalf, isLowHalf, Bool.or_eq_true, Bool.and_eq_true, decide_eq_true_eq] at half
    apply Or.inr
    constructor
    · omega
    have unpaired : isAscii Text.replacement = false := by decide
    split at read
    · obtain ⟨rfl, -⟩ := Prod.mk.inj (Option.some.inj read)
      exact exists_high_of_utf8EncodeChar unpaired
    · split at read
      · rename_i paired
        obtain ⟨rfl, -⟩ := Prod.mk.inj (Option.some.inj read)
        exact exists_high_of_utf8EncodeChar (isAscii_pair paired)
      · obtain ⟨rfl, -⟩ := Prod.mk.inj (Option.some.inj read)
        exact exists_high_of_utf8EncodeChar unpaired
  · rename_i whole
    simp only [isHighHalf, isLowHalf, Bool.or_eq_true, Bool.and_eq_true, decide_eq_true_eq] at whole
    have valid : (hexCode digits).isValidChar := by
      simp only [Nat.isValidChar]
      omega
    obtain ⟨rfl, same⟩ := Prod.mk.inj (Option.some.inj read)
    obtain ⟨rfl, rfl⟩ := Prod.mk.inj same
    by_cases low : hexCode digits < 0x80
    · have ascii : isAscii (Char.ofNat (hexCode digits)) := by
        rw [isAscii, Text.toNat_ofNat valid, decide_eq_true_eq]
        exact low
      refine .inl ⟨low, ?_, rfl, delivers, passed, by omega⟩
      rw [Text.utf8EncodeChar_ascii ascii, Text.toNat_ofNat valid]
    · apply Or.inr
      constructor
      · omega
      apply exists_high_of_utf8EncodeChar
      rw [isAscii, Text.toNat_ofNat valid, decide_eq_false_iff_not]
      exact low

/-- The same from behind the backslash. -/
theorem escapeUpTo_digits {digits : List UInt8} (four : digits.length = 4)
    (h : s.Delivers (UInt8.ofNat 'u'.toNat :: digits ++ rest)) (behind : 0 < s.passed) {limit : Nat}
    {bs : List UInt8} {t : Stream} (read : escapeUpTo limit s = some (bs, t)) :
    (hexCode digits < 0x80 ∧ bs = [UInt8.ofNat (hexCode digits)] ∧ t.Delivers rest) ∨
    (0x80 ≤ hexCode digits ∧ ∃ b ∈ bs, 0x80 ≤ b) := by
  induction limit generalizing s with
  | zero => contradiction
  | succ limit ih =>
    rcases h.step with ⟨b, more, same, -, here, -, -⟩ |
      ⟨zero, ⟨none, -⟩ | ⟨u, next, later, -, passed⟩⟩
    · obtain ⟨rfl, -⟩ := List.cons.inj same
      have letter : Char.ofNat s.peek.toNat = 'u' := by
        rw [here]
        rfl
      rw [escapeUpTo_code letter] at read
      obtain ⟨⟨cs, taken, u⟩, code, read⟩ := Option.bind_eq_some_iff.mp read
      obtain ⟨rfl, rfl⟩ := Prod.mk.inj (Option.some.inj read)
      rcases codeBytes?_cases four h code with ⟨low, rfl, rfl, delivers, passed, there⟩ | high
      · have later := delivers.unescape there (by omega) 1 (by omega)
        have dropped : (UInt8.ofNat 'u'.toNat :: digits ++ rest).drop 5 = rest := by
          rw [List.cons_append, List.drop_succ_cons, ← four, List.drop_left]
        rw [dropped] at later
        exact .inl ⟨low, rfl, later⟩
      · exact .inr high
    · contradiction
    · rw [escapeUpTo_zero zero, next] at read
      exact ih later (by omega) read

/-! ### Whole strings -/

theorem hexByte_ofNat {c : Char} {n : Nat} (hex : hexValue? c = some n) :
    isAscii c ∧ hexByte (UInt8.ofNat c.toNat) = n := by
  have ascii : isAscii c := by
    simp only [hexValue?] at hex
    rw [isAscii, decide_eq_true_eq]
    split at hex
    · exact of_decide_eq_true (isAscii_of_isDigit ‹_›)
    · simp only [show 'f'.toNat = 102 from rfl, show 'F'.toNat = 70 from rfl] at hex
      split at hex
      · omega
      · split at hex
        · omega
        · contradiction
  refine ⟨ascii, ?_⟩
  have read : Char.ofNat (UInt8.ofNat c.toNat).toNat = c := Text.charOf_ofNat ascii
  rw [hexByte, read, hex]
  rfl

/-- The code of four digits is the same for their bytes and for the characters. -/
theorem pieces?_hexCode {a b c d : Char} (hex : ∀ digit ∈ [a, b, c, d], (hexValue? digit).isSome) :
    ∃ digits, digits.length = 4 ∧ (∀ cs, bytes (a :: b :: c :: d :: cs) = digits ++ bytes cs) ∧
      ∀ rest, pieces? ('\\' :: 'u' :: a :: b :: c :: d :: rest) =
        (pieces? rest).bind fun (more, rest) => some (.code (hexCode digits) :: more, rest) := by
  simp only [List.mem_cons, List.not_mem_nil, or_false, forall_eq_or_imp, forall_eq,
    Option.isSome_iff_exists] at hex
  obtain ⟨⟨i, first⟩, ⟨j, second⟩, ⟨k, third⟩, ⟨l, fourth⟩⟩ := hex
  obtain ⟨asciiA, codeA⟩ := hexByte_ofNat first
  obtain ⟨asciiB, codeB⟩ := hexByte_ofNat second
  obtain ⟨asciiC, codeC⟩ := hexByte_ofNat third
  obtain ⟨asciiD, codeD⟩ := hexByte_ofNat fourth
  refine ⟨[a, b, c, d].map fun digit => UInt8.ofNat digit.toNat, rfl, ?_, ?_⟩
  · intro cs
    simp [bytes_cons_ascii, asciiA, asciiB, asciiC, asciiD]
  · intro rest
    simp [pieces?, first, second, third, fourth, hexCode, codeA, codeB, codeC, codeD]

/-- A code of an ASCII character is no half of another one. -/
theorem assemble_code {n : Nat} (low : n < 0x80) (pieces : List Piece) :
    assemble (.code n :: pieces) = Char.ofNat n :: assemble pieces := by
  have noHigh : isHighHalf n = false := by
    simp only [isHighHalf, Bool.and_eq_false_iff, decide_eq_false_iff_not]
    omega
  have noLow : isLowHalf n = false := by
    simp only [isLowHalf, Bool.and_eq_false_iff, decide_eq_false_iff_not]
    omega
  have alone : single n = Char.ofNat n := by simp [single, noHigh, noLow]
  cases pieces with
  | nil => simp [assemble, alone]
  | cons piece pieces =>
    cases piece with
    | char c => simp [assemble, alone]
    | code m => simp [assemble, pair?, noHigh, alone]

/-- The letter of an escape and the character that it stands for. -/
theorem exists_escaped {letter : Char} (known : letter ∈ ['"', '\\', '/', 'b', 'f', 'n', 'r', 't']) :
    isAscii letter ∧ ∃ c, escaped? letter = some c ∧ isAscii c := by
  simp only [List.mem_cons, List.not_mem_nil, or_false] at known
  rcases known with rfl | rfl | rfl | rfl | rfl | rfl | rfl | rfl <;>
    exact ⟨by decide, _, rfl, by decide⟩

/-- A string that reads as ASCII bytes has the value that its characters stand for. -/
theorem stringUpTo_ascii {inside : List Char} (isString : IsString inside)
    (h : s.Delivers (bytes inside ++ 0x22 :: rest)) {front out : List UInt8} {limit : Nat}
    {t : Stream} (read : stringUpTo front limit s = some (out, t)) (low : ∀ b ∈ out, b < 0x80) :
    ∃ pieces, (∀ rest, pieces? (inside ++ '"' :: rest) = some (pieces, rest)) ∧
      out = front.reverse ++ bytes (assemble pieces) := by
  have noHigh {b : UInt8} (member : b ∈ out) (high : 0x80 ≤ b) : False :=
    absurd high (UInt8.not_le.mpr (low b member))
  induction limit generalizing s inside front with
  | zero => contradiction
  | succ limit ih =>
    rcases h.step with ⟨b, more, same, shows, here, later, -⟩ |
      ⟨zero, ⟨none, -⟩ | ⟨u, next, later, -, -⟩⟩
    · cases isString with
      | nil =>
        obtain ⟨rfl, -⟩ := List.cons.inj same
        rw [stringUpTo_quote here] at read
        obtain ⟨rfl, -⟩ := Prod.mk.inj (Option.some.inj read)
        exact ⟨[], fun rest => rfl, by simp [assemble, bytes]⟩
      | @char c cs _ noQuote noEscape tail =>
        by_cases ascii : isAscii c
        · rw [bytes_cons_ascii ascii] at same
          obtain ⟨rfl, rfl⟩ := List.cons.inj same
          rw [stringUpTo_char ascii noQuote noEscape here (here ▸ shows)] at read
          obtain ⟨pieces, parts, rfl⟩ := ih tail later read
          refine ⟨.char c :: pieces, ?_, ?_⟩
          · intro rest
            rw [List.cons_append, pieces?_char noQuote noEscape, parts]
            rfl
          · simp [assemble, bytes_cons_ascii ascii]
        · obtain ⟨some, above⟩ := Text.utf8EncodeChar_high (c := c) (by simpa using ascii)
          obtain ⟨d, behind, split⟩ := List.exists_cons_of_ne_nil some
          obtain rfl : d = b := by
            rw [bytes, List.flatMap_cons, split] at same
            exact (List.cons.inj same).1
          have high : 0x80 ≤ s.peek := here ▸ above d (by simp [split])
          exact (noHigh (mem_of_stringUpTo_high high read) high).elim
      | @escape letter cs known tail =>
        obtain ⟨ascii, c, found, small⟩ := exists_escaped known
        rw [bytes_cons_ascii (by decide), bytes_cons_ascii ascii] at same
        obtain ⟨rfl, rfl⟩ := List.cons.inj same
        rw [stringUpTo_escape here] at read
        obtain ⟨⟨bs, u⟩, escaped, read⟩ := Option.bind_eq_some_iff.mp read
        obtain ⟨rfl, after⟩ := escapeUpTo_letter found ascii later (Nat.succ_pos _) escaped
        obtain ⟨pieces, parts, rfl⟩ := ih tail after read
        refine ⟨.char c :: pieces, ?_, ?_⟩
        · intro rest
          rw [List.cons_append, List.cons_append, pieces?_escape found, parts]
          rfl
        · simp [assemble, bytes_cons_ascii small]
      | @code x y z w cs hex tail =>
        obtain ⟨digits, four, split, coded⟩ := pieces?_hexCode hex
        rw [bytes_cons_ascii (by decide), bytes_cons_ascii (by decide), split] at same
        obtain ⟨rfl, rfl⟩ := List.cons.inj same
        rw [stringUpTo_escape here] at read
        obtain ⟨⟨bs, u⟩, escaped, read⟩ := Option.bind_eq_some_iff.mp read
        have letter : s.skip.Delivers
            (UInt8.ofNat 'u'.toNat :: digits ++ (bytes cs ++ 0x22 :: rest)) := by
          simpa using later
        rcases escapeUpTo_digits four letter (Nat.succ_pos _) escaped with
          ⟨small, rfl, after⟩ | ⟨-, b, member, high⟩
        · obtain ⟨pieces, parts, rfl⟩ := ih tail after read
          refine ⟨.code (hexCode digits) :: pieces, ?_, ?_⟩
          · intro rest
            simp only [List.cons_append]
            rw [coded, parts]
            rfl
          · have same : (Char.ofNat (hexCode digits)).toNat = hexCode digits :=
              Text.toNat_ofNat (.inl (by omega))
            have ascii : isAscii (Char.ofNat (hexCode digits)) := by
              rw [isAscii, same]
              exact decide_eq_true small
            rw [assemble_code small, bytes_cons_ascii ascii, same]
            simp
        · have kept := (prefix_of_stringUpTo read).subset
            (List.mem_reverse.mpr (List.mem_append_left _ (List.mem_reverse.mpr member)))
          exact (noHigh kept high).elim
    · simp at none
    · rw [stringUpTo_zero zero, next] at read
      exact ih isString later read

/-- A string with an ASCII value is read as the string that its characters are. -/
theorem scalar?_string {inside : List Char} (isString : IsString inside) {value : Scalar}
    (read : scalar? ('"' :: inside ++ ['"']) = some value) :
    ∃ v, value = .text v ∧
      ((∀ c ∈ v.toList, isAscii c) → string? ('"' :: inside ++ ['"']) = some v) := by
  have simple : StartsSimple '"' := ⟨by decide, by decide, by decide⟩
  have noEnd : Char.ofNat 0 ∉ '"' :: (inside ++ ['"']) := by simpa using isString.noEnd
  obtain ⟨t, delivers, here, same⟩ := scalar?_simple simple noEnd
  have quote : Char.ofNat t.peek.toNat = '"' := by
    rw [here]
    rfl
  have text : simple? t = t.skip.string?.map fun read => (.text read.1, read.2) := by
    rw [simple?, quote]
    rfl
  rw [List.cons_append, same, text] at read
  obtain ⟨⟨_, u⟩, found, rfl⟩ := Option.map_eq_some_iff.mp read
  obtain ⟨⟨v, w⟩, string, pair⟩ := Option.map_eq_some_iff.mp found
  obtain ⟨rfl, -⟩ := Prod.mk.inj pair
  refine ⟨v, rfl, ?_⟩
  intro ascii
  obtain ⟨⟨out, x⟩, looped, pair⟩ := Option.map_eq_some_iff.mp string
  obtain ⟨rfl, -⟩ := Prod.mk.inj pair
  rw [Text.ofBytes, String.toList_ofList] at ascii
  obtain ⟨chars, low⟩ := Text.charsUpTo_ascii (Nat.le_refl _) ascii
  have front : bytes (inside ++ ['"']) = bytes inside ++ 0x22 :: [] := by
    simp [bytes, Text.utf8EncodeChar_ascii (show isAscii '"' by decide)]
  have later := (delivers.skip here).1
  rw [front] at later
  obtain ⟨pieces, parts, whole⟩ := stringUpTo_ascii isString later looped low
  obtain rfl : out = bytes (assemble pieces) := by simpa using whole
  have body : stringBody? (inside ++ ['"']) = some (String.ofList (assemble pieces), []) := by
    rw [stringBody?, parts []]
    rfl
  rw [List.cons_append, string?, body, Text.ofBytes, chars, Text.map_charOf_bytes low]

end Pushdown.Json
