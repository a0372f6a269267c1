import Pushdown.Proofs.Json.Scalar

/-!
# Strings are read to the end

A string in a document is never cut off: the steps of the loops over its stream are enough for all
of it, and an escape is read whole even if a block ends inside it. So a string whose value is ASCII
is read, and as that value.
-/

namespace Pushdown.Json

open Text (bytes charOf isAscii)

/-! ## Enough bytes for an escape -/

/-- If the stream has more than `n` bytes left, that many can be brought into the buffer. -/
theorem Stream.Delivers.exists_ensureUpTo {s : Stream} {rest : List UInt8} (h : s.Delivers rest)
    {n limit : Nat} (more : n < rest.length) (enough : s.work ≤ limit) :
    ∃ t, s.ensureUpTo n limit = some t ∧ t.work ≤ s.work := by
  induction limit generalizing s with
  | zero =>
    obtain ⟨b, tail, rfl⟩ := List.exists_cons_of_length_pos (Nat.zero_lt_of_lt more)
    have := h.work_pos
    omega
  | succ limit ih =>
    rw [Stream.ensureUpTo]
    by_cases here : s.passed + n < s.filled
    · exact ⟨s, if_pos here, Nat.le_refl _⟩
    · rw [if_neg here]
      have unended : s.ended = false := by
        obtain ⟨⟨near, holds, rfl⟩, -⟩ := h
        have filled := holds.filled
        apply Bool.eq_false_iff.mpr
        intro ended
        rw [holds.ended ended, List.append_nil] at more
        omega
      obtain ⟨t, next, later, less, -⟩ := h.next unended
      obtain ⟨u, found, fewer⟩ := ih later (by omega)
      refine ⟨u, ?_, by omega⟩
      rw [next]
      exact found

/-! ## Escapes -/

variable {s : Stream} {rest : List UInt8}

theorem work_unescape {taken : Nat} (some : 0 < taken) (there : s.passed + taken ≤ s.filled)
    (behind : 0 < s.passed) : (s.unescape taken 1).work < s.work := by
  simp only [Stream.work, Stream.unescape]
  omega

/-- An escape of one letter is read. -/
theorem exists_escapeUpTo_letter {letter c : Char} (known : escaped? letter = some c)
    (ascii : isAscii letter) (h : s.Delivers (UInt8.ofNat letter.toNat :: rest))
    (behind : 0 < s.passed) {limit : Nat} (enough : s.work ≤ limit) :
    ∃ t, escapeUpTo limit s = some ([c.toNat.toUInt8], t) ∧ t.Delivers rest ∧ t.work < s.work := by
  induction limit generalizing s with
  | zero =>
    have := h.work_pos
    omega
  | succ limit ih =>
    rcases h.step with ⟨b, more, same, shows, here, -, -⟩ |
      ⟨zero, ⟨none, -⟩ | ⟨u, next, later, less, passed⟩⟩
    · obtain ⟨rfl, rfl⟩ := List.cons.inj same
      have letterHere : Char.ofNat s.peek.toNat = letter := by
        rw [here]
        exact Text.charOf_ofNat ascii
      have noCode : letter ≠ 'u' := by
        rintro rfl
        contradiction
      have there := h.filled_of_peek here
      refine ⟨s.unescape 1 1, ?_, ?_, work_unescape Nat.one_pos there behind⟩
      · rw [escapeUpTo_other letterHere (here ▸ shows) noCode, known, Option.map_some]
      · simpa using h.unescape there behind 1 (by omega)
    · contradiction
    · obtain ⟨t, read, delivers, fewer⟩ := ih later (by omega) (by omega)
      refine ⟨t, ?_, delivers, by omega⟩
      rw [escapeUpTo_zero zero, next]
      exact read

/-- The code of an ASCII character is read. -/
theorem exists_codeBytes? {u : UInt8} {digits : List UInt8} (four : digits.length = 4)
    (low : hexCode digits < 0x80) (h : s.Delivers (u :: digits ++ rest)) (more : rest ≠ []) :
    ∃ t, codeBytes? s = some ([UInt8.ofNat (hexCode digits)], 5, t) ∧
      t.Delivers (u :: digits ++ rest) ∧ t.passed = s.passed ∧ t.passed + 5 ≤ t.filled ∧
      t.work ≤ s.work := by
  have long : 5 < (u :: digits ++ rest).length := by
    have := List.length_pos_iff.mpr more
    simp only [List.cons_append, List.length_cons, List.length_append]
    omega
  obtain ⟨t, there, less⟩ := h.exists_ensureUpTo long h.2
  have noHalf : (isHighHalf (hexCode digits) || isLowHalf (hexCode digits)) = false := by
    simp only [isHighHalf, isLowHalf, Bool.or_eq_false_iff, Bool.and_eq_false_iff,
      decide_eq_false_iff_not]
    omega
  obtain ⟨delivers, passed, inside⟩ := h.ensureUpTo there
  have code : (t.ahead.drop 1).take 4 = digits := by
    obtain ⟨same, -⟩ := delivers.take_ahead (n := 5) (by omega)
    have cut : (t.ahead.drop 1).take 4 = (t.ahead.take 5).drop 1 := by rw [List.drop_take]
    have whole : (u :: digits ++ rest).take 5 = u :: digits := by
      rw [List.cons_append, List.take_succ_cons, ← four, List.take_left]
    rw [cut, same, whole]
    rfl
  have same : (Char.ofNat (hexCode digits)).toNat = hexCode digits :=
    Text.toNat_ofNat (.inl (by omega))
  have ascii : isAscii (Char.ofNat (hexCode digits)) := by
    rw [isAscii, same]
    exact decide_eq_true low
  refine ⟨t, ?_, delivers, passed, by omega, less⟩
  have ensured : s.ensure? 5 = some t := there
  rw [codeBytes?, ensured]
  simp only [Option.bind_eq_bind, Option.bind_some, code, noHalf, Bool.false_eq_true, if_false,
    Text.utf8EncodeChar_ascii ascii, same]

theorem exists_escapeUpTo_code {digits : List UInt8} (four : digits.length = 4)
    (low : hexCode digits < 0x80) (h : s.Delivers (UInt8.ofNat 'u'.toNat :: digits ++ rest))
    (more : rest ≠ []) (behind : 0 < s.passed) {limit : Nat} (enough : s.work ≤ limit) :
    ∃ t, escapeUpTo limit s = some ([UInt8.ofNat (hexCode digits)], t) ∧ t.Delivers rest ∧
      t.work < s.work := by
  induction limit generalizing s with
  | zero =>
    have := h.work_pos
    omega
  | succ limit ih =>
    rcases h.step with ⟨b, tail, same, -, here, -, -⟩ |
      ⟨zero, ⟨none, -⟩ | ⟨u, next, later, less, passed⟩⟩
    · obtain ⟨rfl, -⟩ := List.cons.inj same
      have letter : Char.ofNat s.peek.toNat = 'u' := by
        rw [here]
        rfl
      obtain ⟨t, read, delivers, passed, there, fewer⟩ := exists_codeBytes? four low h more
      have behind : 0 < t.passed := by omega
      have less := work_unescape (by omega) there behind
      refine ⟨t.unescape 5 1, ?_, ?_, by omega⟩
      · rw [escapeUpTo_code letter, read]
        rfl
      · have later := delivers.unescape there behind 1 (by omega)
        have dropped : (UInt8.ofNat 'u'.toNat :: digits ++ rest).drop 5 = rest := by
          rw [List.cons_append, List.drop_succ_cons, ← four, List.drop_left]
        rwa [dropped] at later
    · contradiction
    · obtain ⟨t, read, delivers, fewer⟩ := ih later (by omega) (by omega)
      refine ⟨t, ?_, delivers, by omega⟩
      rw [escapeUpTo_zero zero, next]
      exact read

/-! ## Whole strings -/

/-- A code that stands for an ASCII character lies below the ASCII bound. -/
theorem code_lt_of_ascii {n : Nat} (most : n < 0x10000) {pieces : List Piece}
    (ascii : ∀ c ∈ assemble (.code n :: pieces), isAscii c) : n < 0x80 := by
  have alone (ascii : isAscii (single n)) : n < 0x80 := by
    rw [single] at ascii
    split at ascii
    · contradiction
    · rename_i noHalf
      simp only [isHighHalf, isLowHalf, Bool.or_eq_true, Bool.and_eq_true,
        decide_eq_true_eq] at noHalf
      have valid : n.isValidChar := by
        simp only [Nat.isValidChar]
        omega
      rwa [isAscii, Text.toNat_ofNat valid, decide_eq_true_eq] at ascii
  cases pieces with
  | nil => exact alone (ascii _ (by simp [assemble]))
  | cons piece pieces =>
    cases piece with
    | char c => exact alone (ascii _ (by simp [assemble]))
    | code m =>
      cases paired : pair? n m with
      | some c =>
        have contrary := ascii c (by simp [assemble, paired])
        rw [isAscii_pair paired] at contrary
        contradiction
      | none => exact alone (ascii _ (by simp [assemble, paired]))

/-- A string with an ASCII value is read up to its closing quote. -/
theorem exists_stringUpTo {inside : List Char} (isString : IsString inside) {pieces : List Piece}
    (parts : pieces? (inside ++ ['"']) = some (pieces, []))
    (ascii : ∀ c ∈ assemble pieces, isAscii c) (h : s.Delivers (bytes inside ++ 0x22 :: rest))
    (front : List UInt8) {limit : Nat} (enough : s.work ≤ limit) :
    ∃ t, stringUpTo front limit s = some (front.reverse ++ bytes (assemble pieces), t) := by
  induction limit generalizing s inside pieces front with
  | zero =>
    obtain ⟨b, tail, same⟩ : ∃ b tail, bytes inside ++ 0x22 :: rest = b :: tail :=
      List.exists_cons_of_ne_nil (by simp)
    rw [same] at h
    have := h.work_pos
    omega
  | succ limit ih =>
    rcases h.step with ⟨b, more, same, shows, here, later, less⟩ |
      ⟨zero, ⟨none, -⟩ | ⟨u, next, later, less, -⟩⟩
    · cases isString with
      | nil =>
        obtain ⟨rfl, -⟩ := List.cons.inj same
        obtain ⟨rfl, -⟩ := Prod.mk.inj (Option.some.inj parts)
        refine ⟨s.skip, ?_⟩
        rw [stringUpTo_quote here]
        simp [assemble, bytes]
      | @char c cs _ noQuote noEscape tail =>
        rw [List.cons_append, pieces?_char noQuote noEscape] at parts
        obtain ⟨⟨others, behind⟩, found, parts⟩ := Option.bind_eq_some_iff.mp parts
        obtain ⟨rfl, rfl⟩ := Prod.mk.inj (Option.some.inj parts)
        have first : isAscii c := ascii c (by simp [assemble])
        rw [bytes_cons_ascii first] at same
        obtain ⟨rfl, rfl⟩ := List.cons.inj same
        obtain ⟨t, read⟩ := ih tail found (fun d member => ascii d (by simp [assemble, member]))
          later (UInt8.ofNat c.toNat :: front) (by omega)
        refine ⟨t, ?_⟩
        rw [stringUpTo_char first noQuote noEscape here (here ▸ shows), read]
        simp [assemble, bytes_cons_ascii first]
      | @escape letter cs known tail =>
        obtain ⟨letterAscii, c, found, small⟩ := exists_escaped known
        rw [List.cons_append, List.cons_append, pieces?_escape found] at parts
        obtain ⟨⟨others, behind⟩, found', parts⟩ := Option.bind_eq_some_iff.mp parts
        obtain ⟨rfl, rfl⟩ := Prod.mk.inj (Option.some.inj parts)
        rw [bytes_cons_ascii (by decide), bytes_cons_ascii letterAscii] at same
        obtain ⟨rfl, rfl⟩ := List.cons.inj same
        have budget : s.skip.work ≤ s.budget := Nat.le_trans (Nat.le_of_lt less) h.2
        obtain ⟨u, escaped, after, fewer⟩ :=
          exists_escapeUpTo_letter found letterAscii later (Nat.succ_pos _) budget
        obtain ⟨t, read⟩ := ih tail found' (fun d member => ascii d (by simp [assemble, member]))
          after ([c.toNat.toUInt8].reverse ++ front) (by omega)
        refine ⟨t, ?_⟩
        rw [stringUpTo_escape here, escape?, escaped]
        apply read.trans
        simp [assemble, bytes_cons_ascii small]
      | @code x y z w cs hex tail =>
        obtain ⟨digits, four, split, coded⟩ := pieces?_hexCode hex
        simp only [List.cons_append] at parts
        rw [coded] at parts
        obtain ⟨⟨others, behind⟩, found, parts⟩ := Option.bind_eq_some_iff.mp parts
        obtain ⟨rfl, rfl⟩ := Prod.mk.inj (Option.some.inj parts)
        have low := code_lt_of_ascii (hexCode_lt four) ascii
        rw [assemble_code low] at ascii ⊢
        rw [bytes_cons_ascii (by decide), bytes_cons_ascii (by decide), split] at same
        obtain ⟨rfl, rfl⟩ := List.cons.inj same
        have letter : s.skip.Delivers
            (UInt8.ofNat 'u'.toNat :: digits ++ (bytes cs ++ 0x22 :: rest)) := by
          simpa using later
        have budget : s.skip.work ≤ s.budget := Nat.le_trans (Nat.le_of_lt less) h.2
        obtain ⟨u, escaped, after, fewer⟩ :=
          exists_escapeUpTo_code four low letter (by simp) (Nat.succ_pos _) budget
        obtain ⟨t, read⟩ := ih tail found (fun d member => ascii d (by simp [member]))
          after ([UInt8.ofNat (hexCode digits)].reverse ++ front) (by omega)
        refine ⟨t, ?_⟩
        rw [stringUpTo_escape here, escape?, escaped]
        apply read.trans
        rw [bytes_cons_ascii (ascii _ (by simp)), Text.toNat_ofNat (.inl (by omega))]
        simp
    · simp at none
    · obtain ⟨t, read⟩ := ih isString parts ascii later front (by omega)
      refine ⟨t, ?_⟩
      rw [stringUpTo_zero zero, next]
      exact read

/-- ASCII characters are read back from their bytes. -/
theorem ofBytes_bytes {cs : List Char} (ascii : ∀ c ∈ cs, isAscii c) :
    Text.ofBytes (bytes cs) = String.ofList cs := by
  have chars : Text.charsUpTo (bytes cs).length (bytes cs) = cs := by
    induction cs with
    | nil => rfl
    | cons c cs ih =>
      have first := ascii c (by simp)
      have low : UInt8.ofNat c.toNat < 0x80 := by
        rw [isAscii, decide_eq_true_eq] at first
        rw [UInt8.lt_iff_toNat_lt, UInt8.toNat_ofNat']
        change c.toNat % 2 ^ 8 < 128
        omega
      have here : Text.firstChar? (UInt8.ofNat c.toNat :: bytes cs) = some (c, bytes cs) := by
        have read : Char.ofNat (UInt8.ofNat c.toNat).toNat = c := Text.charOf_ofNat first
        simp only [Text.firstChar?, low, if_true, read]
      rw [bytes_cons_ascii first, List.length_cons, Text.charsUpTo, here]
      simp only [ih fun d member => ascii d (List.mem_cons_of_mem c member)]
  rw [Text.ofBytes, chars]

/-- A string with an ASCII value is read, and as that value. -/
theorem scalar?_asciiString {inside : List Char} (isString : IsString inside) {v : String}
    (means : string? ('"' :: inside ++ ['"']) = some v) (ascii : ∀ c ∈ v.toList, isAscii c) :
    scalar? ('"' :: inside ++ ['"']) = some (.text v) := by
  obtain ⟨pieces, parts⟩ := isString.pieces
  obtain rfl : v = String.ofList (assemble pieces) := by
    have same : string? ('"' :: inside ++ ['"']) = some (String.ofList (assemble pieces)) := by
      simp [string?, stringBody?, parts []]
    exact Option.some.inj (means.symm.trans same)
  rw [String.toList_ofList] at ascii
  have simple : StartsSimple '"' := ⟨by decide, by decide, by decide⟩
  have noEnd : Char.ofNat 0 ∉ '"' :: (inside ++ ['"']) := by simpa using isString.noEnd
  obtain ⟨t, delivers, here, same⟩ := scalar?_simple simple noEnd
  have quote : Char.ofNat t.peek.toNat = '"' := by
    rw [here]
    rfl
  have text : simple? t = t.skip.string?.map fun read => (.text read.1, read.2) := by
    rw [simple?, quote]
    rfl
  have front : bytes (inside ++ ['"']) = bytes inside ++ 0x22 :: [] := by
    simp [bytes, Text.utf8EncodeChar_ascii (show isAscii '"' by decide)]
  obtain ⟨later, less⟩ := delivers.skip here
  rw [front] at later
  obtain ⟨u, read⟩ := exists_stringUpTo isString (parts []) ascii later [] later.2
  rw [List.cons_append, same, text, Stream.string?, read]
  simp [ofBytes_bytes ascii]

end Pushdown.Json
