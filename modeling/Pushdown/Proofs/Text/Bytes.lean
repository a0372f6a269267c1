import Pushdown.Text.Bytes
import Pushdown.Text.Case

/-!
# Bytes of ASCII texts

An ASCII character is one byte, and every byte of any other character lies above. So a text whose
bytes are all ASCII consists of ASCII characters, and bytes that read as an ASCII text are its
characters one by one.
-/

namespace Pushdown.Text

theorem toNat_ofNat {n : Nat} (valid : n.isValidChar) : (Char.ofNat n).toNat = n := by
  rw [Char.ofNat, dif_pos valid]
  rfl

/-- The character with the code of a byte. -/
def charOf (b : UInt8) : Char := Char.ofNat b.toNat

theorem charOf_ofNat {c : Char} (ascii : isAscii c) : charOf (UInt8.ofNat c.toNat) = c := by
  rw [isAscii, decide_eq_true_eq] at ascii
  have same : (UInt8.ofNat c.toNat).toNat = c.toNat := by
    rw [UInt8.toNat_ofNat']
    omega
  rw [charOf, same, Char.ofNat_toNat]

/-! ## The bytes of characters -/

/-- An ASCII character is the byte with its code. -/
theorem utf8EncodeChar_ascii {c : Char} (ascii : isAscii c) :
    String.utf8EncodeChar c = [UInt8.ofNat c.toNat] := by
  have low : c.val.toNat ≤ 127 := by
    rw [isAscii, decide_eq_true_eq] at ascii
    exact Nat.le_of_lt_succ ascii
  simp only [String.utf8EncodeChar, low, if_true]
  rfl

/-- The bytes of any other character lie above. -/
theorem utf8EncodeChar_high {c : Char} (high : isAscii c = false) :
    String.utf8EncodeChar c ≠ [] ∧ ∀ b ∈ String.utf8EncodeChar c, 0x80 ≤ b := by
  have above : ¬ c.val.toNat ≤ 127 := by
    rw [isAscii, decide_eq_false_iff_not] at high
    intro low
    exact high (Nat.lt_succ_of_le low)
  have lift {n : Nat} (least : 128 ≤ n) (most : n < 256) : (0x80 : UInt8) ≤ UInt8.ofNat n := by
    rw [UInt8.le_iff_toNat_le, UInt8.toNat_ofNat']
    change 128 ≤ n % 2 ^ 8
    omega
  simp only [String.utf8EncodeChar, above, if_false]
  split
  · simp only [List.mem_cons, List.not_mem_nil, or_false]
    refine ⟨by simp, ?_⟩
    rintro b (rfl | rfl) <;> apply lift <;> omega
  · split
    · simp only [List.mem_cons, List.not_mem_nil, or_false]
      refine ⟨by simp, ?_⟩
      rintro b (rfl | rfl | rfl) <;> apply lift <;> omega
    · simp only [List.mem_cons, List.not_mem_nil, or_false]
      refine ⟨by simp, ?_⟩
      rintro b (rfl | rfl | rfl | rfl) <;> apply lift <;> omega

/-- Only the NUL character has a byte that is zero. -/
theorem bytes_visible {cs : List Char} (noEnd : Char.ofNat 0 ∉ cs) : ∀ b ∈ bytes cs, b ≠ 0 := by
  intro b member zero
  obtain ⟨c, inside, part⟩ := List.mem_flatMap.mp member
  subst zero
  by_cases ascii : isAscii c
  · rw [utf8EncodeChar_ascii ascii, List.mem_singleton] at part
    have same : Char.ofNat 0 = c := by
      rw [← charOf_ofNat ascii, ← part]
      rfl
    exact noEnd (same ▸ inside)
  · exact absurd ((utf8EncodeChar_high (by simpa using ascii)).2 0 part) (by decide)

/-- A text of ASCII bytes is read back from them one by one. -/
theorem map_charOf_bytes {cs : List Char} (low : ∀ b ∈ bytes cs, b < 0x80) :
    (bytes cs).map charOf = cs := by
  induction cs with
  | nil => rfl
  | cons c cs ih =>
    rw [bytes, List.flatMap_cons] at low ⊢
    have more := ih fun b member => low b (List.mem_append_right _ member)
    by_cases ascii : isAscii c
    · rw [utf8EncodeChar_ascii ascii, List.singleton_append, List.map_cons, charOf_ofNat ascii]
      exact congrArg (c :: ·) more
    · obtain ⟨some, above⟩ := utf8EncodeChar_high (c := c) (by simpa using ascii)
      obtain ⟨b, rest, front⟩ := List.exists_cons_of_ne_nil some
      have first : b ∈ String.utf8EncodeChar c := by simp [front]
      have contrary := low b (List.mem_append_left _ first)
      exact absurd (above b first) (UInt8.not_le.mpr contrary)

/-! ## Texts of bytes -/

theorem codeAbove?_high {least code : Nat} (above : 0x80 ≤ least) {c : Char}
    (found : codeAbove? least code = some c) : isAscii c = false := by
  rw [codeAbove?] at found
  split at found
  · rename_i valid
    obtain rfl := Option.some.inj found
    rw [isAscii, toNat_ofNat valid.2, decide_eq_false_iff_not]
    omega
  · contradiction

/-- A byte above ASCII starts no ASCII character. -/
theorem firstChar?_high {b : UInt8} (high : ¬ b < 0x80) {bs rest : List UInt8} {c : Char}
    (found : firstChar? (b :: bs) = some (c, rest)) : isAscii c = false := by
  have mapped {least code : Nat} (above : 0x80 ≤ least) {after : List UInt8}
      (found : (codeAbove? least code).map (fun c => (c, after)) = some (c, rest)) :
      isAscii c = false := by
    obtain ⟨d, code, same⟩ := Option.map_eq_some_iff.mp found
    obtain rfl : d = c := (Prod.mk.inj same).1
    exact codeAbove?_high above code
  simp only [firstChar?, high, if_false] at found
  repeat' split at found
  all_goals first
    | contradiction
    | exact mapped (by decide) found

/-- Bytes that read as an ASCII text are its characters one by one. -/
theorem charsUpTo_ascii {limit : Nat} {bs : List UInt8} (enough : bs.length ≤ limit)
    (ascii : ∀ c ∈ charsUpTo limit bs, isAscii c) :
    charsUpTo limit bs = bs.map charOf ∧ ∀ b ∈ bs, b < 0x80 := by
  induction limit generalizing bs with
  | zero =>
    obtain rfl := List.eq_nil_of_length_eq_zero (Nat.le_zero.mp enough)
    exact ⟨rfl, by simp⟩
  | succ limit ih =>
    cases bs with
    | nil => exact ⟨rfl, by simp⟩
    | cons b bs =>
      by_cases low : b < 0x80
      · have first : firstChar? (b :: bs) = some (charOf b, bs) := by simp [firstChar?, low, charOf]
        rw [charsUpTo, first] at ascii ⊢
        obtain ⟨more, below⟩ := ih (Nat.le_of_succ_le_succ enough) fun c member =>
          ascii c (List.mem_cons_of_mem _ member)
        constructor
        · simp only [more, List.map_cons]
        · simpa using ⟨low, below⟩
      · rw [charsUpTo] at ascii
        split at ascii
        · rename_i c rest found
          have contrary := ascii c (by simp)
          simp [firstChar?_high low found] at contrary
        · have contrary := ascii replacement (by simp)
          exact absurd contrary (by decide)

end Pushdown.Text
