import Pushdown.Json.Stream

/-!
# Streams deliver every byte

The next bytes of a stream are in its buffer, with zeros behind them, and the others are still
unread. As long as none of them is zero, a block that is read loses nothing: a loop over the stream
sees its bytes one after the other, and the steps that it may take are enough for all of them.
-/

namespace Pushdown.Json.Stream

/-- A bound on the steps that a loop takes to the end of the stream, blocks to read included. -/
def work (s : Stream) : Nat := (s.filled - s.passed) + 2 * s.unread.length + (!s.ended).toNat

/-- The buffer has the next bytes, and zeros behind them. -/
structure Holds (s : Stream) (near : List UInt8) : Prop where
  ahead : ∃ spare, s.ahead = near ++ List.replicate (spare + 1) 0 ∧
    (s.full ∨ s.unread = [] ∨ 0 < spare)
  filled : s.filled = s.passed + near.length
  fits : s.passed + s.ahead.length ≤ s.size
  visible : ∀ b ∈ near ++ s.unread, b ≠ 0
  ended : s.ended → s.unread = []

/-- What is left of the stream are these bytes, and there are enough steps for them. -/
def Delivers (s : Stream) (rest : List UInt8) : Prop :=
  (∃ near, s.Holds near ∧ near ++ s.unread = rest) ∧ s.work ≤ s.budget

theorem ofBytes_delivers {bytes : List UInt8} (visible : ∀ b ∈ bytes, b ≠ 0) :
    (ofBytes bytes).Delivers bytes := by
  refine ⟨⟨[], ⟨⟨511, rfl, .inr (.inr (by decide))⟩, rfl, ?_, visible, ?_⟩, rfl⟩, ?_⟩
  · simp only [ofBytes, List.length_replicate]
    omega
  · intro ended
    contradiction
  · simp only [work, ofBytes, firstSize]
    simp

variable {s : Stream} {near rest : List UInt8}

/-! ## One step -/

theorem Holds.skip {b : UInt8} (h : s.Holds (b :: near)) : s.skip.Holds near := by
  obtain ⟨spare, ahead, room⟩ := h.ahead
  have filled := h.filled
  have fits := h.fits
  rw [List.length_cons] at filled
  have shorter : (s.ahead.drop 1).length + 1 = s.ahead.length := by simp [ahead]
  constructor
  · exact ⟨spare, by simp [Stream.skip, ahead], room⟩
  · simp only [Stream.skip]
    omega
  · simp only [Stream.skip]
    omega
  · intro c member
    exact h.visible c (List.mem_cons_of_mem b member)
  · exact h.ended

theorem Holds.work_skip {b : UInt8} (h : s.Holds (b :: near)) : s.skip.work < s.work := by
  have filled := h.filled
  rw [List.length_cons] at filled
  simp only [work, Stream.skip]
  omega

/-- A buffer has room behind its bytes once a full one has been made larger. -/
theorem Holds.grow (h : s.Holds near) : ∃ spare,
    s.grow.ahead = near ++ List.replicate (spare + 1) 0 ∧ (s.unread = [] ∨ 0 < spare) ∧
    s.passed + s.grow.ahead.length ≤ s.grow.size := by
  obtain ⟨spare, ahead, room⟩ := h.ahead
  have fits := h.fits
  have length : s.ahead.length = near.length + (spare + 1) := by simp [ahead]
  by_cases full : s.full
  · let more := 2 * s.size - (s.passed + s.ahead.length)
    have grown : s.grow.ahead = s.ahead ++ List.replicate more 0 := by simp [Stream.grow, full, more]
    have size : s.grow.size = 2 * s.size := by simp [Stream.grow, full]
    refine ⟨spare + more, ?_, .inr ?_, ?_⟩
    · rw [grown, ahead, List.append_assoc, List.replicate_append_replicate]
      congr 2
      omega
    · omega
    · rw [grown, size, List.length_append, List.length_replicate]
      omega
  · have same : s.grow = s := by simp [Stream.grow, full]
    rw [same]
    exact ⟨spare, ahead, by simpa [full] using room, fits⟩

/-- Making the buffer larger changes nothing else. -/
theorem grow_eq (s : Stream) : ∃ size ahead, s.grow = { s with size, ahead } := by
  unfold Stream.grow
  split
  · exact ⟨_, _, rfl⟩
  · exact ⟨_, _, rfl⟩

/-- The stream once a block has been read, for which there was room for so many bytes. -/
def fill (s : Stream) (near : List UInt8) (spare size : Nat) : Stream :=
  let block := s.unread.take spare
  { s with
    ahead := near ++ block ++ List.replicate (spare - block.length + 1) 0
    filled := s.passed + near.length + block.length
    size
    full := block.length == spare
    ended := s.unread.isEmpty
    unread := s.unread.drop spare }

theorem Holds.next?_eq (h : s.Holds near) (more : s.ended = false) : ∃ spare size,
    s.next? = some (s.fill near spare size) ∧ (s.unread = [] ∨ 0 < spare) ∧
      s.passed + (near.length + (spare + 1)) ≤ size := by
  obtain ⟨spare, ahead, room, fits⟩ := h.grow
  obtain ⟨size, buffer, grown⟩ := s.grow_eq
  rw [grown] at ahead fits
  simp only at ahead fits
  have filled := h.filled
  have visible := h.visible
  have length : buffer.length = near.length + (spare + 1) := by simp [ahead]
  have kept : (buffer.take (s.filled - s.passed)).takeWhile (· != 0) = near := by
    have all : ∀ b ∈ near, (b != 0) = true := by
      intro b member
      simpa using visible b (List.mem_append_left _ member)
    have count : s.filled - s.passed = near.length := by omega
    have stop : (near ++ []).takeWhile (· != 0) = near ++ [] := List.takeWhile_append_of_pos all
    rw [count, ahead, List.take_left]
    simpa using stop
  have free : buffer.length - near.length - 1 = spare := by omega
  have behind (count : Nat) (few : count ≤ spare) :
      (buffer.drop (near.length + count)).take (spare - count) ++ [0] =
        List.replicate (spare - count + 1) 0 := by
    rw [ahead, ← List.drop_drop, List.drop_left, List.drop_replicate, List.take_replicate,
      List.replicate_succ']
    congr 2
    omega
  refine ⟨spare, size, ?_, room, ?_⟩
  · have few : (s.unread.take spare).length ≤ spare := List.length_take_le _ _
    simp only [Stream.next?, more, Bool.false_eq_true, if_false, grown, kept, free, fill,
      ← behind _ few, List.append_assoc]
  · omega

/-- A block goes behind the bytes that are there. -/
theorem Holds.fill (h : s.Holds near) {spare size : Nat}
    (fits : s.passed + (near.length + (spare + 1)) ≤ size) :
    (s.fill near spare size).Holds (near ++ s.unread.take spare) := by
  have few : (s.unread.take spare).length ≤ spare := List.length_take_le _ _
  constructor
  · refine ⟨spare - (s.unread.take spare).length, rfl, ?_⟩
    by_cases full : (s.unread.take spare).length = spare
    · exact .inl (by simp [Stream.fill, full])
    · apply Or.inr (Or.inl _)
      simp only [Stream.fill, List.length_take] at full ⊢
      apply List.drop_eq_nil_of_le
      omega
  · simp only [Stream.fill, List.length_append]
    omega
  · simp only [Stream.fill, List.length_append, List.length_replicate]
    omega
  · simpa [Stream.fill, List.append_assoc] using h.visible
  · intro ended
    have none : s.unread = [] := by simpa [Stream.fill] using ended
    simp [Stream.fill, none]

theorem Holds.work_fill (h : s.Holds near) (more : s.ended = false) {spare : Nat}
    (room : s.unread = [] ∨ 0 < spare) (size : Nat) : (s.fill near spare size).work < s.work := by
  have filled := h.filled
  by_cases none : s.unread = []
  · simp only [work, Stream.fill, none, more, List.take_nil, List.drop_nil, List.length_nil,
      List.isEmpty_nil]
    simp
    omega
  · have some := List.length_pos_iff.mpr none
    have room := room.resolve_left none
    have unended : s.unread.isEmpty = false := by simpa using none
    simp only [work, Stream.fill, more, unended, List.length_take, List.length_drop]
    omega

/-- The next block leaves the bytes as they are. -/
theorem Delivers.next (h : s.Delivers rest) (more : s.ended = false) : ∃ t,
    s.next? = some t ∧ t.Delivers rest ∧ t.work < s.work ∧ t.passed = s.passed := by
  obtain ⟨⟨near, holds, rfl⟩, enough⟩ := h
  obtain ⟨spare, size, next, room, fits⟩ := holds.next?_eq more
  have less := holds.work_fill more room size
  refine ⟨_, next, ⟨⟨_, holds.fill fits, ?_⟩, ?_⟩, less, rfl⟩
  · simp [Stream.fill]
  · exact Nat.le_of_lt (Nat.lt_of_lt_of_le less enough)

theorem Delivers.next_of_some (h : s.Delivers rest) {t : Stream} (next : s.next? = some t) :
    t.Delivers rest ∧ t.work < s.work ∧ t.passed = s.passed := by
  have more : s.ended = false := by
    apply Bool.eq_false_iff.mpr
    intro ended
    simp [Stream.next?, ended] at next
  obtain ⟨u, found, rest⟩ := h.next more
  obtain rfl : u = t := Option.some.inj (found.symm.trans next)
  exact rest

/-- At each place there is the next byte, or a zero that asks for the next block, or the end. -/
theorem Delivers.step (h : s.Delivers rest) :
    (∃ b more, rest = b :: more ∧ b ≠ 0 ∧ s.peek = b ∧ s.skip.Delivers more ∧
      s.skip.work < s.work) ∨
    (s.peek = 0 ∧ ((rest = [] ∧ s.next? = none) ∨
      ∃ t, s.next? = some t ∧ t.Delivers rest ∧ t.work < s.work ∧ t.passed = s.passed)) := by
  have whole := h
  obtain ⟨⟨near, holds, rfl⟩, enough⟩ := h
  obtain ⟨spare, ahead, -⟩ := holds.ahead
  cases near with
  | cons b near =>
    have less := holds.work_skip
    refine .inl ⟨b, near ++ s.unread, rfl, holds.visible b (by simp), ?_, ?_, less⟩
    · simp [peek, ahead]
    · exact ⟨⟨near, holds.skip, rfl⟩, Nat.le_of_lt (Nat.lt_of_lt_of_le less enough)⟩
  | nil =>
    refine .inr ⟨by simp [peek, ahead, List.replicate_succ], ?_⟩
    by_cases ended : s.ended
    · exact .inl ⟨by simp [holds.ended ended], by simp [Stream.next?, ended]⟩
    · exact .inr (whole.next (by simpa using ended))

theorem Delivers.visible (h : s.Delivers rest) : ∀ b ∈ rest, b ≠ 0 := by
  obtain ⟨⟨near, holds, rfl⟩, -⟩ := h
  exact holds.visible

theorem Delivers.skip {b : UInt8} (h : s.Delivers (b :: rest)) (here : s.peek = b) :
    s.skip.Delivers rest ∧ s.skip.work < s.work := by
  rcases h.step with ⟨c, more, same, -, -, delivers, less⟩ | ⟨zero, -⟩
  · obtain ⟨rfl, rfl⟩ := List.cons.inj same
    exact ⟨delivers, less⟩
  · exact absurd (here.symm.trans zero) (h.visible b (by simp))

/-- A byte that shows is in the buffer. -/
theorem Delivers.filled_of_peek {b : UInt8} (h : s.Delivers (b :: rest)) (here : s.peek = b) :
    s.passed + 1 ≤ s.filled := by
  have some := h.visible b (by simp)
  obtain ⟨⟨near, holds, -⟩, -⟩ := h
  obtain ⟨spare, ahead, -⟩ := holds.ahead
  have filled := holds.filled
  cases near with
  | nil =>
    have zero : s.peek = 0 := by simp [peek, ahead, List.replicate_succ]
    exact absurd (here.symm.trans zero) some
  | cons c near =>
    rw [List.length_cons] at filled
    omega

theorem Delivers.work_pos {b : UInt8} (h : s.Delivers (b :: rest)) : 0 < s.work := by
  rcases h.step with ⟨c, more, -, -, -, -, less⟩ | ⟨-, ⟨none, -⟩ | ⟨t, -, -, less, -⟩⟩
  · exact Nat.zero_lt_of_lt less
  · contradiction
  · exact Nat.zero_lt_of_lt less

/-! ## Several bytes at once -/

/-- The bytes in the buffer are those that come next. -/
theorem Delivers.take_ahead (h : s.Delivers rest) {n : Nat} (there : s.passed + n ≤ s.filled) :
    s.ahead.take n = rest.take n ∧ n ≤ rest.length := by
  obtain ⟨⟨near, holds, rfl⟩, -⟩ := h
  obtain ⟨spare, ahead, -⟩ := holds.ahead
  have filled := holds.filled
  have few : n ≤ near.length := by omega
  constructor
  · rw [ahead, List.take_append_of_le_length few, List.take_append_of_le_length few]
  · rw [List.length_append]
    omega

theorem Delivers.ensureUpTo (h : s.Delivers rest) {n limit : Nat} {t : Stream}
    (there : s.ensureUpTo n limit = some t) :
    t.Delivers rest ∧ t.passed = s.passed ∧ t.passed + n < t.filled := by
  induction limit generalizing s with
  | zero => contradiction
  | succ limit ih =>
    rw [Stream.ensureUpTo] at there
    split at there
    · obtain rfl := Option.some.inj there
      exact ⟨h, rfl, ‹_›⟩
    · obtain ⟨u, next, there⟩ := Option.bind_eq_some_iff.mp there
      obtain ⟨delivers, -, passed⟩ := h.next_of_some next
      obtain ⟨later, same, enough⟩ := ih delivers there
      exact ⟨later, same.trans passed, enough⟩

/-- The bytes of an escape are passed over. -/
theorem Delivers.unescape (h : s.Delivers rest) {taken : Nat}
    (there : s.passed + taken ≤ s.filled) (behind : 0 < s.passed) (put : Nat)
    (short : put ≤ taken + 1) :
    (s.unescape taken put).Delivers (rest.drop taken) := by
  obtain ⟨⟨near, holds, rfl⟩, enough⟩ := h
  obtain ⟨spare, ahead, room⟩ := holds.ahead
  have filled := holds.filled
  have fits := holds.fits
  have few : taken ≤ near.length := by omega
  have left : (s.ahead.drop taken).length + taken = s.ahead.length := by
    rw [List.length_drop, ahead, List.length_append]
    omega
  refine ⟨⟨near.drop taken, ⟨⟨spare, ?_, room⟩, ?_, ?_, ?_, holds.ended⟩, ?_⟩, ?_⟩
  · simp only [Stream.unescape, ahead, List.drop_append_of_le_length few]
  · simp only [Stream.unescape, List.length_drop]
    omega
  · simp only [Stream.unescape]
    omega
  · intro b member
    apply holds.visible b
    rcases List.mem_append.mp member with front | behind
    · exact List.mem_append_left _ (List.mem_of_mem_drop front)
    · exact List.mem_append_right _ behind
  · simp only [Stream.unescape, List.drop_append_of_le_length few]
  · simp only [work, Stream.unescape] at enough ⊢
    omega

end Pushdown.Json.Stream
