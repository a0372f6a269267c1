import Mathlib.Data.Int.ConditionallyCompleteOrder
import Mathlib.Order.ConditionallyCompleteLattice.Basic
import Pushdown.Proofs.Syntax.WellFormed

/-!
# Window frames

The bounds of a frame have places among the rows of a window, as seen from the current row. Building
a window looks at the kinds of the bounds and not at their places. Bounds of different kinds that
pass are in order, but two bounds that count in the same direction may be the wrong way round.
-/

namespace Pushdown

namespace FrameBound

/-- So far behind the current row, or in front of it if the number is negative. -/
def behind (n : Int) : WithBot (WithTop Int) := ((n : WithTop Int) : WithBot (WithTop Int))

theorem behind_le_behind {m n : Int} : behind m ≤ behind n ↔ m ≤ n :=
  WithBot.coe_le_coe.trans WithTop.coe_le_coe

/-- The place of a bound, seen from the current row. A bound of no known kind is put there too. -/
def position (b : FrameBound) : WithBot (WithTop Int) :=
  match b.type with
  | .unboundedPreceding => ⊥
  | .preceding => behind (-b.offset)
  | .currentRow | .other _ => behind 0
  | .following => behind b.offset
  | .unboundedFollowing => (⊤ : WithTop Int)

/-- The bound is of a known kind, and what it counts is not negative. -/
structure Proper (b : FrameBound) : Prop where
  known : ∀ code, b.type ≠ .other code
  offset : b.type.takesOffset → 0 ≤ b.offset

variable {b c : FrameBound}

theorem proper_iff : b.Proper ↔ Build.checkBound b = .ok () := by
  obtain ⟨type, offset⟩ := b
  constructor
  · rintro ⟨known, counted⟩
    cases type with
    | other code => exact absurd rfl (known code)
    | _ => simp_all [Build.checkBound, BoundType.takesOffset]
  · intro checked
    cases type with
    | other code => exact absurd checked Build.fail_ne_ok
    | preceding | following =>
      refine ⟨by simp, fun _ => ?_⟩
      by_contra negative
      have below : offset < 0 := by simpa using negative
      simp [Build.checkBound, BoundType.takesOffset, below, Build.fail] at checked
    | _ => constructor <;> simp [BoundType.takesOffset]

/-- The kinds of bounds that pass have places of their own. -/
theorem type_eq_of_code_eq (hb : b.Proper) (hc : c.Proper) (same : b.type.code = c.type.code) :
    b.type = c.type := by
  have known := hb.known
  have known' := hc.known
  cases kind : b.type <;> cases kind' : c.type <;> simp_all [BoundType.code]

/-- Bounds that pass are in order if their kinds are. -/
theorem position_le_of_code_lt (hb : b.Proper) (hc : c.Proper)
    (before : b.type.code < c.type.code) : b.position ≤ c.position := by
  obtain ⟨type, offset⟩ := b
  obtain ⟨type', offset'⟩ := c
  have counted := hb.offset
  have counted' := hc.offset
  cases type with
  | other code => exact absurd rfl (hb.known code)
  | unboundedPreceding => exact bot_le
  | preceding | currentRow | following | unboundedFollowing =>
    cases type' with
    | other code => exact absurd rfl (hc.known code)
    | unboundedFollowing => exact WithBot.coe_le_coe.mpr le_top
    | _ =>
      simp only [BoundType.code, BoundType.takesOffset, forall_const] at before counted counted'
      first
        | omega
        | exact behind_le_behind.mpr (by simp only at *; omega)

/-- Of two bounds of one kind, the first comes later in two cases. -/
theorem position_le_iff_of_type_eq (same : b.type = c.type) :
    b.position ≤ c.position ↔ ¬ (b.type = .preceding ∧ b.offset < c.offset ∨
      b.type = .following ∧ c.offset < b.offset) := by
  obtain ⟨type, offset⟩ := b
  obtain ⟨type', offset'⟩ := c
  obtain rfl : type = type' := same
  cases type with
  | preceding | following => simp [position, behind_le_behind]
  | unboundedPreceding | currentRow | unboundedFollowing | other _ =>
    exact iff_of_true le_rfl (by simp)

end FrameBound

namespace Frame

/-- The end of the frame. -/
def last (f : Frame) : FrameBound := f.stop.getD { type := .currentRow }

/-- Both bounds count in one direction, and the start comes later. -/
def Reversed (f : Frame) : Prop :=
  f.start.type = f.last.type ∧ (f.start.type = .preceding ∧ f.start.offset < f.last.offset ∨
    f.start.type = .following ∧ f.last.offset < f.start.offset)

/-- Both bounds pass, and their kinds are in order. -/
structure Ordered (f : Frame) : Prop where
  start : f.start.Proper
  last : f.last.Proper
  kinds : f.start.type.code ≤ f.last.type.code

variable {f : Frame}

theorem ordered_of_checkFrame (checked : Build.checkFrame f = .ok ()) : f.Ordered := by
  obtain ⟨units, start, stop⟩ := f
  simp only [Build.checkFrame, Build.fail_bind] at checked
  split at checked
  · exact absurd checked Build.fail_ne_ok
  simp only [bind_eq_ok] at checked
  obtain ⟨⟨⟩, startChecked, checked⟩ := checked
  have proper := FrameBound.proper_iff.mpr startChecked
  split at checked
  · exact absurd checked Build.fail_ne_ok
  rename_i bounded
  cases stop with
  | none =>
    -- Without an end only the bounds up to the current row are left.
    simp only at checked
    split at checked
    · exact absurd checked Build.fail_ne_ok
    rename_i single
    refine ⟨proper, ⟨by simp [last], by simp [last, BoundType.takesOffset]⟩, ?_⟩
    have known := proper.known
    cases kind : start.type <;> simp_all [last, BoundType.code]
  | some stop =>
    simp only [bind_eq_ok] at checked
    obtain ⟨⟨⟩, stopChecked, checked⟩ := checked
    refine ⟨proper, FrameBound.proper_iff.mpr stopChecked, ?_⟩
    split at checked
    · exact absurd checked Build.fail_ne_ok
    split at checked
    · exact absurd checked Build.fail_ne_ok
    · exact not_lt.mp ‹_›

/-- A frame that passes runs forwards unless its bounds count in one direction and the start comes
later. -/
theorem Ordered.position_le_iff (h : f.Ordered) :
    f.start.position ≤ f.last.position ↔ ¬ f.Reversed := by
  by_cases same : f.start.type = f.last.type
  · rw [FrameBound.position_le_iff_of_type_eq same]
    simp [Reversed, same]
  · have before : f.start.type.code < f.last.type.code := by
      refine lt_of_le_of_ne h.kinds fun equal => same ?_
      exact FrameBound.type_eq_of_code_eq h.start h.last equal
    simp [FrameBound.position_le_of_code_lt h.start h.last before, Reversed, same]

end Frame

namespace Build

/-- The bounds of a frame in a window are of known kinds and count no negative number. The frame runs
forwards exactly if it is not the case that both bounds count in one direction and the start comes
later. -/
theorem window_runs_forwards_iff {name : String} {args partition : List (Option Node)}
    {order : Option (List (SortKey Node))} {f : Frame} {n : Node}
    (built : window name args partition order (some f) = .ok n) :
    f.start.Proper ∧ f.last.Proper ∧
      (f.start.position ≤ f.last.position ↔ ¬ f.Reversed) := by
  obtain ⟨_, _, _, _, _, _, frames⟩ := window_eq_ok built
  have ordered := Frame.ordered_of_checkFrame (frames f rfl).2
  exact ⟨ordered.start, ordered.last, ordered.position_le_iff⟩

/-- From five rows before the current one to three rows before it. -/
theorem window_runs_forwards_before_current_row :
    let x : Node := .literal { type := .exactNumeric, value := "1" }
    let f : Frame := { units := .rows, start := ⟨.preceding, 5⟩, stop := some ⟨.preceding, 3⟩ }
    (∃ n, window "SUM" [some x] [] (some [⟨x, true, true⟩]) (some f) = .ok n) ∧
      f.start.position ≤ f.last.position := by
  intro x f
  have built : window "SUM" [some x] [] (some [⟨x, true, true⟩]) (some f) =
      .ok (.window "SUM" [x] [] (some [⟨x, true, true⟩]) (some f)) := rfl
  exact ⟨⟨_, built⟩, (window_runs_forwards_iff built).2.2.mpr
    (by simp [Frame.Reversed, f, Frame.last])⟩

/-- From three rows before the current one to five rows before it, and on the other side of the
current row likewise. -/
theorem window_runs_backwards :
    let x : Node := .literal { type := .exactNumeric, value := "1" }
    ∀ f ∈ [({ units := .rows, start := ⟨.preceding, 3⟩, stop := some ⟨.preceding, 5⟩ } : Frame),
        { units := .rows, start := ⟨.following, 5⟩, stop := some ⟨.following, 3⟩ }],
      window "SUM" [some x] [] (some [⟨x, true, true⟩]) (some f) =
          .ok (.window "SUM" [x] [] (some [⟨x, true, true⟩]) (some f)) ∧
        ¬ f.start.position ≤ f.last.position := by
  intro x f member
  simp only [List.mem_cons, List.not_mem_nil, or_false] at member
  rcases member with rfl | rfl
  · exact ⟨rfl, by simp [Frame.last, FrameBound.position, FrameBound.behind_le_behind]⟩
  · exact ⟨rfl, by simp [Frame.last, FrameBound.position, FrameBound.behind_le_behind]⟩

end Build

end Pushdown
