import Mathlib.Data.List.TakeWhile
import Mathlib.Data.Prod.Lex
import Pushdown.Proofs.Dialect.Capability
import Pushdown.Proofs.Text.Decimal

/-!
# Versions in numeric order

The version of a product is the first run of one to three numbers in the text that names it. Numbers
of any length are compared as numbers, from the first to the last, with zero for the ones that are
missing. A run with a needless leading zero is no version, so the product counts as recent. Apart
from that, a newer product has whatever an older one has.
-/

namespace Pushdown

open Text (Digits)

namespace Version

/-! ## Numbers with points between them -/

/-- The numbers as they stand in a text. -/
def joined (parts : List Digits) : List Char := ['.'].intercalate (parts.map (·.val))

/-- One to three numbers. -/
structure IsRun (parts : List Digits) : Prop where
  nonempty : parts ≠ []
  atMost : parts.length ≤ 3
  written : ∀ part ∈ parts, part.val ≠ []

/-- A needless zero stands in front. -/
def Padded (part : Digits) : Prop := 1 < part.val.length ∧ part.val.head? = some '0'

instance (part : Digits) : Decidable (Padded part) := inferInstanceAs (Decidable (_ ∧ _))

/-- No number of the run has a needless zero in front. -/
def Plain (parts : List Digits) : Prop := ∀ part ∈ parts, ¬ Padded part

instance (parts : List Digits) : Decidable (Plain parts) :=
  inferInstanceAs (Decidable (∀ part ∈ parts, _))

/-- No digit comes next. -/
def NoDigit (cs : List Char) : Prop := ∀ c ∈ cs.head?, c.isDigit = false

/-- No number behind a point comes next. -/
def NoNumber (cs : List Char) : Prop := ∀ rest, cs = '.' :: rest → NoDigit rest

/-- The run stands in front of every other digit of the text. No digit follows it, and no further
number if it has less than three. -/
structure LeftmostRun (text : String) (parts : List Digits) : Prop extends IsRun parts where
  leftmost : ∃ before after, text.toList = before ++ (joined parts ++ after) ∧
    (∀ c ∈ before, c.isDigit = false) ∧ NoDigit after ∧ (parts.length < 3 → NoNumber after)

/-- The number at a place of the run, zero if there is none. -/
def number (parts : List Digits) (place : ℕ) : ℕ := (parts[place]?.map Digits.value).getD 0

def ofParts (parts : List Digits) : Version :=
  ⟨number parts 0, number parts 1, number parts 2⟩

/-- The three numbers in lexicographic order. -/
def key (v : Version) : ℕ ×ₗ ℕ ×ₗ ℕ := toLex (v.major, toLex (v.minor, v.patch))

theorem atLeast_iff {v w : Version} : v.atLeast w ↔ w.key ≤ v.key := by
  simp only [atLeast, key, Prod.Lex.toLex_le_toLex, Bool.or_eq_true, Bool.and_eq_true,
    decide_eq_true_eq, beq_iff_eq]
  omega

/-! ## The run that a text names -/

theorem readPart?_eq {part : Digits} (written : part.val ≠ []) :
    readPart? part.val = if Padded part then none else some part.value := by
  unfold readPart?
  by_cases padded : Padded part
  · simp [padded, padded.1, padded.2]
  · have plain : (part.val.length > 1 && part.val.head? == some '0') = false := by
      rw [Bool.eq_false_iff, Ne, Bool.and_eq_true, decide_eq_true_eq, beq_iff_eq]
      exact padded
    simp [plain, written, padded, Text.readDigits?_eq part.property, Digits.value]

theorem nextPart_number {part : Digits} {rest : List Char} (written : part.val ≠ [])
    (ends : NoDigit rest) : nextPart ('.' :: (part.val ++ rest)) = (part.val, rest) := by
  obtain ⟨front, behind⟩ := Text.span_digits part.property ends
  simp [nextPart, front, behind, written]

theorem nextPart_noNumber {cs : List Char} (none : NoNumber cs) : nextPart cs = ([], cs) := by
  unfold nextPart
  split
  · rename_i rest
    have front := (@Text.span_digits [] rest (by simp) (none rest rfl)).1
    rw [List.nil_append] at front
    simp [front]
  · rfl

theorem noDigit_point (cs : List Char) : NoDigit ('.' :: cs) := by
  rintro c ⟨⟩
  rfl

/-- The digits in front of a text are a number, unless there are none. -/
theorem noDigit_or_digits (cs : List Char) : NoDigit cs ∨
    ∃ (part : Digits) (rest : List Char), part.val ≠ [] ∧ cs = part.val ++ rest ∧ NoDigit rest := by
  by_cases h : NoDigit cs
  · exact .inl h
  · refine .inr ⟨⟨cs.takeWhile Char.isDigit, fun c => List.mem_takeWhile_imp⟩,
      cs.dropWhile Char.isDigit, ?_, by simp, ?_⟩
    · intro none
      cases cs <;> simp_all [NoDigit]
    · intro c first
      have stopped := List.head?_dropWhile_not Char.isDigit cs
      rwa [first] at stopped

/-- A number behind a point comes next, or none does. -/
theorem noNumber_or_number (cs : List Char) : NoNumber cs ∨
    ∃ (part : Digits) (rest : List Char),
      part.val ≠ [] ∧ cs = '.' :: (part.val ++ rest) ∧ NoDigit rest := by
  by_cases h : NoNumber cs
  · exact .inl h
  · simp only [NoNumber, not_forall] at h
    obtain ⟨behind, rfl, digit⟩ := h
    obtain ⟨part, rest, written, rfl, ends⟩ := (noDigit_or_digits behind).resolve_left digit
    exact .inr ⟨part, rest, written, rfl, ends⟩

theorem joined_singleton (a : Digits) : joined [a] = a.val := by simp [joined]

theorem joined_cons (a b : Digits) (parts : List Digits) :
    joined (a :: b :: parts) = a.val ++ '.' :: joined (b :: parts) := by
  simp [joined, List.intercalate]

theorem find?_eq {text : String} {parts : List Digits} (h : LeftmostRun text parts) :
    find? text = if Plain parts then some (ofParts parts) else none := by
  obtain ⟨run, before, after, whole, early, ends, short⟩ := h
  have start (first : Digits) (rest : List Char) (written : first.val ≠ []) :
      (before ++ (first.val ++ rest)).dropWhile (fun c => !c.isDigit) = first.val ++ rest := by
    obtain ⟨c, cs, more⟩ := List.exists_cons_of_ne_nil written
    have digit := first.property c (by simp [more])
    rw [List.dropWhile_append_of_pos (by simpa using early), more]
    simp [digit]
  obtain ⟨nonempty, atMost, written⟩ := run
  match parts with
  | [a] =>
    have ha := written a (by simp)
    obtain ⟨front, behind⟩ := Text.span_digits a.property ends
    simp only [find?, whole, joined_singleton, start a _ ha, front, behind, readPart?_eq ha,
      nextPart_noNumber (short (by simp))]
    by_cases padded : Padded a <;> simp [Plain, padded, ofParts, number]
  | [a, b] =>
    have ha := written a (by simp)
    have hb := written b (by simp)
    obtain ⟨front, behind⟩ := Text.span_digits a.property (noDigit_point (b.val ++ after))
    simp only [find?, whole, joined_cons, joined_singleton, List.append_assoc, List.cons_append,
      start a _ ha, front, behind, nextPart_number hb ends,
      nextPart_noNumber (short (by simp)), readPart?_eq ha, readPart?_eq hb]
    by_cases first : Padded a <;> by_cases second : Padded b <;>
      simp [Plain, first, second, hb, ofParts, number]
  | [a, b, c] =>
    have ha := written a (by simp)
    have hb := written b (by simp)
    have hc := written c (by simp)
    obtain ⟨front, behind⟩ :=
      Text.span_digits a.property (noDigit_point (b.val ++ '.' :: (c.val ++ after)))
    simp only [find?, whole, joined_cons, joined_singleton, List.append_assoc, List.cons_append,
      start a _ ha, front, behind, nextPart_number hb (noDigit_point _), nextPart_number hc ends,
      readPart?_eq ha, readPart?_eq hb, readPart?_eq hc]
    by_cases first : Padded a <;> by_cases second : Padded b <;> by_cases third : Padded c <;>
      simp [Plain, first, second, third, hb, hc, ofParts, number]

theorem readMinimum?_eq {parts : List Digits} (run : IsRun parts)
    (plain : Plain parts) :
    readMinimum? (String.ofList ('v' :: joined parts)) = some (ofParts parts) := by
  have ends : NoDigit [] := by simp [NoDigit]
  have part {a : Digits} (member : a ∈ parts) : readPart? a.val = some a.value := by
    rw [readPart?_eq (run.written a member), if_neg (plain a member)]
  obtain ⟨nonempty, atMost, written⟩ := run
  match parts with
  | [a] =>
    obtain ⟨front, behind⟩ := Text.span_digits a.property ends
    rw [List.append_nil] at front behind
    simp [readMinimum?, joined_singleton, front, behind, part, ofParts, number]
  | [a, b] =>
    obtain ⟨front, behind⟩ := Text.span_digits a.property (noDigit_point b.val)
    obtain ⟨front', behind'⟩ := Text.span_digits b.property ends
    rw [List.append_nil] at front' behind'
    simp [readMinimum?, joined_cons, joined_singleton, front, behind, front', behind', part,
      ofParts, number]
  | [a, b, c] =>
    obtain ⟨front, behind⟩ := Text.span_digits a.property (noDigit_point (b.val ++ '.' :: c.val))
    obtain ⟨front', behind'⟩ := Text.span_digits b.property (noDigit_point c.val)
    obtain ⟨front'', behind''⟩ := Text.span_digits c.property ends
    rw [List.append_nil] at front'' behind''
    simp [readMinimum?, joined_cons, joined_singleton, front, behind, front', behind', front'',
      behind'', part, ofParts, number, isTail]

/-- A number and up to `count` more of them are the run at the front of a text. -/
theorem exists_joined (count : ℕ) (first : Digits) {rest : List Char} (ends : NoDigit rest) :
    ∃ (parts : List Digits) (after : List Char),
      first.val ++ rest = joined (first :: parts) ++ after ∧ parts.length ≤ count ∧
      (∀ part ∈ parts, part.val ≠ []) ∧ NoDigit after ∧
      (parts.length < count → NoNumber after) := by
  induction count generalizing first rest with
  | zero => exact ⟨[], rest, by simp [joined_singleton], by simp, by simp, ends, by simp⟩
  | succ count ih =>
    rcases noNumber_or_number rest with none | ⟨part, behind, written, rfl, stops⟩
    · exact ⟨[], rest, by simp [joined_singleton], by simp, by simp, ends, fun _ => none⟩
    · obtain ⟨parts, after, whole, few, all, stops, short⟩ := ih part stops
      refine ⟨part :: parts, after, ?_, Nat.succ_le_succ few,
        List.forall_mem_cons.mpr ⟨written, all⟩, stops,
        fun less => short (Nat.lt_of_succ_lt_succ less)⟩
      rw [joined_cons, whole, List.append_assoc, List.cons_append]

/-- A text with a digit names a run. -/
theorem exists_leftmostRun {text : String} (digit : ∃ c ∈ text.toList, c.isDigit) :
    ∃ parts, LeftmostRun text parts := by
  have early : ∀ c ∈ text.toList.takeWhile (fun c => !c.isDigit), c.isDigit = false := by
    intro c member
    simpa using List.mem_takeWhile_imp member
  have whole := List.takeWhile_append_dropWhile (p := fun c : Char => !c.isDigit) (l := text.toList)
  have found : ¬ NoDigit (text.toList.dropWhile fun c => !c.isDigit) := by
    obtain ⟨c, member, isDigit⟩ := digit
    cases start : text.toList.dropWhile fun c => !c.isDigit with
    | nil =>
      have none := List.dropWhile_eq_nil_iff.mp start c member
      simp [isDigit] at none
    | cons d rest =>
      have stopped := List.head?_dropWhile_not (fun c : Char => !c.isDigit) text.toList
      rw [start] at stopped
      simpa [NoDigit] using stopped
  obtain ⟨first, rest, written, same, ends⟩ := (noDigit_or_digits _).resolve_left found
  obtain ⟨parts, after, split, few, all, stops, short⟩ := exists_joined 2 first ends
  have run : IsRun (first :: parts) :=
    ⟨by simp, Nat.succ_le_succ few, List.forall_mem_cons.mpr ⟨written, all⟩⟩
  refine ⟨first :: parts, run, _, after, ?_, early, stops,
    fun less => short (Nat.lt_of_succ_lt_succ less)⟩
  rw [← split, ← same, whole]

end Version

namespace Notes

open Version

/-- The numbers with which the notes name the version of the product. -/
def Names (notes : Notes) (parts : List Digits) : Prop :=
  LeftmostRun (notes.text "databaseProductVersion") parts

theorem Names.version?_eq {notes : Notes} {parts : List Digits} (names : notes.Names parts) :
    notes.version? = if Plain parts then some (ofParts parts) else none :=
  Version.find?_eq names

theorem Names.atLeast_iff {notes : Notes} {parts least : List Digits} (names : notes.Names parts)
    (run : IsRun least) (plain : Plain least) :
    notes.atLeast (String.ofList ('v' :: joined least)) ↔
      (Plain parts → (ofParts least).key ≤ (ofParts parts).key) := by
  rw [atLeast, names.version?_eq, Version.readMinimum?_eq run plain]
  by_cases known : Plain parts
  · rw [if_pos known, forall_prop_of_true known]
    exact Version.atLeast_iff
  · simp [known]

/-- A newer product meets every minimum that an older one of known version meets. -/
theorem Names.atLeast_mono {older newer : Notes} {parts newParts : List Digits}
    (names : older.Names parts) (newNames : newer.Names newParts) (plain : Plain parts)
    (later : (ofParts parts).key ≤ (ofParts newParts).key) {minimum : String}
    (met : older.atLeast minimum) : newer.atLeast minimum := by
  rw [atLeast, names.version?_eq, if_pos plain] at met
  rw [atLeast, newNames.version?_eq]
  by_cases known : Plain newParts
  · rw [if_pos known]
    cases required : Version.readMinimum? minimum with
    | none => rfl
    | some least =>
      rw [required] at met
      exact Version.atLeast_iff.mpr ((Version.atLeast_iff.mp met).trans later)
  · simp [known]

end Notes

namespace Builtin

/-- Notes that meet more minimums give every capability that the others give. -/
theorem has_mono {older newer : Notes}
    (meets : ∀ minimum, older.atLeast minimum → newer.atLeast minimum) (b : Builtin)
    {c : Capability} (has : (b.build older).has c) : (b.build newer).has c := by
  cases b with
  | bigQuery | exasol | generic | postgreSql | sqlServer =>
    simp only [Dialect.has, Profile.has, build, genericProfile] at has ⊢
    exact has
  | mySql | oracle =>
    simp only [Dialect.has, Profile.has, build, mySqlProfile, oracleProfile] at has ⊢
    refine CapabilitySet.has_without_mono ?_ has
    intro a lacks
    split at lacks
    · contradiction
    · rename_i missed
      rwa [if_neg fun met => missed (meets _ met)]
  | sqlite =>
    simp only [Dialect.has, Profile.has, build, sqliteProfile] at has ⊢
    refine CapabilitySet.has_without_mono ?_ has
    intro a lacks
    obtain ⟨release, missed, inside⟩ := List.mem_flatMap.mp lacks
    obtain ⟨listed, below⟩ := List.mem_filter.mp missed
    refine List.mem_flatMap.mpr ⟨release, List.mem_filter.mpr ⟨listed, ?_⟩, inside⟩
    rw [Bool.not_eq_true'] at below ⊢
    exact Bool.eq_false_iff.mpr fun met => Bool.eq_false_iff.mp below (meets _ met)

open Version

/-- Every text with a digit names a version. Unless a number in it has a needless zero in front, it
meets a minimum if its numbers do, and a newer product has every capability of an older one. -/
theorem versions_compare_numerically :
    (∀ notes : Notes, (∃ c ∈ (notes.text "databaseProductVersion").toList, c.isDigit) →
      ∃ parts, notes.Names parts) ∧
    (∀ (notes : Notes) (parts least : List Digits), notes.Names parts → IsRun least → Plain least →
      (notes.atLeast (String.ofList ('v' :: joined least)) ↔
        (Plain parts → (ofParts least).key ≤ (ofParts parts).key))) ∧
    (∀ (b : Builtin) (older newer : Notes) (parts newParts : List Digits), older.Names parts →
      newer.Names newParts → Plain parts → (ofParts parts).key ≤ (ofParts newParts).key →
      ∀ c, (b.build older).has c → (b.build newer).has c) := by
  refine ⟨fun _ => exists_leftmostRun, fun _ _ _ names => names.atLeast_iff, ?_⟩
  intro b older newer parts newParts names newNames plain later c has
  exact has_mono (fun _ => names.atLeast_mono newNames plain later) b has

/-- The tenth major release of MySQL has what the fifth has, and only it meets the eighth. -/
theorem versions_compare_numerically_mySql :
    let old : Notes := ⟨[("databaseProductVersion", "5.7.44-log")]⟩
    let new : Notes := ⟨[("databaseProductVersion", "MySQL 10.2")]⟩
    (∃ parts, old.Names parts) ∧ ¬ old.atLeast "v8" ∧ new.atLeast "v8" ∧
      (mySql.build old).has .limit ∧ (mySql.build new).has .limit := by
  intro old new
  let parts : List Digits := [⟨['5'], by simp⟩, ⟨['7'], by simp⟩, ⟨['4', '4'], by simp⟩]
  let newParts : List Digits := [⟨['1', '0'], by simp⟩, ⟨['2'], by simp⟩]
  let least : List Digits := [⟨['8'], by simp⟩]
  have run : IsRun least := ⟨by decide, by decide, by decide⟩
  have plain : Plain least := by decide
  have names : old.Names parts :=
    ⟨⟨by decide, by decide, by decide⟩, [], ['-', 'l', 'o', 'g'], by decide +kernel, by simp,
      by simp [NoDigit], by simp [parts]⟩
  have newNames : new.Names newParts :=
    ⟨⟨by decide, by decide, by decide⟩, ['M', 'y', 'S', 'Q', 'L', ' '], [], by decide +kernel,
      by simp, by simp [NoDigit], by simp [NoNumber]⟩
  obtain ⟨exist, compare, gain⟩ := versions_compare_numerically
  refine ⟨exist old ⟨'5', by decide +kernel, by decide⟩, ?_, ?_, by decide +kernel, ?_⟩
  · intro met
    exact absurd ((compare old parts least names run plain).mp met (by decide)) (by decide +kernel)
  · exact (compare new newParts least newNames run plain).mpr fun _ => by decide +kernel
  · exact gain mySql old new parts newParts names newNames (by decide) (by decide +kernel) .limit
      (by decide +kernel)

/-- A needless zero makes the version unknown, which counts as recent. So this release of SQLite has
window functions, and a newer one has none. -/
theorem padded_version_counts_as_recent :
    let old : Notes := ⟨[("databaseProductVersion", "3.08.0")]⟩
    let new : Notes := ⟨[("databaseProductVersion", "3.9.0")]⟩
    let parts : List Digits := [⟨['3'], by simp⟩, ⟨['0', '8'], by simp⟩, ⟨['0'], by simp⟩]
    let newParts : List Digits := [⟨['3'], by simp⟩, ⟨['9'], by simp⟩, ⟨['0'], by simp⟩]
    let least : List Digits := [⟨['3'], by simp⟩, ⟨['2', '5'], by simp⟩]
    old.Names parts ∧ new.Names newParts ∧ (ofParts parts).key ≤ (ofParts newParts).key ∧
      (ofParts newParts).key < (ofParts least).key ∧ old.atLeast "v3.25" ∧
      (sqlite.build old).has .windowFunctions ∧ ¬ (sqlite.build new).has .windowFunctions := by
  refine ⟨⟨⟨by decide, by decide, by decide⟩, [], [], by decide +kernel, by simp, ?_, by simp⟩,
    ⟨⟨by decide, by decide, by decide⟩, [], [], by decide +kernel, by simp, ?_, by simp⟩,
    by decide +kernel, by decide +kernel, by decide +kernel, by decide +kernel, by decide +kernel⟩
  all_goals simp [NoDigit]

end Builtin

end Pushdown
