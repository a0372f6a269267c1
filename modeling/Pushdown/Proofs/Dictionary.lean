import Pushdown.Dictionary

/-!
# What a dictionary holds

What is found under a key is one of the entries. A property of all values therefore covers what is
found, and it is kept when entries are set or removed. So is it that no key is listed twice. Of the
entries that a dictionary is made from, the last one for a key is found. The lists of names that are
reported are sorted with `sortTexts`.
-/

namespace Pushdown.Dictionary

variable {κ α : Type} [BEq κ] {dict : Dictionary κ α} {P : α → Prop}

/-- Every value has the property. -/
def Forall (P : α → Prop) (dict : Dictionary κ α) : Prop := ∀ entry ∈ dict.entries, P entry.2

instance [DecidablePred P] : Decidable (dict.Forall P) :=
  inferInstanceAs (Decidable (∀ entry ∈ dict.entries, P entry.2))

theorem mem_of_get? [LawfulBEq κ] {key : κ} {value : α} (found : dict.get? key = some value) :
    (key, value) ∈ dict.entries := by
  obtain ⟨before, after, same, -⟩ := List.lookup_eq_some_iff.mp found
  simp [same]

theorem get?_erase [LawfulBEq κ] (key other : κ) :
    (dict.erase key).get? other = bif other == key then none else dict.get? other := by
  unfold get? erase
  induction dict.entries with
  | nil => cases other == key <;> rfl
  | cons entry entries ih =>
    obtain ⟨name, value⟩ := entry
    by_cases erased : name = key
    · subst erased
      simp only [BEq.rfl, Bool.not_true, Bool.false_eq_true, not_false_eq_true, ih,
        List.filter_cons_of_neg, List.lookup_cons]
      cases other == name <;> rfl
    · have kept : (!(name == key)) = true := by simp [erased]
      simp only [kept, List.filter_cons_of_pos, List.lookup_cons, ih]
      by_cases same : other = name
      · simp [same, beq_false_of_ne erased]
      · simp [beq_false_of_ne same]

theorem get?_insert [LawfulBEq κ] (key other : κ) (value : α) :
    (dict.insert key value).get? other = bif other == key then some value else dict.get? other := by
  change ((dict.erase key).entries ++ [(key, value)]).lookup other = _
  rw [List.lookup_append]
  change ((dict.erase key).get? other).or _ = _
  rw [get?_erase, List.lookup_cons]
  cases other == key <;> simp

theorem get?_insertMany [LawfulBEq κ] (entries : List (κ × α)) (key : κ) :
    (dict.insertMany entries).get? key = (entries.reverse.lookup key).or (dict.get? key) := by
  induction entries generalizing dict with
  | nil => rfl
  | cons entry entries ih =>
    obtain ⟨name, value⟩ := entry
    have step := @ih (dict.insert name value)
    rw [List.reverse_cons, List.lookup_append, Option.or_assoc]
    refine step.trans ?_
    rw [get?_insert, List.lookup_cons]
    cases key == name <;> rfl

/-- The last entry for a key counts. -/
theorem get?_ofList [LawfulBEq κ] (entries : List (κ × α)) (key : κ) :
    (ofList entries).get? key = entries.reverse.lookup key := by
  rw [ofList, get?_insertMany]
  exact Option.or_none

/-- Of elements with a key the last one counts. -/
theorem get?_ofList_map [LawfulBEq κ] {ι : Type} (f : ι → κ) (g : ι → α) (l : List ι) (key : κ) :
    (ofList (l.map fun x => (f x, g x))).get? key = (l.reverse.find? (f · == key)).map g := by
  rw [get?_ofList, ← List.map_reverse]
  induction l.reverse with
  | nil => rfl
  | cons x xs ih =>
    rw [List.map_cons, List.lookup_cons, List.find?_cons, BEq.comm, ih]
    cases f x == key <;> rfl

theorem contains_iff_mem_keys [LawfulBEq κ] {key : κ} : dict.contains key ↔ key ∈ dict.keys := by
  simp [contains, get?, keys]

theorem contains_ofList [LawfulBEq κ] {entries : List (κ × α)} {key : κ} :
    (ofList entries).contains key ↔ key ∈ entries.map (·.1) := by
  simp [contains, get?_ofList]

/-- An entry was there before or is one of those that are set. -/
theorem mem_of_mem_insertMany {entries : List (κ × α)} {entry : κ × α}
    (member : entry ∈ (dict.insertMany entries).entries) :
    entry ∈ dict.entries ∨ entry ∈ entries := by
  induction entries generalizing dict with
  | nil => exact .inl member
  | cons other entries ih =>
    rcases ih member with set | later
    · rcases List.mem_append.mp set with kept | added
      · exact .inl (List.mem_filter.mp kept).1
      · rw [List.mem_singleton] at added
        exact .inr (added ▸ List.mem_cons_self ..)
    · exact .inr (List.mem_cons_of_mem _ later)

namespace Forall

theorem get? [LawfulBEq κ] (h : dict.Forall P) {key : κ} {value : α}
    (found : dict.get? key = some value) : P value := h _ (mem_of_get? found)

omit [BEq κ] in
theorem filter (h : dict.Forall P) (keep : κ × α → Bool) :
    (Dictionary.mk (dict.entries.filter keep)).Forall P :=
  fun entry member => h entry (List.mem_filter.mp member).1

theorem erase (h : dict.Forall P) (key : κ) : (dict.erase key).Forall P :=
  h.filter fun entry => !(entry.1 == key)

theorem eraseAll (h : dict.Forall P) (keys : List κ) :
    (keys.foldl (·.erase ·) dict).Forall P := by
  induction keys generalizing dict with
  | nil => exact h
  | cons key keys ih => exact ih (h.erase key)

theorem insert (h : dict.Forall P) (key : κ) {value : α} (new : P value) :
    (dict.insert key value).Forall P := by
  intro entry member
  rcases List.mem_append.mp member with old | added
  · exact h.erase key entry old
  · rw [List.mem_singleton] at added
    rw [added]
    exact new

theorem insertMany (h : dict.Forall P) {entries : List (κ × α)}
    (new : ∀ entry ∈ entries, P entry.2) : (dict.insertMany entries).Forall P :=
  fun entry member => (mem_of_mem_insertMany member).elim (h entry) (new entry)

end Forall

/-! ## Keys -/

omit [BEq κ] in
theorem keys_filter_sublist (keep : κ × α → Bool) :
    (Dictionary.mk (dict.entries.filter keep)).keys.Sublist dict.keys :=
  List.filter_sublist.map _

theorem keys_eraseAll_sublist (keys : List κ) :
    (keys.foldl (·.erase ·) dict).keys.Sublist dict.keys := by
  induction keys generalizing dict with
  | nil => exact .refl _
  | cons key keys ih => exact ih.trans (keys_filter_sublist _)

theorem nodup_keys_insert [LawfulBEq κ] (h : dict.keys.Nodup) (key : κ) (value : α) :
    (dict.insert key value).keys.Nodup := by
  have gone : key ∉ (dict.erase key).keys := by simp [keys, erase]
  have same : (dict.insert key value).keys = (dict.erase key).keys ++ [key] := by
    simp [keys, insert]
  rw [same, List.nodup_append]
  refine ⟨h.sublist (keys_filter_sublist _), by simp, ?_⟩
  rintro other listed _ added rfl
  rw [List.mem_singleton] at added
  exact gone (added ▸ listed)

/-- A dictionary lists no key twice, however many entries are set. -/
theorem nodup_keys_insertMany [LawfulBEq κ] (h : dict.keys.Nodup) (entries : List (κ × α)) :
    (dict.insertMany entries).keys.Nodup := by
  induction entries generalizing dict with
  | nil => exact h
  | cons entry entries ih => exact ih (nodup_keys_insert h entry.1 entry.2)

end Pushdown.Dictionary

namespace Pushdown

theorem mem_sortTexts {text : String} {texts : List String} :
    text ∈ sortTexts texts ↔ text ∈ texts := (List.mergeSort_perm texts _).mem_iff

theorem sortTexts_pairwise (texts : List String) : (sortTexts texts).Pairwise (· ≤ ·) := by
  have sorted : (sortTexts texts).Pairwise fun a b => decide (a ≤ b) :=
    List.pairwise_mergeSort
      (fun a b c first second => by
        simpa using String.le_trans (by simpa using first) (by simpa using second))
      (fun a b => by simpa using String.le_total a b) texts
  simpa using sorted

/-- Different texts are sorted strictly. -/
theorem sortTexts_pairwise_lt {texts : List String} (distinct : texts.Nodup) :
    (sortTexts texts).Pairwise (· < ·) := by
  have nodup : (sortTexts texts).Nodup := (List.mergeSort_perm texts _).nodup_iff.mpr distinct
  refine ((sortTexts_pairwise texts).and nodup).imp fun {a b} ⟨le, ne⟩ => ?_
  rw [← String.not_le]
  exact fun ge => ne (String.le_antisymm le ge)

end Pushdown
