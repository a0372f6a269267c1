import Pushdown.Sql.Unsupported

/-!
# Outcomes of partial functions

Building, reading and rendering all return a result or the first refusal on their way. The lemmas
below take a successful outcome apart into the successes of its steps, so that no later proof
unfolds the monad.
-/

namespace Pushdown

variable {ε α β γ : Type}

theorem bind_eq_ok {x : Except ε α} {f : α → Except ε β} {b : β} :
    x >>= f = .ok b ↔ ∃ a, x = .ok a ∧ f a = .ok b := by
  cases x with
  | ok a => simp [bind, Except.bind]
  | error e => simp [bind, Except.bind]

theorem bind_eq_error {x : Except ε α} {f : α → Except ε β} {e : ε} :
    x >>= f = .error e ↔ x = .error e ∨ ∃ a, x = .ok a ∧ f a = .error e := by
  cases x with
  | ok a => simp [bind, Except.bind]
  | error e => simp [bind, Except.bind]

theorem map_eq_ok {x : Except ε α} {f : α → β} {b : β} :
    f <$> x = .ok b ↔ ∃ a, x = .ok a ∧ f a = b := by
  cases x with
  | ok a => simp [Functor.map, Except.map]
  | error e => simp [Functor.map, Except.map]

@[simp] theorem pure_eq_ok {a b : α} : (pure a : Except ε α) = .ok b ↔ a = b := by
  simp [pure, Except.pure]

@[simp] theorem pure_ne_error {a : α} {e : ε} : (pure a : Except ε α) ≠ .error e := by
  simp [pure, Except.pure]

@[simp] theorem mapError_ok {ε' : Type} (f : ε → ε') (a : α) :
    (.ok a : Except ε α).mapError f = .ok a := rfl

@[simp] theorem mapError_error {ε' : Type} (f : ε → ε') (e : ε) :
    (.error e : Except ε α).mapError f = .error (f e) := rfl

theorem mapError_eq_ok {ε' : Type} {x : Except ε α} {f : ε → ε'} {a : α} :
    x.mapError f = .ok a ↔ x = .ok a := by
  cases x <;> simp

theorem mapError_eq_error {ε' : Type} {x : Except ε α} {f : ε → ε'} {e : ε'} :
    x.mapError f = .error e ↔ ∃ cause, x = .error cause ∧ f cause = e := by
  cases x <;> simp

theorem map_eq_error {x : Except ε α} {f : α → β} {e : ε} :
    f <$> x = .error e ↔ x = .error e := by
  cases x <;> simp [Functor.map, Except.map]

/-- A list is gone through successfully if every element is. -/
theorem mapM_eq_ok {f : α → Except ε β} {l : List α} {r : List β} :
    l.mapM f = .ok r ↔ l.map f = r.map .ok := by
  induction l generalizing r with
  | nil => cases r <;> simp
  | cons a l ih =>
    simp only [List.mapM_cons, bind_eq_ok, ih, pure_eq_ok, List.map_cons]
    constructor
    · rintro ⟨b, first, rest, others, rfl⟩
      simp [first, others]
    · cases r with
      | nil => simp
      | cons b rest =>
        intro same
        obtain ⟨first, others⟩ := List.cons.inj same
        exact ⟨b, first, rest, others, rfl⟩

theorem mapM_eq_some {f : α → Option β} {l : List α} {r : List β} :
    l.mapM f = some r ↔ l.map f = r.map some := by
  induction l generalizing r with
  | nil => cases r <;> simp
  | cons a l ih =>
    simp only [List.mapM_cons, Option.bind_eq_bind, Option.bind_eq_some_iff, ih, Option.pure_def,
      Option.some.injEq, List.map_cons]
    constructor
    · rintro ⟨b, first, rest, others, rfl⟩
      simp [first, others]
    · cases r with
      | nil => simp
      | cons b rest =>
        intro same
        obtain ⟨first, others⟩ := List.cons.inj same
        exact ⟨b, first, rest, others, rfl⟩

/-- A list is refused because of one of its elements. -/
theorem mapM_eq_error {f : α → Except ε β} {l : List α} {e : ε} (h : l.mapM f = .error e) :
    ∃ a ∈ l, f a = .error e := by
  induction l with
  | nil => simp at h
  | cons a l ih =>
    simp only [List.mapM_cons, bind_eq_error, pure_ne_error, and_false, exists_false, or_false] at h
    rcases h with h | ⟨_, _, h⟩
    · exact ⟨a, List.mem_cons_self .., h⟩
    · obtain ⟨b, member, refused⟩ := ih h
      exact ⟨b, List.mem_cons_of_mem _ member, refused⟩

/-- Every result comes from an element. -/
theorem exists_of_mapM_eq_ok {f : α → Except ε β} {l : List α} {r : List β}
    (h : l.mapM f = .ok r) {b : β} (member : b ∈ r) : ∃ a ∈ l, f a = .ok b := by
  have same := mapM_eq_ok.mp h
  have : Except.ok b ∈ l.map f := same ▸ List.mem_map_of_mem member
  exact List.mem_map.mp this

/-- Every element has a result. -/
theorem exists_result_of_mapM_eq_ok {f : α → Except ε β} {l : List α} {r : List β}
    (h : l.mapM f = .ok r) {a : α} (member : a ∈ l) : ∃ b ∈ r, f a = .ok b := by
  have : f a ∈ r.map .ok := mapM_eq_ok.mp h ▸ List.mem_map_of_mem member
  obtain ⟨b, listed, same⟩ := List.mem_map.mp this
  exact ⟨b, listed, same.symm⟩

theorem toOption_eq_some {x : Except ε α} {a : α} : x.toOption = some a ↔ x = .ok a := by
  cases x <;> simp [Except.toOption]

theorem toOption_bind {x : Except ε α} {f : α → Except ε β} :
    (x >>= f).toOption = x.toOption.bind fun a => (f a).toOption := by
  cases x <;> rfl

theorem toOption_mapM {f : α → Except ε β} {l : List α} :
    (l.mapM f).toOption = l.mapM fun a => (f a).toOption := by
  induction l with
  | nil => rfl
  | cons a l ih =>
    simp only [List.mapM_cons, toOption_bind, ih]
    rfl

namespace Render

theorem inOrder_eq_ok {parts : List (Result α)} {r : List α} :
    inOrder parts = .ok r ↔ parts = r.map .ok := by
  simp [inOrder, mapM_eq_ok]

theorem inOrder_eq_error {parts : List (Result α)} {e : Unsupported}
    (h : inOrder parts = .error e) : .error e ∈ parts := by
  obtain ⟨part, member, rfl⟩ := mapM_eq_error h
  exact member

theorem optional_eq_ok {part : Option (Result α)} {r : Option α} :
    optional part = .ok r ↔ part = r.map .ok := by
  cases part with
  | none => cases r <;> simp [optional]
  | some part => cases r <;> simp [optional, map_eq_ok]

theorem require_eq_ok {d : Dialect} {c : Capability} {kind : Kind} {feature : String} {u : Unit} :
    require d c kind feature = .ok u ↔ d.has c := by
  by_cases h : d.has c <;> simp [require, h, refuse]

end Render

end Pushdown
