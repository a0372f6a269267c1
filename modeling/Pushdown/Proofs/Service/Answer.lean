import Pushdown.Proofs.Outcome
import Pushdown.Service.Service

/-!
# What the service returns

The results of the service's calls, apart from what they write to the log. A batch goes through its
parts in order and stops at the first one that fails: both when its documents are read and when its
statements are generated, the result is that of `inTurn`.
-/

namespace Pushdown

namespace Answer

variable {α β : Type}

theorem bind_result (a : Answer α) (f : α → Answer β) :
    (a >>= f).result = a.result >>= fun value => (f value).result := by
  rcases a with ⟨value | failure, log⟩ <;> rfl

theorem pure_result (value : α) : (pure value : Answer α).result = .ok value := rfl

theorem within_result (place : String) (a : Answer α) :
    (a.within place).result = a.result.mapError (.within place) := rfl

end Answer

namespace Failure

/-- The failure of the request at a position of a batch. -/
def ofRequest (position : Nat) (f : Failure) : Failure := .within s!"pushdown {position}" f

@[simp] theorem category_ofRequest (position : Nat) (f : Failure) :
    (f.ofRequest position).category = f.category := rfl

@[simp] theorem allowsFallback_ofRequest (position : Nat) (f : Failure) :
    (f.ofRequest position).allowsFallback = f.allowsFallback := rfl

@[simp] theorem message_ofRequest (position : Nat) (f : Failure) :
    (f.ofRequest position).message = s!"pushdown {position}" ++ ": " ++ f.message := rfl

end Failure

namespace Service

/-- The statement of one request. -/
def statement (s : Service) (canceled : Bool) (r : Option PushdownRequest) :
    Except Failure String :=
  (·.sql) <$> (s.pushdown canceled r).result

/-- The request has a statement when it is made alone. -/
def Succeeds (s : Service) (r : Option PushdownRequest) : Prop :=
  ∃ sql, s.statement false r = .ok sql

/-! ## Batches -/

section

variable {α : Type}

/-- The values in order, or the first failure with its position. -/
def inTurn (position : Nat) : List (Except Failure α) → Except Failure (List α)
  | [] => .ok []
  | r :: rest => do
    let first ← r.mapError (.ofRequest position)
    let more ← inTurn (position + 1) rest
    return first :: more

theorem inTurn_eq_ok_iff {position : Nat} {parts : List (Except Failure α)} {values : List α} :
    inTurn position parts = .ok values ↔ parts = values.map .ok := by
  induction parts generalizing position values with
  | nil => cases values <;> simp [inTurn]
  | cons part parts ih =>
    cases part with
    | error e => cases values <;> simp [inTurn, bind, Except.bind]
    | ok value =>
      simp only [inTurn, mapError_ok, bind_eq_ok, Except.ok.injEq, exists_eq_left',
        pure_eq_ok, ih]
      constructor
      · rintro ⟨rest, rfl, rfl⟩
        rfl
      · cases values with
        | nil => simp
        | cons first rest =>
          intro same
          obtain ⟨rfl, rfl⟩ : value = first ∧ parts = rest.map .ok := by simpa using same
          exact ⟨rest, rfl, rfl⟩

theorem inTurn_eq_error_iff {position : Nat} {parts : List (Except Failure α)} {f : Failure} :
    inTurn position parts = .error f ↔ ∃ (before : List α) (e : Failure) (after : List _),
      parts = before.map .ok ++ Except.error e :: after ∧ f = e.ofRequest (position + before.length) := by
  induction parts generalizing position with
  | nil => simp [inTurn]
  | cons part parts ih =>
    cases part with
    | error e =>
      simp only [inTurn, mapError_error, bind, Except.bind, Except.error.injEq]
      constructor
      · rintro rfl
        exact ⟨[], e, parts, rfl, rfl⟩
      · rintro ⟨_ | ⟨value, before⟩, e', after, split, rfl⟩
        · simp_all
        · simp at split
    | ok value =>
      simp only [inTurn, mapError_ok, bind_eq_error, Except.ok.injEq, exists_eq_left',
        pure_ne_error, and_false, exists_false, or_false, reduceCtorEq, false_or, ih]
      constructor
      · rintro ⟨before, e, after, rfl, rfl⟩
        refine ⟨value :: before, e, after, rfl, ?_⟩
        rw [List.length_cons, Nat.add_assoc, Nat.add_comm 1]
      · rintro ⟨_ | ⟨first, before⟩, e, after, split, rfl⟩
        · simp at split
        · refine ⟨before, e, after, by simp_all, ?_⟩
          rw [List.length_cons, Nat.add_assoc, Nat.add_comm 1]

end

theorem pushdownFrom_result (s : Service) (canceled : Bool) (position : Nat)
    (requests : List (Option PushdownRequest)) :
    (s.pushdownFrom canceled position requests).result =
      inTurn position (requests.map (s.statement canceled)) := by
  induction requests generalizing position with
  | nil => rfl
  | cons r requests ih =>
    rw [pushdownFrom, Answer.bind_result, Answer.within_result, List.map_cons, inTurn]
    simp only [Answer.bind_result, ih, Answer.pure_result, statement]
    cases (s.pushdown canceled r).result <;> rfl

theorem readFrom_result (position : Nat) (texts : List String) :
    (readFrom position texts).result =
      inTurn position (texts.map fun text => (readPushdown text).result) := by
  induction texts generalizing position with
  | nil => rfl
  | cons text texts ih =>
    rw [readFrom, Answer.bind_result, Answer.within_result, List.map_cons, inTurn]
    simp only [Answer.bind_result, ih, Answer.pure_result]
    rfl

/-! ## Failures of one request -/

theorem category_of_dialect {s : Service} {schema : Schema} {f : Failure}
    (unknown : s.dialect schema = .error f) : f.category = "unknown_dialect" := by
  obtain ⟨e, -, rfl⟩ := mapError_eq_error.mp unknown
  rfl

theorem category_of_quoteNames {s : Service} {schema : Schema} {f : Failure}
    (wrong : s.quoteNames schema = .error f) : f.category = "malformed_request" := by
  unfold quoteNames at wrong
  split at wrong
  · contradiction
  · split at wrong
    · contradiction
    · cases wrong
      rfl

theorem category_of_generate {t : Target} {statement : Option Statement} {f : Failure}
    (refused : generate t statement = .error f) :
    f.category = "ast_construction" ∨ f.category = "unsupported_pushdown" := by
  cases statement with
  | none =>
    cases refused
    exact .inl rfl
  | some statement =>
    obtain ⟨e, -, rfl⟩ := mapError_eq_error.mp refused
    exact .inr rfl

/-- A request fails as canceled only if the work is canceled. -/
theorem category_of_statement {s : Service} {r : Option PushdownRequest} {f : Failure}
    (refused : s.statement false r = .error f) : f.category ≠ "canceled" := by
  replace refused : (s.pushdown false r).result = .error f := map_eq_error.mp refused
  cases r with
  | none =>
    cases refused
    decide
  | some r =>
    simp only [pushdown, Bool.false_eq_true, if_false] at refused
    split at refused
    · rename_i e missed
      obtain rfl : e = f := by simpa [reject] using refused
      simp only [target, bind_eq_error, pure_ne_error, and_false, exists_false, or_false] at missed
      rcases missed with unknown | ⟨d, -, wrong⟩
      · simp [category_of_dialect unknown]
      · simp [category_of_quoteNames wrong]
    · split at refused
      · rename_i e refusal
        obtain rfl : e = f := by simpa [reject] using refused
        rcases category_of_generate refusal with known | known <;> simp [known]
      · contradiction

end Service

end Pushdown
