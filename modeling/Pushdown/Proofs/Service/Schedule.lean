import Mathlib.Algebra.GroupWithZero.Nat
import Mathlib.Data.Nat.Find
import Mathlib.Logic.Relation
import Pushdown.Proofs.Service.Answer

/-!
# Schedules of a batch

The requests of a batch are the tasks of a group. They are started in order, as many at a time as
the settings allow, and from then on each goes its own way: it looks once whether the work has been
canceled, generates its statement, and leaves it in its place of the result or reports a failure.
The first failure that is reported counts, and the work is canceled at some time after that.

`Group.Step` is one step of one task, so a schedule is a chain of steps. Every schedule ends, and
`Returns` relates a batch to what it may end with. `Group.Sound` is what each step keeps: while no
failure has been reported, nothing has been canceled, so every finished task is as good as if its
request had been made alone.
-/

namespace Pushdown

/-- How far the work on a request is. -/
inductive Stage where
  | waiting
  | started
  /-- The task has looked whether the work was canceled. -/
  | informed (canceled : Bool)
  | finished
deriving DecidableEq

namespace Stage

def isRunning : Stage → Bool
  | started | informed _ => true
  | waiting | finished => false

/-- The number of steps that a task still takes. -/
def remaining : Stage → Nat
  | waiting => 3
  | started => 2
  | informed _ => 1
  | finished => 0

end Stage

/-- The requests of a batch on their way. -/
structure Group where
  stages : List Stage
  /-- One place for each request. -/
  texts : List String
  /-- The first failure that was reported. -/
  failure : Option Failure := none
  canceled : Bool := false

namespace Group

/-- A group of so many requests, none of which has been started. -/
def waiting (count : Nat) : Group :=
  { stages := List.replicate count .waiting, texts := List.replicate count "" }

def running (g : Group) : Nat := g.stages.countP Stage.isRunning

/-- What the batch returns once all its tasks are finished. -/
def outcome? (g : Group) : Option (Except Failure (List String)) :=
  if g.stages.all (· == .finished) then
    some (match g.failure with
      | none => .ok g.texts
      | some f => .error f)
  else none

/-- One step of one task, or the cancellation that follows the first failure. -/
inductive Step (s : Service) (requests : List (Option PushdownRequest)) : Group → Group → Prop
  | start {g : Group} {i : Nat} (next : g.stages[i]? = some .waiting)
      (inOrder : ∀ j < i, g.stages[j]? ≠ some .waiting)
      (room : 0 < s.settings.concurrency → (g.running : Int) < s.settings.concurrency) :
      Step s requests g { g with stages := g.stages.set i .started }
  | look {g : Group} {i : Nat} (runs : g.stages[i]? = some .started) :
      Step s requests g { g with stages := g.stages.set i (.informed g.canceled) }
  | succeed {g : Group} {i : Nat} {canceled : Bool} {r : Option PushdownRequest} {sql : String}
      (runs : g.stages[i]? = some (.informed canceled)) (request : requests[i]? = some r)
      (generated : s.statement canceled r = .ok sql) :
      Step s requests g { g with stages := g.stages.set i .finished, texts := g.texts.set i sql }
  | fail {g : Group} {i : Nat} {canceled : Bool} {r : Option PushdownRequest} {f : Failure}
      (runs : g.stages[i]? = some (.informed canceled)) (request : requests[i]? = some r)
      (refused : s.statement canceled r = .error f) :
      Step s requests g
        { g with stages := g.stages.set i .finished, failure := g.failure.or (f.ofRequest i) }
  | cancel {g : Group} (failed : g.failure.isSome) (runs : g.canceled = false) :
      Step s requests g { g with canceled := true }

/-- A schedule leads from one group to the other. -/
abbrev Reaches (s : Service) (requests : List (Option PushdownRequest)) : Group → Group → Prop :=
  Relation.ReflTransGen (Step s requests)

end Group

/-- Some schedule of the batch ends with the outcome. -/
def Service.Returns (s : Service) (requests : List (Option PushdownRequest))
    (r : Except Failure (List String)) : Prop :=
  ∃ g, Group.Reaches s requests (.waiting requests.length) g ∧ g.outcome? = some r

namespace Group

variable {s : Service} {requests : List (Option PushdownRequest)} {g g' : Group}

/-! ## Schedules end -/

/-- The number of steps that a group still takes at most. -/
def remaining (g : Group) : Nat :=
  (g.stages.map Stage.remaining).sum + if g.canceled then 0 else 1

theorem sum_set_lt {stages : List Stage} {i : Nat} {old : Stage} (new : Stage)
    (here : stages[i]? = some old) (less : new.remaining < old.remaining) :
    ((stages.set i new).map Stage.remaining).sum < (stages.map Stage.remaining).sum := by
  induction stages generalizing i with
  | nil => simp at here
  | cons first stages ih =>
    cases i with
    | zero =>
      obtain rfl : first = old := by simpa using here
      simp only [List.set_cons_zero, List.map_cons, List.sum_cons]
      omega
    | succ i =>
      have shorter := ih (by simpa using here)
      simp only [List.set_cons_succ, List.map_cons, List.sum_cons]
      omega

theorem Step.remaining_lt (step : Step s requests g g') : g'.remaining < g.remaining := by
  unfold remaining
  cases step with
  | start next =>
    have := sum_set_lt .started next (by decide)
    dsimp only
    omega
  | look runs =>
    have := sum_set_lt (.informed g.canceled) runs Nat.one_lt_two
    dsimp only
    omega
  | succeed runs | fail runs =>
    have := sum_set_lt .finished runs Nat.one_pos
    dsimp only
    omega
  | cancel failed runs => simp [runs]

/-- No schedule goes on forever. -/
theorem step_wellFounded : WellFounded fun g' g => Step s requests g g' :=
  Subrelation.wf (fun step => step.remaining_lt) (measure remaining).wf

theorem failure_of_reaches (run : Reaches s requests g g') {f : Failure}
    (failed : g.failure = some f) : g'.failure = some f := by
  induction run with
  | refl => exact failed
  | tail _ step ih =>
    cases step with
    | fail => simp [ih]
    | _ => exact ih

/-! ## What every step keeps -/

/-- Before the first failure every task works as if its request had been made alone, and the first
failure is that of a request made alone. With one task at a time it is the first such request. -/
structure Sound (s : Service) (requests : List (Option PushdownRequest)) (g : Group) : Prop where
  stages : g.stages.length = requests.length
  texts : g.texts.length = requests.length
  canceled : g.canceled → g.failure.isSome
  informed : ∀ i : Nat, g.stages[i]? = some (.informed true) → g.failure.isSome
  finished : g.failure = none → ∀ (i : Nat) r, g.stages[i]? = some .finished →
    requests[i]? = some r → ∃ sql, s.statement false r = .ok sql ∧ g.texts[i]? = some sql
  inTurn : s.settings.concurrency = 1 → ∀ (i : Nat) t, g.stages[i]? = some t → t.isRunning →
    ∀ j < i, g.stages[j]? = some .finished
  failed : ∀ f ∈ g.failure, ∃ i r e, requests[i]? = some r ∧ s.statement false r = .error e ∧
    f = e.ofRequest i ∧ (s.settings.concurrency = 1 → ∀ j < i, ∀ q ∈ requests[j]?, s.Succeeds q)

theorem getElem?_set_eq_some_iff {stages : List Stage} {i j : Nat} {old new t : Stage}
    (here : stages[i]? = some old) :
    (stages.set i new)[j]? = some t ↔
      (j = i ∧ t = new) ∨ (j ≠ i ∧ stages[j]? = some t) := by
  have inside : i < stages.length := (List.getElem?_eq_some_iff.mp here).1
  by_cases same : j = i
  · subst same
    simp [inside, eq_comm]
  · simp [same, List.getElem?_set_ne (Ne.symm same)]

theorem waiting_sound : Sound s requests (waiting requests.length) where
  stages := by simp [waiting]
  texts := by simp [waiting]
  canceled := by simp [waiting]
  informed i here := by simp [waiting, List.getElem?_replicate] at here
  finished _ i r here := by simp [waiting, List.getElem?_replicate] at here
  inTurn _ i t here runs := by
    obtain ⟨-, rfl⟩ : _ ∧ Stage.waiting = t := by
      simpa [waiting, List.getElem?_replicate] using here
    contradiction
  failed := by simp [waiting]

theorem Sound.start {i : Nat} (sound : Sound s requests g) (next : g.stages[i]? = some .waiting)
    (inOrder : ∀ j < i, g.stages[j]? ≠ some .waiting)
    (room : 0 < s.settings.concurrency → (g.running : Int) < s.settings.concurrency) :
    Sound s requests { g with stages := g.stages.set i .started } where
  stages := by simpa using sound.stages
  texts := sound.texts
  canceled := sound.canceled
  informed j here := by
    rcases (getElem?_set_eq_some_iff next).mp here with ⟨-, other⟩ | ⟨-, here⟩
    · contradiction
    · exact sound.informed j here
  finished := by
    intro clean j r here request
    rcases (getElem?_set_eq_some_iff next).mp here with ⟨-, other⟩ | ⟨-, here⟩
    · contradiction
    · exact sound.finished clean j r here request
  inTurn := by
    intro single j t here runs k before
    -- Nothing else runs when a task is started, so all tasks before it are finished.
    have idle : g.running = 0 := by
      have := room (by omega)
      omega
    have stopped (k : Nat) (t : Stage) (there : g.stages[k]? = some t) : t.isRunning = false := by
      simpa using List.countP_eq_zero.mp idle t (List.mem_of_getElem? there)
    rcases (getElem?_set_eq_some_iff next).mp here with ⟨rfl, rfl⟩ | ⟨-, here⟩
    · refine (getElem?_set_eq_some_iff next).mpr (.inr ⟨by omega, ?_⟩)
      have inside : j < g.stages.length := (List.getElem?_eq_some_iff.mp next).1
      obtain ⟨t, there⟩ : ∃ t, g.stages[k]? = some t :=
        ⟨_, List.getElem?_eq_getElem (Nat.lt_trans before inside)⟩
      have stopped := stopped k t there
      cases t with
      | finished => exact there
      | waiting => exact absurd there (inOrder k before)
      | started | informed => contradiction
    · rw [stopped j t here] at runs
      contradiction
  failed := sound.failed

theorem Sound.look {i : Nat} (sound : Sound s requests g) (runs : g.stages[i]? = some .started) :
    Sound s requests { g with stages := g.stages.set i (.informed g.canceled) } where
  stages := by simpa using sound.stages
  texts := sound.texts
  canceled := sound.canceled
  informed j here := by
    rcases (getElem?_set_eq_some_iff runs).mp here with ⟨-, known⟩ | ⟨-, here⟩
    · exact sound.canceled (Stage.informed.inj known).symm
    · exact sound.informed j here
  finished := by
    intro clean j r here request
    rcases (getElem?_set_eq_some_iff runs).mp here with ⟨-, other⟩ | ⟨-, here⟩
    · contradiction
    · exact sound.finished clean j r here request
  inTurn := by
    intro single j t here running k before
    have earlier : g.stages[k]? = some .finished := by
      rcases (getElem?_set_eq_some_iff runs).mp here with ⟨rfl, -⟩ | ⟨-, here⟩
      · exact sound.inTurn single j .started runs rfl k before
      · exact sound.inTurn single j t here running k before
    refine (getElem?_set_eq_some_iff runs).mpr (.inr ⟨?_, earlier⟩)
    rintro rfl
    rw [runs] at earlier
    contradiction
  failed := sound.failed

/-- A task that ends keeps the turns of the others. -/
theorem Sound.inTurn_finish {i : Nat} {canceled : Bool} (sound : Sound s requests g)
    (runs : g.stages[i]? = some (.informed canceled)) (single : s.settings.concurrency = 1)
    {j : Nat} {t : Stage} (here : (g.stages.set i .finished)[j]? = some t) (running : t.isRunning)
    {k : Nat} (before : k < j) : (g.stages.set i .finished)[k]? = some .finished := by
  rcases (getElem?_set_eq_some_iff runs).mp here with ⟨-, rfl⟩ | ⟨-, here⟩
  · contradiction
  · have earlier := sound.inTurn single j t here running k before
    by_cases same : k = i
    · exact (getElem?_set_eq_some_iff runs).mpr (.inl ⟨same, rfl⟩)
    · exact (getElem?_set_eq_some_iff runs).mpr (.inr ⟨same, earlier⟩)

theorem Sound.succeed {i : Nat} {canceled : Bool} {r : Option PushdownRequest} {sql : String}
    (sound : Sound s requests g) (runs : g.stages[i]? = some (.informed canceled))
    (request : requests[i]? = some r) (generated : s.statement canceled r = .ok sql) :
    Sound s requests { g with stages := g.stages.set i .finished, texts := g.texts.set i sql } where
  stages := by simpa using sound.stages
  texts := by simpa using sound.texts
  canceled := sound.canceled
  informed j here := by
    rcases (getElem?_set_eq_some_iff runs).mp here with ⟨-, other⟩ | ⟨-, here⟩
    · contradiction
    · exact sound.informed j here
  finished := by
    intro clean j q here there
    rcases (getElem?_set_eq_some_iff runs).mp here with ⟨rfl, -⟩ | ⟨other, here⟩
    · have uncanceled : canceled = false := by
        cases canceled with
        | false => rfl
        | true => simpa [show g.failure = none from clean] using sound.informed j runs
      obtain rfl : r = q := by simpa [request] using there
      have inside : j < g.texts.length := by
        rw [sound.texts]
        exact (List.getElem?_eq_some_iff.mp request).1
      exact ⟨sql, uncanceled ▸ generated, by simp [inside]⟩
    · obtain ⟨text, generated, place⟩ := sound.finished clean j q here there
      exact ⟨text, generated, by simpa [Ne.symm other] using place⟩
  inTurn single j t here running k before := sound.inTurn_finish runs single here running before
  failed := sound.failed

theorem Sound.fail {i : Nat} {canceled : Bool} {r : Option PushdownRequest} {f : Failure}
    (sound : Sound s requests g) (runs : g.stages[i]? = some (.informed canceled))
    (request : requests[i]? = some r) (refused : s.statement canceled r = .error f) :
    Sound s requests
      { g with stages := g.stages.set i .finished, failure := g.failure.or (f.ofRequest i) } where
  stages := by simpa using sound.stages
  texts := sound.texts
  canceled := by simp
  informed := by simp
  finished := by simp
  inTurn single j t here running k before := sound.inTurn_finish runs single here running before
  failed := by
    intro first reported
    cases earlier : g.failure with
    | some given =>
      obtain rfl : given = first := by simpa [earlier] using reported
      exact sound.failed given earlier
    | none =>
      obtain rfl : f.ofRequest i = first := by simpa [earlier] using reported
      -- Only a failure cancels the work, so this task was not told to stop.
      have uncanceled : canceled = false := by
        cases canceled with
        | false => rfl
        | true => simpa [earlier] using sound.informed i runs
      refine ⟨i, r, f, request, uncanceled ▸ refused, rfl, fun single j before q there => ?_⟩
      have ended := sound.inTurn single i _ runs rfl j before
      obtain ⟨sql, generated, -⟩ := sound.finished earlier j q ended there
      exact ⟨sql, generated⟩

theorem Step.sound (step : Step s requests g g') (sound : Sound s requests g) :
    Sound s requests g' := by
  cases step with
  | start next inOrder room => exact sound.start next inOrder room
  | look runs => exact sound.look runs
  | succeed runs request generated => exact sound.succeed runs request generated
  | fail runs request refused => exact sound.fail runs request refused
  | cancel failed _ => exact { sound with canceled := fun _ => failed }

theorem Sound.reaches (sound : Sound s requests g) (run : Reaches s requests g g') :
    Sound s requests g' := by
  induction run with
  | refl => exact sound
  | tail _ step ih => exact step.sound ih

/-! ## Schedules return -/

/-- A task that runs has a step to take. -/
theorem Sound.exists_step_of_running (sound : Sound s requests g) {i : Nat} {t : Stage}
    (here : g.stages[i]? = some t) (runs : t.isRunning) : ∃ g', Step s requests g g' := by
  have inside : i < requests.length := by
    rw [← sound.stages]
    exact (List.getElem?_eq_some_iff.mp here).1
  have request : requests[i]? = some requests[i] := List.getElem?_eq_getElem inside
  cases t with
  | waiting | finished => contradiction
  | started => exact ⟨_, .look here⟩
  | informed canceled =>
    cases outcome : s.statement canceled requests[i] with
    | ok sql => exact ⟨_, .succeed here request outcome⟩
    | error f => exact ⟨_, .fail here request outcome⟩

/-- A batch that has not returned goes on. -/
theorem Sound.exists_step (sound : Sound s requests g) (unfinished : g.outcome? = none) :
    ∃ g', Step s requests g g' := by
  by_cases busy : ∃ (i : Nat) (t : Stage), g.stages[i]? = some t ∧ t.isRunning
  · obtain ⟨i, t, here, runs⟩ := busy
    exact sound.exists_step_of_running here runs
  · push Not at busy
    have idle : g.running = 0 := by
      refine List.countP_eq_zero.mpr fun t member => ?_
      obtain ⟨i, here⟩ := List.getElem?_of_mem member
      exact busy i t here
    have waits : ∃ i : Nat, g.stages[i]? = some .waiting := by
      obtain ⟨t, member, open'⟩ : ∃ t ∈ g.stages, t ≠ .finished := by
        simpa [outcome?] using unfinished
      obtain ⟨i, here⟩ := List.getElem?_of_mem member
      have stopped := busy i t here
      cases t with
      | waiting => exact ⟨i, here⟩
      | finished => contradiction
      | started | informed => simp [Stage.isRunning] at stopped
    exact ⟨_, .start (Nat.find_spec waits) (fun j before => Nat.find_min waits before)
      (fun limited => by omega)⟩

/-- Every schedule that has begun can be carried to its end. -/
theorem Sound.exists_outcome (sound : Sound s requests g) :
    ∃ g' r, Reaches s requests g g' ∧ g'.outcome? = some r := by
  have finite : WellFounded fun g' g => Step s requests g g' := step_wellFounded
  induction g using finite.induction with
  | h g ih =>
    cases unfinished : g.outcome? with
    | some r => exact ⟨g, r, .refl, unfinished⟩
    | none =>
      obtain ⟨next, step⟩ := sound.exists_step unfinished
      obtain ⟨g', r, run, returned⟩ := ih next step (step.sound sound)
      exact ⟨g', r, .head step run, returned⟩

theorem outcome?_eq_some_iff {r : Except Failure (List String)} :
    g.outcome? = some r ↔ (∀ t ∈ g.stages, t = .finished) ∧
      r = match g.failure with
        | none => .ok g.texts
        | some f => .error f := by
  unfold outcome?
  split
  · rename_i all
    have all : ∀ t ∈ g.stages, t = .finished := by simpa using all
    rw [Option.some.injEq, and_iff_right all, eq_comm]
  · rename_i some
    have some : ¬ ∀ t ∈ g.stages, t = .finished := by simpa using some
    simp [some]

/-! ## The schedule without overlaps -/

/-- A group whose first tasks are finished and whose others wait. -/
def partly (texts : List String) (others : Nat) : Group :=
  { stages := List.replicate texts.length .finished ++ List.replicate others .waiting
    texts := texts ++ List.replicate others "" }

/-- The first task that waits may run at once, however few tasks may run at a time. -/
theorem reaches_informed (texts : List String) (others : Nat) :
    Reaches s requests (partly texts (others + 1))
      { partly texts (others + 1) with
        stages := List.replicate texts.length .finished ++
          .informed false :: List.replicate others .waiting } := by
  have idle : (partly texts (others + 1)).running = 0 := by
    simp [partly, running, List.countP_replicate, Stage.isRunning]
  have start : Step s requests (partly texts (others + 1)) _ :=
    .start (i := texts.length) (by simp [partly])
      (fun j before => by simp [partly, List.getElem?_append_left, before]) (by omega)
  have look : Step s requests { partly texts (others + 1) with
      stages := (partly texts (others + 1)).stages.set texts.length .started } _ :=
    .look (i := texts.length) (by simp [partly])
  simpa [partly, List.replicate_succ] using Relation.ReflTransGen.tail (.single start) look

theorem reaches_next {texts : List String} (others : Nat) {r : Option PushdownRequest}
    {sql : String} (request : requests[texts.length]? = some r)
    (generated : s.statement false r = .ok sql) :
    Reaches s requests (partly texts (others + 1)) (partly (texts ++ [sql]) others) := by
  have succeed := (reaches_informed texts others).tail
    (.succeed (i := texts.length) (by simp) request generated)
  have ended : List.replicate (texts.length + 1) Stage.finished =
      List.replicate texts.length Stage.finished ++ [Stage.finished] := List.replicate_succ'
  simpa [partly, List.replicate_succ (n := others), ended] using succeed

/-- The tasks that wait may run one after the other. -/
theorem reaches_inTurn {before after : List (Option PushdownRequest)} {texts : List String}
    (whole : requests = before ++ after) (each : texts.length = before.length)
    (sound : Sound s requests (partly texts after.length)) :
    ∃ g, Reaches s requests (partly texts after.length) g ∧ g.outcome? =
      some ((texts ++ ·) <$> Service.inTurn before.length (after.map (s.statement false))) := by
  induction after generalizing before texts with
  | nil =>
    refine ⟨_, .refl, outcome?_eq_some_iff.mpr ⟨?_, ?_⟩⟩
    · simp +contextual [partly]
    · simp [partly, Service.inTurn, Functor.map, Except.map]
  | cons r after ih =>
    have request : requests[texts.length]? = some r := by simp [whole, each]
    cases outcome : s.statement false r with
    | ok sql =>
      have next := reaches_next after.length request outcome
      obtain ⟨g, run, returned⟩ := @ih (before ++ [r]) (texts ++ [sql])
        (by simp [whole]) (by simp [each]) (sound.reaches next)
      refine ⟨g, next.trans run, ?_⟩
      rw [returned, List.map_cons, Service.inTurn, outcome, List.length_append]
      cases Service.inTurn (before.length + [r].length) (after.map (s.statement false)) with
      | ok more =>
        simp [Functor.map, Except.map, bind, Except.bind, pure, Except.pure]
      | error f => rfl
    | error f =>
      have fail := (reaches_informed texts after.length).tail
        (.fail (i := texts.length) (by simp) request outcome)
      obtain ⟨g, result, run, returned⟩ := (sound.reaches fail).exists_outcome
      have failed := failure_of_reaches run (f := f.ofRequest before.length)
        (by simp [partly, each])
      rw [(outcome?_eq_some_iff.mp returned).2, failed] at returned
      refine ⟨g, fail.trans run, ?_⟩
      rw [returned, List.map_cons, Service.inTurn, outcome]
      rfl

end Group

namespace Service

open Pushdown.Group

variable {s : Service} {requests : List (Option PushdownRequest)} {r : Except Failure (List String)}

/-- Generating the statements in order is one of the schedules. -/
theorem returns_pushdownAll (s : Service) (requests : List (Option PushdownRequest)) :
    s.Returns requests (s.pushdownAll false requests).result := by
  obtain ⟨g, run, returned⟩ :=
    @reaches_inTurn s requests [] requests [] rfl rfl waiting_sound
  refine ⟨g, run, returned.trans ?_⟩
  rw [pushdownAll, pushdownFrom_result, List.length_nil]
  cases inTurn 0 (requests.map (s.statement false)) <;> rfl

theorem Returns.eq_ok {texts : List String} (returns : s.Returns requests (.ok texts)) :
    requests.map (s.statement false) = texts.map .ok := by
  obtain ⟨g, run, returned⟩ := returns
  have sound := waiting_sound.reaches run
  obtain ⟨all, result⟩ := outcome?_eq_some_iff.mp returned
  cases clean : g.failure with
  | some f => simp [clean] at result
  | none =>
    obtain rfl : texts = g.texts := by simpa [clean] using result
    refine List.ext_getElem (by simp [sound.texts]) fun i inside _ => ?_
    have here : i < g.stages.length := by simpa [sound.stages] using inside
    have ended : g.stages[i]? = some .finished := by
      rw [List.getElem?_eq_getElem here, all _ (List.getElem_mem here)]
    obtain ⟨sql, generated, place⟩ := sound.finished clean i _ ended
      (List.getElem?_eq_getElem (by simpa using inside))
    obtain ⟨_, rfl⟩ := List.getElem?_eq_some_iff.mp place
    simpa using generated

theorem Returns.eq_error {f : Failure} (returns : s.Returns requests (.error f)) :
    ∃ i q e, requests[i]? = some q ∧ s.statement false q = .error e ∧ f = e.ofRequest i ∧
      (s.settings.concurrency = 1 → ∀ j < i, ∀ q ∈ requests[j]?, s.Succeeds q) := by
  obtain ⟨g, run, returned⟩ := returns
  obtain ⟨-, result⟩ := outcome?_eq_some_iff.mp returned
  cases failed : g.failure with
  | none => simp [failed] at result
  | some first =>
    obtain rfl : f = first := by simpa [failed] using result
    exact (waiting_sound.reaches run).failed f failed

/-- No schedule gets stuck before it returns. -/
theorem exists_outcome_of_no_step {g : Group}
    (run : Reaches s requests (.waiting requests.length) g)
    (last : ¬ ∃ g', Group.Step s requests g g') : ∃ r, g.outcome? = some r := by
  cases unfinished : g.outcome? with
  | some r => exact ⟨r, rfl⟩
  | none => exact absurd ((waiting_sound.reaches run).exists_step unfinished) last

theorem Returns.exists_ok_iff (returns : s.Returns requests r) :
    (∃ texts, r = .ok texts) ↔ ∀ q ∈ requests, s.Succeeds q := by
  constructor
  · rintro ⟨texts, rfl⟩ q member
    have there : s.statement false q ∈ texts.map .ok := by
      rw [← returns.eq_ok]
      exact List.mem_map_of_mem member
    obtain ⟨sql, -, same⟩ := List.mem_map.mp there
    exact ⟨sql, same.symm⟩
  · intro each
    cases r with
    | ok texts => exact ⟨texts, rfl⟩
    | error f =>
      obtain ⟨i, q, e, request, refused, -⟩ := returns.eq_error
      obtain ⟨sql, generated⟩ := each q (List.mem_of_getElem? request)
      simp [refused] at generated

/-- Every schedule of a batch ends and returns. It returns the statements of all requests in their
order if each request has one, and else the failure that one of them has when it is made alone:
with one task at a time that of the first. The batch that is worked off in order is one of the
schedules. -/
theorem pushdownAll_under_every_schedule (s : Service) (requests : List (Option PushdownRequest)) :
    (WellFounded fun g' g => Group.Step s requests g g') ∧
    (∀ g, Reaches s requests (.waiting requests.length) g → (¬ ∃ g', Group.Step s requests g g') →
      ∃ r, g.outcome? = some r) ∧
    s.Returns requests (s.pushdownAll false requests).result ∧
    ∀ r, s.Returns requests r →
      ((∃ texts, r = .ok texts) ↔ ∀ q ∈ requests, s.Succeeds q) ∧
      (∀ texts, r = .ok texts → requests.map (s.statement false) = texts.map .ok) ∧
      (∀ f, r = .error f → ∃ (i : Nat) (q : Option PushdownRequest) (e : Failure),
        requests[i]? = some q ∧ s.statement false q = .error e ∧
        f = .within s!"pushdown {i}" e ∧ f.message = s!"pushdown {i}" ++ ": " ++ e.message ∧
        f.category = e.category ∧ f.category ≠ "canceled" ∧ f.allowsFallback = e.allowsFallback ∧
        (s.settings.concurrency = 1 → ∀ j < i, ∀ q ∈ requests[j]?, s.Succeeds q)) := by
  refine ⟨step_wellFounded, fun g => exists_outcome_of_no_step, returns_pushdownAll s requests, ?_⟩
  intro r returns
  refine ⟨returns.exists_ok_iff, fun texts succeeded => (succeeded ▸ returns).eq_ok, ?_⟩
  rintro f rfl
  obtain ⟨i, q, e, request, refused, rfl, first⟩ := returns.eq_error
  have uncanceled : (e.ofRequest i).category ≠ "canceled" := by
    rw [Failure.category_ofRequest]
    exact category_of_statement refused
  exact ⟨i, q, e, request, refused, rfl, Failure.message_ofRequest i e,
    Failure.category_ofRequest i e, uncanceled, Failure.allowsFallback_ofRequest i e, first⟩

/-- The second of two tasks may fail first. The first one then finds the work canceled, but that is
not what the batch returns. -/
theorem second_task_may_fail_first :
    ∃ f, Returns {} [none, none] (.error f) ∧
      f.message = "pushdown 1: malformed request: no pushdown request" ∧
      f.category ≠ "canceled" ∧ ¬ ∀ q ∈ [none, none], Succeeds {} q := by
  let refusal : Failure := .malformed { flaw := .noRequest }
  have returns : Returns {} [none, none] (.error (refusal.ofRequest 1)) := by
    refine ⟨{ stages := [.finished, .finished], texts := ["", ""]
              failure := some (refusal.ofRequest 1), canceled := true }, ?_, rfl⟩
    refine .head (.start (i := 0) rfl (by simp) (by decide)) ?_
    refine .head (.start (i := 1) rfl (by decide) (by decide)) ?_
    refine .head (.look (i := 1) rfl) ?_
    refine .head (.fail (i := 1) rfl rfl (f := refusal) rfl) ?_
    refine .head (.cancel rfl rfl) ?_
    refine .head (.look (i := 0) rfl) ?_
    exact .single (.fail (i := 0) rfl rfl (f := .canceled) rfl)
  obtain ⟨-, -, -, outcomes⟩ := pushdownAll_under_every_schedule {} [none, none]
  obtain ⟨succeeds, -, fails⟩ := outcomes _ returns
  obtain ⟨i, q, e, -, -, -, -, -, uncanceled, -⟩ := fails _ rfl
  exact ⟨_, returns, rfl, uncanceled, fun each => by simpa using succeeds.mpr each⟩

end Service

end Pushdown
