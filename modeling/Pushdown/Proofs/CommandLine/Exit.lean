import Pushdown.CommandLine.Run
import Pushdown.Proofs.Service.Batch

/-!
# What the command prints and how it exits

A run of the command may ask the service for statements or for a reply, and then it exits as the
service answers: it prints statements only if there is one for each request, and it exits with three
exactly if the failure leaves the query to be run without the pushdown. The statements of a batch are
generated on some schedule, and a signal may cancel the work at any time.
-/

namespace Pushdown

namespace Service

open Json

/-! ## Requests of a text -/

/-- The requests of a text: the text itself, or the elements of an array. -/
inductive Lists : String → List String → Prop
  | single {n : Nat} {text : String} (document : IsDocument n text) : Lists text [text]
  | array {text : String} {texts : List String} (some : texts ≠ [])
      (each : ∀ document ∈ texts, IsDocument 9999 document)
      (whole : Text.trim text = batch texts) : Lists text texts

theorem documents_trim {text : String} {texts : List String} (whole : Text.trim text = batch texts) :
    documents text = documents (batch texts) := by
  have bracket : (batch texts).toList.head? = some '[' := by simp [toList_batch]
  simp only [documents, trim_batch, whole, bracket, beq_self_eq_true, if_true]

/-- The requests of a text are handled as the documents that it is split into. -/
theorem Lists.ofDocument {s : Service} {text : String} {requests texts : List String}
    (lists : Lists text requests) (split : documents text = .ok texts) :
    texts.map s.ofDocument = requests.map s.ofDocument := by
  cases lists with
  | single document =>
    rw [documents_document document] at split
    rw [Except.ok.inj split]
  | array some each whole =>
    obtain ⟨objects, elements, same⟩ := documents_batch some each
    rw [documents_trim whole, elements] at split
    rw [← Except.ok.inj split]
    exact map_ofDocument_of_read same

/-! ## What is returned when a signal may arrive -/

theorem documents_ne_nil {text : String} {texts : List String}
    (listed : documents text = .ok texts) : texts ≠ [] := by
  simp only [documents] at listed
  split at listed
  · split at listed
    · cases listed
    · cases listed
    · rename_i sources nonempty _
      rw [← Except.ok.inj listed]
      simpa using nonempty
  · rw [← Except.ok.inj listed]
    exact List.cons_ne_nil text []

/-- What handling a text may return when the work may be canceled at any time. A task that finds it
canceled reports so, whichever request it works on. -/
inductive MayReturn (s : Service) (canceled : Bool) (text : String) :
    Except Failure (List String) → Prop
  | completed {r : Except Failure (List String)} (runs : canceled = false)
      (handles : s.Handles text r) : MayReturn s canceled text r
  | stopped {r : Except Failure (List String)} (result : (s.handle true text).result = r) :
      MayReturn s canceled text r
  | interrupted {texts : List String} {i : Nat} (split : documents text = .ok texts)
      (inside : i < texts.length) :
      MayReturn s canceled text
        (.error (if texts.length = 1 then .canceled else Failure.canceled.ofRequest i))

theorem mayReturn_handle (s : Service) (canceled : Bool) (text : String) :
    s.MayReturn canceled text (s.handle canceled text).result := by
  cases canceled with
  | false => exact .completed rfl (.inOrder rfl)
  | true => exact .stopped rfl

/-- The first failure is that of a text of which one document fails with the second when it is
handled alone. Among several documents it says which one that is. -/
def Reports (s : Service) (text : String) (f e : Failure) : Prop :=
  ∃ (texts : List String) (i : Nat) (document : String), documents text = .ok texts ∧
    texts[i]? = some document ∧ s.ofDocument document = .error e ∧
    f = if texts.length = 1 then e else .within s!"pushdown {i}" e

theorem Reports.allowsFallback {s : Service} {text : String} {f e : Failure}
    (reports : s.Reports text f e) : f.allowsFallback = e.allowsFallback := by
  obtain ⟨texts, i, document, -, -, -, rfl⟩ := reports
  split <;> rfl

/-- Why a text may fail: it is no list of documents, the work was canceled, or one of its documents
fails when it is handled alone. -/
inductive Blames (s : Service) (text : String) (f : Failure) : Prop
  | unsplit (failed : documents text = .error f)
  | canceled (reported : f.category = "canceled")
  | document {e : Failure} (reports : s.Reports text f e)

theorem allowsFallback_of_documents {text : String} {f : Failure}
    (failed : documents text = .error f) : f.allowsFallback = false := by
  simp only [documents] at failed
  split at failed
  · split at failed
    · rw [← Except.error.inj failed]
      rfl
    · rw [← Except.error.inj failed]
      rfl
    · cases failed
  · cases failed

/-- Only the failure of a document lets the query run without the pushdown. -/
theorem Blames.allowsFallback_iff {s : Service} {text : String} {f : Failure}
    (blames : s.Blames text f) :
    f.allowsFallback ↔ ∃ e, s.Reports text f e ∧ e.allowsFallback := by
  constructor
  · intro allowed
    cases blames with
    | unsplit failed =>
      rw [allowsFallback_of_documents failed] at allowed
      cases allowed
    | canceled reported =>
      rw [Failure.allowsFallback, reported] at allowed
      exact absurd allowed (by decide)
    | document reports =>
      rw [reports.allowsFallback] at allowed
      exact ⟨_, reports, allowed⟩
  · rintro ⟨e, reports, allowed⟩
    rwa [reports.allowsFallback]

theorem blames_of_handles {s : Service} {text : String} {f : Failure}
    (handles : s.Handles text (.error f)) : s.Blames text f := by
  cases split : documents text with
  | ok texts =>
    obtain ⟨i, document, e, listed, alone, reported⟩ := handles.eq_error_of_documents split
    exact .document ⟨texts, i, document, split, listed, alone, reported⟩
  | error unsplit =>
    cases handles with
    | inOrder result =>
      have failed : (s.handle false text).result = .error unsplit := by
        rw [handle, split]
        rfl
      obtain rfl := Except.error.inj (failed.symm.trans result)
      exact .unsplit split
    | scheduled split' =>
      rw [split] at split'
      cases split'

/-- Documents are read whether or not the work is canceled, but then nothing is generated. -/
theorem blames_of_canceled (s : Service) (text : String) :
    ∃ f, (s.handle true text).result = .error f ∧ s.Blames text f := by
  cases split : documents text with
  | error f =>
    refine ⟨f, ?_, .unsplit split⟩
    rw [handle, split]
    rfl
  | ok texts =>
    by_cases single : texts.length = 1
    · obtain ⟨document, rfl⟩ := List.length_eq_one_iff.mp single
      rw [handle_of_document s true split]
      cases read : (readPushdown document).result with
      | ok q => exact ⟨.canceled, rfl, .canceled rfl⟩
      | error f =>
        refine ⟨f, rfl, .document ⟨[document], 0, document, split, rfl, ?_, rfl⟩⟩
        rw [ofDocument, read]
        rfl
    · rw [handle_of_several s true split single]
      cases read : (readFrom 0 texts).result with
      | error f =>
        refine ⟨f, rfl, blames_of_handles (.inOrder ?_)⟩
        rw [handle_of_several s false split single, read]
        rfl
      | ok requests =>
        have each : texts.map (fun text => (readPushdown text).result) = requests.map .ok := by
          rwa [readFrom_result, inTurn_eq_ok_iff] at read
        have some : requests ≠ [] := by
          rintro rfl
          exact documents_ne_nil split (by simpa using each)
        obtain ⟨first, others, rfl⟩ := List.exists_cons_of_ne_nil some
        exact ⟨Failure.canceled.ofRequest 0, rfl, .canceled rfl⟩

theorem MayReturn.blames {s : Service} {canceled : Bool} {text : String} {f : Failure}
    (returns : s.MayReturn canceled text (.error f)) : s.Blames text f := by
  generalize result : Except.error f = r at returns
  cases returns with
  | completed runs handles =>
    subst result
    exact blames_of_handles handles
  | stopped stopped =>
    obtain ⟨e, failed, blames⟩ := s.blames_of_canceled text
    obtain rfl := Except.error.inj (result.trans (stopped.symm.trans failed))
    exact blames
  | interrupted split inside =>
    obtain rfl := Except.error.inj result
    apply Blames.canceled
    split <;> rfl

theorem MayReturn.eq_ok {s : Service} {canceled : Bool} {text : String} {sqls : List String}
    (returns : s.MayReturn canceled text (.ok sqls)) :
    ∃ texts, documents text = .ok texts ∧ texts.map s.ofDocument = sqls.map .ok := by
  generalize result : Except.ok sqls = r at returns
  cases returns with
  | completed runs handles =>
    subst result
    cases split : documents text with
    | ok texts => exact ⟨texts, rfl, handles.eq_ok_of_documents split⟩
    | error unsplit =>
      cases handles with
      | inOrder result =>
        rw [handle, split] at result
        cases result
      | scheduled split' =>
        rw [split] at split'
        cases split'
  | stopped stopped =>
    obtain ⟨e, failed, -⟩ := s.blames_of_canceled text
    rw [← result, failed] at stopped
    cases stopped
  | interrupted split inside => cases result

end Service

namespace CommandLine

/-! ## Runs of the command -/

/-- The command asks the service about a text: no list was asked for, and the settings and the text
can be read. -/
structure Asks (w : Inputs) (args : List String) (o : Options) (s : Settings) (text : String) :
    Prop where
  options : Options.read args = .ok o
  lists : o.dialects = false ∧ o.capabilities = false
  settings : CommandLine.settings w o = .ok s
  request : CommandLine.request w o = .ok text

/-- What the service was asked, with its answer. -/
inductive Call where
  | unasked
  | responded (result : Except Failure Reply)
  | handled (result : Except Failure (List String))

/-- The failure that the service answered with. -/
def Call.failure? : Call → Option Failure
  | responded (.error f) | handled (.error f) => some f
  | _ => none

/-- A run of the command with what it asks the service. The statements of a batch are generated on
any schedule, with any entries in the log, and the work may be canceled at any time. -/
inductive Runs (w : Inputs) (args : List String) : Call → Outcome → Prop
  | unasked (silent : ∀ o s text, ¬ Asks w args o s text) : Runs w args .unasked (run w args)
  | responded {o : Options} {s : Settings} {text : String} {canceled : Bool}
      (asks : Asks w args o s text) (mode : o.respond = true)
      (since : w.canceled = true → canceled = true) :
      Runs w args (.responded (Service.respond { settings := s } canceled text).result)
        ((Outcome.ofAnswer (fun reply => line reply.write)
          (Service.respond { settings := s } canceled text)).filterLog s)
  | handled {o : Options} {s : Settings} {text : String} {a : Answer (List String)}
      (asks : Asks w args o s text) (mode : o.respond = false)
      (returns : Service.MayReturn { settings := s } w.canceled text a.result) :
      Runs w args (.handled a.result)
        ((Outcome.ofAnswer (fun sqls => String.join (sqls.map line)) a).filterLog s)

theorem Asks.run_eq {w : Inputs} {args : List String} {o : Options} {s : Settings} {text : String}
    (asks : Asks w args o s text) : run w args = Outcome.filterLog (if o.respond then
      .ofAnswer (fun reply => line reply.write)
        (Service.respond { settings := s } w.canceled text)
      else .ofAnswer (fun sqls => String.join (sqls.map line))
        (Service.handle { settings := s } w.canceled text)) s := by
  have answered : run w args = (answer w o { settings := s }).filterLog s := by
    rw [run, asks.options]
    simp only [asks.settings]
  rw [answered, answer, asks.request]
  simp only [asks.lists.1, asks.lists.2, Bool.false_eq_true, if_false]

/-- The command as it is run, one statement after the other, is one of the runs. -/
theorem runs_run (w : Inputs) (args : List String) : ∃ call, Runs w args call (run w args) := by
  by_cases asked : ∃ o s text, Asks w args o s text
  · obtain ⟨o, s, text, asks⟩ := asked
    cases mode : o.respond with
    | true =>
      rw [asks.run_eq, if_pos mode]
      exact ⟨_, .responded asks mode id⟩
    | false =>
      rw [asks.run_eq, if_neg (by simp [mode])]
      exact ⟨_, .handled asks mode (Service.mayReturn_handle ..)⟩
  · exact ⟨_, .unasked fun o s text asks => asked ⟨o, s, text, asks⟩⟩

/-! ## Codes -/

theorem failureCode_eq_three_iff (f : Failure) : failureCode f = 3 ↔ f.allowsFallback := by
  unfold failureCode
  split <;> simp_all

theorem failureCode_ne_zero (f : Failure) : failureCode f ≠ 0 := by
  unfold failureCode
  split <;> decide

namespace Outcome

theorem exitCode_filterLog (o : Outcome) (s : Settings) : (o.filterLog s).exitCode = o.exitCode :=
  rfl

/-- Something is printed only if the command succeeds. -/
def Whole (o : Outcome) : Prop := o.stdout ≠ "" → o.exitCode = 0

theorem whole_of_stdout {o : Outcome} (nothing : o.stdout = "") : o.Whole :=
  fun printed => absurd nothing printed

variable {α : Type} (print : α → String) (a : Answer α)

theorem ofAnswer_ok {value : α} (succeeded : a.result = .ok value) :
    (ofAnswer print a).exitCode = 0 ∧ (ofAnswer print a).stdout = print value := by
  simp [ofAnswer, succeeded]

theorem ofAnswer_error {f : Failure} (failed : a.result = .error f) :
    (ofAnswer print a).exitCode = failureCode f ∧ (ofAnswer print a).stdout = "" := by
  simp [ofAnswer, failed, stop]

theorem whole_ofAnswer : (ofAnswer print a).Whole := by
  cases result : a.result with
  | ok value =>
    intro _
    exact (ofAnswer_ok print a result).1
  | error f => exact whole_of_stdout (ofAnswer_error print a result).2

theorem exitCode_ofAnswer_eq_three_iff :
    (ofAnswer print a).exitCode = 3 ↔ ∃ f, a.result = .error f ∧ f.allowsFallback := by
  cases result : a.result with
  | ok value => simp [(ofAnswer_ok print a result).1]
  | error f => simp [(ofAnswer_error print a result).1, failureCode_eq_three_iff]

theorem exitCode_ofAnswer_eq_zero (success : (ofAnswer print a).exitCode = 0) :
    ∃ value, a.result = .ok value ∧ (ofAnswer print a).stdout = print value := by
  cases result : a.result with
  | ok value => exact ⟨value, rfl, (ofAnswer_ok print a result).2⟩
  | error f =>
    rw [(ofAnswer_error print a result).1] at success
    exact absurd success (failureCode_ne_zero f)

end Outcome

/-- A run that does not ask the service prints a list or an explanation, or it stops. -/
theorem run_of_unasked {w : Inputs} {args : List String}
    (silent : ∀ o s text, ¬ Asks w args o s text) :
    (run w args).Whole ∧ (run w args).exitCode ≠ 3 ∧
      ∀ o, Options.read args = .ok o → o.dialects = false → o.capabilities = false →
        (run w args).exitCode ≠ 0 := by
  cases options : Options.read args with
  | error reason =>
    have outcome : run w args = refuse reason := by rw [run, options]
    rw [outcome]
    cases reason with
    | help => exact ⟨Outcome.whole_of_stdout rfl, by simp [refuse], by simp⟩
    | error e => exact ⟨Outcome.whole_of_stdout rfl, by simp [refuse], by simp⟩
  | ok o =>
    simp only [Except.ok.injEq, forall_eq']
    cases settings : CommandLine.settings w o with
    | error e =>
      have outcome : run w args = stop 1 e.message := by
        rw [run, options]
        simp only [settings]
      rw [outcome]
      exact ⟨Outcome.whole_of_stdout rfl, by simp [stop], by simp [stop]⟩
    | ok s =>
      have outcome : run w args = (answer w o { settings := s }).filterLog s := by
        rw [run, options]
        simp only [settings]
      rw [outcome]
      cases dialects : o.dialects with
      | true =>
        have listed : answer w o { settings := s } =
            { stdout := String.join (Registry.standard.ids.map line) } := by
          rw [answer, if_pos dialects]
        rw [listed]
        exact ⟨fun _ => rfl, by simp [Outcome.filterLog], by simp⟩
      | false =>
        cases capabilities : o.capabilities with
        | true =>
          cases names : Service.capabilities { settings := s } {} with
          | ok names' =>
            have listed : answer w o { settings := s } =
                { stdout := line ("\n".intercalate names') } := by
              simp only [answer, dialects, capabilities, names, Bool.false_eq_true, if_false, if_true]
            rw [listed]
            exact ⟨fun _ => rfl, by simp [Outcome.filterLog], by simp⟩
          | error f =>
            have stopped : answer w o { settings := s } = stop 1 f.message := by
              simp only [answer, dialects, capabilities, names, Bool.false_eq_true, if_false, if_true]
            rw [stopped]
            exact ⟨Outcome.whole_of_stdout rfl, by simp [Outcome.filterLog, stop], by simp⟩
        | false =>
          cases request : CommandLine.request w o with
          | ok text => exact absurd ⟨options, ⟨dialects, capabilities⟩, settings, request⟩ (silent o s text)
          | error message =>
            have stopped : answer w o { settings := s } = stop 1 message := by
              simp only [answer, dialects, capabilities, request, Bool.false_eq_true, if_false]
            rw [stopped]
            exact ⟨Outcome.whole_of_stdout rfl, by simp [Outcome.filterLog, stop],
              by simp [Outcome.filterLog, stop]⟩

/-- The options ask for statements, and not for any other answer. -/
def Options.WantsStatements (o : Options) : Prop :=
  o.dialects = false ∧ o.capabilities = false ∧ o.respond = false

/-- The command prints something only if it succeeds. It exits with three exactly if the service
fails in a way that leaves the query to be run without the pushdown: where statements are asked for,
this is the failure of one request, with its position if there are several. If it then succeeds it
has printed the statements of all requests in their order, one on each line. -/
theorem run_all_or_nothing (w : Inputs) (args : List String) :
    (∃ call, Runs w args call (run w args)) ∧
    ∀ call out, Runs w args call out →
      (out.stdout ≠ "" → out.exitCode = 0) ∧
      (out.exitCode = 3 ↔ ∃ f, call.failure? = some f ∧ f.allowsFallback) ∧
      ∀ o, Options.read args = .ok o → o.WantsStatements →
        (out.exitCode = 3 ↔ ∃ (s : Settings) (text : String) (f e : Failure),
          settings w o = .ok s ∧ request w o = .ok text ∧ call = .handled (.error f) ∧
          Service.Reports { settings := s } text f e ∧ e.allowsFallback) ∧
        (out.exitCode = 0 → ∃ (s : Settings) (text : String) (sqls : List String),
          settings w o = .ok s ∧ request w o = .ok text ∧
          out.stdout = String.join (sqls.map line) ∧
          (∃ texts, Service.documents text = .ok texts ∧
            texts.map (Service.ofDocument { settings := s }) = sqls.map .ok) ∧
          ∀ requests, Service.Lists text requests →
            requests.map (Service.ofDocument { settings := s }) = sqls.map .ok) := by
  refine ⟨runs_run w args, ?_⟩
  intro call out runs
  cases runs with
  | unasked silent =>
    obtain ⟨whole, noFallback, noSuccess⟩ := run_of_unasked silent
    refine ⟨whole, by simp [noFallback, Call.failure?], ?_⟩
    intro o options wants
    constructor
    · simp [noFallback]
    · intro success
      exact absurd success (noSuccess o options wants.1 wants.2.1)
  | @responded o s text canceled asks mode since =>
    refine ⟨Outcome.whole_ofAnswer _ _, ?_, ?_⟩
    · rw [Outcome.exitCode_filterLog, Outcome.exitCode_ofAnswer_eq_three_iff]
      cases (Service.respond { settings := s } canceled text).result <;> simp [Call.failure?]
    · intro o' options wants
      obtain rfl := Except.ok.inj (asks.options.symm.trans options)
      rw [wants.2.2] at mode
      cases mode
  | @handled o s text a asks mode returns =>
    refine ⟨Outcome.whole_ofAnswer _ _, ?_, ?_⟩
    · rw [Outcome.exitCode_filterLog, Outcome.exitCode_ofAnswer_eq_three_iff]
      cases a.result <;> simp [Call.failure?]
    · intro o' options wants
      obtain rfl := Except.ok.inj (asks.options.symm.trans options)
      constructor
      · rw [Outcome.exitCode_filterLog, Outcome.exitCode_ofAnswer_eq_three_iff]
        constructor
        · rintro ⟨f, failed, allowed⟩
          rw [failed] at returns ⊢
          obtain ⟨e, reports, allowed⟩ := returns.blames.allowsFallback_iff.mp allowed
          exact ⟨s, text, f, e, asks.settings, asks.request, rfl, reports, allowed⟩
        · rintro ⟨s', text', f, e, -, -, same, reports, allowed⟩
          rw [← reports.allowsFallback] at allowed
          exact ⟨f, Call.handled.inj same, allowed⟩
      · intro success
        obtain ⟨sqls, succeeded, printed⟩ := Outcome.exitCode_ofAnswer_eq_zero _ _ success
        rw [succeeded] at returns
        obtain ⟨texts, split, each⟩ := returns.eq_ok
        refine ⟨s, text, sqls, asks.settings, asks.request, printed, ⟨texts, split, each⟩, ?_⟩
        intro requests lists
        rw [← lists.ofDocument split, each]

theorem run_prints_two_statements :
    (run { stdin := .ok (Service.batch [Service.requestWith "null".toList,
      Service.requestWith "null".toList]) } []).stdout = "SELECT *\nSELECT *\n" := by
  have value : Json.Spells .value 9998 "null".toList := .word (by decide)
  have document := Service.isDocument_requestWith value
  have statement := Service.ofDocument_requestWith value (by decide)
  generalize Service.requestWith "null".toList = given at document statement ⊢
  let input := Service.batch [given, given]
  let w : Inputs := { stdin := .ok input }
  have options : Options.read [] = .ok {} := by
    rw [Options.read, readFlags]
    rfl
  have loaded : settings w {} = .ok {} := by
    have sound : Settings.problems {} = [] := by decide +kernel
    have defaults : Settings.load {} = .ok {} := by
      simp only [Settings.load, Option.map_none, Option.getD_none]
      rfl
    exact congrArg (Options.apply {} <$> ·) defaults
  have asks : Asks w [] {} {} input := ⟨options, ⟨rfl, rfl⟩, loaded, rfl⟩
  have handles : Service.Handles {} input (Service.handle {} false input).result := .inOrder rfl
  have both : ∀ text ∈ [given, given], Json.IsDocument 9999 text := by simpa using document
  obtain ⟨sqls, succeeded⟩ : ∃ sqls, (Service.handle {} false input).result = .ok sqls := by
    rw [handles.exists_ok_iff (by simp) both]
    simpa using ⟨_, statement⟩
  have success : (run w []).exitCode = 0 := by
    rw [asks.run_eq, if_neg (by simp), Outcome.exitCode_filterLog]
    exact (Outcome.ofAnswer_ok _ _ succeeded).1
  obtain ⟨⟨call, runs⟩, every⟩ := run_all_or_nothing w []
  obtain ⟨-, -, statements⟩ := every call _ runs
  obtain ⟨-, prints⟩ := statements {} options ⟨rfl, rfl, rfl⟩
  obtain ⟨s, text, printed, loaded', request', output, -, each⟩ := prints success
  obtain rfl := Except.ok.inj (loaded.symm.trans loaded')
  obtain rfl := Except.ok.inj (asks.request.symm.trans request')
  have two := each _ (.array (List.cons_ne_nil _ _) both (Service.trim_batch _))
  rw [List.map_cons, List.map_cons, List.map_nil, statement] at two
  have same : ["SELECT *", "SELECT *"] = printed :=
    List.map_injective_iff.mpr (fun _ _ => Except.ok.inj) two
  rw [output, ← same]
  rfl

end CommandLine

end Pushdown
