import Pushdown.Proofs.Json.Grammar
import Pushdown.Proofs.Service.Schedule
import Pushdown.Proofs.Sql.Rendering

/-!
# Batches of documents

A text is one document or an array of documents. The documents of an array are read as if each
stood alone, all of them before the first statement is generated, so an array is as good as its
documents. Only the levels that containers may be nested are counted from the array on.
-/

namespace Pushdown

/-! ## Documents within an array and alone -/

namespace Json

theorem isBlank_of_isSpace {c : Char} (space : isSpace c) : Text.isBlank c := by
  simp only [isSpace, Bool.or_eq_true, beq_iff_eq] at space
  rcases space with ((rfl | rfl) | rfl) | rfl <;> rfl

theorem dropWhile_isBlank {before cs : List Char} {c : Char} (blank : IsBlank before)
    (visible : Text.isBlank c = false) :
    (before ++ c :: cs).dropWhile Text.isBlank = c :: cs := by
  rw [List.dropWhile_append_of_pos fun d member => isBlank_of_isSpace (blank d member)]
  exact List.dropWhile_cons_of_neg (by simp [visible])

/-- Only the white space around brackets is trimmed. -/
theorem trimChars_blank {before after inside : List Char} {opening closing : Char}
    (blank : IsBlank before) (blankAfter : IsBlank after) (kind : IsPair opening closing) :
    Text.trimChars (before ++ (opening :: inside ++ [closing]) ++ after) =
      opening :: inside ++ [closing] := by
  have visible : Text.isBlank opening = false := by
    rcases kind with ⟨rfl, -⟩ | ⟨rfl, -⟩ <;> rfl
  have visible' : Text.isBlank closing = false := by
    rcases kind with ⟨-, rfl⟩ | ⟨-, rfl⟩ <;> rfl
  have blankReverse : IsBlank after.reverse := fun c member => blankAfter c (by simpa using member)
  have front : (before ++ (opening :: inside ++ [closing]) ++ after).dropWhile Text.isBlank =
      opening :: inside ++ [closing] ++ after := by
    rw [List.append_assoc, List.cons_append, List.cons_append, dropWhile_isBlank blank visible]
  have back : (opening :: inside ++ [closing] ++ after).reverse.dropWhile Text.isBlank =
      closing :: (opening :: inside).reverse := by
    rw [List.reverse_append, List.reverse_append]
    exact dropWhile_isBlank blankReverse visible'
  rw [Text.trimChars, Text.trimWhile, front, back]
  simp

theorem Spells.exists_braces {n : Nat} {cs : List Char} (h : Spells .object n cs) :
    ∃ inside, cs = '{' :: inside ++ ['}'] := by
  cases h with
  | emptyObject | members => exact ⟨_, rfl⟩

theorem members?_blank {before : List Char} (blank : IsBlank before) (cs : List Char) :
    members? (before ++ cs) = members? cs := by
  simp only [members?, skipSpace_blank blank]

/-- A document is read as the members of its object. -/
theorem readDocument_of_members {n : Nat} {text : String} {before cs after : List Char}
    {members : List (String × Source)} (blank : IsBlank before) (object : Spells .object n cs)
    (blankAfter : IsBlank after) (whole : text.toList = before ++ cs ++ after)
    (read : members? (cs ++ after) = some members) :
    Object.readDocument text = .ok { members := .ofList members } := by
  have notNull : isNull text.toList = false := by
    obtain ⟨inside, rfl⟩ := object.exists_braces
    rw [isNull, whole, trimChars_blank blank blankAfter (.inl ⟨rfl, rfl⟩)]
    simp
  have noEnd : Char.ofNat 0 ∉ text.toList := by
    simpa [whole] using ⟨blank.noEnd, object.noEnd, blankAfter.noEnd⟩
  rw [Object.readDocument, notNull, content_eq noEnd, whole, List.append_assoc,
    members?_blank blank, read]
  rfl

/-- An object reads the same with and without white space around it. -/
theorem readDocument_blank {n : Nat} {text : String} {before cs after : List Char}
    (blank : IsBlank before) (object : Spells .object n cs) (blankAfter : IsBlank after)
    (whole : text.toList = before ++ cs ++ after) (room : (n : Int) ≤ maxLevel) :
    Object.readDocument text = Object.readDocument (String.ofList cs) := by
  obtain ⟨members, read⟩ := object.members? room
  rw [readDocument_of_members blank object blankAfter whole (read after blankAfter),
    readDocument_of_members .nil object .nil (by simp) (read [] .nil)]

end Json

namespace Service

open Json

/-- The text of an array of documents. -/
def batch (documents : List String) : String := "[" ++ ",".intercalate documents ++ "]"

theorem toList_batch (texts : List String) :
    (batch texts).toList = '[' :: [','].intercalate (texts.map String.toList) ++ [']'] := by
  simp [batch, String.toList_intercalate]

/-- A document alone is a batch of one. -/
theorem documents_document {n : Nat} {text : String} (document : IsDocument n text) :
    documents text = .ok [text] := by
  obtain ⟨before, cs, after, blank, object, blankAfter, whole⟩ := document
  obtain ⟨inside, rfl⟩ := object.exists_braces
  have trimmed : Text.trim text = String.ofList ('{' :: inside ++ ['}']) := by
    rw [Text.trim, whole, trimChars_blank blank blankAfter (.inl ⟨rfl, rfl⟩)]
  simp [documents, trimmed]

theorem trim_batch (texts : List String) : Text.trim (batch texts) = batch texts := by
  have inner := @trimChars_blank [] [] ([','].intercalate (texts.map String.toList)) '[' ']'
    .nil .nil (.inr ⟨rfl, rfl⟩)
  rw [List.nil_append, List.append_nil] at inner
  rw [Text.trim, toList_batch, inner, ← toList_batch, String.ofList_toList]

theorem documents_of_elements {texts : List String} {source : Source} {sources : List Source}
    (noEnd : Char.ofNat 0 ∉ (batch texts).toList)
    (split : elements? (batch texts).toList = some (source :: sources)) :
    documents (batch texts) = .ok ((source :: sources).map String.ofList) := by
  have bracket : (batch texts).toList.head? = some '[' := by simp [toList_batch]
  simp [documents, trim_batch, bracket, content_eq noEnd, split]

theorem documents_of_no_elements {texts : List String}
    (noEnd : Char.ofNat 0 ∉ (batch texts).toList) (broken : elements? (batch texts).toList = none) :
    documents (batch texts) = .error (.malformed { flaw := .notBatch }) := by
  have bracket : (batch texts).toList.head? = some '[' := by simp [toList_batch]
  simp [documents, trim_batch, bracket, content_eq noEnd, broken]

theorem noEnd_batch {n : Nat} {texts : List String} (some : texts ≠ [])
    (each : ∀ text ∈ texts, IsDocument n text) : Char.ofNat 0 ∉ (batch texts).toList := by
  rw [toList_batch]
  refine (Spells.array (n := n) (by simpa using some) fun part member => ?_).noEnd
  obtain ⟨text, listed, rfl⟩ := List.mem_map.mp member
  obtain ⟨before, cs, after, blank, object, blankAfter, whole⟩ := each text listed
  rw [whole]
  exact .element blank object.object blankAfter

/-- An array is split into its documents, which then read as they do alone. -/
theorem documents_batch {texts : List String} (some : texts ≠ [])
    (each : ∀ text ∈ texts, IsDocument 9999 text) :
    ∃ objects, documents (batch texts) = .ok objects ∧
      objects.map Request.readPushdown = texts.map Request.readPushdown := by
  have split (text : String) (member : text ∈ texts) : ∃ cs, Reads value? text.toList cs ∧
      Request.readPushdown text = Request.readPushdown (String.ofList cs) := by
    obtain ⟨before, cs, after, blank, object, blankAfter, whole⟩ := each text member
    refine ⟨cs, ?_, ?_⟩
    · rw [whole]
      exact object.object.reads_value (by decide) blank blankAfter
    · rw [Request.readPushdown, Request.readPushdown, Request.read, Request.read,
        readDocument_blank blank object blankAfter whole (by decide)]
  obtain ⟨sources, all⟩ := exists_forall₂ split
  have elements : elements? (batch texts).toList = .some sources := by
    rw [toList_batch]
    refine elements?_intercalate ?_ (by simpa using some)
    exact List.forall₂_map_left_iff.mpr (all.imp fun _ _ => And.left)
  have same : texts.map Request.readPushdown =
      (sources.map String.ofList).map Request.readPushdown := by
    rw [List.map_map]
    exact List.forall₂_eq_eq_eq ▸ List.forall₂_map_left_iff.mpr (List.forall₂_map_right_iff.mpr
      (all.imp fun _ _ => And.right))
  cases sources with
  | nil =>
    cases all
    exact absurd rfl some
  | cons source sources =>
    exact ⟨_, documents_of_elements (noEnd_batch some each) elements, same.symm⟩

/-! ## What a batch returns -/

/-- What handling a text may return. The statements of a batch are generated on some schedule. -/
inductive Handles (s : Service) (text : String) : Except Failure (List String) → Prop
  | inOrder {r : Except Failure (List String)} (result : (s.handle false text).result = r) :
      Handles s text r
  | scheduled {texts : List String} {requests : List PushdownRequest}
      {r : Except Failure (List String)} (split : documents text = .ok texts)
      (several : texts.length ≠ 1) (read : (readFrom 0 texts).result = .ok requests)
      (returns : s.Returns (requests.map some) r) : Handles s text r

theorem readPushdown_result (text : String) :
    (readPushdown text).result = (Request.readPushdown text).mapError .ofRead := by
  unfold readPushdown
  cases Request.readPushdown text <;> rfl

/-- The statement of a document that is handled alone. -/
def ofDocument (s : Service) (text : String) : Except Failure String := do
  s.statement false (some (← (readPushdown text).result))

theorem handle_of_document (s : Service) (canceled : Bool) {text document : String}
    (split : documents text = .ok [document]) :
    (s.handle canceled text).result = (readPushdown document).result >>= fun q =>
      (fun sql => [sql]) <$> s.statement canceled (some q) := by
  rw [handle, split]
  simp only [Answer.bind_result, statement, Answer.pure_result]
  cases (readPushdown document).result with
  | error f => rfl
  | ok q =>
    cases generated : (s.pushdown canceled (some q)).result <;>
      simp [bind, Except.bind, Functor.map, Except.map, generated]

theorem handle_of_single (s : Service) {text document : String}
    (split : documents text = .ok [document]) :
    (s.handle false text).result = (fun sql => [sql]) <$> s.ofDocument document := by
  rw [handle_of_document s false split, ofDocument]
  cases (readPushdown document).result <;> rfl

theorem handle_of_several (s : Service) (canceled : Bool) {text : String} {texts : List String}
    (split : documents text = .ok texts) (several : texts.length ≠ 1) :
    (s.handle canceled text).result = (readFrom 0 texts).result >>= fun requests =>
      (s.pushdownAll canceled (requests.map some)).result := by
  rw [handle, split]
  match texts with
  | [] => rfl
  | [_] => exact absurd rfl several
  | _ :: _ :: _ => simp only [Answer.bind_result]

/-- The documents of a text are read in order, and their statements are generated only if all of
them can be read. -/
theorem Handles.of_documents {s : Service} {text : String} {texts : List String}
    {r : Except Failure (List String)} (handles : s.Handles text r)
    (split : documents text = .ok texts) :
    (∃ document, texts = [document] ∧ r = (fun sql => [sql]) <$> s.ofDocument document) ∨
    texts.length ≠ 1 ∧
      ((∃ f, inTurn 0 (texts.map fun text => (readPushdown text).result) = .error f ∧
        r = .error f) ∨
      ∃ requests : List PushdownRequest,
        texts.map (fun text => (readPushdown text).result) = requests.map .ok ∧
          s.Returns (requests.map some) r) := by
  by_cases single : texts.length = 1
  · obtain ⟨document, rfl⟩ := List.length_eq_one_iff.mp single
    refine .inl ⟨document, rfl, ?_⟩
    cases handles with
    | inOrder result => rw [← result, handle_of_single s split]
    | scheduled split' several =>
      rw [← Except.ok.inj (split.symm.trans split')] at several
      exact absurd rfl several
  · refine .inr ⟨single, ?_⟩
    cases handles with
    | inOrder result =>
      rw [← result, handle_of_several s false split single, readFrom_result]
      cases outcome : inTurn 0 (texts.map fun text => (readPushdown text).result) with
      | error f => exact .inl ⟨f, rfl, rfl⟩
      | ok requests => exact .inr ⟨requests, inTurn_eq_ok_iff.mp outcome, returns_pushdownAll ..⟩
    | scheduled split' _ read' returns =>
      rw [← Except.ok.inj (split.symm.trans split'), readFrom_result] at read'
      exact .inr ⟨_, inTurn_eq_ok_iff.mp read', returns⟩

/-- If a text is answered with statements, these are the statements of its documents. -/
theorem Handles.eq_ok_of_documents {s : Service} {text : String} {texts sqls : List String}
    (handles : s.Handles text (.ok sqls)) (split : documents text = .ok texts) :
    texts.map s.ofDocument = sqls.map .ok := by
  rcases handles.of_documents split with
    ⟨document, rfl, result⟩ | ⟨-, ⟨f, -, failed⟩ | ⟨requests, read, returns⟩⟩
  · obtain ⟨sql, generated, rfl⟩ := map_eq_ok.mp result.symm
    simp [generated]
  · cases failed
  · have statements := returns.eq_ok
    rw [List.map_map] at statements
    have whole : texts.map s.ofDocument =
        (texts.map fun text => (readPushdown text).result).map
          (· >>= fun q => s.statement false (.some q)) := by
      rw [List.map_map]
      rfl
    rw [whole, read, List.map_map]
    exact statements

/-- If a text is answered with a failure, it is that of one of its documents. -/
theorem Handles.eq_error_of_documents {s : Service} {text : String} {texts : List String}
    {f : Failure} (handles : s.Handles text (.error f)) (split : documents text = .ok texts) :
    ∃ i document e, texts[i]? = some document ∧ s.ofDocument document = .error e ∧
      f = if texts.length = 1 then e else e.ofRequest i := by
  rcases handles.of_documents split with
    ⟨document, rfl, result⟩ | ⟨several, ⟨f, unread, failed⟩ | ⟨requests, read, returns⟩⟩
  · exact ⟨0, document, f, rfl, map_eq_error.mp result.symm, rfl⟩
  · obtain rfl := Except.error.inj failed
    obtain ⟨before, e, after, parts, rfl⟩ := inTurn_eq_error_iff.mp unread
    have here : (texts.map fun text => (readPushdown text).result)[before.length]? =
        some (.error e) := by simp [parts]
    obtain ⟨document, listed, refused⟩ := by simpa using here
    refine ⟨before.length, document, e, listed, ?_, ?_⟩
    · rw [ofDocument, refused]
      rfl
    · rw [if_neg several, Nat.zero_add]
  · obtain ⟨i, q, e, request, refused, rfl, -⟩ := returns.eq_error
    obtain ⟨p, listed, rfl⟩ : ∃ p, requests[i]? = some p ∧ some p = q := by simpa using request
    have here : (texts.map fun text => (readPushdown text).result)[i]? = some (.ok p) := by
      simp [read, listed]
    obtain ⟨document, listed, readable⟩ := by simpa using here
    refine ⟨i, document, e, listed, ?_, ?_⟩
    · rw [ofDocument, readable]
      exact refused
    · rw [if_neg several]

theorem map_ofDocument_of_read {s : Service} {texts others : List String}
    (same : texts.map Request.readPushdown = others.map Request.readPushdown) :
    texts.map s.ofDocument = others.map s.ofDocument := by
  have unfolded : s.ofDocument = (fun r : Except ReadError PushdownRequest =>
      r.mapError Failure.ofRead >>= fun q => s.statement false (some q)) ∘ Request.readPushdown := by
    funext text
    rw [ofDocument, readPushdown_result]
    rfl
  rw [unfolded, ← List.map_map, ← List.map_map, same]

/-- A batch is handled as its documents would be if they stood alone. -/
theorem Handles.of_batch {s : Service} {texts : List String} {r : Except Failure (List String)}
    (handles : s.Handles (batch texts) r) (some : texts ≠ [])
    (each : ∀ text ∈ texts, IsDocument 9999 text) :
    (∃ text, texts = [text] ∧ r = (fun sql => [sql]) <$> s.ofDocument text) ∨
    texts.length ≠ 1 ∧
      ((∃ f, inTurn 0 (texts.map fun text => (readPushdown text).result) = .error f ∧
        r = .error f) ∨
      ∃ requests : List PushdownRequest,
        texts.map (fun text => (readPushdown text).result) = requests.map .ok ∧
          s.Returns (requests.map .some) r) := by
  obtain ⟨objects, split, same⟩ := documents_batch some each
  have sameLength : objects.length = texts.length := by simpa using congrArg List.length same
  have read : objects.map (fun text => (readPushdown text).result) =
      texts.map fun text => (readPushdown text).result := by
    have mapped := congrArg (List.map fun r => r.mapError Failure.ofRead) same
    simpa only [List.map_map, Function.comp_def, readPushdown_result] using mapped
  rcases handles.of_documents split with ⟨object, rfl, result⟩ | ⟨several, outcome⟩
  · obtain ⟨text, rfl⟩ := List.length_eq_one_iff.mp sameLength.symm
    have sameDocument : [s.ofDocument object] = [s.ofDocument text] := map_ofDocument_of_read same
    rw [(List.cons.inj sameDocument).1] at result
    exact .inl ⟨text, rfl, result⟩
  · rw [sameLength] at several
    rw [read] at outcome
    exact .inr ⟨several, outcome⟩

section

variable {s : Service} {texts : List String} {r : Except Failure (List String)}
  (handles : s.Handles (batch texts) r) (some : texts ≠ [])
  (each : ∀ text ∈ texts, IsDocument 9999 text)

include handles some each

theorem Handles.eq_ok {sqls : List String} (succeeded : r = .ok sqls) :
    texts.map s.ofDocument = sqls.map .ok := by
  obtain ⟨objects, split, same⟩ := documents_batch some each
  subst succeeded
  rw [← map_ofDocument_of_read same]
  exact handles.eq_ok_of_documents split

theorem Handles.eq_error {f : Failure} (failed : r = .error f) :
    ∃ text ∈ texts, ∃ e, s.ofDocument text = .error e := by
  obtain ⟨objects, split, same⟩ := documents_batch some each
  subst failed
  obtain ⟨i, object, e, listed, refused, -⟩ := handles.eq_error_of_documents split
  have member : .error e ∈ texts.map s.ofDocument := by
    rw [← map_ofDocument_of_read same, ← refused]
    exact List.mem_map_of_mem (List.mem_of_getElem? listed)
  obtain ⟨text, listed, refused⟩ := List.mem_map.mp member
  exact ⟨text, listed, e, refused⟩

theorem Handles.exists_ok_iff :
    (∃ sqls, r = .ok sqls) ↔ ∀ text ∈ texts, ∃ sql, s.ofDocument text = .ok sql := by
  constructor
  · rintro ⟨sqls, succeeded⟩ text listed
    have member : s.ofDocument text ∈ sqls.map .ok := by
      rw [← handles.eq_ok some each succeeded]
      exact List.mem_map_of_mem listed
    obtain ⟨sql, -, generated⟩ := List.mem_map.mp member
    exact ⟨sql, generated.symm⟩
  · intro all
    cases result : r with
    | ok sqls => exact ⟨sqls, rfl⟩
    | error f =>
      obtain ⟨text, listed, e, refused⟩ := handles.eq_error some each result
      obtain ⟨sql, generated⟩ := all text listed
      simp [refused] at generated

/-- The first document that cannot be read decides how a batch fails. -/
theorem Handles.eq_of_unreadable {before after : List String} {text : String} {e : Failure}
    (whole : texts = before ++ text :: after)
    (readable : ∀ other ∈ before, ∃ q, (readPushdown other).result = .ok q)
    (unreadable : (readPushdown text).result = .error e) :
    r = .error (if texts.length = 1 then e else e.ofRequest before.length) := by
  rcases handles.of_batch some each with ⟨only, rfl, result⟩ | ⟨several, outcome⟩
  · obtain ⟨rfl, rfl, rfl⟩ : before = [] ∧ only = text ∧ after = [] := by
      cases before <;> simp_all
    rw [result, ofDocument, unreadable]
    rfl
  · have parts : texts.map (fun text => (readPushdown text).result) =
        before.map (fun text => (readPushdown text).result) ++ .error e ::
          after.map fun text => (readPushdown text).result := by
      rw [whole, List.map_append, List.map_cons, unreadable]
    obtain ⟨requests, read⟩ : ∃ requests : List PushdownRequest,
        before.map (fun text => (readPushdown text).result) = requests.map .ok := by
      obtain ⟨requests, all⟩ := exists_forall₂ readable
      refine ⟨requests, List.forall₂_eq_eq_eq ▸ ?_⟩
      exact List.forall₂_map_left_iff.mpr (List.forall₂_map_right_iff.mpr all)
    have sameLength : requests.length = before.length := by
      simpa using congrArg List.length read.symm
    have first : inTurn 0 (texts.map fun text => (readPushdown text).result) =
        .error (e.ofRequest (0 + requests.length)) :=
      inTurn_eq_error_iff.mpr ⟨requests, e, _, parts.trans (by rw [read]), rfl⟩
    rw [sameLength, Nat.zero_add] at first
    rw [if_neg several]
    rcases outcome with ⟨f, failed, rfl⟩ | ⟨all, read, -⟩
    · rw [Except.error.inj (failed.symm.trans first)]
    · rw [inTurn_eq_ok_iff.mpr read] at first
      exact nomatch first

end

theorem handle_document (s : Service) {n : Nat} {text : String} (document : IsDocument n text) :
    (s.handle false text).result = (fun sql => [sql]) <$> s.ofDocument text :=
  handle_of_single s (documents_document document)

/-! ## A request with a member that nobody looks at -/

/-- Arrays within arrays. -/
def nested (depth : Nat) : List Char := List.replicate depth '[' ++ List.replicate depth ']'

theorem spells_nested (n depth : Nat) : Spells .value (n + depth + 1) (nested (depth + 1)) := by
  induction depth with
  | zero => exact .emptyArray .nil
  | succ depth ih =>
    have inner := Spells.element .nil ih .nil
    have outer := @Spells.array _ [nested (depth + 1)] (by simp) (by simpa using inner)
    have wrapped : nested (depth + 1 + 1) = '[' :: nested (depth + 1) ++ [']'] := by
      rw [nested, nested, List.replicate_succ, List.replicate_succ' (n := depth + 1)]
      simp
    rw [wrapped, ← Nat.add_assoc]
    simpa using outer

/-- A request with a member that nobody looks at. -/
def requestWith (ignored : List Char) : String :=
  String.ofList ('{' :: [','].intercalate ["\"type\":\"pushdown\"".toList,
    "\"pushdownRequest\":\x7b\"type\":\"select\"\x7d".toList, "\"x\":".toList ++ ignored] ++ ['}'])

/-- A string without escapes. -/
theorem isString_of_forall (cs : List Char)
    (plain : ∀ c ∈ cs, 0x20 ≤ c.toNat ∧ c ≠ '"' ∧ c ≠ '\\') : IsString cs := by
  induction cs with
  | nil => exact .nil
  | cons c cs ih =>
    obtain ⟨visible, noQuote, noEscape⟩ := plain c (by simp)
    have others := ih fun d member => plain d (List.mem_cons_of_mem c member)
    exact .char visible noQuote noEscape others

theorem spells_named {n : Nat} (name : List Char) {cs : List Char}
    (plain : ∀ c ∈ name, 0x20 ≤ c.toNat ∧ c ≠ '"' ∧ c ≠ '\\') (value : Spells .value n cs) :
    Spells .member n ('"' :: name ++ '"' :: ':' :: cs) := by
  simpa using Spells.member .nil (isString_of_forall name plain) .nil (.element .nil value .nil)

theorem reads_named {n : Nat} (name : List Char) {cs : List Char} {pieces : List Piece}
    (read : ∀ rest, pieces? (name ++ '"' :: rest) = some (pieces, rest))
    (value : Spells .value n cs) (room : (n : Int) < maxLevel) :
    Reads member? ('"' :: name ++ '"' :: ':' :: cs) (String.ofList (assemble pieces), cs) := by
  simpa using value.reads_named room read .nil .nil .nil .nil

theorem spells_select (n : Nat) :
    Spells .value (n + 1) "\x7b\"type\":\"select\"\x7d".toList := by
  refine .object (@Spells.members n ["\"type\":\"select\"".toList] (by simp) ?_)
  simpa using spells_named "type".toList (by simp)
    (.string (isString_of_forall "select".toList (by simp)))

section

variable {n : Nat} {ignored : List Char} (value : Spells .value (n + 1) ignored)

include value

theorem spells_requestWith : Spells .object (n + 2) (requestWith ignored).toList := by
  rw [requestWith, String.toList_ofList]
  refine .members (by simp) ?_
  simp only [List.mem_cons, List.not_mem_nil, or_false, forall_eq_or_imp, forall_eq]
  refine ⟨?_, ?_, ?_⟩
  · exact spells_named "type".toList (by simp)
      (.string (isString_of_forall "pushdown".toList (by simp)))
  · exact spells_named "pushdownRequest".toList (by simp) (spells_select n)
  · exact spells_named "x".toList (by simp) value

/-- The member that nobody looks at only has to end somewhere. -/
theorem readPushdown_requestWith (room : (n + 1 : Int) < maxLevel) :
    Request.readPushdown (requestWith ignored) =
      .ok { statement := some { list := { star := true, items := [] } } } := by
  have spelled := spells_requestWith value
  have whole : (requestWith ignored).toList = [] ++ (requestWith ignored).toList ++ [] := by simp
  have members : members? ((requestWith ignored).toList ++ []) = some
      [("type", "\"pushdown\"".toList),
        ("pushdownRequest", "\x7b\"type\":\"select\"\x7d".toList), ("x", ignored)] := by
    rw [requestWith, String.toList_ofList]
    refine members?_intercalate ?_ (by simp) .nil
    refine .cons ?_ (.cons ?_ (.cons ?_ .nil))
    · exact reads_named "type".toList (fun _ => rfl) (n := 0)
        (.string (isString_of_forall "pushdown".toList (by simp))) (by decide)
    · exact reads_named "pushdownRequest".toList (fun _ => rfl) (spells_select n)
        (by simpa using room)
    · exact reads_named "x".toList (fun _ => rfl) value (by simpa using room)
  rw [Request.readPushdown, Request.read, readDocument_of_members .nil spelled .nil whole members]
  rfl

theorem isDocument_requestWith : IsDocument (n + 2) (requestWith ignored) :=
  ⟨[], _, [], .nil, spells_requestWith value, .nil, by simp⟩

theorem ofDocument_requestWith (room : (n + 1 : Int) < maxLevel) :
    ofDocument {} (requestWith ignored) = .ok "SELECT *" := by
  have target : target {} { statement := some { list := { star := true, items := [] } } } =
      .ok { dialect := Builtin.exasol.build {}, context := {} } := rfl
  have generated : generate { dialect := Builtin.exasol.build {}, context := {} }
      (some { list := { star := true, items := [] } }) = .ok "SELECT *" := by
    rw [generate, Dialect.generate, Render.node_select rfl, Render.node_selectList rfl]
    rfl
  have stated : statement {} false
      (some { statement := some { list := { star := true, items := [] } } }) = .ok "SELECT *" := by
    rw [statement, pushdown, target]
    simp only [Bool.false_eq_true, if_false, generated]
    rfl
  rw [ofDocument, readPushdown_result, readPushdown_requestWith value room]
  exact stated

end

/-- The scan for the end of the request gives up in an array of too many levels. -/
theorem value?_deep {depth : Nat} (deep : maxLevel ≤ 2 + (depth : Int)) (rest : List Char) :
    value? ((requestWith (nested (depth + 1))).toList ++ rest) = none := by
  let front := "\"type\":\"pushdown\"".toList ++ [','] ++
    ("\"pushdownRequest\":\x7b\"type\":\"select\"\x7d".toList ++ [','] ++ "\"x\":".toList)
  have passes : Passes 1 front := by
    refine .append (.append (Spells.passes (p := .member) ?_) (.of_forall (by simp)))
      (.append (.append (Spells.passes (p := .member) ?_) (.of_forall (by simp))) ?_)
    · exact spells_named "type".toList (by simp)
        (.string (isString_of_forall "pushdown".toList (by simp)))
    · exact spells_named "pushdownRequest".toList (by simp) (spells_select 0)
    · exact .append (.quoted (isString_of_forall "x".toList (by simp)))
        (show Passes 1 [':'] from .of_forall (by simp))
  have whole : (requestWith (nested (depth + 1))).toList ++ rest = '{' :: (front ++
      (List.replicate depth '[' ++ '[' :: (List.replicate (depth + 1) ']' ++ '}' :: rest))) := by
    rw [requestWith, String.toList_ofList, nested, List.replicate_succ' (a := '[')]
    simp only [front, List.intercalate_cons_cons, List.intercalate_singleton, List.append_assoc,
      List.cons_append, List.nil_append]
  have unended : valueLength? ((requestWith (nested (depth + 1))).toList ++ rest) = none := by
    rw [whole, valueLength?, passes '{' '}' (.inl ⟨rfl, rfl⟩) 0 2 1 _ (by decide),
      containerLength?_deep (.inr rfl) deep]
  have start : skipSpace ((requestWith (nested (depth + 1))).toList ++ rest) =
      (requestWith (nested (depth + 1))).toList ++ rest := by
    rw [whole, skipSpace_cons (by decide)]
  rw [value?, start, unended]
  rfl

theorem elements?_deep {depth : Nat} (deep : maxLevel ≤ 2 + (depth : Int)) :
    elements? (batch [requestWith (nested (depth + 1))]).toList = none := by
  have first : ∃ rest,
      skipSpace ((requestWith (nested (depth + 1))).toList ++ [']']) = '{' :: rest := by
    rw [requestWith, String.toList_ofList, List.cons_append, List.cons_append,
      skipSpace_cons (by decide)]
    exact ⟨_, rfl⟩
  obtain ⟨rest, first⟩ := first
  rw [toList_batch, List.map_singleton, List.intercalate_singleton, elements?_brackets,
    parts?_none first (by decide) (value?_deep deep [']'])]
  rfl

/-! ## Batches against documents alone -/

end Service

end Pushdown
