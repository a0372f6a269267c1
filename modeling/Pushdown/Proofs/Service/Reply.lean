import Pushdown.Proofs.Json.Writing
import Pushdown.Proofs.Service.Batch
import Pushdown.Proofs.Service.Capabilities

/-!
# What a reply says

A request is answered with a document or handled for its statements alone. Both go the same way, so
they fail alike, and the document holds the statement that is handled, whatever its text is. The
texts of a reply are read back from the document in which they are written.
-/

namespace Pushdown

open Json

namespace Reply

variable (r : Reply)

/-- The members of the document; those without content are left out. -/
def members : List (String × TextValue) :=
  ("type", .text r.type.name) ::
    ((if r.sql = "" then [] else [("sql", .text r.sql)]) ++
      (if r.dialect = "" then [] else [("dialect", .text r.dialect)]) ++
      if r.capabilities.isEmpty then [] else [("capabilities", .texts r.capabilities)])

theorem decodes_textMember (name text : String) :
    List.Forall₂ Decodes (textMember name text)
      (if text = "" then [] else [(name, .text text)]) := by
  unfold textMember
  split
  · exact .nil
  · exact .cons (.text name text) .nil

theorem decodes_listMember (name : String) (texts : List String) :
    List.Forall₂ Decodes (listMember name texts)
      (if texts.isEmpty then [] else [(name, .texts texts)]) := by
  unfold listMember
  split
  · exact .nil
  · rename_i filled
    have listed : texts ≠ [] := by simpa using filled
    have decodes := Decodes.texts name listed
    have same (list : String) : writeString name ++ ":[" ++ list ++ "]" =
        writeString name ++ ":" ++ ("[" ++ list ++ "]") := by
      apply String.toList_injective
      simp
    rw [← same] at decodes
    exact .cons decodes .nil

/-- The document of a reply is read back as the members of the reply. -/
theorem textMembers?_write : IsDocument 2 r.write ∧ textMembers? r.write = some r.members := by
  refine textMembers?_of_decodes (.cons (.text "type" r.type.name) ?_) (List.cons_ne_nil _ _)
  refine List.rel_append (List.rel_append ?_ ?_) ?_
  · exact decodes_textMember "sql" r.sql
  · exact decodes_textMember "dialect" r.dialect
  · exact decodes_listMember "capabilities" r.capabilities

end Reply

namespace Builtin

variable (b : Builtin) (notes : Notes)

theorem id_build : (b.build notes).id = b.id := by cases b <;> rfl

theorem id_ne_empty : b.id ≠ "" := by cases b <;> decide

theorem generate_ne_empty {ctx : Context} {statement : Statement} {sql : String}
    (generated : (b.build notes).generate ctx (some (.select statement)) = .ok sql) : sql ≠ "" := by
  simp only [Dialect.generate, bind_eq_ok, pure_eq_ok] at generated
  obtain ⟨fragments, rendered, rfl⟩ := generated
  obtain ⟨rest, rfl⟩ := Render.select_eq_ok_starts (b.lossless notes).unmarked rendered
  intro empty
  have none := congrArg String.toList empty
  simp [Sql.write_cons, Fragment.write] at none

theorem names_ne_nil : (b.build notes).profile.names ≠ [] := by
  intro none
  have reported := (Profile.mem_names_capability .extract).mpr (b.has_extract notes)
  rw [none] at reported
  contradiction

end Builtin

namespace Service

variable {s : Service} {canceled : Bool} {text : String}

theorem bind_map_eq_error {ε α β γ : Type} {x : Except ε α} {y : α → Except ε β} {f : β → γ}
    {e : ε} : (x >>= fun a => f <$> y a) = .error e ↔ (x >>= y) = .error e := by
  simp only [bind_eq_error, map_eq_error]

/-- A document is handled for the statement of its pushdown. -/
theorem handle_pushdown {n : Nat} (document : IsDocument n text) :
    (s.handle canceled text).result = (readPushdown text).result >>= fun q =>
      (fun g => [g.sql]) <$> (s.pushdown canceled (some q)).result := by
  rw [handle, documents_document document]
  simp only [Answer.bind_result, Answer.pure_result]
  rfl

/-- A pushdown is answered with its statement and its dialect. -/
theorem respond_pushdown (asks : ∀ r, Request.read text = .ok r → r.type = .pushdown) :
    (s.respond canceled text).result = (readPushdown text).result >>= fun q =>
      (fun g => { type := .pushdown, sql := g.sql, dialect := g.dialect }) <$>
        (s.pushdown canceled (some q)).result := by
  rw [readPushdown_result]
  cases read : Request.read text with
  | error e =>
    have unread : Request.readPushdown text = .error e := by
      rw [Request.readPushdown, read]
      rfl
    rw [respond, read, unread]
    rfl
  | ok r =>
    obtain ⟨p, given, -⟩ := Request.schema_of_pushdown read (asks r read)
    rw [respond_to_pushdown read (asks r read), given, Request.readPushdown_of_read read given]
    rfl

/-- What a pushdown that succeeds returns. -/
theorem pushdown_succeeds {q : PushdownRequest} {g : Generated}
    (succeeded : (s.pushdown canceled (some q)).result = .ok g) :
    ∃ t, s.target q = .ok t ∧ g.dialect = t.dialect.id ∧ g.sql ≠ "" ∧ g.dialect ≠ "" := by
  have active : canceled = false := by
    cases canceled with
    | false => rfl
    | true => simp [pushdown, Answer.fail] at succeeded
  subst active
  obtain ⟨t, statement, chosen, named, generated⟩ := pushdown_eq_ok succeeded
  obtain ⟨b, built⟩ := exists_builtin (target_dialect chosen)
  have id : g.dialect = b.id := by rw [named, built, b.id_build]
  refine ⟨t, chosen, named, ?_, ?_⟩
  · rw [built] at generated
    exact b.generate_ne_empty _ generated
  · rw [id]
    exact b.id_ne_empty

end Service

end Pushdown
