import Mathlib.Data.List.Forall2
import Pushdown.Proofs.Dialect.Reserved
import Pushdown.Proofs.Request.WellFormed
import Pushdown.Proofs.Sql.Erasure
import Pushdown.Proofs.Sql.Statement

/-!
# No text of a request leaves its place

The text of a statement is scanned to exactly the fragments that it was put together from: every
name is one identifier that reads as the name, every text is one string constant that reads as the
text, and nothing else holds quotes, comments or the end of a statement. The contents of names and
texts therefore change nothing but their own tokens.
-/

namespace Pushdown

/-- The name that a dialect reads from a token, if the token can be an identifier. -/
def Token.name? (p : Profile) : Token → Option String
  | .quoted name => some name
  | .word text => if p.reserved.contains (Text.upper text) then none else some (p.fold text)
  | _ => none

/-- The tokens are how the dialect reads the fragment. -/
def Fragment.ReadsAs (p : Profile) : Fragment → List Token → Prop
  | .raw s, ts => ts = Lexer.plainTokens s.toList ∧ ∀ t ∈ ts, t.isHarmless
  | .name s, ts => ∃ t, ts = [t] ∧ t.name? p = some s
  | .text s, ts => ts = [.string s]

/-- The text is scanned to the fragments, one after another, and to nothing else. -/
def Sql.ReadFrom (p : Profile) (fragments : Sql) (text : String) : Prop :=
  ∃ groups, Lexer.scan p text.toList = some groups.flatten ∧
    List.Forall₂ (Fragment.ReadsAs p) fragments groups

section

variable {p : Profile} {quoteNames : Bool}

/-- A name is written so that the dialect reads it back. -/
theorem Fragment.name_readsAs (quoteNames : Bool) (a : String) :
    (Fragment.name a).ReadsAs p ((Fragment.name a).tokens p quoteNames) := by
  simp only [ReadsAs, tokens]
  refine ⟨_, rfl, ?_⟩
  split
  · rfl
  · rename_i bare
    simp only [Bool.or_eq_true, not_or, Bool.not_eq_true] at bare
    obtain ⟨-, free, kept⟩ := Profile.bare_of_needsQuotes bare.2
    simp [Token.name?, free, kept]

/-- The text of a phrase is read fragment by fragment. -/
theorem Phrase.readFrom {quiet : Bool} {s : Sql} (h : Phrase p quoteNames quiet s) :
    s.ReadFrom p (s.write p quoteNames) := by
  refine ⟨s.map (Fragment.tokens p quoteNames), h.scanned, ?_⟩
  rw [List.forall₂_map_right_iff, List.forall₂_same]
  intro f member
  cases f with
  | raw text => exact ⟨rfl, List.all_eq_true.mp (h.plain text member).2⟩
  | name a => exact Fragment.name_readsAs quoteNames a
  | text a => rfl

end

/-- What the text of a tree is put together from. -/
theorem Dialect.Readable.generate_phrase {d : Dialect} (readable : d.Readable) {ctx : Context}
    {n : Node} (wellFormed : n.WellFormed) {sql : String} (generated : d.generate ctx (some n) = .ok sql) :
    ∃ fragments, Render.node d ctx n = .ok fragments ∧
      fragments.write d.profile ctx.quoteNames = sql ∧
      Phrase d.profile ctx.quoteNames false fragments := by
  simp only [Dialect.generate, bind_eq_ok, pure_eq_ok] at generated
  obtain ⟨fragments, rendered, written⟩ := generated
  exact ⟨fragments, rendered, written,
    (Render.node_rendered readable wellFormed fragments rendered).phrase⟩

/-- The statement of every request reads back, fragment by fragment, in every built-in dialect. A
tree that differs from it only in the contents of names and texts is written with the same
fragments but for these contents, and its text reads back in the same way. -/
theorem Builtin.generate_readsAs (b : Builtin) (notes : Notes)
    (mark : b = .generic → notes.NamesMark) (ctx : Context) {text : String} {r : PushdownRequest}
    (read : Request.readPushdown text = .ok r) {sql : String}
    (generated : (b.build notes).generate ctx (r.statement.map .select) = .ok sql) :
    ∃ s fragments, r.statement = some s ∧
      Render.node (b.build notes) ctx (.select s) = .ok fragments ∧
      fragments.write (b.build notes).profile ctx.quoteNames = sql ∧
      fragments.ReadFrom (b.build notes).profile sql ∧
      ∀ (n : Node) (other : String), n.WellPlaced → n.mask = (Node.select s).mask →
        (b.build notes).generate ctx (some n) = .ok other →
        ∃ fragments', Render.node (b.build notes) ctx n = .ok fragments' ∧
          fragments'.write (b.build notes).profile ctx.quoteNames = other ∧
          fragments'.ReadFrom (b.build notes).profile other ∧
          fragments'.erase = fragments.erase := by
  have readable := b.readable notes mark
  obtain ⟨s, stated, placed⟩ := Request.readPushdown_wellPlaced read
  rw [stated] at generated
  obtain ⟨fragments, rendered, rfl, phrase⟩ := readable.generate_phrase placed.wellFormed generated
  refine ⟨s, fragments, stated, rendered, rfl, phrase.readFrom, ?_⟩
  intro n other placed' same generated'
  obtain ⟨fragments', rendered', rfl, phrase'⟩ :=
    readable.generate_phrase placed'.wellFormed generated'
  exact ⟨fragments', rendered', rfl, phrase'.readFrom,
    Render.node_erase_of_mask readable.unmarked same rendered' rendered⟩

/-- A table whose name holds quotes, a semicolon and a comment reads back as one identifier. -/
theorem Builtin.postgreSql_readsAs_hostile_names :
    let text := "\x7b\"type\":\"pushdown\",\"involvedTables\":[],\"pushdownRequest\":\x7b" ++
      "\"type\":\"select\",\"from\":\x7b\"type\":\"table\",\"name\":\"a\\\"b; --\"\x7d," ++
      "\"selectList\":[\x7b\"type\":\"literal_string\",\"value\":\"it's\"\x7d]\x7d\x7d"
    let sql := "SELECT 'it''s' FROM \"a\"\"b; --\""
    let d := Builtin.postgreSql.build {}
    ∃ r fragments, Request.readPushdown text = .ok r ∧
      d.generate {} (r.statement.map .select) = .ok sql ∧
      Sql.write d.profile false fragments = sql ∧ Sql.ReadFrom d.profile fragments sql := by
  intro text sql d
  have joined (a b c : List Char) :
      String.ofList a ++ String.ofList b ++ String.ofList c = String.ofList (a ++ b ++ c) := by
    rw [String.ofList_append, String.ofList_append]
  have words : ∀ word, word ∈ d.profile.reserved ↔ _ := fun _ => Builtin.mem_postgreSql_reserved
  have evaluated : (Request.readPushdown text).toOption.bind (fun r =>
      (d.generate {} (r.statement.map .select)).toOption) = some sql := by
    have same : text = String.ofList _ := joined _ _ _
    simp only [Dialect.generate_of_reserved words]
    rw [same, Request.readPushdown, Request.read, Object.readDocument_ofList]
    decide +kernel
  obtain ⟨r, accepted, generated⟩ := Option.bind_eq_some_iff.mp evaluated
  have ok {ε α : Type} {x : Except ε α} {a : α} (h : x.toOption = some a) : x = .ok a := by
    cases x <;> simp_all [Except.toOption]
  have unnamed : Builtin.postgreSql = .generic → Notes.NamesMark {} := by simp
  obtain ⟨-, fragments, -, -, written, readFrom, -⟩ :=
    Builtin.generate_readsAs .postgreSql {} unnamed {} (ok accepted) (ok generated)
  exact ⟨r, fragments, ok accepted, ok generated, written, readFrom⟩

end Pushdown
