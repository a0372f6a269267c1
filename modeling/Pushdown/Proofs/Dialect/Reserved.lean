import Pushdown.Dialect.Builtin
import Pushdown.Proofs.Text.Case
import Pushdown.Sql.Render

/-!
# Reserved words

Writing a statement only asks of a word whether it is reserved. It does not matter in which order the
reserved words are listed, nor how often.
-/

namespace Pushdown

/-- What a list in capital letters adds to the standard words. -/
theorem mem_reservedWords {extra : List String}
    (capital : extra.all fun word =>
      word.toList.all fun c => Text.isAscii c && Text.upperChar c == c) {word : String} :
    word ∈ reservedWords extra ↔ word ∈ standardReserved ++ extra := by
  have same : extra.map Text.upperFully = extra := by
    refine Eq.trans (List.map_congr_left fun given member => ?_) (List.map_id extra)
    have letters := List.all_eq_true.mp (List.all_eq_true.mp capital given member)
    rw [Text.upperFully_of_ascii fun c inside => (Bool.and_eq_true_iff.mp (letters c inside)).1]
    exact Text.upper_of_forall fun c inside =>
      eq_of_beq (Bool.and_eq_true_iff.mp (letters c inside)).2
  rw [reservedWords, List.mem_eraseDups, same]

namespace Builtin

theorem mem_sqlServer_reserved {word : String} :
    word ∈ sqlServerProfile.reserved ↔ word ∈ standardReserved ++ [
      "BACKUP", "BROWSE", "BULK", "CLUSTERED", "DATABASE", "DBCC", "DENY", "DUMP", "FILE",
      "IDENTITY", "KEY", "NOCHECK", "NONCLUSTERED", "OPENQUERY", "PERCENT", "PIVOT", "PLAN",
      "PROC", "PROCEDURE", "TOP", "TRAN", "UNPIVOT"] := by
  simp only [sqlServerProfile]
  rw [mem_reservedWords]
  decide +kernel

theorem mem_postgreSql_reserved {word : String} :
    word ∈ postgreSqlProfile.reserved ↔ word ∈ standardReserved ++ [
      "ANALYSE", "ANALYZE", "ARRAY", "ASYMMETRIC", "CONCURRENTLY", "FREEZE", "ILIKE", "ISNULL",
      "LATERAL", "NOTNULL", "OFFSET", "OVERLAPS", "PLACING", "RETURNING", "SIMILAR", "VARIADIC",
      "VERBOSE", "WINDOW"] := by
  simp only [postgreSqlProfile]
  rw [mem_reservedWords]
  decide +kernel

end Builtin

variable {words : List String}

theorem Profile.needsQuotes_of_reserved {p : Profile}
    (same : ∀ word, word ∈ p.reserved ↔ word ∈ words) (name : String) :
    ({ p with reserved := words } : Profile).needsQuotes name = p.needsQuotes name := by
  have reserved : words.contains (Text.upper name) = p.reserved.contains (Text.upper name) := by
    simp [same]
  simp only [needsQuotes, reserved]

theorem Profile.writeName_of_reserved {p : Profile}
    (same : ∀ word, word ∈ p.reserved ↔ word ∈ words) (always : Bool) (name : String) :
    ({ p with reserved := words } : Profile).writeName always name = p.writeName always name := by
  simp only [writeName, needsQuotes_of_reserved same, quotedName]

theorem Sql.write_of_reserved {p : Profile} (same : ∀ word, word ∈ p.reserved ↔ word ∈ words)
    (quoteNames : Bool) (s : Sql) :
    s.write { p with reserved := words } quoteNames = s.write p quoteNames := by
  have each (f : Fragment) :
      f.write { p with reserved := words } quoteNames = f.write p quoteNames := by
    cases f with
    | name s => exact Profile.writeName_of_reserved same quoteNames s
    | raw s | text s => rfl
  rw [Sql.write, Sql.write, List.map_congr_left fun f _ => each f]

/-- A statement may be written out with the reserved words in another list. -/
theorem Dialect.generate_of_reserved {d : Dialect}
    (same : ∀ word, word ∈ d.profile.reserved ↔ word ∈ words) (ctx : Context) (n : Option Node) :
    d.generate ctx n =
      n.elim (.error { dialect := d.id, node := "", feature := "empty statement" }) fun n =>
        (Render.node d ctx n).map
          (Sql.write { d.profile with reserved := words } ctx.quoteNames) := by
  cases n with
  | none => rfl
  | some n =>
    simp only [Dialect.generate, Option.elim_some]
    cases Render.node d ctx n with
    | error e => rfl
    | ok s => exact congrArg Except.ok (Sql.write_of_reserved same ctx.quoteNames s).symm

end Pushdown
