import Pushdown.Proofs.Dialect.Reserved
import Pushdown.Proofs.Sql.ClauseWords
import Pushdown.Proofs.Sql.Injection

/-!
# Join trees read back

The items of a FROM clause are read from left to right. At every JOIN, whatever was read before it
becomes the left side of the join, so joins associate to the left. What stands between JOIN and the
first ON behind it is the right side, and what follows up to the next JOIN is the condition. A join
in parentheses is read by itself.

A join on the right stands in parentheses and a join on the left does not. Since neither a source
nor a condition shows a JOIN, and a source shows no ON, every tree comes back as it was.
-/

namespace Pushdown

open Grouping (Groups)
open Render (node asPredicate Ensures)

/-! ## Reading -/

/-- A tree of joins as it is read, with the items of its sources and conditions. -/
inductive JoinTree where
  | source (items : List Item)
  | join (type : JoinType) (left right : JoinTree) (condition : List Item)
deriving Inhabited

namespace JoinTree

/-- An item with the join tree inside of it, if it is a group. -/
abbrev Entry := Pushdown.Entry (Option JoinTree)

def token? (e : Entry) : Option Token := e.item.token?

def isWord (word : String) (e : Entry) : Bool := (token? e).any (Token.isWord word)

/-- What stands in front of JOIN in the joins that the dialects write. -/
def writtenTypes : List (List String × JoinType) :=
  [(["INNER"], .inner), (["LEFT", "OUTER"], .left), (["RIGHT", "OUTER"], .right),
    (["FULL", "OUTER"], .full)]

/-- What may stand in front of JOIN; nothing means an inner join. -/
def typeEndings : List (List String × JoinType) :=
  writtenTypes ++ [(["LEFT"], .left), (["RIGHT"], .right), (["FULL"], .full)]

/-- Read a source or, in parentheses, a join. -/
def ofSource : List Entry → Option JoinTree
  | [] => none
  | [⟨.group .paren _, inside⟩] => inside.join
  | es => some (source (es.map Entry.item))

/-- Read what stands behind a JOIN. -/
def ofJoined (left : Option JoinTree) (type : JoinType) (es : List Entry) : Option JoinTree :=
  match es.dropWhile (!isWord "ON" ·) with
  | [] => none
  | _ :: condition => do
    let right ← ofSource (es.takeWhile (!isWord "ON" ·))
    return join type (← left) right (condition.map Entry.item)

/-- What stands before the last JOIN, with the type of the join, and the entries behind it. -/
abbrev State := Option (Option JoinTree × JoinType) × List Entry

/-- The tree of what has been read. -/
def finish (s : State) : Option JoinTree :=
  match s.1 with
  | none => ofSource s.2
  | some (left, type) => ofJoined left type s.2

def step (s : State) (e : Entry) : State :=
  if isWord "JOIN" e then
    let operand := splitEnding token? typeEndings .inner s.2
    (some (finish (s.1, operand.1), operand.2), [])
  else (s.1, s.2 ++ [e])

/-- Read a FROM clause. -/
def ofEntries (es : List Entry) : Option JoinTree := finish (es.foldl step (none, []))

/-- The items of a FROM clause with the trees inside of its groups. -/
def entries (items : List Item) : List Entry := Item.entries (fun _ => ofEntries) items

end JoinTree

/-- Read the text of a FROM clause. -/
def readJoins (p : Profile) (text : String) : Option JoinTree :=
  (textItems? p text).bind fun items => JoinTree.ofEntries (JoinTree.entries items)

/-! ## Steps -/

namespace JoinTree

/-- Entries without a JOIN are kept. -/
theorem foldl_step {es : List Entry} (never : ∀ e ∈ es, isWord "JOIN" e = false) (s : State) :
    es.foldl step s = (s.1, s.2 ++ es) := by
  induction es generalizing s with
  | nil => simp
  | cons e es ih =>
    have here : step s e = (s.1, s.2 ++ [e]) := by simp [step, never e (by simp)]
    rw [List.foldl_cons, here, ih fun e member => never e (List.mem_cons_of_mem _ member)]
    simp

theorem ofEntries_of_source {es : List Entry} (never : ∀ e ∈ es, isWord "JOIN" e = false) :
    ofEntries es = ofSource es := by
  rw [ofEntries, foldl_step never, List.nil_append]
  rfl

/-- The words of a join. -/
def words (names : List String) : List Entry := names.map fun name => .ofToken (.word name)

/-- The type of a join is found in front of it. -/
theorem splitEnding_type {names : List String} {type : JoinType}
    (written : (names, type) ∈ writtenTypes) (es : List Entry) :
    splitEnding token? typeEndings .inner (es ++ words names) = (es, type) := by
  apply splitEnding_append
  intro rest
  simp only [writtenTypes, List.mem_cons, Prod.mk.injEq, List.not_mem_nil, or_false] at written
  rcases written with ⟨rfl, rfl⟩ | ⟨rfl, rfl⟩ | ⟨rfl, rfl⟩ | ⟨rfl, rfl⟩ <;> rfl

/-- The right side of a join ends at the first ON. -/
theorem ofJoined_on {right condition : List Entry} (never : ∀ e ∈ right, isWord "ON" e = false)
    (left : Option JoinTree) (type : JoinType) :
    ofJoined left type (right ++ words ["ON"] ++ condition) = (do
      let r ← ofSource right
      return join type (← left) r (condition.map Entry.item)) := by
  have on : isWord "ON" (.ofToken (.word "ON")) = true := by decide
  have passed : ∀ e ∈ right, (!isWord "ON" e) = true := fun e member => by simp [never e member]
  have split : right ++ words ["ON"] ++ condition =
      right ++ Entry.ofToken (.word "ON") :: condition := by simp [words]
  rw [ofJoined, split, List.dropWhile_append_of_pos passed, List.takeWhile_append_of_pos passed]
  simp [on]

/-- Everything in front of the last JOIN is its left side. -/
theorem ofEntries_join {names : List String} {type : JoinType}
    (written : (names, type) ∈ writtenTypes) (left : List Entry) {right condition : List Entry}
    (unjoined : ∀ e ∈ right ++ condition, isWord "JOIN" e = false)
    (closed : ∀ e ∈ right, isWord "ON" e = false) :
    ofEntries (left ++ words (names ++ ["JOIN"]) ++ right ++ words ["ON"] ++ condition) = (do
      let r ← ofSource right
      return join type (← ofEntries left) r (condition.map Entry.item)) := by
  have join : isWord "JOIN" (.ofToken (.word "JOIN")) = true := by decide
  have on : isWord "JOIN" (.ofToken (.word "ON")) = false := by decide
  have types : ∀ entry ∈ writtenTypes, ∀ e ∈ words entry.1, isWord "JOIN" e = false := by
    have known : ∀ entry ∈ writtenTypes, ∀ name ∈ entry.1,
      (Token.word name).isWord "JOIN" = false := by decide
    intro entry member e inside
    obtain ⟨name, listed, rfl⟩ := List.mem_map.mp inside
    exact known entry member name listed
  have behind : ∀ e ∈ right ++ words ["ON"] ++ condition, isWord "JOIN" e = false := by
    simp only [List.mem_append, words, List.map_cons, List.map_nil, List.mem_singleton] at unjoined ⊢
    rintro e ((member | rfl) | member)
    · exact unjoined e (.inl member)
    · exact on
    · exact unjoined e (.inr member)
  have split : left ++ words (names ++ ["JOIN"]) ++ right ++ words ["ON"] ++ condition =
      left ++ (words names ++ Entry.ofToken (.word "JOIN") ::
        (right ++ words ["ON"] ++ condition)) := by
    simp [words]
  rw [split, ofEntries, List.foldl_append, List.foldl_append, foldl_step (types _ written),
    List.foldl_cons, step, if_pos join, splitEnding_type written, foldl_step behind]
  exact ofJoined_on closed _ type

end JoinTree

/-! ## Sources -/

/-- Neither JOIN nor ON. -/
def Token.isUnjoined (t : Token) : Bool := !t.isWord "JOIN" && !t.isWord "ON"

theorem Token.isUnjoined_of_isContent (t : Token) (h : t.isContent) : t.isUnjoined := by
  have join : t.isWord "JOIN" = false := isWord_of_isContent h (by decide)
  have on : t.isWord "ON" = false := isWord_of_isContent h (by decide)
  simp [isUnjoined, join, on]

namespace JoinTree

/-- No JOIN and no ON is among the items. -/
def Unjoined (items : List Item) : Prop := ∀ i ∈ items, ∀ t ∈ i.token?, t.isUnjoined

theorem entries_append (is js : List Item) : entries (is ++ js) = entries is ++ entries js :=
  Item.entries_append _ is js

theorem entries_wordItems (names : List String) : entries (wordItems names) = words names := by
  simp [entries, Item.entries_eq_map, wordItems, words, Item.entry, Function.comp_def]

theorem entries_items (items : List Item) : (entries items).map Entry.item = items :=
  Item.entries_items _ items

theorem Unjoined.entries {items : List Item} (h : Unjoined items) :
    ∀ e ∈ entries items, isWord "JOIN" e = false ∧ isWord "ON" e = false := by
  intro e member
  have listed : e.item ∈ items := by
    rw [← entries_items items]
    exact List.mem_map_of_mem member
  have known := h e.item listed
  unfold isWord token?
  cases found : e.item.token? with
  | none => exact ⟨rfl, rfl⟩
  | some t => simpa [Token.isUnjoined] using known t found

/-- What stands in parentheses is read by itself. -/
theorem ofSource_group (items : List Item) :
    ofSource (entries [.group .paren items]) = ofEntries (entries items) := rfl

/-- Anything else is a source. -/
theorem ofSource_entries {items : List Item} (nonempty : items ≠ [])
    (other : ∀ inner, items ≠ [.group .paren inner]) :
    ofSource (entries items) = some (source items) := by
  have same := entries_items items
  unfold ofSource
  split
  · rename_i empty
    simp [empty] at same
    exact absurd same nonempty
  · rename_i inner inside enclosed
    rw [enclosed] at same
    exact absurd same.symm (other inner)
  · rw [same]

end JoinTree

namespace Render

variable {d : Dialect} {ctx : Context}

/-- The words of a join, with JOIN behind them. -/
theorem joinKeyword_tokens {type : JoinType} {keyword : String}
    (h : joinKeyword d type = .ok keyword) :
    ∃ names, (names, type) ∈ JoinTree.writtenTypes ∧
      Lexer.plainTokens (" " ++ keyword ++ " ").toList = (names ++ ["JOIN"]).map .word := by
  cases type <;>
    simp only [joinKeyword, bind_eq_ok, pure_eq_ok, require_eq_ok, refuse, reduceCtorEq] at h
  · cases h
    exact ⟨["INNER"], by decide, by decide⟩
  · cases h
    exact ⟨["LEFT", "OUTER"], by decide, by decide⟩
  · obtain ⟨-, -, rfl⟩ := h
    exact ⟨["RIGHT", "OUTER"], by decide, by decide⟩
  · obtain ⟨-, -, rfl⟩ := h
    exact ⟨["FULL", "OUTER"], by decide, by decide⟩

end Render

section

variable (p : Profile) (quoteNames : Bool) (s : Sql) (tree : JoinTree)

/-- What the text is read as where a source is expected. It shows neither JOIN nor ON. -/
def Sql.ReadsSource : Prop :=
  ∃ items, Groups (s.tokens p quoteNames) items ∧ JoinTree.Unjoined items ∧
    JoinTree.ofSource (JoinTree.entries items) = some tree

/-- What the text is read as by itself. -/
def Sql.ReadsFrom : Prop :=
  ∃ items, Groups (s.tokens p quoteNames) items ∧
    JoinTree.ofEntries (JoinTree.entries items) = some tree

end

section

variable {p : Profile} {quoteNames : Bool} {s : Sql} {tree : JoinTree}

theorem Sql.ReadsSource.readsFrom (h : s.ReadsSource p quoteNames tree) :
    s.ReadsFrom p quoteNames tree := by
  obtain ⟨items, grouped, unjoined, read⟩ := h
  refine ⟨items, grouped, ?_⟩
  rw [JoinTree.ofEntries_of_source fun e member => (unjoined.entries e member).1, read]

theorem Sql.ReadsFrom.parens (h : s.ReadsFrom p quoteNames tree) :
    (Sql.parens s).ReadsSource p quoteNames tree := by
  obtain ⟨items, grouped, read⟩ := h
  refine ⟨[.group .paren items], grouped.enclosed, by simp [JoinTree.Unjoined, Item.token?], ?_⟩
  rw [JoinTree.ofSource_group, read]

/-- A join is read as the join of what its sides are read as. -/
theorem Sql.ReadsFrom.join {d : Dialect} {type : JoinType} {keyword : String}
    (found : Render.joinKeyword d type = .ok keyword) {l r c : Sql} {left right : JoinTree}
    {condition : List Item} (first : l.ReadsFrom p quoteNames left)
    (second : r.ReadsSource p quoteNames right)
    (grouped : Groups (c.tokens p quoteNames) condition) (unjoined : JoinTree.Unjoined condition) :
    (l ++ Sql.raw (" " ++ keyword ++ " ") ++ r ++ Sql.raw " ON " ++ c).ReadsFrom p quoteNames
      (.join type left right condition) := by
  obtain ⟨names, written, keywordTokens⟩ := Render.joinKeyword_tokens found
  obtain ⟨ls, leftGroups, leftRead⟩ := first
  obtain ⟨rs, rightGroups, rightUnjoined, rightRead⟩ := second
  have on : Lexer.plainTokens " ON ".toList = [.word "ON"] := by decide
  refine ⟨ls ++ wordItems (names ++ ["JOIN"]) ++ rs ++ wordItems ["ON"] ++ condition, ?_, ?_⟩
  · have flat : ∀ entry ∈ JoinTree.writtenTypes, ∀ word ∈ entry.1 ++ ["JOIN"],
      (Token.word word).mark.isFlat := by decide
    have joint : ∀ word ∈ ["ON"], (Token.word word).mark.isFlat := by decide
    simp only [Sql.tokens_append, Sql.tokens_raw, keywordTokens, on]
    exact (((leftGroups.append (.words (flat _ written))).append rightGroups).append
      (.words joint)).append grouped
  · have behind : ∀ e ∈ JoinTree.entries rs ++ JoinTree.entries condition,
        JoinTree.isWord "JOIN" e = false := by
      intro e member
      rcases List.mem_append.mp member with inside | inside
      · exact (rightUnjoined.entries e inside).1
      · exact (unjoined.entries e inside).1
    simp only [JoinTree.entries_append, JoinTree.entries_wordItems]
    rw [JoinTree.ofEntries_join written _ behind fun e member => (rightUnjoined.entries e member).2,
      rightRead, leftRead, JoinTree.entries_items]
    rfl

end

/-! ## Trees -/

/-- The tree has the joins of the node, in the same places and of the same types, and holds what the
texts of its sources and conditions are read as by themselves. -/
inductive JoinTree.Matches (d : Dialect) (ctx : Context) : Node → JoinTree → Prop where
  | source {n : Node} {s : Sql} {items : List Item} (single : n.kind ≠ .join)
      (rendered : node d ctx n = .ok s)
      (read : textItems? d.profile (s.write d.profile ctx.quoteNames) = some items) :
      Matches d ctx n (.source items)
  | join {type : JoinType} {left right condition : Node} {l r : JoinTree} {s : Sql}
      {items : List Item} (first : Matches d ctx left l) (second : Matches d ctx right r)
      (rendered : asPredicate d condition (node d ctx condition) = .ok s)
      (read : textItems? d.profile (s.write d.profile ctx.quoteNames) = some items) :
      Matches d ctx (.join type left right condition) (.join type l r items)

theorem Node.exists_of_kind_join {n : Node} (h : n.kind = .join) :
    ∃ type left right condition, n = .join type left right condition := by
  cases n with
  | join type left right condition => exact ⟨type, left, right, condition, rfl⟩
  | _ => simp [kind] at h

section

variable {d : Dialect} {ctx : Context} {quoteNames : Bool} (tells : d.TellsClauses)

include tells

theorem unjoined_of_isNamePart (t : Token) (h : IsNamePart d.profile t) : t.isUnjoined := by
  simp [Token.isUnjoined, h.isWord_eq_false (tells.reserved "JOIN" (by decide)),
    h.isWord_eq_false (tells.reserved "ON" (by decide))]

theorem tableAlias_showsOnly (aliasName : String) :
    (Render.tableAlias d aliasName).ShowsOnly d.profile quoteNames Token.isUnjoined 0 0 := by
  have name : Sql.ShowsOnly d.profile quoteNames Token.isUnjoined 0 0 [.name aliasName] :=
    names_showsOnly tells.toReadable (unjoined_of_isNamePart tells)
      (by simpa using IsNamePart.ofName aliasName)
  unfold Render.tableAlias
  split
  · exact Sql.ShowsOnly.append (.const (by decide)) name
  · exact Sql.ShowsOnly.append (.const (by decide)) name

theorem table_showsOnly (t : Table) :
    (Render.table d ctx t).ShowsOnly d.profile quoteNames Token.isUnjoined 0 0 := by
  have name : (Render.tableName d ctx t.name).ShowsOnly d.profile quoteNames Token.isUnjoined 0 0 :=
    names_showsOnly tells.toReadable (unjoined_of_isNamePart tells)
      (Render.tableName_isNamePart d ctx t.name)
  unfold Render.table
  split
  · exact name.append .none
  · exact name.append (tableAlias_showsOnly tells t.aliasName)

omit tells in
/-- No parentheses enclose a table. -/
theorem table_not_enclosed (legible : d.profile.Legible) (t : Table) (inner : List Item) :
    ¬ Groups ((Render.table d ctx t).tokens d.profile quoteNames) [.group .paren inner] := by
  have phrase : Phrase d.profile quoteNames true (Render.table d ctx t) :=
    Render.table_phrase legible t
  obtain ⟨a, rest, starts⟩ := Render.tableName_starts d ctx t.name
  rw [Render.table, starts, List.cons_append] at phrase ⊢
  exact (IsTerm.ofName phrase).not_enclosed inner

/-- No parentheses enclose a derived table with its name. -/
theorem subSelect_not_enclosed {t : Sql} (h : Phrase d.profile quoteNames false t)
    (aliasName : String) (inner : List Item) :
    ¬ Groups ((Sql.parens t ++ Render.tableAlias d aliasName).tokens d.profile quoteNames)
      [.group .paren inner] := by
  have marks := tells.legible.marks
  refine (Render.parens_value marks h).append_not_enclosed ?_ ?_ inner
  · exact Render.tableAlias_draft tells.legible (h.parens marks) aliasName
  · simp [Render.tableAlias, Fragment.tokens]

/-- A table or a derived table is read as it is. -/
theorem source_reads {n : Node} (wellFormed : n.WellFormed) (item : n.isFromItem)
    (single : n.kind ≠ .join) {s : Sql} (rendered : node d ctx n = .ok s) :
    ∃ tree, s.ReadsSource d.profile ctx.quoteNames tree ∧ tree.Matches d ctx n := by
  have below (c : Node) (child : c ∈ n.children) :
      Ensures (Render.Rendered d ctx.quoteNames c) (node d ctx c) :=
    Render.node_rendered tells.toReadable (wellFormed.child child)
  have known : Render.Rendered d ctx.quoteNames n s :=
    Render.node_rendered tells.toReadable wellFormed s rendered
  have phrase := known.phrase
  obtain ⟨items, grouped, -⟩ := Grouping.exists_groups phrase.nested
  have same : (JoinTree.source items).Matches d ctx n :=
    .source single rendered (grouped.textItems?_eq phrase)
  suffices shown : s.ShowsOnly d.profile ctx.quoteNames Token.isUnjoined 0 0 ∧
      s.tokens d.profile ctx.quoteNames ≠ [] ∧
      ∀ inner, ¬ Groups (s.tokens d.profile ctx.quoteNames) [.group .paren inner] by
    obtain ⟨shown, nonempty, other⟩ := shown
    exact ⟨_, ⟨items, grouped, shown.items grouped,
      JoinTree.ofSource_entries (grouped.ne_nil nonempty) fun inner enclosed =>
        other inner (enclosed ▸ grouped)⟩, same⟩
  cases n with
  | table t =>
    rw [Render.node_table tells.unmarked] at rendered
    cases rendered
    refine ⟨table_showsOnly tells t, ?_, table_not_enclosed tells.legible t⟩
    obtain ⟨a, rest, starts⟩ := Render.tableName_starts d ctx t.name
    simp [Render.table, starts, Fragment.tokens]
  | subSelect statement aliasName =>
    rw [Render.node_subSelect tells.unmarked] at rendered
    obtain ⟨-, t, inside, rfl⟩ := Render.subSelect_eq_ok.mp rendered
    have inner := (below (.select statement) (by simp [Node.children]) t inside).phrase
    refine ⟨(Render.parens_showsOnly inner).append (tableAlias_showsOnly tells aliasName), ?_,
      subSelect_not_enclosed tells inner aliasName⟩
    simp [Render.tableAlias, Fragment.tokens]
  | _ => simp_all [Node.isFromItem, Node.kind]

/-- A condition shows neither JOIN nor ON, and it is read by itself. -/
theorem condition_reads {n : Node} (placed : n.WellPlaced) (expression : n.isExpression) {s : Sql}
    (rendered : asPredicate d n (node d ctx n) = .ok s) :
    ∃ items, Groups (s.tokens d.profile ctx.quoteNames) items ∧ JoinTree.Unjoined items ∧
      textItems? d.profile (s.write d.profile ctx.quoteNames) = some items := by
  have readable := tells.toReadable
  have phrase : Phrase d.profile ctx.quoteNames false s :=
    Render.asPredicate_phrase readable.legible.marks
      (Render.node_rendered readable placed.wellFormed) s rendered
  have shown : s.ShowsOnly d.profile ctx.quoteNames Token.isUnjoined 0 0 :=
    condition_showsOnly readable Token.isUnjoined_of_isContent
      (tells.shows.imp Token.isUnjoined_of_isContent)
      (FunctionSpec.shows_imp Token.isUnjoined_of_isContent tells.pattern)
      (unjoined_of_isNamePart tells) placed expression s rendered
  obtain ⟨items, grouped, -⟩ := Grouping.exists_groups phrase.nested
  exact ⟨items, grouped, shown.items grouped, grouped.textItems?_eq phrase⟩

/-- The text of a FROM item is read as its tree. -/
theorem fromItem_reads {n : Node} (placed : n.WellPlaced) (item : n.isFromItem) {s : Sql}
    (rendered : node d ctx n = .ok s) :
    ∃ tree, s.ReadsFrom d.profile ctx.quoteNames tree ∧ tree.Matches d ctx n := by
  induction n using Node.induction generalizing s with
  | step n ih =>
    by_cases single : n.kind ≠ .join
    · obtain ⟨tree, reads, same⟩ := source_reads tells placed.wellFormed item single rendered
      exact ⟨tree, reads.readsFrom, same⟩
    · obtain ⟨type, left, right, condition, rfl⟩ := Node.exists_of_kind_join (not_not.mp single)
      obtain ⟨-, leftItem, rightItem, -⟩ := placed.root.1
      have below {c : Node} (child : c = left ∨ c = right ∨ c = condition) :
          c ∈ (Node.join type left right condition).children := by
        simpa [Node.children] using child
      rw [Render.node_join tells.unmarked] at rendered
      obtain ⟨keyword, l, r, c, found, leftRendered, rightRendered, conditionRendered, rfl⟩ :=
        Render.join_eq_ok.mp rendered
      have rightPlaced : right.WellPlaced := placed.child (below (.inr (.inl rfl)))
      obtain ⟨leftTree, leftReads, leftSame⟩ :=
        ih left (below (.inl rfl)) (placed.child (below (.inl rfl))) leftItem leftRendered
      -- A join on the right is read in its parentheses, a source as it is.
      obtain ⟨rightTree, rightReads, rightSame⟩ : ∃ tree,
          (if right.kind = .join then Sql.parens r else r).ReadsSource d.profile ctx.quoteNames
            tree ∧ tree.Matches d ctx right := by
        split
        · obtain ⟨tree, reads, same⟩ :=
            ih right (below (.inr (.inl rfl))) rightPlaced rightItem rightRendered
          exact ⟨tree, reads.parens, same⟩
        · exact source_reads tells rightPlaced.wellFormed rightItem ‹_› rightRendered
      obtain ⟨items, grouped, unjoined, read⟩ :=
        condition_reads tells (placed.child (below (.inr (.inr rfl))))
          (placed.root.2 condition (by simp [Node.operands])) conditionRendered
      exact ⟨_, .join found leftReads rightReads grouped unjoined,
        .join leftSame rightSame conditionRendered read⟩

/-- The text of a FROM clause is read back as its tree of joins. -/
theorem from_readsBack {n : Node} (placed : n.WellPlaced) (item : n.isFromItem) {text : String}
    (generated : d.generate ctx (some n) = .ok text) :
    ∃ tree, readJoins d.profile text = some tree ∧ tree.Matches d ctx n := by
  obtain ⟨s, rendered, rfl, phrase⟩ := tells.generate_phrase placed.wellFormed generated
  obtain ⟨tree, ⟨items, grouped, read⟩, same⟩ := fromItem_reads tells placed item rendered
  refine ⟨tree, ?_, same⟩
  rw [readJoins, grouped.textItems?_eq phrase, Option.bind_some, read]

end

namespace Builtin

/-- In every built-in dialect, a rendered FROM clause is read back as its tree of joins. -/
theorem joins_read_back (b : Builtin) (notes : Notes) (mark : b = .generic → notes.NamesMark)
    (ctx : Context) {n : Node} (placed : n.WellPlaced) (item : n.isFromItem) {text : String}
    (generated : (b.build notes).generate ctx (some n) = .ok text) :
    ∃ tree, readJoins (b.build notes).profile text = some tree ∧
      tree.Matches (b.build notes) ctx n :=
  from_readsBack (b.tellsClauses notes mark) placed item generated

set_option maxRecDepth 10000 in
/-- Joins are nested on both sides, and a derived table holds a join of its own. -/
theorem postgreSql_joins_read_back_nested :
    let text := "\x7b\"type\":\"pushdown\",\"pushdownRequest\":\x7b\"type\":\"select\",
      \"from\":\x7b\"type\":\"join\",\"join_type\":\"full_outer\",
      \"left\":\x7b\"type\":\"join\",\"join_type\":\"left_outer\",
      \"left\":\x7b\"type\":\"table\",\"name\":\"t\"\x7d,
      \"right\":\x7b\"type\":\"sub_select\",\"alias\":\"x\",\"select\":\x7b\"type\":\"select\",
      \"from\":\x7b\"type\":\"join\",\"join_type\":\"inner\",
      \"left\":\x7b\"type\":\"table\",\"name\":\"a\"\x7d,
      \"right\":\x7b\"type\":\"table\",\"name\":\"b\"\x7d,
      \"condition\":\x7b\"type\":\"literal_bool\",\"value\":true\x7d\x7d\x7d\x7d,
      \"condition\":\x7b\"type\":\"literal_bool\",\"value\":true\x7d\x7d,
      \"right\":\x7b\"type\":\"join\",\"join_type\":\"inner\",
      \"left\":\x7b\"type\":\"table\",\"name\":\"u\"\x7d,
      \"right\":\x7b\"type\":\"table\",\"name\":\"v\"\x7d,
      \"condition\":\x7b\"type\":\"literal_bool\",\"value\":false\x7d\x7d,
      \"condition\":\x7b\"type\":\"predicate_equal\",
      \"left\":\x7b\"type\":\"column\",\"name\":\"c\",\"tableName\":\"t\"\x7d,
      \"right\":\x7b\"type\":\"column\",\"name\":\"c\",\"tableName\":\"u\"\x7d\x7d\x7d\x7d\x7d"
    let sql := "t LEFT OUTER JOIN (SELECT * FROM a INNER JOIN b ON TRUE) AS x ON TRUE " ++
      "FULL OUTER JOIN (u INNER JOIN v ON FALSE) ON t.c = u.c"
    let d := postgreSql.build {}
    let ctx : Context := { multipleTables := true }
    ∃ r s n, Request.readPushdown text = .ok r ∧ r.statement = some s ∧ s.source = some n ∧
      d.generate ctx (some n) = .ok sql ∧
      ∃ tree, readJoins d.profile sql = some tree ∧ tree.Matches d ctx n := by
  intro text sql d ctx
  have same : text = String.ofList _ := rfl
  have words : ∀ word, word ∈ d.profile.reserved ↔ _ := fun _ => mem_postgreSql_reserved
  have shown : (Request.readPushdown text).toOption.map (fun r =>
      (r.statement.bind (·.source)).map fun n =>
        (n.isFromItem, (d.generate ctx (some n)).toOption)) =
      some (some (true, some sql)) := by
    simp only [Dialect.generate_of_reserved words]
    rw [same, Request.readPushdown, Request.read, Object.readDocument_ofList]
    decide +kernel
  obtain ⟨r, read, shown⟩ := Request.exists_of_toOption shown
  obtain ⟨n, source, shown⟩ := Option.map_eq_some_iff.mp shown
  obtain ⟨s, stated, source⟩ := Option.bind_eq_some_iff.mp source
  obtain ⟨item, generated⟩ := Prod.mk.inj shown
  have generated := toOption_eq_some.mp generated
  obtain ⟨s', stated', placed⟩ := Request.readPushdown_wellPlaced read
  obtain rfl : s = s' := Option.some.inj (stated.symm.trans stated')
  have below : n.WellPlaced :=
    placed.child (Node.mem_children_select.mpr (.inr (.inl (by simpa using source))))
  have unmarked : postgreSql = .generic → Notes.NamesMark {} := by simp
  exact ⟨r, s, n, read, stated, source, generated,
    joins_read_back postgreSql {} unmarked ctx below item generated⟩

/-- Joins cannot be told apart where a parenthesis marks the names. -/
theorem generic_joins_hidden_by_mark :
    let d := generic.build { entries := [("identifierQuoteString", "(")] }
    let table (name : String) : Node := .table { name, aliasName := "" }
    let truth : Node := .literal { type := .bool, value := "true" }
    let n : Node := .join .inner (table "a") (.join .left (table "b") (table "c") truth) truth
    let text := "(a( INNER JOIN ((b( LEFT OUTER JOIN (c( ON TRUE) ON TRUE"
    n.WellPlaced ∧ n.isFromItem ∧ (d.generate {} (some n)).toOption = some text ∧
      (readJoins d.profile text).isNone := by
  intro d table truth n text
  have leaf (name : String) (named : name ≠ "") : (table name).WellPlaced :=
    Node.wellPlaced_iff.mpr ⟨⟨named, by simp [Node.Placed, Node.operands, Node.children, table]⟩,
      by simp [Node.children, table]⟩
  have constant : truth.WellPlaced :=
    Node.wellPlaced_iff.mpr ⟨⟨.inl rfl, by simp [Node.Placed, Node.operands, Node.children, truth]⟩,
      by simp [Node.children, truth]⟩
  have join {type : JoinType} {left right : Node} (known : ∀ name, type ≠ .other name)
      (items : left.isFromItem ∧ right.isFromItem) (sides : left.WellPlaced ∧ right.WellPlaced) :
      (Node.join type left right truth).WellPlaced :=
    have bound (visible : List String) : Build.dangling? visible truth = none := by
      simp [Build.dangling?, Node.walk_eq, Node.kind, Node.children, truth]
    Node.wellPlaced_iff.mpr ⟨⟨⟨known, items.1, items.2, bound _⟩, by
      simp [Node.Placed, Node.operands, truth, Node.isExpression, Node.kind, Kind.isExpression]⟩,
      by simp [Node.children, sides, constant]⟩
  have right : (Node.join .left (table "b") (table "c") truth).WellPlaced :=
    join (by simp) ⟨rfl, rfl⟩ ⟨leaf "b" (by simp), leaf "c" (by simp)⟩
  exact ⟨join (by simp) ⟨rfl, rfl⟩ ⟨leaf "a" (by simp), right⟩, rfl, by decide +kernel,
    by decide +kernel⟩

end Builtin

end Pushdown
