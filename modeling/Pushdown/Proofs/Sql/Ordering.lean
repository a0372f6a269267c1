import Pushdown.Proofs.Dialect.Reserved
import Pushdown.Proofs.Sql.ClauseWords
import Pushdown.Proofs.Sql.Injection

/-!
# Sort keys read back

An ORDER BY clause is read by cutting it at the commas outside of all brackets. A piece may end with
a clause about NULL and, before it, with a direction; what is left is the operand. A key without a
direction is ascending, and NULL stands where the dialect sorts it unless there is a clause about it.

Operands have no comma outside of brackets and never end like a direction, so every key comes back
with the direction it was given. The position of NULL comes back as well, unless the dialect cannot
state it; then NULL stands where the dialect puts it.
-/

namespace Pushdown

open Grouping (Groups)
open Render (node asOperand Ensures)

/-! ## Reading -/

/-- A sort key as it is read: its operand, its direction, and what it says about NULL. -/
structure SortElement where
  operand : List Item
  ascending : Bool
  nullsLast? : Option Bool

namespace SortElement

def nullsEndings : List (List String × Option Bool) :=
  [(["NULLS", "FIRST"], some false), (["NULLS", "LAST"], some true)]

def directionEndings : List (List String × Bool) := [(["ASC"], true), (["DESC"], false)]

/-- Read what stands between two commas. -/
def read (items : List Item) : SortElement :=
  let keyed := splitEnding Item.token? nullsEndings none items
  let operand := splitEnding Item.token? directionEndings true keyed.1
  { operand := operand.1, ascending := operand.2, nullsLast? := keyed.2 }

/-- Whether NULL comes last. -/
def nullsLast (sorting : NullSorting) (e : SortElement) : Bool :=
  e.nullsLast?.getD (sorting.nullsLast e.ascending)

end SortElement

def Item.isComma : Item → Bool
  | .token (.symbol c) => c == ','
  | _ => false

/-- Read the text of an ORDER BY clause. -/
def readOrderBy (p : Profile) (text : String) : Option (List SortElement) :=
  match textItems? p text with
  | some (.token order :: .token by_ :: items) =>
    if order.isWord "ORDER" && by_.isWord "BY" then
      some ((items.splitOnP Item.isComma).map SortElement.read)
    else none
  | _ => none

/-! ## Lists with commas -/

/-- Lists without separators are found again between separators. -/
theorem splitOnP_intercalate {α : Type} {isSeparator : α → Bool} {separator : α}
    (separates : isSeparator separator) {parts : List (List α)} (nonempty : parts ≠ [])
    (each : ∀ part ∈ parts, ∀ a ∈ part, isSeparator a = false) :
    ([separator].intercalate parts).splitOnP isSeparator = parts := by
  induction parts with
  | nil => contradiction
  | cons part parts ih =>
    have first := each part (by simp)
    cases parts with
    | nil => simpa [List.intercalate] using List.splitOnP_eq_singleton first
    | cons next parts =>
      have rest := ih (by simp) fun part member => each part (List.mem_cons_of_mem _ member)
      have cut : [separator].intercalate (part :: next :: parts) =
          part ++ separator :: [separator].intercalate (next :: parts) := by
        simp [List.intercalate, List.intersperse]
      rw [cut, List.splitOnP_append_cons_of_forall_mem first separator separates, rest]

/-- What groups nothing is no comma. -/
theorem Item.isComma_of_plain {i : Item} (plain : i.mark = .plain) : i.isComma = false := by
  unfold isComma
  split
  · rename_i c
    refine Bool.eq_false_iff.mpr fun same => ?_
    rw [eq_of_beq same] at plain
    contradiction
  · rfl

/-! ## Directions -/

namespace Render

/-- The words of a sort direction. -/
def directionWords (d : Dialect) (ascending nullsLast : Bool) : List String :=
  (if !ascending then ["DESC"] else if d.profile.omitAscending then [] else ["ASC"]) ++
    if nullsLast != d.profile.nullSorting.nullsLast ascending && d.has .nullsOrdering then
      ["NULLS", if nullsLast then "LAST" else "FIRST"]
    else []

theorem direction_tokens (d : Dialect) (ascending nullsLast : Bool) :
    Lexer.plainTokens (direction d ascending nullsLast).toList =
      (directionWords d ascending nullsLast).map .word := by
  unfold direction directionWords
  split <;> split <;> try split
  all_goals (try split) <;> decide

end Render

/-- The items end neither like a direction nor like a clause about NULL. -/
structure EndsApart (items : List Item) : Prop where
  nulls : ∀ ending ∈ SortElement.nullsEndings,
    beforeWords? Item.token? ending.1.reverse items.reverse = none
  direction : ∀ ending ∈ SortElement.directionEndings,
    beforeWords? Item.token? ending.1.reverse items.reverse = none

namespace SortElement

section

variable (items : List Item)

/-- A clause about NULL is found at the end. -/
theorem splitEnding_nulls (last : Bool) :
    splitEnding Item.token? nullsEndings none
      (items ++ wordItems ["NULLS", if last then "LAST" else "FIRST"]) = (items, some last) := by
  apply splitEnding_append
  intro rest
  cases last <;> rfl

/-- A direction is found at the end. -/
theorem splitEnding_direction (ascending : Bool) :
    splitEnding Item.token? directionEndings true
      (items ++ wordItems [if ascending then "ASC" else "DESC"]) = (items, ascending) := by
  apply splitEnding_append
  intro rest
  cases ascending <;> rfl

/-- A direction is no clause about NULL. -/
theorem splitEnding_nulls_direction (ascending : Bool) :
    splitEnding Item.token? nullsEndings none
      (items ++ wordItems [if ascending then "ASC" else "DESC"]) =
        (items ++ wordItems [if ascending then "ASC" else "DESC"], none) := by
  refine splitEnding_of_none fun ending member => ?_
  simp only [nullsEndings, List.mem_cons, List.not_mem_nil, or_false] at member
  rcases member with rfl | rfl <;> cases ascending <;>
    simp only [wordItems, List.map_cons, List.map_nil, List.reverse_append, List.reverse_cons,
      List.reverse_nil, List.nil_append, List.cons_append] <;> rfl

end

/-- An operand with a direction behind it is read as they are. -/
theorem read_key (d : Dialect) {items : List Item} (apart : EndsApart items)
    (ascending nullsLast : Bool) :
    read (items ++ wordItems (Render.directionWords d ascending nullsLast)) =
      { operand := items, ascending,
        nullsLast? :=
          if nullsLast != d.profile.nullSorting.nullsLast ascending && d.has .nullsOrdering then
            some nullsLast else none } := by
  have bareNulls : splitEnding Item.token? nullsEndings none items = (items, none) :=
    splitEnding_of_none apart.nulls
  have bareDirection : splitEnding Item.token? directionEndings true items = (items, true) :=
    splitEnding_of_none apart.direction
  -- The clause about NULL is taken off first, then the direction, if there is one.
  obtain ⟨order, written, keyed, known⟩ : ∃ order,
      (if !ascending then ["DESC"] else if d.profile.omitAscending then [] else ["ASC"]) = order ∧
      splitEnding Item.token? nullsEndings none (items ++ wordItems order) =
        (items ++ wordItems order, none) ∧
      splitEnding Item.token? directionEndings true (items ++ wordItems order) =
        (items, ascending) := by
    refine ⟨_, rfl, ?_⟩
    cases ascending
    · exact ⟨splitEnding_nulls_direction items false, splitEnding_direction items false⟩
    · by_cases omitted : d.profile.omitAscending
      · simp [omitted, wordItems, bareNulls, bareDirection]
      · simpa [omitted] using
          And.intro (splitEnding_nulls_direction items true) (splitEnding_direction items true)
  rw [read, Render.directionWords, written, wordItems_append, ← List.append_assoc]
  by_cases clause : nullsLast != d.profile.nullSorting.nullsLast ascending && d.has .nullsOrdering
  · simp only [if_pos clause, splitEnding_nulls, known]
  · have nothing : wordItems [] = [] := rfl
    simp only [if_neg clause, nothing, List.append_nil, keyed, known]

end SortElement

/-! ## Operands -/

theorem EndsApart.of_content {items : List Item}
    (content : ∀ i ∈ items, ∀ t ∈ i.token?, t.isContent) : EndsApart items := by
  have absent {words : List String} {word : String} (listed : word ∈ words)
      (known : word ∈ clauseWords) : beforeWords? Item.token? words items.reverse = none := by
    refine beforeWords?_eq_none listed fun i member => ?_
    cases found : i.token? with
    | none => rfl
    | some t =>
      exact Token.isWord_of_isContent (content i (List.mem_reverse.mp member) t found) known
  constructor
  · intro ending member
    have listed : ∀ ending ∈ SortElement.nullsEndings, "NULLS" ∈ ending.1.reverse := by decide
    exact absent (listed ending member) (by decide)
  · intro ending member
    have listed : ∀ ending ∈ SortElement.directionEndings, ∃ word ∈ clauseWords,
      word ∈ ending.1.reverse := by decide
    obtain ⟨word, known, inside⟩ := listed ending member
    exact absent inside known

/-- Nothing or a point stands before the last part of a name. -/
theorem EndsApart.of_name {front : List Item}
    (before : front = [] ∨ ∃ more, front = more ++ [Item.token (.symbol '.')]) {t : Token}
    (other : t.isWord "ASC" = false ∧ t.isWord "DESC" = false) :
    EndsApart (front ++ [Item.token t]) := by
  have point : (Token.symbol '.').isWord "NULLS" = false := rfl
  constructor
  · intro ending member
    simp only [SortElement.nullsEndings, List.mem_cons, List.not_mem_nil, or_false] at member
    rcases before with rfl | ⟨more, rfl⟩
    · rcases member with rfl | rfl <;> exact ite_self _
    · rcases member with rfl | rfl <;> simp [beforeWords?, Item.token?, point]
  · intro ending member
    simp only [SortElement.directionEndings, List.mem_cons, List.not_mem_nil, or_false] at member
    rcases member with rfl | rfl <;> simp [beforeWords?, Item.token?, other]

/-- A column is written as its name, or as names with a point before the last one. -/
theorem Render.column_ends (d : Dialect) (ctx : Context) (c : Column) :
    ∃ front name, column d ctx c = front ++ [Fragment.name name] ∧
      (front = [] ∨ ∃ more, front = more ++ Sql.raw ".") := by
  unfold column
  split
  · exact ⟨_, _, rfl, .inr ⟨_, rfl⟩⟩
  · split
    · exact ⟨_, _, rfl, .inr ⟨_, rfl⟩⟩
    · exact ⟨[], _, rfl, .inl rfl⟩

section

variable {d : Dialect} {ctx : Context} (tells : d.TellsClauses)

include tells

/-- A column does not end like a direction, whatever its name. -/
theorem column_endsApart (quoteNames : Bool) (c : Column) :
    EndsApart (((Render.column d ctx c).tokens d.profile quoteNames).map .token) := by
  obtain ⟨front, name, written, before⟩ := Render.column_ends d ctx c
  obtain ⟨t, single⟩ : ∃ t, (Fragment.name name).tokens d.profile quoteNames = [t] := ⟨_, rfl⟩
  have part : IsNamePart d.profile t := IsNamePart.ofName name t (by rw [single]; simp)
  have point : Lexer.plainTokens ".".toList = [.symbol '.'] := by decide
  rw [written, Sql.tokens_append, Sql.tokens_cons, Sql.tokens_nil, single, List.map_append]
  refine .of_name ?_ ⟨part.isWord_eq_false (tells.reserved "ASC" (by decide)),
    part.isWord_eq_false (tells.reserved "DESC" (by decide))⟩
  rcases before with rfl | ⟨more, rfl⟩
  · exact .inl rfl
  · refine .inr ⟨(more.tokens d.profile quoteNames).map .token, ?_⟩
    rw [Sql.tokens_append, Sql.tokens_raw, point, List.map_append]
    rfl

/-- The items of an operand group nothing and do not end like a direction. -/
theorem operand_items {n : Node} (wellFormed : n.WellFormed) (expression : n.isExpression)
    {quoteNames : Bool} {s : Sql} (rendered : asOperand d n (node d ctx n) = .ok s) :
    ∃ items, HasItems d.profile quoteNames s items ∧ EndsApart items := by
  have readable := tells.toReadable
  have value : IsValue d.profile quoteNames s :=
    Render.asOperand_value readable.legible.marks expression
      (Render.node_rendered readable wellFormed) s rendered
  obtain ⟨items, known⟩ := value.exists_items
  refine ⟨items, known, ?_⟩
  by_cases column : n.kind = .column
  · obtain ⟨c, rfl⟩ : ∃ c, n = .column c := by cases n <;> simp_all [Node.kind]
    rw [Render.node_column readable.unmarked] at rendered
    obtain rfl : Render.column d ctx c = s := by
      simpa [asOperand, Node.isPredicate, Node.kind] using rendered
    have names := Groups.names readable.legible
      (@Render.column_isNamePart quoteNames d.profile d ctx c)
    rw [known.grouped.unique names]
    exact column_endsApart tells quoteNames c
  · have shown : s.ShowsOnly d.profile quoteNames Token.isContent 0 0 :=
      operand_showsOnly readable tells.shows wellFormed expression
        (fun same => absurd same column) s rendered
    exact .of_content (shown.items known.grouped)

/-! ## Clauses -/

omit tells in
theorem Render.directionWords_flat (d : Dialect) (ascending nullsLast : Bool) :
    ∀ word ∈ Render.directionWords d ascending nullsLast, (Token.word word).mark.isFlat := by
  have known : ∀ word ∈ ["ASC", "DESC", "NULLS", "FIRST", "LAST"],
    (Token.word word).mark.isFlat := by decide
  intro word member
  refine known word ?_
  unfold directionWords at member
  grind

/-- What is read of a sort key: its operand and its direction, and where NULL stands. A dialect
that cannot say so puts NULL where it sorts it, which is not where the key wants it only if the key
wants something else. -/
structure SortElement.ReadsBack (d : Dialect) (ctx : Context) (key : SortKey Node)
    (e : SortElement) : Prop where
  operand : ∃ s, asOperand d key.expr (node d ctx key.expr) = .ok s ∧
    textItems? d.profile (s.write d.profile ctx.quoteNames) = some e.operand
  ascending : e.ascending = key.ascending
  nullsLast : d.has .nullsOrdering → e.nullsLast d.profile.nullSorting = key.nullsLast
  lacking : d.has .nullsOrdering = false → e.nullsLast? = none ∧
    (e.nullsLast d.profile.nullSorting ≠ key.nullsLast ↔
      key.nullsLast ≠ d.profile.nullSorting.nullsLast key.ascending)

/-- The text of a key has no comma outside of brackets and is read back. -/
theorem sortKey_readsBack {key : SortKey Node} (wellFormed : key.expr.WellFormed)
    (expression : key.expr.isExpression) {s : Sql}
    (whole : Render.sortKey d key.ascending key.nullsLast
      (asOperand d key.expr (node d ctx key.expr)) = .ok s) :
    ∃ items, Groups (s.tokens d.profile ctx.quoteNames) items ∧
      (∀ i ∈ items, i.isComma = false) ∧ SortElement.ReadsBack d ctx key (.read items) := by
  obtain ⟨e, rendered, rfl⟩ := Render.sortKey_eq_ok.mp whole
  obtain ⟨operand, known, apart⟩ :=
    @operand_items d ctx tells key.expr wellFormed expression ctx.quoteNames e rendered
  have phrase : Phrase d.profile ctx.quoteNames true e :=
    (Render.asOperand_value tells.legible.marks expression
      (Render.node_rendered tells.toReadable wellFormed) e rendered).phrase
  refine ⟨operand ++ wordItems (Render.directionWords d key.ascending key.nullsLast), ?_, ?_, ?_⟩
  · rw [Sql.tokens_append, Sql.tokens_raw, Render.direction_tokens]
    exact known.grouped.append (.words (Render.directionWords_flat d _ _))
  · intro i member
    rcases List.mem_append.mp member with inside | word
    · exact Item.isComma_of_plain (known.plain i inside)
    · obtain ⟨word, -, rfl⟩ := List.mem_map.mp word
      rfl
  · rw [SortElement.read_key d apart]
    refine ⟨⟨e, rendered, known.grouped.textItems?_eq phrase⟩, rfl, ?_, ?_⟩
    · intro has
      by_cases default : key.nullsLast = d.profile.nullSorting.nullsLast key.ascending <;>
        simp [SortElement.nullsLast, has, default]
    · intro lacks
      simp [SortElement.nullsLast, lacks, ne_comm]

/-- The texts of keys are read back one by one. -/
theorem sortKeys_readBack {keys : List (SortKey Node)}
    (sound : ∀ key ∈ keys, key.expr.WellFormed ∧ key.expr.isExpression) {parts : List Sql}
    (rendered : (keys.map fun key => Render.sortKey d key.ascending key.nullsLast
      (asOperand d key.expr (node d ctx key.expr))) = parts.map .ok) :
    ∃ iss, List.Forall₂ Groups (parts.map (Sql.tokens d.profile ctx.quoteNames)) iss ∧
      (∀ items ∈ iss, ∀ i ∈ items, i.isComma = false) ∧
      List.Forall₂ (SortElement.ReadsBack d ctx) keys (iss.map .read) := by
  induction keys generalizing parts with
  | nil =>
    obtain rfl : parts = [] := by simpa using rendered
    exact ⟨[], .nil, by simp, .nil⟩
  | cons key keys ih =>
    cases parts with
    | nil => simp at rendered
    | cons part parts =>
      simp only [List.map_cons, List.cons.injEq] at rendered
      obtain ⟨first, rest⟩ := rendered
      obtain ⟨wellFormed, expression⟩ := sound key (by simp)
      obtain ⟨items, grouped, whole, read⟩ := sortKey_readsBack tells wellFormed expression first
      obtain ⟨iss, groups, others, reads⟩ :=
        ih (fun key member => sound key (List.mem_cons_of_mem _ member)) rest
      exact ⟨items :: iss, .cons grouped groups, List.forall_mem_cons.mpr ⟨whole, others⟩,
        .cons read reads⟩

/-- An ORDER BY clause is read back key by key. -/
theorem orderBy_readsBack {keys : List (SortKey Node)} (placed : (Node.orderBy keys).WellPlaced)
    {text : String} (generated : d.generate ctx (some (.orderBy keys)) = .ok text) :
    ∃ elements, readOrderBy d.profile text = some elements ∧
      List.Forall₂ (SortElement.ReadsBack d ctx) keys elements := by
  obtain ⟨s, rendered, rfl, phrase⟩ := tells.generate_phrase placed.wellFormed generated
  rw [Render.node_orderBy tells.unmarked] at rendered
  obtain ⟨parts, listed, rfl⟩ := Render.orderBy_eq_ok.mp rendered
  have sound (key : SortKey Node) (member : key ∈ keys) :
      key.expr.WellFormed ∧ key.expr.isExpression := by
    have child : key.expr ∈ (Node.orderBy keys).children := List.mem_map_of_mem member
    exact ⟨placed.wellFormed.child child, placed.root.2 _ child⟩
  obtain ⟨iss, groups, whole, reads⟩ := sortKeys_readBack tells sound listed
  refine ⟨iss.map .read, ?_, reads⟩
  have nonempty : iss ≠ [] := by
    rintro rfl
    exact placed.root.1 (List.forall₂_nil_right_iff.mp reads)
  have keyword : Lexer.plainTokens "ORDER BY ".toList = [.word "ORDER", .word "BY"] := by decide
  have comma : Lexer.plainTokens ", ".toList = [.symbol ','] := by decide
  have grouped : Groups (Sql.tokens d.profile ctx.quoteNames
      (Sql.raw "ORDER BY " ++ Sql.joinWith ", " parts))
      (wordItems ["ORDER", "BY"] ++ [.token (.symbol ',')].intercalate iss) := by
    rw [Sql.tokens_append, Sql.tokens_raw, Sql.tokens_joinWith, keyword, comma]
    exact Groups.append (.tokens (by decide)) (.intercalate (.token (by decide)) groups)
  have words : (Token.word "ORDER").isWord "ORDER" && (Token.word "BY").isWord "BY" := by decide
  rw [readOrderBy, grouped.textItems?_eq phrase]
  simp only [wordItems, List.map_cons, List.map_nil, List.cons_append, List.nil_append, words,
    if_true]
  rw [splitOnP_intercalate rfl nonempty whole]

end

namespace Builtin

/-- In every built-in dialect, however it sorts and whether it can state the position of NULL, a
rendered ORDER BY clause is read back key by key. -/
theorem order_by_reads_back (b : Builtin) (notes : Notes) (mark : b = .generic → notes.NamesMark)
    (nulls : NullSorting) (omitAscending : Bool) (supported : CapabilitySet) (ctx : Context)
    {keys : List (SortKey Node)} (placed : (Node.orderBy keys).WellPlaced) {text : String}
    (generated : ((b.build notes).sorting nulls omitAscending supported).generate ctx
      (some (.orderBy keys)) = .ok text) :
    ∃ elements,
      readOrderBy ((b.build notes).sorting nulls omitAscending supported).profile text =
        some elements ∧
      List.Forall₂
        (SortElement.ReadsBack ((b.build notes).sorting nulls omitAscending supported) ctx)
        keys elements :=
  orderBy_readsBack (b.sorting_tellsClauses notes mark nulls omitAscending supported) placed
    generated

/-- Columns with the names of directions are quoted, a comma in a call is no comma between keys, and
a column may be named like the end of a clause about NULL. -/
theorem sqlServer_order_by_names_like_directions :
    let d := (sqlServer.build {}).sorting .low false .full
    let column (name : String) : Node := .column { table := "T", name, type := {} }
    let keys : List (SortKey Node) := [⟨.function "CONCAT" [column "desc", column "b"], false, false⟩,
      ⟨.isNull (column "asc"), true, false⟩, ⟨column "last", true, true⟩]
    let text :=
      "ORDER BY CONCAT([desc], b) DESC NULLS FIRST, ([asc] IS NULL) ASC, last ASC NULLS LAST"
    d.generate {} (some (.orderBy keys)) = .ok text ∧
      ∃ elements, readOrderBy d.profile text = some elements ∧
        List.Forall₂ (SortElement.ReadsBack d {}) keys elements := by
  intro d column keys text
  have own : d.profile.reserved = sqlServerProfile.reserved := by
    simp only [d, Dialect.sorting, build]
  have words (word : String) : word ∈ d.profile.reserved ↔ word ∈ sqlServerProfile.reserved := by
    rw [own]
  have generated : (d.generate {} (some (.orderBy keys))).toOption = some text := by
    rw [Dialect.generate_of_reserved fun word => (words word).trans mem_sqlServer_reserved]
    decide +kernel
  have generated := toOption_eq_some.mp generated
  have leaf (name : String) (named : name ≠ "") : (column name).WellPlaced :=
    .column ⟨named, by simp⟩
  have call : (Node.function "CONCAT" [column "desc", column "b"]).WellPlaced :=
    Node.wellPlaced_iff.mpr ⟨⟨⟨"CONCAT", by decide⟩, by
      simp [Node.Placed, Node.operands, Node.children, column, Node.isExpression, Node.kind,
        Kind.isExpression]⟩, by simp [Node.children, leaf]⟩
  have test : (Node.isNull (column "asc")).WellPlaced :=
    Node.wellPlaced_iff.mpr ⟨⟨trivial, by
      simp [Node.Placed, Node.operands, Node.children, column, Node.isExpression, Node.kind,
        Kind.isExpression]⟩, by simp [Node.children, leaf]⟩
  have placed : (Node.orderBy keys).WellPlaced :=
    Node.wellPlaced_iff.mpr ⟨⟨by simp [Node.KeepsRules, keys], by
      simp [Node.Placed, Node.operands, Node.children, keys, column, Node.isExpression, Node.kind,
        Kind.isExpression]⟩, by simp [Node.children, keys, call, test, leaf]⟩
  have unmarked : sqlServer = .generic → Notes.NamesMark {} := by simp
  exact ⟨generated, order_by_reads_back sqlServer {} unmarked .low false .full {} placed generated⟩

/-- Keys cannot be told apart where a comma marks the names. -/
theorem generic_order_by_hidden_by_mark :
    let d := generic.build { entries := [("identifierQuoteString", ",")] }
    let column (name : String) : Node := .column { table := "T", name, type := {} }
    let keys : List (SortKey Node) := [⟨column "a", true, true⟩, ⟨column "b", true, true⟩]
    let text := "ORDER BY ,a, ASC, ,b, ASC"
    (Node.orderBy keys).WellPlaced ∧ (d.generate {} (some (.orderBy keys))).toOption = some text ∧
      (readOrderBy d.profile text).isNone := by
  intro d column keys text
  have leaf (name : String) (named : name ≠ "") : (column name).WellPlaced :=
    .column ⟨named, by simp⟩
  have placed : (Node.orderBy keys).WellPlaced :=
    Node.wellPlaced_iff.mpr ⟨⟨by simp [Node.KeepsRules, keys], by
      simp [Node.Placed, Node.operands, Node.children, keys, column, Node.isExpression, Node.kind,
        Kind.isExpression]⟩, by simp [Node.children, keys, leaf]⟩
  exact ⟨placed, by decide +kernel, by decide +kernel⟩

end Builtin

end Pushdown
