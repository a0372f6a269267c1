import Mathlib.Data.Option.Basic
import Pushdown.Proofs.Sql.Parts
import Pushdown.Proofs.Sql.Rendering
import Pushdown.Proofs.Syntax.Masking

/-!
# Statements without the contents of names and texts

A statement is rendered without a look at the contents of names and texts: if a tree is rendered,
so is its mask, and the two statements have the same fragments but for these contents. The one
text that is looked at is the separator of joined texts, which can only make the dialect refuse.
-/

namespace Pushdown

/-- The fragment without the content of a name or text. -/
def Fragment.erase : Fragment → Fragment
  | .raw s => .raw s
  | .name _ => .name ""
  | .text _ => .text ""

namespace Sql

def erase (s : Sql) : Sql := s.map Fragment.erase

@[simp] theorem erase_nil : erase [] = [] := rfl

@[simp] theorem erase_append (s t : Sql) : erase (s ++ t) = erase s ++ erase t :=
  List.map_append

@[simp] theorem erase_raw (text : String) : erase (raw text) = raw text := rfl

@[simp] theorem erase_name (a : String) (s : Sql) :
    erase (.name a :: s) = .name "" :: erase s := rfl

@[simp] theorem erase_text (a : String) (s : Sql) :
    erase (.text a :: s) = .text "" :: erase s := rfl

@[simp] theorem erase_parens (s : Sql) : erase (parens s) = parens (erase s) := by
  simp [parens]

@[simp] theorem erase_joinWith (separator : String) (parts : List Sql) :
    erase (joinWith separator parts) = joinWith separator (parts.map erase) := by
  unfold joinWith
  induction parts with
  | nil => rfl
  | cons t parts ih =>
    cases parts with
    | nil => simp
    | cons u parts => simpa [List.intersperse] using ih

@[simp] theorem erase_flatten (parts : List Sql) :
    erase parts.flatten = (parts.map erase).flatten := by
  induction parts with
  | nil => rfl
  | cons t parts ih => simp [ih]

end Sql

namespace Render

open Sql (raw joinWith parens erase)

@[simp] theorem erase_clause (keyword : String) (t : Option Sql) :
    erase (clause keyword t) = clause keyword (t.map erase) := by
  cases t <;> simp [clause]

/-- Whenever the first is rendered, so is the second, with the same fragments but for the
contents of names and texts. -/
def Follows (r r' : Result Sql) : Prop := ∀ s, r = .ok s → ∃ t, r' = .ok t ∧ erase t = erase s

theorem Follows.refl (r : Result Sql) : Follows r r := fun s rendered => ⟨s, rendered, rfl⟩

theorem Follows.ok {s t : Sql} (same : erase t = erase s) : Follows (.ok s) (.ok t) := by
  rintro _ ⟨⟩
  exact ⟨t, rfl, same⟩

section

variable {ι : Type} {f g : ι → Result Sql}

theorem Follows.parts {l : List ι} (each : ∀ x ∈ l, Follows (f x) (g x)) {ts : List Sql}
    (rendered : l.map f = ts.map .ok) :
    ∃ us : List Sql, l.map g = us.map .ok ∧ us.map erase = ts.map erase := by
  induction l generalizing ts with
  | nil => exact ⟨[], rfl, by cases ts <;> simp_all⟩
  | cons x l ih =>
    cases ts with
    | nil => simp at rendered
    | cons t ts =>
      obtain ⟨first, rest⟩ := List.cons.inj rendered
      obtain ⟨u, rendered', same⟩ := each x (by simp) t first
      obtain ⟨us, others, sames⟩ := ih (fun y member => each y (by simp [member])) rest
      exact ⟨u :: us, by simp [rendered', others], by simp [same, sames]⟩

theorem Follows.part {o : Option ι} (each : ∀ x ∈ o, Follows (f x) (g x)) {t : Option Sql}
    (rendered : o.map f = t.map .ok) :
    ∃ u : Option Sql, o.map g = u.map .ok ∧ u.map erase = t.map erase := by
  cases o with
  | none => exact ⟨none, rfl, by cases t <;> simp_all⟩
  | some x =>
    cases t with
    | none => simp at rendered
    | some t =>
      obtain ⟨u, rendered', same⟩ := each x rfl t (Option.some.inj rendered)
      exact ⟨some u, by simp [rendered'], by simp [same]⟩

end

variable {d : Dialect}

/-! ## Positions -/

theorem asOperand_follows {n m : Node} (kind : m.kind = n.kind) {r r' : Result Sql}
    (h : Follows r r') : Follows (asOperand d n r) (asOperand d m r') := by
  have predicate : m.isPredicate = n.isPredicate := by simp [Node.isPredicate, kind]
  intro s whole
  obtain ⟨t, rendered, rfl⟩ := asOperand_eq_ok.mp whole
  obtain ⟨u, rendered', same⟩ := h t rendered
  refine ⟨_, asOperand_eq_ok.mpr ⟨u, rendered', rfl⟩, ?_⟩
  simp only [operandText, predicate, kind]
  split
  · split
    · simp [same]
    · simp [truthCase, same]
  · split
    · simp [same]
    · exact same

theorem asPredicate_follows {n : Node} {r r' : Result Sql} (h : Follows r r') :
    Follows (asPredicate d n r) (asPredicate d n.mask r') := by
  by_cases has : d.has .booleanLiterals
  · simpa only [asPredicate, has, if_true] using h
  cases n with
  | literal l =>
    have type : l.mask.type = l.type := by
      unfold Literal.mask
      split <;> rfl
    simp only [asPredicate, has, Bool.false_eq_true, if_false, Node.mask, type]
    split
    · rename_i truth
      have same : l.mask = l := by simp [Literal.mask, truth]
      rw [same]
      exact .refl _
    · exact h
  | column c =>
    simp only [asPredicate, has, Bool.false_eq_true, if_false, Node.mask, Column.mask]
    split
    · intro s whole
      simp only [bind_eq_ok, pure_eq_ok] at whole ⊢
      obtain ⟨t, rendered, rfl⟩ := whole
      obtain ⟨u, rendered', same⟩ := h t rendered
      exact ⟨_, ⟨u, rendered', rfl⟩, by simp [same]⟩
    · exact h
  | _ =>
    rw [asPredicate_other, asPredicate_other]
    · exact h
    all_goals
      try rw [Node.kind_mask]
      simp [Node.kind]

/-! ## Predicates -/

theorem connect_erase (word : String) (operands : List Node) (parts : List Sql) :
    erase (connect word (operands.zip parts)) = connect word (operands.zip (parts.map erase)) := by
  simp only [connect, Sql.erase_joinWith, List.zip_map_right, List.map_map, List.length_map]
  congr 1
  refine List.map_congr_left fun c _ => ?_
  simp only [Function.comp, Prod.map]
  split <;> simp_all

theorem connect_mask (word : String) (operands : List Node) (parts : List Sql) :
    connect word ((operands.map (·.mask)).zip parts) = connect word (operands.zip parts) := by
  simp only [connect, List.zip_map_left, List.map_map, List.length_map]
  congr 1
  refine List.map_congr_left fun c _ => ?_
  simp [Node.isConnective]

theorem connective_follows {word : String} {operands : List Node} {f g : Node → Result Sql}
    (each : ∀ o ∈ operands, Follows (f o) (g o)) :
    Follows (connective word operands (operands.map f))
      (connective word (operands.map (·.mask)) (operands.map g)) := by
  intro s whole
  obtain ⟨ts, rendered, rfl⟩ := connective_eq_ok.mp whole
  obtain ⟨us, rendered', same⟩ := Follows.parts each rendered
  refine ⟨_, connective_eq_ok.mpr ⟨us, rendered', rfl⟩, ?_⟩
  rw [connect_mask, connect_erase, connect_erase, same]

theorem not_follows {r r' : Result Sql} (h : Follows r r') : Follows (not r) (not r') := by
  intro s whole
  obtain ⟨c, rendered, rfl⟩ := not_eq_ok.mp whole
  obtain ⟨u, rendered', same⟩ := h c rendered
  exact ⟨_, not_eq_ok.mpr ⟨u, rendered', rfl⟩, by simp [same]⟩

theorem comparison_follows {op : ComparisonOp} {l l' r r' : Result Sql} (hl : Follows l l')
    (hr : Follows r r') : Follows (comparison op l r) (comparison op l' r') := by
  intro s whole
  obtain ⟨_, _, left, right, rfl⟩ := comparison_eq_ok.mp whole
  obtain ⟨_, left', sameLeft⟩ := hl _ left
  obtain ⟨_, right', sameRight⟩ := hr _ right
  exact ⟨_, comparison_eq_ok.mpr ⟨_, _, left', right', rfl⟩, by simp [sameLeft, sameRight]⟩

theorem like_follows {e e' p p' : Result Sql} {x : Option Node} {f g : Node → Result Sql}
    (he : Follows e e') (hp : Follows p p') (hx : ∀ n ∈ x, Follows (f n) (g n)) :
    Follows (like e p (x.map f)) (like e' p' (x.map g)) := by
  intro s whole
  obtain ⟨_, _, _, expr, pattern, escape, rfl⟩ := like_eq_ok.mp whole
  obtain ⟨_, expr', sameExpr⟩ := he _ expr
  obtain ⟨_, pattern', samePattern⟩ := hp _ pattern
  obtain ⟨_, escape', sameEscape⟩ := Follows.part hx escape
  exact ⟨_, like_eq_ok.mpr ⟨_, _, _, expr', pattern', escape', rfl⟩,
    by simp [sameExpr, samePattern, sameEscape]⟩

theorem between_follows {e e' l l' h h' : Result Sql} (he : Follows e e') (hl : Follows l l')
    (hh : Follows h h') : Follows (between e l h) (between e' l' h') := by
  intro s whole
  obtain ⟨_, _, _, expr, low, high, rfl⟩ := between_eq_ok.mp whole
  obtain ⟨_, expr', sameExpr⟩ := he _ expr
  obtain ⟨_, low', sameLow⟩ := hl _ low
  obtain ⟨_, high', sameHigh⟩ := hh _ high
  exact ⟨_, between_eq_ok.mpr ⟨_, _, _, expr', low', high', rfl⟩,
    by simp [sameExpr, sameLow, sameHigh]⟩

theorem inList_follows {e e' : Result Sql} {values : List Node} {f g : Node → Result Sql}
    (he : Follows e e') (hv : ∀ v ∈ values, Follows (f v) (g v)) :
    Follows (inList e (values.map f)) (inList e' (values.map g)) := by
  intro s whole
  obtain ⟨_, _, expr, list, rfl⟩ := inList_eq_ok.mp whole
  obtain ⟨_, expr', sameExpr⟩ := he _ expr
  obtain ⟨_, list', sameList⟩ := Follows.parts hv list
  exact ⟨_, inList_eq_ok.mpr ⟨_, _, expr', list', rfl⟩, by simp [sameExpr, sameList]⟩

theorem inSubquery_follows {e e' t t' : Result Sql} (he : Follows e e') (ht : Follows t t') :
    Follows (inSubquery d e t) (inSubquery d e' t') := by
  intro s whole
  obtain ⟨has, _, _, expr, statement, rfl⟩ := inSubquery_eq_ok.mp whole
  obtain ⟨_, expr', sameExpr⟩ := he _ expr
  obtain ⟨_, statement', sameStatement⟩ := ht _ statement
  exact ⟨_, inSubquery_eq_ok.mpr ⟨has, _, _, expr', statement', rfl⟩,
    by simp [sameExpr, sameStatement]⟩

theorem isNull_follows {r r' : Result Sql} (h : Follows r r') :
    Follows (isNull r) (isNull r') := by
  intro s whole
  obtain ⟨_, rendered, rfl⟩ := isNull_eq_ok.mp whole
  obtain ⟨_, rendered', same⟩ := h _ rendered
  exact ⟨_, isNull_eq_ok.mpr ⟨_, rendered', rfl⟩, by simp [same]⟩

theorem isNotNull_follows {r r' : Result Sql} (h : Follows r r') :
    Follows (isNotNull r) (isNotNull r') := by
  intro s whole
  obtain ⟨_, rendered, rfl⟩ := isNotNull_eq_ok.mp whole
  obtain ⟨_, rendered', same⟩ := h _ rendered
  exact ⟨_, isNotNull_eq_ok.mpr ⟨_, rendered', rfl⟩, by simp [same]⟩

/-! ## Calls -/

theorem apply_follows {kind : Kind} {spec : FunctionSpec} {args : List Node}
    {f g : Node → Result Sql} (each : ∀ a ∈ args, Follows (f a) (g a)) :
    Follows (apply d kind spec (args.map f)) (apply d kind spec (args.map g)) := by
  have list {wrap : List Sql → Sql}
      (wraps : ∀ ts us : List Sql, us.map erase = ts.map erase → erase (wrap us) = erase (wrap ts)) :
      Follows (do return wrap (← inOrder (args.map f))) (do return wrap (← inOrder (args.map g))) := by
    intro s whole
    simp only [bind_eq_ok, inOrder_eq_ok, pure_eq_ok] at whole ⊢
    obtain ⟨ts, rendered, rfl⟩ := whole
    obtain ⟨us, rendered', same⟩ := Follows.parts each rendered
    exact ⟨_, ⟨us, rendered', rfl⟩, wraps ts us same⟩
  unfold apply
  simp only [List.length_map]
  split
  · exact .refl _
  split
  · exact .refl _
  · cases args with
    | nil => exact .refl _
    | cons a args =>
      intro s whole
      simp only [List.map_cons, bind_eq_ok, pure_eq_ok] at whole ⊢
      obtain ⟨t, rendered, rfl⟩ := whole
      obtain ⟨u, rendered', same⟩ := each a (by simp) t rendered
      exact ⟨_, ⟨u, rendered', rfl⟩, by simp [same]⟩
  · exact list fun ts us same => by simp [same]
  · exact list fun ts us same => by simp [same]
  · exact list fun ts us same => by simp [same]

theorem function_follows {name : String} {args : List Node} {f g : Node → Result Sql}
    (each : ∀ a ∈ args, Follows (f a) (g a)) :
    Follows (function d name (args.map f)) (function d name (args.map g)) := by
  unfold function
  split
  · exact .refl _
  · exact apply_follows each

theorem branchCondition_erase {b b' : Option Sql} {c c' : Sql}
    (basis : b'.map erase = b.map erase) (condition : erase c' = erase c) :
    erase (branchCondition d b' c') = erase (branchCondition d b c) := by
  cases b <;> cases b' <;> simp_all [branchCondition]
  split <;> simp_all

theorem case_follows {basis otherwise : Option Node} {branches : List (Branch Node)}
    {f g : Node → Result Sql} {c c' r r' : Branch Node → Result Sql}
    (hb : ∀ n ∈ basis, Follows (f n) (g n)) (hc : ∀ b ∈ branches, Follows (c b) (c' b))
    (hr : ∀ b ∈ branches, Follows (r b) (r' b)) (ho : ∀ n ∈ otherwise, Follows (f n) (g n)) :
    Follows (case d (basis.map f) (branches.map fun b => (c b, r b)) (otherwise.map f))
      (case d (basis.map g) (branches.map fun b => (c' b, r' b)) (otherwise.map g)) := by
  intro s whole
  obtain ⟨b, parts, e, based, branched, ended, rfl⟩ := case_eq_ok.mp whole
  obtain ⟨b', based', sameBasis⟩ := Follows.part hb based
  obtain ⟨e', ended', sameEnd⟩ := Follows.part ho ended
  have each : ∀ x ∈ branches, Follows (branch d b (c x) (r x)) (branch d b' (c' x) (r' x)) := by
    intro x member t whole
    obtain ⟨_, _, condition, result, rfl⟩ := branch_eq_ok.mp whole
    obtain ⟨_, condition', sameCondition⟩ := hc x member _ condition
    obtain ⟨_, result', sameResult⟩ := hr x member _ result
    exact ⟨_, branch_eq_ok.mpr ⟨_, _, condition', result', rfl⟩,
      by simp [branchCondition_erase sameBasis sameCondition, sameResult]⟩
  simp only [List.map_map] at branched
  obtain ⟨parts', branched', sameParts⟩ := Follows.parts each branched
  refine ⟨_, case_eq_ok.mpr ⟨b', parts', e', based', ?_, ended', rfl⟩, ?_⟩
  · rw [List.map_map]
    exact branched'
  · split <;> simp [sameBasis, sameParts, sameEnd]

theorem extract_follows {part : DatePart} {r r' : Result Sql} (h : Follows r r') :
    Follows (extract d part r) (extract d part r') := by
  unfold extract
  split
  · intro s whole
    simp only [bind_eq_ok, require_eq_ok, pure_eq_ok] at whole ⊢
    obtain ⟨u, has, t, rendered, rfl⟩ := whole
    obtain ⟨t', rendered', same⟩ := h t rendered
    exact ⟨_, ⟨u, has, t', rendered', rfl⟩, by simp [same]⟩
  · intro s whole
    simp only [bind_eq_ok, pure_eq_ok] at whole ⊢
    obtain ⟨t, rendered, rfl⟩ := whole
    obtain ⟨t', rendered', same⟩ := h t rendered
    exact ⟨_, ⟨t', rendered', rfl⟩, by simp [same]⟩
  · split
    · exact .refl _
    · intro s whole
      simp only [bind_eq_ok, pure_eq_ok] at whole ⊢
      obtain ⟨t, rendered, rfl⟩ := whole
      obtain ⟨t', rendered', same⟩ := h t rendered
      exact ⟨_, ⟨t', rendered', rfl⟩, by simp [same]⟩

theorem cast_follows {type : DataType} {r r' : Result Sql} (h : Follows r r') :
    Follows (cast d type r) (cast d type r') := by
  intro s whole
  obtain ⟨name, _, found, rendered, rfl⟩ := cast_eq_ok.mp whole
  obtain ⟨_, rendered', same⟩ := h _ rendered
  refine ⟨_, cast_eq_ok.mpr ⟨name, _, found, rendered', rfl⟩, ?_⟩
  split <;> simp [same]

theorem aggregate_follows {name : String} {distinct : Bool} {args : List Node}
    {filter : Option Node} {f g c c' : Node → Result Sql}
    (ha : ∀ a ∈ args, Follows (f a) (g a)) (hf : ∀ n ∈ filter, Follows (c n) (c' n)) :
    Follows (aggregate d name distinct (args.map f) (filter.map c))
      (aggregate d name distinct (args.map g) (filter.map c')) := by
  intro s whole
  obtain ⟨spelling, _, _, found, listed, filtered, rfl⟩ := aggregate_eq_ok.mp whole
  obtain ⟨parts, rendered, rfl⟩ := aggregateArguments_eq_ok.mp listed
  obtain ⟨has, condition, conditioned, rfl⟩ := filterClause_eq_ok.mp filtered
  obtain ⟨parts', rendered', sameParts⟩ := Follows.parts ha rendered
  obtain ⟨condition', conditioned', sameCondition⟩ := Follows.part hf conditioned
  refine ⟨_, aggregate_eq_ok.mpr ⟨spelling, _, _, found,
    aggregateArguments_eq_ok.mpr ⟨parts', rendered', rfl⟩,
    filterClause_eq_ok.mpr ⟨by simpa using has, condition', conditioned', rfl⟩, rfl⟩, ?_⟩
  have empty : parts'.isEmpty = parts.isEmpty := by
    simpa using congrArg List.isEmpty sameParts
  have filters : erase (filterText condition') = erase (filterText condition) := by
    cases condition <;> cases condition' <;> simp_all [filterText]
  rw [empty]
  split
  · simp [filters]
  · split <;> simp [sameParts, filters]

theorem concatCall_erase (style : ConcatStyle) (distinct : Bool) {a a' : Sql}
    (arg : erase a' = erase a) {o o' : Option Sql} (order : o'.map erase = o.map erase)
    (separator : Option String) :
    erase (concatCall style distinct a' o' (separator.map fun _ => ",")) =
      erase (concatCall style distinct a o separator) := by
  have given : ((separator.map fun _ => ",").map fun s => ([.text s] : Sql)).map erase =
      (separator.map fun s => ([.text s] : Sql)).map erase := by
    cases separator <;> rfl
  have needed : erase (((separator.map fun _ => ",").map fun s => ([.text s] : Sql)).getD
      [.text ","]) = erase ((separator.map fun s => ([.text s] : Sql)).getD [.text ","]) := by
    cases separator <;> rfl
  cases style with
  | groupConcat => simp only [concatCall, Sql.erase_append, erase_clause, arg, order, given]
  | groupConcatArgument =>
    cases distinct <;>
      simp only [concatCall, Sql.erase_append, erase_clause, arg, order, given, if_true,
        Bool.false_eq_true, if_false]
  | stringAgg => simp only [concatCall, Sql.erase_append, erase_clause, arg, order, given]
  | stringAggSeparator =>
    simp only [concatCall, Sql.erase_append, erase_clause, arg, order, needed]
  | stringAggWithin =>
    cases o <;> cases o' <;> simp_all [concatCall]
  | listagg since => cases o <;> cases o' <;> simp_all [concatCall]

theorem groupConcat_follows {distinct : Bool} {r r' : Result Sql} {order : Option (List (SortKey Node))}
    {f g : List (SortKey Node) → Result Sql} {separator : Option String} (h : Follows r r')
    (ho : ∀ keys ∈ order, Follows (f keys) (g keys)) :
    Follows (groupConcat d r distinct (order.map f) separator)
      (groupConcat d r' distinct (order.map g) (separator.map fun _ => ",")) := by
  intro s whole
  obtain ⟨⟨joins, has, sorts, -⟩, _, _, rendered, ordered, rfl⟩ := groupConcat_eq_ok.mp whole
  obtain ⟨_, rendered', same⟩ := h _ rendered
  obtain ⟨_, ordered', sameOrder⟩ := Follows.part ho ordered
  refine ⟨_, groupConcat_eq_ok.mpr ⟨⟨joins, has, by simpa using sorts, ?_⟩, _, _, rendered', ordered',
    rfl⟩, concatCall_erase d.concatStyle distinct same sameOrder separator⟩
  rintro ⟨-, -, given, other⟩
  cases separator with
  | none => simp at given
  | some text => exact other rfl

theorem window_follows {name : String} {args partition : List Node}
    {order : Option (List (SortKey Node))} {bounds : Option Frame} {f g : Node → Result Sql}
    {k k' : List (SortKey Node) → Result Sql} (ha : ∀ a ∈ args, Follows (f a) (g a))
    (hp : ∀ n ∈ partition, Follows (f n) (g n)) (ho : ∀ keys ∈ order, Follows (k keys) (k' keys)) :
    Follows (window d name (args.map f) (partition.map f) (order.map k) bounds)
      (window d name (args.map g) (partition.map g) (order.map k') bounds) := by
  intro s whole
  obtain ⟨has, spelling, l, p, o, found, listed, parted, ordered, rfl⟩ := window_eq_ok.mp whole
  obtain ⟨l', listed', sameList⟩ := Follows.parts ha listed
  obtain ⟨p', parted', samePartition⟩ := Follows.parts hp parted
  obtain ⟨o', ordered', sameOrder⟩ := Follows.part ho ordered
  refine ⟨_, window_eq_ok.mpr ⟨has, spelling, l', p', o', found, listed', parted', ordered', rfl⟩, ?_⟩
  have noList : l'.isEmpty = l.isEmpty := by simpa using congrArg List.isEmpty sameList
  have noPartition : p'.isEmpty = p.isEmpty := by simpa using congrArg List.isEmpty samePartition
  have lists : erase (windowList name l') = erase (windowList name l) := by
    simp only [windowList, noList]
    split <;> simp [sameList]
  have parts : (windowParts p' o' bounds).map erase = (windowParts p o bounds).map erase := by
    have keys : o'.toList.map erase = o.toList.map erase := by
      simpa [Option.toList_map] using congrArg Option.toList sameOrder
    simp only [windowParts, noPartition, List.map_append, keys]
    split <;> simp [samePartition]
  simp [lists, parts]

/-! ## Clauses -/

theorem selectList_follows {star : Bool} {items : List (SelectItem Node)}
    {f g : SelectItem Node → Result Sql} (each : ∀ i ∈ items, Follows (f i) (g i)) :
    Follows (selectList d star (items.map f)) (selectList d star (items.map g)) := by
  intro s whole
  have forms := selectList_eq_ok.mp whole
  split at forms
  · rename_i starred
    exact ⟨s, selectList_eq_ok.mpr (by simpa [starred] using forms), rfl⟩
  · rename_i listed
    obtain ⟨parts, rendered, rfl⟩ := forms
    obtain ⟨parts', rendered', same⟩ := Follows.parts each rendered
    refine ⟨_, selectList_eq_ok.mpr (by
      rw [if_neg listed]
      exact ⟨parts', rendered', rfl⟩), ?_⟩
    have empty : parts'.isEmpty = parts.isEmpty := by simpa using congrArg List.isEmpty same
    rw [empty]
    split <;> simp [same]

theorem selectItem_follows {aliasName : String} {r r' : Result Sql} (h : Follows r r') :
    Follows (selectItem aliasName r) (selectItem (maskName aliasName) r') := by
  intro s whole
  obtain ⟨_, rendered, rfl⟩ := selectItem_eq_ok.mp whole
  obtain ⟨_, rendered', same⟩ := h _ rendered
  refine ⟨_, selectItem_eq_ok.mpr ⟨_, rendered', rfl⟩, ?_⟩
  by_cases missing : aliasName = ""
  · simp [missing, same]
  · simp [missing, same]

theorem join_follows {type : JoinType} {kind : Kind} {l l' r r' c c' : Result Sql}
    (hl : Follows l l') (hr : Follows r r') (hc : Follows c c') :
    Follows (join d type l kind r c) (join d type l' kind r' c') := by
  intro s whole
  obtain ⟨keyword, _, _, _, found, left, right, condition, rfl⟩ := join_eq_ok.mp whole
  obtain ⟨_, left', sameLeft⟩ := hl _ left
  obtain ⟨_, right', sameRight⟩ := hr _ right
  obtain ⟨_, condition', sameCondition⟩ := hc _ condition
  refine ⟨_, join_eq_ok.mpr ⟨keyword, _, _, _, found, left', right', condition', rfl⟩, ?_⟩
  split <;> simp [sameLeft, sameRight, sameCondition]

theorem tableAlias_erase (d : Dialect) (a b : String) :
    erase (tableAlias d a) = erase (tableAlias d b) := by simp [tableAlias]

theorem subSelect_follows {aliasName : String} {r r' : Result Sql} (h : Follows r r') :
    Follows (subSelect d r aliasName) (subSelect d r' (maskName aliasName)) := by
  intro s whole
  obtain ⟨has, _, rendered, rfl⟩ := subSelect_eq_ok.mp whole
  obtain ⟨_, rendered', same⟩ := h _ rendered
  refine ⟨_, subSelect_eq_ok.mpr ⟨has, _, rendered', rfl⟩, ?_⟩
  simp [same, tableAlias_erase d (maskName aliasName) aliasName]

theorem sortKey_follows {ascending nullsLast : Bool} {r r' : Result Sql} (h : Follows r r') :
    Follows (sortKey d ascending nullsLast r) (sortKey d ascending nullsLast r') := by
  intro s whole
  obtain ⟨_, rendered, rfl⟩ := sortKey_eq_ok.mp whole
  obtain ⟨_, rendered', same⟩ := h _ rendered
  exact ⟨_, sortKey_eq_ok.mpr ⟨_, rendered', rfl⟩, by simp [same]⟩

theorem orderBy_follows {keys : List (SortKey Node)} {f g : SortKey Node → Result Sql}
    (each : ∀ key ∈ keys, Follows (f key) (g key)) :
    Follows (orderBy (keys.map f)) (orderBy (keys.map g)) := by
  intro s whole
  obtain ⟨_, rendered, rfl⟩ := orderBy_eq_ok.mp whole
  obtain ⟨_, rendered', same⟩ := Follows.parts each rendered
  exact ⟨_, orderBy_eq_ok.mpr ⟨_, rendered', rfl⟩, by simp [same]⟩

theorem groupBy_follows {exprs : List Node} {f g : Node → Result Sql}
    (each : ∀ e ∈ exprs, Follows (f e) (g e)) :
    Follows (groupBy (exprs.map f)) (groupBy (exprs.map g)) := by
  intro s whole
  obtain ⟨_, rendered, rfl⟩ := groupBy_eq_ok.mp whole
  obtain ⟨_, rendered', same⟩ := Follows.parts each rendered
  exact ⟨_, groupBy_eq_ok.mpr ⟨_, rendered', rfl⟩, by simp [same]⟩

theorem fromClause_erase {t t' : Option Sql} (same : t'.map erase = t.map erase) :
    erase (fromClause d t') = erase (fromClause d t) := by
  cases t <;> cases t' <;> simp_all [fromClause]

theorem limitOnTop_erase {t t' : Option Sql} (same : t'.map erase = t.map erase) :
    erase (limitOnTop d t') = erase (limitOnTop d t) := by
  cases t <;> cases t' <;> simp_all [limitOnTop]
  split <;> simp_all

theorem limitAtEnd_erase {t t' : Option Sql} (same : t'.map erase = t.map erase) :
    erase (limitAtEnd d t') = erase (limitAtEnd d t) := by
  unfold limitAtEnd
  split <;> simp [same]

theorem select_follows {s : Statement} {n n' : Limit → Result Sql} {l l' : Result Sql}
    {f f' c c' : Node → Result Sql} {k k' : List (SortKey Node) → Result Sql}
    {e e' : List Node → Result Sql} (hn : ∀ x ∈ s.limit, Follows (n x) (n' x))
    (hl : Follows l l') (hs : ∀ x ∈ s.source, Follows (f x) (f' x))
    (hw : ∀ x ∈ s.filter, Follows (c x) (c' x)) (hg : ∀ x ∈ s.grouping, Follows (e x) (e' x))
    (hh : ∀ x ∈ s.having, Follows (c x) (c' x)) (ho : ∀ x ∈ s.order, Follows (k x) (k' x)) :
    Follows
      (select d (s.limit.map n) l (s.source.map f) (s.filter.map c) (s.grouping.map e)
        (s.having.map c) (s.order.map k))
      (select d (s.limit.map n') l' (s.source.map f') (s.filter.map c') (s.grouping.map e')
        (s.having.map c') (s.order.map k')) := by
  intro t whole
  obtain ⟨_, _, _, _, _, _, _, limit, list, source, filter, grouping, having, order, rfl⟩ :=
    select_eq_ok.mp whole
  obtain ⟨_, limit', sameLimit⟩ := Follows.part hn limit
  obtain ⟨_, list', sameList⟩ := hl _ list
  obtain ⟨_, source', sameSource⟩ := Follows.part hs source
  obtain ⟨_, filter', sameFilter⟩ := Follows.part hw filter
  obtain ⟨_, grouping', sameGrouping⟩ := Follows.part hg grouping
  obtain ⟨_, having', sameHaving⟩ := Follows.part hh having
  obtain ⟨_, order', sameOrder⟩ := Follows.part ho order
  refine ⟨_, select_eq_ok.mpr ⟨_, _, _, _, _, _, _, limit', list', source', filter', grouping',
    having', order', rfl⟩, ?_⟩
  simp only [Sql.erase_append, erase_clause, limitOnTop_erase sameLimit, sameList,
    fromClause_erase sameSource, sameFilter, sameGrouping, sameHaving, sameOrder,
    limitAtEnd_erase sameLimit]

/-! ## Names and constants -/

theorem tableName_erase (d : Dialect) (ctx : Context) (a b : String) :
    erase (tableName d ctx a) = erase (tableName d ctx b) := by
  simp [tableName]

theorem table_erase (d : Dialect) (ctx : Context) (t : Table) :
    erase (table d ctx t.mask) = erase (table d ctx t) := by
  simp only [table, Table.mask, maskName_eq_empty, Sql.erase_append,
    tableName_erase d ctx (maskName t.name) t.name]
  split
  · rfl
  · rw [tableAlias_erase d (maskName t.aliasName) t.aliasName]

theorem column_erase (d : Dialect) (ctx : Context) (c : Column) :
    erase (column d ctx c.mask) = erase (column d ctx c) := by
  simp only [column, Column.mask, ne_eq, maskName_eq_empty]
  split
  · simp
  · split
    · simp [tableName_erase d ctx (maskName c.table) c.table]
    · simp

theorem literal_follows (l : Literal) : Follows (literal d l) (literal d l.mask) := by
  by_cases type : l.type = .string
  · simp only [Literal.mask, literal, type, if_true]
    exact .ok rfl
  · simp only [Literal.mask, type, if_false]
    exact .refl _

/-! ## The tree -/

/-- If a tree is rendered, so is its mask. -/
theorem node_follows (unmarked : d.marked = []) (ctx : Context) (n : Node) :
    Follows (node d ctx n) (node d ctx n.mask) := by
  induction n using Node.induction with
  | step n below =>
    have operand : ∀ c ∈ n.children,
        Follows (asOperand d c (node d ctx c)) (asOperand d c.mask (node d ctx c.mask)) :=
      fun c child => asOperand_follows c.kind_mask (below c child)
    have condition : ∀ c ∈ n.children,
        Follows (asPredicate d c (node d ctx c)) (asPredicate d c.mask (node d ctx c.mask)) :=
      fun c child => asPredicate_follows (below c child)
    have ordered : ∀ keys, .orderBy keys ∈ n.children →
        Follows (node d ctx (.orderBy keys)) (node d ctx (.orderBy (keys.map (·.mask)))) := by
      intro keys child
      rw [← Node.mask_orderBy]
      exact below _ child
    cases n with
    | select s =>
      rw [Node.mask, Select.mask_eq, node_select unmarked, node_select unmarked]
      simp only [Option.map_map]
      refine select_follows ?_ ?_ ?_ ?_ ?_ ?_ ?_
      · exact fun l given => .refl _
      · rw [← Node.mask_selectList]
        exact below _ (by simp [Node.children])
      · exact fun item given => below _ (by simp [Node.children, Option.mem_def.mp given])
      · exact fun c given => condition _ (by simp [Node.children, Option.mem_def.mp given])
      · intro exprs given
        have masked := below (.groupBy exprs) (by simp_all [Node.children])
        rwa [Node.mask] at masked
      · exact fun c given => condition _ (by simp [Node.children, Option.mem_def.mp given])
      · exact fun keys given => ordered keys (by simp [Node.children, Option.mem_def.mp given])
    | selectList l =>
      rw [Node.mask_selectList, node_selectList unmarked, node_selectList unmarked]
      simp only [SelectList.mask, List.map_map]
      exact selectList_follows fun item member =>
        selectItem_follows (operand _ (List.mem_map.mpr ⟨item, member, rfl⟩))
    | table t =>
      rw [Node.mask, node_table unmarked, node_table unmarked]
      exact .ok (table_erase d ctx t)
    | join type left right c =>
      rw [Node.mask, node_join unmarked, node_join unmarked, Node.kind_mask]
      exact join_follows (below _ (by simp [Node.children])) (below _ (by simp [Node.children]))
        (condition _ (by simp [Node.children]))
    | subSelect s aliasName =>
      have masked := below (.select s) (by simp [Node.children])
      rw [Node.mask] at masked
      rw [Node.mask, node_subSelect unmarked, node_subSelect unmarked]
      exact subSelect_follows masked
    | column c =>
      rw [Node.mask, node_column unmarked, node_column unmarked]
      exact .ok (column_erase d ctx c)
    | literal l =>
      rw [Node.mask, node_literal unmarked, node_literal unmarked]
      exact literal_follows l
    | and operands =>
      rw [Node.mask, node_and unmarked, node_and unmarked, List.map_map]
      exact connective_follows condition
    | or operands =>
      rw [Node.mask, node_or unmarked, node_or unmarked, List.map_map]
      exact connective_follows condition
    | not c =>
      rw [Node.mask, node_not unmarked, node_not unmarked]
      exact not_follows (condition _ (by simp [Node.children]))
    | comparison op left right =>
      rw [Node.mask, node_comparison unmarked, node_comparison unmarked]
      exact comparison_follows (operand _ (by simp [Node.children]))
        (operand _ (by simp [Node.children]))
    | like expr pattern escape =>
      rw [Node.mask_like, node_like unmarked, node_like unmarked, Option.map_map]
      exact like_follows (operand _ (by simp [Node.children])) (operand _ (by simp [Node.children]))
        fun x given => operand x (by simp [Node.children, Option.mem_def.mp given])
    | regexpLike expr pattern =>
      rw [Node.mask, node_regexpLike unmarked, node_regexpLike unmarked]
      intro s whole
      obtain ⟨has, applied⟩ := regexpLike_eq_ok.mp whole
      have each : ∀ a ∈ [expr, pattern], Follows (asOperand d a (node d ctx a))
          (asOperand d a.mask (node d ctx a.mask)) :=
        fun a member => operand a (by simpa [Node.children] using member)
      obtain ⟨t, applied', same⟩ := apply_follows each s applied
      exact ⟨t, regexpLike_eq_ok.mpr ⟨has, applied'⟩, same⟩
    | between expr low high =>
      rw [Node.mask, node_between unmarked, node_between unmarked]
      exact between_follows (operand _ (by simp [Node.children]))
        (operand _ (by simp [Node.children])) (operand _ (by simp [Node.children]))
    | inList expr values =>
      rw [Node.mask, node_inList unmarked, node_inList unmarked, List.map_map]
      exact inList_follows (operand _ (by simp [Node.children]))
        fun v member => operand v (by simp [Node.children, member])
    | inSubquery expr s =>
      have masked := below (.select s) (by simp [Node.children])
      rw [Node.mask] at masked
      rw [Node.mask, node_inSubquery unmarked, node_inSubquery unmarked]
      exact inSubquery_follows (operand _ (by simp [Node.children])) masked
    | isNull expr =>
      rw [Node.mask, node_isNull unmarked, node_isNull unmarked]
      exact isNull_follows (operand _ (by simp [Node.children]))
    | isNotNull expr =>
      rw [Node.mask, node_isNotNull unmarked, node_isNotNull unmarked]
      exact isNotNull_follows (operand _ (by simp [Node.children]))
    | function name args =>
      rw [Node.mask, node_function unmarked, node_function unmarked, List.map_map]
      exact function_follows operand
    | extract part arg =>
      rw [Node.mask, node_extract unmarked, node_extract unmarked]
      exact extract_follows (operand _ (by simp [Node.children]))
    | cast arg type =>
      rw [Node.mask, node_cast unmarked, node_cast unmarked]
      exact cast_follows (operand _ (by simp [Node.children]))
    | case basis branches otherwise =>
      rw [Node.mask_case, node_case unmarked, node_case unmarked]
      simp only [Option.map_map, List.map_map, Option.isSome_map]
      refine case_follows ?_ ?_ ?_ ?_
      · exact fun b given => operand b (by simp [Node.children, Option.mem_def.mp given])
      · intro b member
        simp only [asCondition]
        split
        · exact operand _ (Node.condition_mem_children member)
        · exact condition _ (Node.condition_mem_children member)
      · exact fun b member => operand _ (Node.result_mem_children member)
      · exact fun e given => operand e (by simp [Node.children, Option.mem_def.mp given])
    | aggregate name distinct args filter =>
      rw [Node.mask_aggregate, node_aggregate unmarked, node_aggregate unmarked, List.map_map,
        Option.map_map]
      exact aggregate_follows (fun a member => operand a (by simp [Node.children, member]))
        fun c given => condition c (by simp [Node.children, Option.mem_def.mp given])
    | groupConcat arg distinct order separator =>
      rw [Node.mask_groupConcat, node_groupConcat unmarked, node_groupConcat unmarked,
        Option.map_map]
      exact groupConcat_follows (operand _ (by simp [Node.children]))
        fun keys given => ordered keys (by simp [Node.children, Option.mem_def.mp given])
    | window name args partition order frame =>
      rw [Node.mask_window, node_window unmarked, node_window unmarked, List.map_map, List.map_map,
        Option.map_map]
      exact window_follows (fun a member => operand a (by simp [Node.children, member]))
        (fun a member => operand a (by simp [Node.children, member]))
        fun keys given => ordered keys (by simp [Node.children, Option.mem_def.mp given])
    | groupBy exprs =>
      rw [Node.mask, node_groupBy unmarked, node_groupBy unmarked, List.map_map]
      exact groupBy_follows operand
    | orderBy keys =>
      rw [Node.mask_orderBy, node_orderBy unmarked, node_orderBy unmarked, List.map_map]
      exact orderBy_follows fun key member =>
        sortKey_follows (operand _ (List.mem_map.mpr ⟨key, member, rfl⟩))
    | limit l =>
      rw [Node.mask]
      exact .refl _

/-- Trees that differ only in the contents of names and texts are rendered to statements that
differ only in these. -/
theorem node_erase_of_mask (unmarked : d.marked = []) {ctx : Context} {n m : Node}
    (same : n.mask = m.mask) {s t : Sql} (first : node d ctx n = .ok s)
    (second : node d ctx m = .ok t) : erase s = erase t := by
  obtain ⟨u, masked, sameFirst⟩ := node_follows unmarked ctx n s first
  obtain ⟨v, masked', sameSecond⟩ := node_follows unmarked ctx m t second
  rw [same, masked'] at masked
  obtain rfl : v = u := by simpa using masked
  rw [← sameFirst, sameSecond]

end Render

end Pushdown
