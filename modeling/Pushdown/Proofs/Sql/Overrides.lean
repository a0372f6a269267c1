import Pushdown.Proofs.Sql.Rendering

/-!
# Rules around the standard rules

A dialect may put marks around the text of any kinds of nodes and leave the text itself to the
standard rules. This works for all kinds at once: no rule looks into the text of a child, so what
is in it or around it neither changes the text of the parent nor makes the dialect refuse. If the
marks are made of a character that the statement does not have otherwise, the statement without
them is the one of the dialect that marks nothing.
-/

namespace Pushdown

/-! ## Texts without a character -/

/-- The text without a character. -/
def eraseChar (c : Char) (text : String) : String := String.ofList (text.toList.filter (· ≠ c))

theorem eraseChar_of_notMem {c : Char} {text : String} (absent : c ∉ text.toList) :
    eraseChar c text = text := by
  have all : text.toList.filter (· ≠ c) = text.toList :=
    List.filter_eq_self.mpr fun x member => by
      have other : x ≠ c := fun same => absent (same ▸ member)
      simpa using other
  rw [eraseChar, all, String.ofList_toList]

/-- The dialect with marks around the texts of some kinds of nodes. -/
def Dialect.around (d : Dialect) (kinds : List Kind) (marks : Kind → String × String) : Dialect :=
  { d with marked := kinds, marks := marks }

/-- How statements are compared: as they are written out, without a character. -/
structure View where
  erased : Char
  profile : Profile
  quoteNames : Bool

namespace View

open Sql (raw joinWith parens)
open Render (clause fromClause)

variable (v : View)

/-- What is left of a statement. -/
def text (s : Sql) : List Char :=
  (s.write v.profile v.quoteNames).toList.filter (· ≠ v.erased)

@[simp] theorem text_append (s t : Sql) : v.text (s ++ t) = v.text s ++ v.text t := by simp [text]

@[simp] theorem text_nil : v.text [] = [] := by simp [text]

@[simp] theorem text_cons (f : Fragment) (s : Sql) : v.text (f :: s) =
    (f.write v.profile v.quoteNames).toList.filter (· ≠ v.erased) ++ v.text s := by simp [text]

/-- Nothing is left of a text in one character. -/
theorem text_raw_of_erased {v : View} {text : String} (only : ∀ x ∈ text.toList, x = v.erased) :
    v.text (raw text) = [] := by
  simpa [raw, Fragment.write] using only

@[simp] theorem text_parens (s : Sql) :
    v.text (parens s) = v.text (raw "(") ++ v.text s ++ v.text (raw ")") := by simp [parens]

@[simp] theorem text_flatten (parts : List Sql) :
    v.text parts.flatten = (parts.map v.text).flatten := by
  induction parts with
  | nil => simp
  | cons s parts ih => simp [ih]

@[simp] theorem text_joinWith (separator : String) (parts : List Sql) :
    v.text (joinWith separator parts) =
      ((parts.map v.text).intersperse (v.text (raw separator))).flatten := by
  unfold joinWith
  induction parts with
  | nil => simp
  | cons s parts ih =>
    cases parts with
    | nil => simp
    | cons t parts => simpa [List.intersperse] using ih

@[simp] theorem text_clause (keyword : String) (s : Option Sql) :
    v.text (clause keyword s) = ((s.map v.text).map (v.text (raw keyword) ++ ·)).getD [] := by
  cases s <;> simp [clause]

end View

namespace Render

open Sql (raw joinWith parens)

/-! ## Outcomes that are alike -/

/-- Both outcomes are the same refusal, or in both `f` finds the same. -/
inductive Alike {α γ : Type} (f : α → γ) : Result α → Result α → Prop
  | ok {a b : α} (same : f a = f b) : Alike f (.ok a) (.ok b)
  | error (e : Unsupported) : Alike f (.error e) (.error e)

namespace Alike

variable {α β γ δ : Type} {f : α → γ} {g : β → δ}

theorem refl (r : Result α) : Alike f r r := by
  cases r with
  | ok a => exact .ok rfl
  | error e => exact .error e

theorem eq_error_iff {r r' : Result α} (h : Alike f r r') (e : Unsupported) :
    r = .error e ↔ r' = .error e := by
  cases h <;> simp

theorem exists_ok {r r' : Result α} (h : Alike f r r') {a : α} (eq : r = .ok a) :
    ∃ b, r' = .ok b ∧ f a = f b := by
  cases h with
  | ok same =>
    obtain rfl := Except.ok.inj eq
    exact ⟨_, rfl, same⟩
  | error e => cases eq

theorem bind {r r' : Result α} {k k' : α → Result β} (first : Alike f r r')
    (next : ∀ a b, f a = f b → Alike g (k a) (k' b)) : Alike g (r >>= k) (r' >>= k') := by
  cases first with
  | ok same => exact next _ _ same
  | error e => exact .error e

/-- A step that both make. -/
theorem step {r : Result α} {k k' : α → Result β} (next : ∀ a, Alike g (k a) (k' a)) :
    Alike g (r >>= k) (r >>= k') := by
  cases r with
  | ok a => exact next a
  | error e => exact .error e

theorem ite {c : Prop} [Decidable c] {r r' s s' : Result α} (yes : c → Alike f r r')
    (no : ¬ c → Alike f s s') : Alike f (if c then r else s) (if c then r' else s') := by
  split
  · exact yes ‹_›
  · exact no ‹_›

section

variable {ι : Type} {visit visit' : ι → Result α}

theorem inOrder {l : List ι} (each : ∀ x ∈ l, Alike f (visit x) (visit' x)) :
    Alike (List.map f) (inOrder (l.map visit)) (inOrder (l.map visit')) := by
  unfold Render.inOrder
  induction l with
  | nil => exact .refl _
  | cons x l ih =>
    simp only [List.map_cons, List.mapM_cons, id_eq]
    refine (each x (by simp)).bind fun a b same => ?_
    refine (ih fun y member => each y (by simp [member])).bind fun as bs sames => ?_
    exact .ok (by simp [same, sames])

theorem optional {o : Option ι} (each : ∀ x ∈ o, Alike f (visit x) (visit' x)) :
    Alike (Option.map f) (optional (o.map visit)) (optional (o.map visit')) := by
  cases o with
  | none => exact .refl _
  | some x =>
    have part := each x rfl
    simp only [Option.map_some, Render.optional]
    generalize visit x = r, visit' x = r' at part
    cases part with
    | ok same => exact .ok (congrArg some same)
    | error e => exact .error e

end

end Alike

/-! ## One rule for each construct -/

section

variable {v : View} {d : Dialect} {ι : Type} {visit visit' : ι → Result Sql}
  {r r' s s' t t' : Result Sql}

theorem asOperand_alike (n : Node) (h : Alike v.text r r') :
    Alike v.text (asOperand d n r) (asOperand d n r') := by
  refine h.bind fun a b same => .ite (fun _ => .ite (fun _ => ?_) fun _ => ?_) fun _ =>
    .ite (fun _ => ?_) fun _ => ?_
  all_goals exact .ok (by simp [same])

theorem asPredicate_alike (n : Node) (h : Alike v.text r r') :
    Alike v.text (asPredicate d n r) (asPredicate d n r') := by
  refine .ite (fun _ => h) fun _ => ?_
  split
  · exact .ite (fun _ => .refl _) fun _ => h
  · exact .ite (fun _ => h.bind fun a b same => .ok (by simp [same])) fun _ => h
  · exact h

theorem asCondition_alike (hasBasis : Bool) (n : Node) (h : Alike v.text r r') :
    Alike v.text (asCondition d hasBasis n r) (asCondition d hasBasis n r') :=
  .ite (fun _ => asOperand_alike n h) fun _ => asPredicate_alike n h

/-- Whether a condition is put in parentheses is decided by its node and how many there are. -/
theorem text_connect (word : String) (operands : List Node) (parts : List Sql) :
    v.text (connect word (operands.zip parts)) =
      (((operands.zip (parts.map v.text)).map fun c =>
        if c.1.isConnective && (operands.zip (parts.map v.text)).length > 1 then
          v.text (raw "(") ++ c.2 ++ v.text (raw ")")
        else c.2).intersperse (v.text (raw (" " ++ word ++ " ")))).flatten := by
  simp only [connect, View.text_joinWith, List.zip_map_right, List.map_map, List.length_map]
  congr 2
  refine List.map_congr_left fun c _ => ?_
  simp only [Function.comp, Prod.map, apply_ite v.text, View.text_parens, id_eq]

theorem connective_alike (word : String) (operands : List Node) {visit visit' : Node → Result Sql}
    (each : ∀ o ∈ operands, Alike v.text (visit o) (visit' o)) :
    Alike v.text (connective word operands (operands.map visit))
      (connective word operands (operands.map visit')) :=
  (Alike.inOrder each).bind fun _ _ same => .ok (by rw [text_connect, text_connect, same])

theorem not_alike (h : Alike v.text r r') : Alike v.text (not r) (not r') :=
  h.bind fun a b same => .ok (by simp [same])

theorem comparison_alike (op : ComparisonOp) (left : Alike v.text r r')
    (right : Alike v.text s s') : Alike v.text (comparison op r s) (comparison op r' s') :=
  left.bind fun _ _ same => right.bind fun _ _ same' => .ok (by simp [same, same'])

theorem like_alike {escape : Option ι} (expr : Alike v.text r r') (pattern : Alike v.text s s')
    (escaped : ∀ x ∈ escape, Alike v.text (visit x) (visit' x)) :
    Alike v.text (like r s (escape.map visit)) (like r' s' (escape.map visit')) :=
  expr.bind fun _ _ same => pattern.bind fun _ _ same' =>
    (Alike.optional escaped).bind fun _ _ same'' => .ok (by simp [same, same', same''])

theorem between_alike (expr : Alike v.text r r') (low : Alike v.text s s')
    (high : Alike v.text t t') : Alike v.text (between r s t) (between r' s' t') :=
  expr.bind fun _ _ same => low.bind fun _ _ same' => high.bind fun _ _ same'' =>
    .ok (by simp [same, same', same''])

theorem inList_alike {values : List ι} (expr : Alike v.text r r')
    (each : ∀ x ∈ values, Alike v.text (visit x) (visit' x)) :
    Alike v.text (inList r (values.map visit)) (inList r' (values.map visit')) :=
  expr.bind fun _ _ same => (Alike.inOrder each).bind fun _ _ same' =>
    .ok (by simp [same, same'])

theorem inSubquery_alike (expr : Alike v.text r r') (statement : Alike v.text s s') :
    Alike v.text (inSubquery d r s) (inSubquery d r' s') :=
  .step fun _ => expr.bind fun _ _ same => statement.bind fun _ _ same' =>
    .ok (by simp [same, same'])

theorem isNull_alike (h : Alike v.text r r') : Alike v.text (isNull r) (isNull r') :=
  h.bind fun _ _ same => .ok (by simp [same])

theorem isNotNull_alike (h : Alike v.text r r') : Alike v.text (isNotNull r) (isNotNull r') :=
  h.bind fun _ _ same => .ok (by simp [same])

theorem apply_alike (kind : Kind) (spec : FunctionSpec) {args : List ι}
    (each : ∀ a ∈ args, Alike v.text (visit a) (visit' a)) :
    Alike v.text (apply d kind spec (args.map visit)) (apply d kind spec (args.map visit')) := by
  have list := Alike.inOrder each
  unfold apply
  simp only [List.length_map]
  refine .ite (fun _ => .refl _) fun _ => ?_
  split
  · exact .refl _
  · cases args with
    | nil => exact .refl _
    | cons a args => exact (each a (by simp)).bind fun _ _ same => .ok (by simp [same])
  · exact list.bind fun _ _ same => .ok (by simp [same])
  · exact list.bind fun _ _ same => .ok (by simp [same])
  · exact list.bind fun _ _ same => .ok (by simp [same])

theorem function_alike (name : String) {args : List ι}
    (each : ∀ a ∈ args, Alike v.text (visit a) (visit' a)) :
    Alike v.text (function d name (args.map visit)) (function d name (args.map visit')) := by
  unfold function
  split
  · exact .refl _
  · exact apply_alike .function _ each

theorem regexpLike_alike (expr : Alike v.text r r') (pattern : Alike v.text s s') :
    Alike v.text (regexpLike d r s) (regexpLike d r' s') := by
  refine .step fun _ => ?_
  have each : ∀ x ∈ [(r, r'), (s, s')], Alike v.text x.1 x.2 := by simp [expr, pattern]
  exact apply_alike .regexpLike d.profile.regexp each

theorem extract_alike (part : DatePart) (h : Alike v.text r r') :
    Alike v.text (extract d part r) (extract d part r') := by
  unfold extract
  split
  · exact .step fun _ => h.bind fun _ _ same => .ok (by simp [same])
  · exact h.bind fun _ _ same => .ok (by simp [same])
  · split
    · exact .refl _
    · exact h.bind fun _ _ same => .ok (by simp [same])

theorem cast_alike (type : DataType) (h : Alike v.text r r') :
    Alike v.text (cast d type r) (cast d type r') := by
  unfold cast
  split
  · exact .refl _
  · exact h.bind fun _ _ same => .ite (fun _ => .ok (by simp [same])) fun _ =>
      .ok (by simp [same])

theorem branch_alike {basis basis' : Option Sql} (same : basis.map v.text = basis'.map v.text)
    (condition : Alike v.text r r') (result : Alike v.text s s') :
    Alike v.text (branch d basis r s) (branch d basis' r' s') := by
  refine condition.bind fun a b whens => result.bind fun _ _ thens => .ok ?_
  cases basis <;> cases basis' <;> simp at same
  · simp [whens, thens]
  · simp only [View.text_append, thens]
    split <;> simp [whens, same]

theorem case_alike {basis otherwise : Option ι} {κ : Type} {branches : List κ}
    {c c' b b' : κ → Result Sql} (based : ∀ x ∈ basis, Alike v.text (visit x) (visit' x))
    (whens : ∀ x ∈ branches, Alike v.text (c x) (c' x))
    (thens : ∀ x ∈ branches, Alike v.text (b x) (b' x))
    (ends : ∀ x ∈ otherwise, Alike v.text (visit x) (visit' x)) :
    Alike v.text (case d (basis.map visit) (branches.map fun x => (c x, b x)) (otherwise.map visit))
      (case d (basis.map visit') (branches.map fun x => (c' x, b' x)) (otherwise.map visit')) := by
  refine (Alike.optional based).bind fun _ _ same => ?_
  simp only [List.map_map]
  refine (Alike.inOrder fun x member =>
    branch_alike same (whens x member) (thens x member)).bind fun _ _ same' => ?_
  refine (Alike.optional ends).bind fun _ _ same'' => .ok ?_
  simp only [View.text_append, View.text_flatten, View.text_clause, same', same'']
  split <;> simp [same]

theorem aggregateArguments_alike (distinct : Bool) {args : List ι}
    (each : ∀ a ∈ args, Alike v.text (visit a) (visit' a)) :
    Alike v.text (aggregateArguments distinct (args.map visit))
      (aggregateArguments distinct (args.map visit')) := by
  unfold aggregateArguments
  simp only [List.isEmpty_map]
  exact .ite (fun _ => .refl _) fun _ => (Alike.inOrder each).bind fun _ _ same =>
    .ok (by simp [same])

theorem filterClause_alike {filter : Option ι}
    (each : ∀ x ∈ filter, Alike v.text (visit x) (visit' x)) :
    Alike v.text (filterClause d (filter.map visit)) (filterClause d (filter.map visit')) := by
  cases filter with
  | none => exact .refl _
  | some x => exact .step fun _ => (each x rfl).bind fun _ _ same => .ok (by simp [same])

theorem aggregate_alike (name : String) (distinct : Bool) {args : List ι} {κ : Type}
    {filter : Option κ} {c c' : κ → Result Sql}
    (each : ∀ a ∈ args, Alike v.text (visit a) (visit' a))
    (filtered : ∀ x ∈ filter, Alike v.text (c x) (c' x)) :
    Alike v.text (aggregate d name distinct (args.map visit) (filter.map c))
      (aggregate d name distinct (args.map visit') (filter.map c')) := by
  unfold aggregate
  split
  · exact .refl _
  · exact (aggregateArguments_alike distinct each).bind fun _ _ same =>
      (filterClause_alike filtered).bind fun _ _ same' => .ok (by simp [same, same'])

theorem text_concatCall (style : ConcatStyle) (distinct : Bool) {arg arg' : Sql}
    {order order' : Option Sql} (separator : Option String) (same : v.text arg = v.text arg')
    (sorted : order.map v.text = order'.map v.text) :
    v.text (concatCall style distinct arg order separator) =
      v.text (concatCall style distinct arg' order' separator) := by
  cases order <;> cases order' <;> simp at sorted
  · cases style <;> simp [concatCall, same]
  · cases style <;> simp [concatCall, same, sorted]

theorem groupConcat_alike (distinct : Bool) {order : Option ι} (separator : Option String)
    (arg : Alike v.text r r') (sorted : ∀ x ∈ order, Alike v.text (visit x) (visit' x)) :
    Alike v.text (groupConcat d r distinct (order.map visit) separator)
      (groupConcat d r' distinct (order.map visit') separator) := by
  unfold groupConcat
  simp only [Option.isSome_map]
  exact .step fun _ => .step fun _ => arg.bind fun _ _ same => .step fun _ =>
    (Alike.optional sorted).bind fun _ _ same' => .step fun _ =>
      .ok (text_concatCall d.concatStyle distinct separator same same')

theorem window_alike (name : String) {args partition : List ι} {κ : Type} {order : Option κ}
    {c c' : κ → Result Sql} (bounds : Option Frame)
    (each : ∀ a ∈ args, Alike v.text (visit a) (visit' a))
    (parts : ∀ a ∈ partition, Alike v.text (visit a) (visit' a))
    (sorted : ∀ x ∈ order, Alike v.text (c x) (c' x)) :
    Alike v.text (window d name (args.map visit) (partition.map visit) (order.map c) bounds)
      (window d name (args.map visit') (partition.map visit') (order.map c') bounds) := by
  refine .step fun _ => ?_
  split
  · exact .refl _
  · refine (Alike.inOrder each).bind fun _ _ same => (Alike.inOrder parts).bind fun as bs same' =>
      (Alike.optional sorted).bind fun o o' same'' => .ok ?_
    have lengths : as.isEmpty = bs.isEmpty := by simpa using congrArg List.isEmpty same'
    have list : o.toList.map v.text = o'.toList.map v.text := by
      simpa [Option.toList_map] using congrArg Option.toList same''
    simp only [List.isEmpty_map, View.text_append, View.text_joinWith, List.map_append, list,
      lengths, apply_ite v.text, apply_ite (List.map v.text), List.map_cons, List.map_nil, same,
      same']

theorem text_fromClause {source source' : Option Sql}
    (same : source.map v.text = source'.map v.text) :
    v.text (fromClause d source) = v.text (fromClause d source') := by
  cases source <;> cases source' <;> simp at same
  · rfl
  · simp [fromClause, same]

theorem text_limitOnTop {limit limit' : Option Sql} (same : limit.map v.text = limit'.map v.text) :
    v.text ((limit.map (· ++ raw " ")).getD []) = v.text ((limit'.map (· ++ raw " ")).getD []) := by
  cases limit <;> cases limit' <;> simp at same
  · rfl
  · simp [same]

theorem select_alike {stmt : Statement} {l l' : Limit → Result Sql} {f f' c c' : Node → Result Sql}
    {e e' : List Node → Result Sql} {k k' : List (SortKey Node) → Result Sql}
    (limited : ∀ x ∈ stmt.limit, Alike v.text (l x) (l' x)) (list : Alike v.text r r')
    (sourced : ∀ x ∈ stmt.source, Alike v.text (f x) (f' x))
    (filtered : ∀ x ∈ stmt.filter, Alike v.text (c x) (c' x))
    (grouped : ∀ x ∈ stmt.grouping, Alike v.text (e x) (e' x))
    (having : ∀ x ∈ stmt.having, Alike v.text (c x) (c' x))
    (sorted : ∀ x ∈ stmt.order, Alike v.text (k x) (k' x)) :
    Alike v.text
      (select d (stmt.limit.map l) r (stmt.source.map f) (stmt.filter.map c) (stmt.grouping.map e)
        (stmt.having.map c) (stmt.order.map k))
      (select d (stmt.limit.map l') r' (stmt.source.map f') (stmt.filter.map c')
        (stmt.grouping.map e') (stmt.having.map c') (stmt.order.map k')) := by
  refine (Alike.optional limited).bind fun _ _ sameLimit => list.bind fun _ _ sameList =>
    (Alike.optional sourced).bind fun _ _ sameSource =>
    (Alike.optional filtered).bind fun _ _ sameFilter =>
    (Alike.optional grouped).bind fun _ _ sameGrouping =>
    (Alike.optional having).bind fun _ _ sameHaving =>
    (Alike.optional sorted).bind fun _ _ sameOrder => .ok ?_
  simp only [View.text_append, View.text_clause, apply_ite v.text, text_limitOnTop sameLimit,
    sameLimit, sameList, text_fromClause sameSource, sameFilter, sameGrouping, sameHaving,
    sameOrder]

theorem selectItem_alike (aliasName : String) (h : Alike v.text r r') :
    Alike v.text (selectItem aliasName r) (selectItem aliasName r') :=
  h.bind fun _ _ same => .ok (by split <;> simp [same])

theorem selectList_alike (star : Bool) {items : List ι}
    (each : ∀ x ∈ items, Alike v.text (visit x) (visit' x)) :
    Alike v.text (selectList d star (items.map visit)) (selectList d star (items.map visit')) := by
  unfold selectList
  simp only [List.isEmpty_map]
  exact .ite (fun _ => .refl _) fun _ => .ite (fun _ => .refl _) fun _ =>
    (Alike.inOrder each).bind fun _ _ same => .ok (by simp [same])

theorem join_alike (type : JoinType) (rightKind : Kind) (left : Alike v.text r r')
    (right : Alike v.text s s') (condition : Alike v.text t t') :
    Alike v.text (join d type r rightKind s t) (join d type r' rightKind s' t') :=
  .step fun _ => left.bind fun _ _ same => right.bind fun _ _ same' =>
    condition.bind fun _ _ same'' => .ok (by
      simp only [View.text_append, apply_ite v.text, View.text_parens, same, same', same''])

theorem subSelect_alike (aliasName : String) (h : Alike v.text r r') :
    Alike v.text (subSelect d r aliasName) (subSelect d r' aliasName) :=
  .step fun _ => h.bind fun _ _ same => .ok (by simp [same])

theorem sortKey_alike (ascending nullsLast : Bool) (h : Alike v.text r r') :
    Alike v.text (sortKey d ascending nullsLast r) (sortKey d ascending nullsLast r') :=
  h.bind fun _ _ same => .ok (by simp [same])

theorem orderBy_alike {keys : List ι} (each : ∀ x ∈ keys, Alike v.text (visit x) (visit' x)) :
    Alike v.text (orderBy (keys.map visit)) (orderBy (keys.map visit')) :=
  (Alike.inOrder each).bind fun _ _ same => .ok (by simp [same])

theorem groupBy_alike {exprs : List ι} (each : ∀ x ∈ exprs, Alike v.text (visit x) (visit' x)) :
    Alike v.text (groupBy (exprs.map visit)) (groupBy (exprs.map visit')) :=
  (Alike.inOrder each).bind fun _ _ same => .ok (by simp [same])

end

/-! ## Whole trees -/

/-- The standard rules take the texts of children as they are. -/
theorem defaultRule_alike {v : View} {d : Dialect} {ctx : Context}
    {visit visit' : Node → Result Sql} {n : Node}
    (below : ∀ c ∈ n.children, Alike v.text (visit c) (visit' c)) :
    Alike v.text (defaultRule d ctx visit n) (defaultRule d ctx visit' n) := by
  have operand : ∀ c ∈ n.children,
      Alike v.text (asOperand d c (visit c)) (asOperand d c (visit' c)) :=
    fun c child => asOperand_alike c (below c child)
  have condition : ∀ c ∈ n.children,
      Alike v.text (asPredicate d c (visit c)) (asPredicate d c (visit' c)) :=
    fun c child => asPredicate_alike c (below c child)
  cases n with
  | select s =>
    refine select_alike ?_ ?_ ?_ ?_ ?_ ?_ ?_
    · exact fun l given => below _ (by simp [Node.children, Option.mem_def.mp given])
    · exact below _ (by simp [Node.children])
    · exact fun item given => below _ (by simp [Node.children, Option.mem_def.mp given])
    · exact fun c given => condition _ (by simp [Node.children, Option.mem_def.mp given])
    · exact fun exprs given => below _ (by simp [Node.children, Option.mem_def.mp given])
    · exact fun c given => condition _ (by simp [Node.children, Option.mem_def.mp given])
    · exact fun keys given => below _ (by simp [Node.children, Option.mem_def.mp given])
  | selectList l =>
    exact selectList_alike l.star fun item member =>
      selectItem_alike item.aliasName (operand _ (List.mem_map.mpr ⟨item, member, rfl⟩))
  | table t => exact .refl _
  | join type left right c =>
    exact join_alike type right.kind (below _ (by simp [Node.children]))
      (below _ (by simp [Node.children])) (condition _ (by simp [Node.children]))
  | subSelect s aliasName => exact subSelect_alike aliasName (below _ (by simp [Node.children]))
  | column c => exact .refl _
  | literal l => exact .refl _
  | and operands => exact connective_alike "AND" operands condition
  | or operands => exact connective_alike "OR" operands condition
  | not c => exact not_alike (condition _ (by simp [Node.children]))
  | comparison op left right =>
    exact comparison_alike op (operand _ (by simp [Node.children]))
      (operand _ (by simp [Node.children]))
  | like expr pattern escape =>
    exact like_alike (operand _ (by simp [Node.children])) (operand _ (by simp [Node.children]))
      fun x given => operand x (by simp [Node.children, Option.mem_def.mp given])
  | regexpLike expr pattern =>
    exact regexpLike_alike (operand _ (by simp [Node.children]))
      (operand _ (by simp [Node.children]))
  | between expr low high =>
    exact between_alike (operand _ (by simp [Node.children])) (operand _ (by simp [Node.children]))
      (operand _ (by simp [Node.children]))
  | inList expr values =>
    exact inList_alike (operand _ (by simp [Node.children]))
      fun x member => operand x (by simp [Node.children, member])
  | inSubquery expr s =>
    exact inSubquery_alike (operand _ (by simp [Node.children])) (below _ (by simp [Node.children]))
  | isNull expr => exact isNull_alike (operand _ (by simp [Node.children]))
  | isNotNull expr => exact isNotNull_alike (operand _ (by simp [Node.children]))
  | function name args => exact function_alike name operand
  | extract part arg => exact extract_alike part (operand _ (by simp [Node.children]))
  | cast arg type => exact cast_alike type (operand _ (by simp [Node.children]))
  | case basis branches otherwise =>
    refine case_alike ?_ ?_ ?_ ?_
    · exact fun b given => operand b (by simp [Node.children, Option.mem_def.mp given])
    · exact fun b member => asCondition_alike basis.isSome b.condition
        (below _ (Node.condition_mem_children member))
    · exact fun b member => operand _ (Node.result_mem_children member)
    · exact fun e given => operand e (by simp [Node.children, Option.mem_def.mp given])
  | aggregate name distinct args filter =>
    exact aggregate_alike name distinct
      (fun a member => operand a (by simp [Node.children, member]))
      fun c given => condition c (by simp [Node.children, Option.mem_def.mp given])
  | groupConcat arg distinct order separator =>
    exact groupConcat_alike distinct separator (operand _ (by simp [Node.children]))
      fun keys given => below _ (by simp [Node.children, Option.mem_def.mp given])
  | window name args partition order frame =>
    exact window_alike name frame (fun a member => operand a (by simp [Node.children, member]))
      (fun a member => operand a (by simp [Node.children, member]))
      fun keys given => below _ (by simp [Node.children, Option.mem_def.mp given])
  | groupBy exprs => exact groupBy_alike operand
  | orderBy keys =>
    exact orderBy_alike fun key member => sortKey_alike key.ascending key.nullsLast
      (operand _ (List.mem_map.mpr ⟨key, member, rfl⟩))
  | limit l => exact .refl _

section

variable {d : Dialect} {kinds : List Kind} {marks : Kind → String × String} {c : Char}

/-- Which kinds are marked, and how, is nothing that a standard rule asks for. -/
theorem defaultRule_around (ctx : Context) (visit : Node → Result Sql) (n : Node) :
    defaultRule (d.around kinds marks) ctx visit n = defaultRule d ctx visit n := by
  cases n <;> rfl

variable (only : ∀ kind ∈ kinds, ∀ x ∈ (marks kind).1.toList ++ (marks kind).2.toList, x = c)

include only

theorem text_mark (profile : Profile) (quoteNames : Bool) (kind : Kind) (s : Sql) :
    View.text ⟨c, profile, quoteNames⟩ (mark (d.around kinds marks) kind s) =
      View.text ⟨c, profile, quoteNames⟩ s := by
  simp only [mark, Dialect.around, List.contains_iff_mem]
  split
  · next marked =>
    rw [View.text_append, View.text_append,
      View.text_raw_of_erased fun x member => only kind marked x (by simp [member]),
      View.text_raw_of_erased fun x member => only kind marked x (by simp [member])]
    simp
  · rfl

/-- A tree rendered without the marks and with them. -/
theorem node_alike (unmarked : d.marked = []) (ctx : Context) (profile : Profile)
    (quoteNames : Bool) (n : Node) :
    Alike (View.text ⟨c, profile, quoteNames⟩) (node d ctx n)
      (node (d.around kinds marks) ctx n) := by
  induction n using Node.induction with
  | step n below =>
    rw [node_of_unmarked unmarked, node_eq (d.around kinds marks), defaultRule_around]
    have inside : Alike (View.text ⟨c, profile, quoteNames⟩) (defaultRule d ctx (node d ctx) n)
        (defaultRule d ctx (node (d.around kinds marks) ctx) n) := defaultRule_alike below
    generalize defaultRule d ctx (node d ctx) n = r,
      defaultRule d ctx (node (d.around kinds marks) ctx) n = r' at inside
    cases inside with
    | ok same => exact .ok (by rw [same, text_mark only])
    | error e => exact .error e

end

end Render

namespace Dialect

open Render (node mark defaultRule)

variable {d : Dialect} {kinds : List Kind} {marks : Kind → String × String} {c : Char}

theorem generate_around (unmarked : d.marked = [])
    (only : ∀ kind ∈ kinds, ∀ x ∈ (marks kind).1.toList ++ (marks kind).2.toList, x = c)
    (ctx : Context) (tree : Option Node) :
    Render.Alike (eraseChar c) (d.generate ctx tree)
      ((d.around kinds marks).generate ctx tree) := by
  cases tree with
  | none => exact .error _
  | some n =>
    refine (Render.node_alike only unmarked ctx d.profile ctx.quoteNames n).bind
      fun s t same => .ok ?_
    exact congrArg String.ofList same

/-- Take a dialect of the caller's own with the standard rules, and the same dialect with marks in
one character around the texts of some kinds of nodes. There the rule of every node is the standard
rule, which renders the children with the marks, with the marks of the kind around what it returns.
Both dialects refuse the same trees for the same reasons, and where a statement does not have the
character, it is the other dialect's without this character. -/
theorem overrides_compose (id : String) (profile : Profile) (notes : Notes) (kinds : List Kind)
    (marks : Kind → String × String) (c : Char) (ctx : Context)
    (only : ∀ kind ∈ kinds, ∀ x ∈ (marks kind).1.toList ++ (marks kind).2.toList, x = c) :
    let plain := custom id profile [] notes
    let marked := plain.around kinds marks
    (∀ n, node marked ctx n =
        (fun s => if n.kind ∈ kinds then Sql.raw (marks n.kind).1 ++ s ++ Sql.raw (marks n.kind).2
          else s) <$> defaultRule plain ctx (node marked ctx) n) ∧
      (∀ tree e, plain.generate ctx tree = .error e ↔ marked.generate ctx tree = .error e) ∧
      ∀ tree sql, plain.generate ctx tree = .ok sql → c ∉ sql.toList →
        ∃ text, marked.generate ctx tree = .ok text ∧ eraseChar c text = sql := by
  intro plain marked
  have alike := generate_around (d := plain) rfl only ctx
  refine ⟨fun n => ?_, fun tree e => ?_, fun tree sql rendered absent => ?_⟩
  · rw [Render.node_eq, Render.defaultRule_around]
    congr 1
    funext s
    simp [mark, marked, around]
  · exact (alike tree).eq_error_iff e
  · obtain ⟨text, written, same⟩ := (alike tree).exists_ok rendered
    exact ⟨text, written, by rw [← same, eraseChar_of_notMem absent]⟩

/-- The limit of a statement is written in front of its projection with the marks around it, and a
condition with a mark on one side only. -/
theorem overrides_compose_limitOnTop :
    let profile : Profile := { limitStyle := .top }
    let marks : Kind → String × String
      | .isNull => ("", "~~")
      | _ => ("~", "~")
    let kinds := [.column, .isNull, .limit, .selectList]
    let plain := custom "demo" profile [] {}
    let column : Node := .column { table := "T", name := "A", type := { kind := .date } }
    let tree : Option Node := some (.select
      { list := { star := false, items := [⟨column, ""⟩] }, source := some (.table { name := "T" })
        filter := some (.not (.isNull column)), limit := some { count := 3 } })
    let sql := "SELECT TOP 3 A FROM T WHERE NOT (A IS NULL)"
    (∀ kind ∈ kinds, ∀ x ∈ (marks kind).1.toList ++ (marks kind).2.toList, x = '~') ∧
      plain.generate {} tree = .ok sql ∧ '~' ∉ sql.toList ∧
      (∃ text, (plain.around kinds marks).generate {} tree = .ok text ∧ eraseChar '~' text = sql) ∧
      ((plain.around kinds marks).generate {} tree).toOption =
        some "SELECT ~TOP 3~ ~~A~~ FROM T WHERE NOT (~A~ IS NULL~~)" := by
  intro profile marks kinds plain column tree sql
  have only : ∀ kind ∈ kinds, ∀ x ∈ (marks kind).1.toList ++ (marks kind).2.toList, x = '~' := by
    simp [kinds, marks]
  have rendered : plain.generate {} tree = .ok sql := toOption_eq_some.mp (by decide +kernel)
  have absent : '~' ∉ sql.toList := by decide
  exact ⟨only, rendered, absent,
    (overrides_compose "demo" profile {} kinds marks '~' {} only).2.2 tree sql rendered absent,
    by decide +kernel⟩

end Dialect

end Pushdown
