import Pushdown.Proofs.Outcome
import Pushdown.Proofs.Sql.Interpretation
import Pushdown.Proofs.Syntax.Truth

/-!
# Evaluating texts with numbers as truth values

The texts of a dialect without truth values are evaluated here as a database would, with three-valued
logic and with numbers in the columns: 1 for true, 0 for false and NULL for unknown. Every function
says `none` of what is no text of its kind, so a text has a truth only if all of it has been read.
The truth itself may be unknown, and a value may be NULL.

`Denotes` is said of a text that comes to a number. The relations and CASE are then evaluated for the
texts that they are put together from.
-/

namespace Pushdown

open Grouping (Groups)

namespace Evaluation

/-! ## Entries -/

/-- What the inside of a group comes to: as a condition, as the branches of a CASE and as a list of
values. -/
structure Meaning where
  truth : Option Truth
  branches : Option (Option Int)
  values : Option (List (Option Int))
deriving Inhabited

def token? (e : Entry Meaning) : Option Token :=
  match e.item with
  | .token t => some t
  | .group .. => none

def symbol? (e : Entry Meaning) : Option Char :=
  match e.item with
  | .token (.symbol c) => some c
  | _ => none

/-- A word in capital letters. -/
def word? (e : Entry Meaning) : Option String :=
  match e.item with
  | .token (.word w) => some (Text.upper w)
  | _ => none

/-- Whether the entry relates the value before it to what follows. -/
def relates (e : Entry Meaning) : Bool :=
  match e.item with
  | .token (.symbol c) => ['=', '<', '>'].contains c
  | .token (.word w) => ["BETWEEN", "IN", "IS"].contains (Text.upper w)
  | _ => false

/-- Whether the token is a name by itself. -/
def isSimpleName : Token → Bool
  | .word _ | .quoted _ => true
  | _ => false

/-- Whether the tokens are names with points between them. -/
def isName : List Token → Bool
  | [t] => isSimpleName t
  | t :: point :: rest => isSimpleName t && point == .symbol '.' && isName rest
  | [] => false

/-- The tokens of a name. -/
def name? (es : List (Entry Meaning)) : Option (List Token) := do
  let ts ← es.mapM token?
  if isName ts then some ts else none

/-- The value of a CASE, a whole number or NULL. -/
def constant? : List (Entry Meaning) → Option (Option Int)
  | [⟨.group .case _, some inside⟩] => inside.branches
  | [⟨.token (.number text), _⟩] =>
    if text.toList.all Char.isDigit then some (some (Nat.ofDigitChars 10 text.toList 0)) else none
  | [⟨.token (.word w), _⟩] => if Text.upper w = "NULL" then some none else none
  | _ => none

variable (σ : List Token → Truth)

/-- A value: a constant one, or a column, of which `σ` gives the truth. -/
def value? (es : List (Entry Meaning)) : Option (Option Int) :=
  constant? es <|> (name? es).map fun ts => (σ ts).code

/-- Whether the value lies between the two that are given. -/
def isBetween? (left : Option Int) (rest : List (Entry Meaning)) : Option Truth := do
  let low ← value? σ (rest.takeWhile (·.item.mark ≠ .and))
  let high ← value? σ (rest.dropWhile (·.item.mark ≠ .and)).tail
  some (Truth.all [ComparisonOp.greaterEqual.compare left low,
    ComparisonOp.lessEqual.compare left high])

/-- Whether the value is among those in parentheses. -/
def isAmong? (left : Option Int) : List (Entry Meaning) → Option Truth
  | [⟨.group .paren _, some inside⟩] =>
    inside.values.map fun values => Truth.any (values.map (ComparisonOp.equal.compare left))
  | _ => none

/-- Whether the value is NULL, or is not, as the words say. -/
def isNothing? (left : Option Int) (rest : List (Entry Meaning)) : Option Truth :=
  if rest.map word? = [some "NULL"] then some (some left.isNone)
  else if rest.map word? = [some "NOT", some "NULL"] then some (some left.isSome)
  else none

/-- The comparison that signs stand for. -/
def comparison? (signs : List Char) : Option ComparisonOp :=
  match ComparisonOp.ofSymbol (String.ofList signs) with
  | .other _ => none
  | op => some op

/-- How the value compares. -/
def compares? (left : Option Int) (rest : List (Entry Meaning)) : Option Truth := do
  let op ← comparison? (← (rest.takeWhile relates).mapM symbol?)
  let right ← value? σ (rest.dropWhile relates)
  some (op.compare left right)

/-- What a relation says of the value before it. -/
def relate? (left : Option Int) : List (Entry Meaning) → Option Truth
  | ⟨.token (.word w), _⟩ :: rest =>
    if Text.upper w = "BETWEEN" then isBetween? σ left rest
    else if Text.upper w = "IN" then isAmong? left rest
    else if Text.upper w = "IS" then isNothing? left rest
    else none
  | rest => compares? σ left rest

def operand? : List (Entry Meaning) → Option Truth
  | [⟨.group .paren _, some inside⟩] => inside.truth
  | es => do relate? σ (← value? σ (es.takeWhile (!relates ·))) (es.dropWhile (!relates ·))

/-- Connectives of texts, any of which may have no truth. -/
def connectives : Connectives (Option Truth) where
  not := Option.map Truth.connectives.not
  and operands := (operands.mapM id).map Truth.all
  or operands := (operands.mapM id).map Truth.any

/-- Operands that have a truth are joined to one that has it, too. -/
theorem joined_mapM {combine : List Truth → Truth} (single : ∀ t, combine [t] = t) {ι : Type}
    (f : ι → Truth) (operands : List ι) :
    Connectives.joined (fun parts => (parts.mapM id).map combine)
      (operands.map fun o => some (f o)) = some (combine (operands.map f)) := by
  have alone : ∀ part : Option Truth, ([part].mapM id).map combine = part := by
    rintro (_ | t)
    · rfl
    · exact congrArg some (single t)
  have read : (operands.map fun o => some (f o)).mapM id = some (operands.map f) := by
    rw [mapM_eq_some, List.map_id, List.map_map]
    rfl
  rw [Connectives.joined_of_single alone, read, Option.map_some]

def reader : Reader (Option Truth) Meaning := { connectives with operand := operand? σ }

/-! ### The parts of a CASE -/

/-- What follows a word between CASE and END. -/
inductive Part where
  | condition | result | otherwise
deriving DecidableEq, Inhabited

def partWords : List (String × Part) :=
  [("WHEN", .condition), ("THEN", .result), ("ELSE", .otherwise)]

def part? (e : Entry Meaning) : Option Part := (word? e).bind fun word => partWords.lookup word

/-- What stands in front of the first part, and the parts behind it. -/
def parts : List (Entry Meaning) → List (Entry Meaning) × List (Part × List (Entry Meaning))
  | [] => ([], [])
  | e :: es =>
    match part? e with
    | some part => ([], (part, (parts es).1) :: (parts es).2)
    | none => (e :: (parts es).1, (parts es).2)

/-- The value of the first branch whose condition is true, of the last part if there is no such
branch, or NULL. -/
def branches? : List (Part × List (Entry Meaning)) → Option (Option Int)
  | (.condition, condition) :: (.result, result) :: rest => do
    let truth ← (reader σ).condition condition
    let chosen ← value? σ result
    let others ← branches? rest
    some (if truth = some true then chosen else others)
  | [(.otherwise, otherwise)] => value? σ otherwise
  | [] => some none
  | _ => none

/-- The value of what stands between CASE and END: conditions with their results. -/
def case? (es : List (Entry Meaning)) : Option (Option Int) :=
  match parts es with
  | ([], first :: rest) => branches? σ (first :: rest)
  | _ => none

def inside (_ : Bracket) (es : List (Entry Meaning)) : Meaning where
  truth := (reader σ).condition es
  branches := case? σ es
  values := (Precedence.cut (.separates .paren) false es).mapM (value? σ)

/-! ### Whole texts -/

/-- The truth of a text. -/
def truth : Interpretation (Option Truth) Meaning where
  toReader := reader σ
  inside := inside σ
  grouped _ _ := rfl

/-- The truth of a text that is a condition. -/
def readTruth? (p : Profile) (text : String) : Option Truth := ((truth σ).read p text).join

/-- The value of a text that is a value. -/
def readValue? (p : Profile) (text : String) : Option (Option Int) := do
  let ts ← Lexer.scan p text.toList
  let items ← Grouping.items? ts
  value? σ ((truth σ).entries items)

/-! ## Values -/

variable {σ}

/-- The text is a value that comes to the number. -/
def Denotes (σ : List Token → Truth) (p : Profile) (quoteNames : Bool) (s : Sql)
    (v : Option Int) : Prop :=
  ∃ items, HasItems p quoteNames s items ∧
    (∀ e ∈ (truth σ).entries items, relates e = false) ∧ value? σ ((truth σ).entries items) = some v

variable {p : Profile} {quoteNames : Bool} {s : Sql}

/-- A constant value. -/
theorem Denotes.const {text : String} {t : Token} {v : Option Int}
    (tokens : Lexer.plainTokens text.toList = [t]) (plain : t.mark = .plain)
    (single : relates (.ofToken t) = false) (known : value? σ [.ofToken t] = some v) :
    Denotes σ p quoteNames (Sql.raw text) v := by
  refine ⟨[.token t], ⟨?_, by simpa [Item.mark] using plain, by simp⟩, ?_, ?_⟩
  · rw [Sql.tokens_raw, tokens]
    exact .token (by rw [plain]; rfl)
  · simpa [Interpretation.entries_token] using single
  · rw [Interpretation.entries_token, known]

theorem relates_of_isNamePart (legible : p.Legible) {t : Token} (h : IsNamePart p t) :
    relates (.ofToken t) = false := by
  cases t with
  | quoted name => rfl
  | word w =>
    have between := h.ne_keyword legible "BETWEEN" (by decide)
    have isIn := h.ne_keyword legible "IN" (by decide)
    have is := h.ne_keyword legible "IS" (by decide)
    simp [relates, Entry.ofToken, between, isIn, is]
  | symbol c =>
    obtain rfl : c = '.' := h
    decide
  | number _ | string _ | comment => exact absurd h id

theorem value?_constant {es : List (Entry Meaning)} {v : Option Int}
    (known : constant? es = some v) : value? σ es = some v := by
  rw [value?, known]
  rfl

theorem name?_tokens {ts : List Token} (named : isName ts) : name? (ts.map .ofToken) = some ts := by
  have tokens : (ts.map Entry.ofToken).mapM token? = some ts := by
    rw [mapM_eq_some, List.map_map]
    rfl
  rw [name?, tokens]
  exact if_pos named

theorem isSimpleName_written (quoted : Prop) [Decidable quoted] (a : String) :
    isSimpleName (if quoted then .quoted a else .word a) = true := by
  split <;> rfl

/-- The text of a column is a name, be it qualified or not. -/
theorem column_isName (d : Dialect) (ctx : Context) (c : Column) :
    isName ((Render.column d ctx c).tokens p quoteNames) := by
  have point : Lexer.plainTokens ['.'] = [.symbol '.'] := by decide
  unfold Render.column Render.tableName
  by_cases catalog : d.profile.qualifyCatalog && ctx.catalog != "" <;>
    by_cases schema : d.profile.qualifySchema && ctx.schema != "" <;>
      split_ifs <;>
        simp [catalog, schema, Sql.joinWith, List.intersperse, Sql.raw, Fragment.tokens, point,
          isName, isSimpleName_written]

/-- A name comes to the number of its truth. -/
theorem value?_names (legible : p.Legible) {ts : List Token} (named : isName ts)
    (parts : ∀ t ∈ ts, IsNamePart p t) : value? σ (ts.map .ofToken) = some (σ ts).code := by
  have column : constant? (ts.map .ofToken) = none := by
    rcases ts with _ | ⟨t, _ | ⟨u, ts⟩⟩
    · rfl
    · have part := parts t (by simp)
      cases t with
      | word w => exact if_neg (part.ne_keyword legible "NULL" (by decide))
      | number text => exact absurd part id
      | quoted _ | symbol _ | string _ | comment => rfl
    · cases t <;> rfl
  rw [value?, column, name?_tokens named]
  rfl

/-- A column comes to the number of its truth. -/
theorem column_denotes {d : Dialect} (legible : d.profile.Legible) (ctx : Context) (c : Column) :
    Denotes σ d.profile quoteNames (Render.column d ctx c)
      (σ ((Render.column d ctx c).tokens d.profile quoteNames)).code := by
  have term : IsTerm d.profile quoteNames (Render.column d ctx c) := Render.column_term legible c
  have named : ∀ t ∈ (Render.column d ctx c).tokens d.profile quoteNames,
      IsNamePart d.profile t := Render.column_isNamePart d ctx c
  have flat : ((Render.column d ctx c).tokens d.profile quoteNames).all (·.mark.isFlat) := by
    rw [List.all_eq_true]
    intro t member
    rw [(named t member).mark legible]
    rfl
  refine ⟨_, ⟨.tokens flat, ?_, by simpa using term.nonempty⟩, ?_, ?_⟩
  · rw [List.forall_mem_map]
    exact fun t member => (named t member).mark legible
  · rw [Interpretation.entries_tokens, List.forall_mem_map]
    exact fun t member => relates_of_isNamePart legible (named t member)
  · rw [Interpretation.entries_tokens]
    exact value?_names legible (column_isName d ctx c) named

/-! ## Relations -/

/-- A stretch is split off in front of the entry that ends it. -/
theorem span_append {within : Entry Meaning → Bool} {es rest : List (Entry Meaning)}
    (stretch : ∀ e ∈ es, within e) (ends : ∀ e ∈ rest.head?, within e = false) :
    (es ++ rest).takeWhile within = es ∧ (es ++ rest).dropWhile within = rest := by
  rw [List.takeWhile_append_of_pos stretch, List.dropWhile_append_of_pos stretch]
  cases rest with
  | nil => simp
  | cons e rest => simp [ends e rfl]

/-- What stands before a relation is the value that it is about. -/
theorem operand_relate {es : List (Entry Meaning)} (plain : ∀ e ∈ es, relates e = false)
    {left : Option Int} (value : value? σ es = some left) {relation : Entry Meaning}
    (relating : relates relation) (rest : List (Entry Meaning)) :
    (truth σ).operand (es ++ relation :: rest) = relate? σ left (relation :: rest) := by
  obtain ⟨first, second⟩ : (es ++ relation :: rest).takeWhile (!relates ·) = es ∧
      (es ++ relation :: rest).dropWhile (!relates ·) = relation :: rest :=
    span_append (by simpa using plain) (by simp [relating])
  change operand? σ (es ++ relation :: rest) = _
  unfold operand?
  split
  · rename_i items inside alone
    -- A group relates nothing, so a group alone is not what stands here.
    have member : relation ∈ [(⟨.group .paren items, some inside⟩ : Entry Meaning)] := by
      rw [← alone]
      simp
    rw [List.mem_singleton.mp member] at relating
    simp [relates] at relating
  · rw [first, second, value]
    rfl

theorem comparison?_symbol {op : ComparisonOp} (known : ∀ symbol, op ≠ .other symbol) :
    comparison? op.symbol.toList = some op := by
  cases op with
  | other symbol => exact absurd rfl (known symbol)
  | _ => decide

theorem nonempty_of_comparison? {signs : List Char} {op : ComparisonOp}
    (sign : comparison? signs = some op) : signs ≠ [] := by
  rintro rfl
  have nothing : comparison? [] = none := by decide
  simp [nothing] at sign

/-- A comparison sign stands for its operator. -/
theorem relate?_symbols {signs : List Char} {op : ComparisonOp} (sign : comparison? signs = some op)
    (known : ∀ c ∈ signs, c ∈ ['=', '<', '>']) {es : List (Entry Meaning)}
    (plain : ∀ e ∈ es, relates e = false) {right : Option Int} (value : value? σ es = some right)
    (left : Option Int) :
    relate? σ left ((signs.map Token.symbol).map .ofToken ++ es) =
      some (op.compare left right) := by
  have relating : ∀ e ∈ (signs.map Token.symbol).map Entry.ofToken, relates e = true := by
    rw [List.forall_mem_map, List.forall_mem_map]
    intro c member
    simpa [relates, Entry.ofToken] using known c member
  obtain ⟨first, second⟩ := span_append relating fun e head =>
    plain e (List.mem_of_mem_head? head)
  have symbols : ((signs.map Token.symbol).map Entry.ofToken).mapM symbol? = some signs := by
    rw [mapM_eq_some, List.map_map, List.map_map]
    rfl
  have signed : relate? σ left ((signs.map Token.symbol).map .ofToken ++ es) =
      compares? σ left ((signs.map Token.symbol).map .ofToken ++ es) := by
    obtain ⟨c, signs, rfl⟩ := List.exists_cons_of_ne_nil (nonempty_of_comparison? sign)
    rfl
  rw [signed, compares?, first, second, symbols]
  simp [sign, value]

theorem operand_symbols {signs : List Char} {op : ComparisonOp} (sign : comparison? signs = some op)
    (known : ∀ c ∈ signs, c ∈ ['=', '<', '>']) {es fs : List (Entry Meaning)}
    (left : ∀ e ∈ es, relates e = false) {a : Option Int} (leftValue : value? σ es = some a)
    (right : ∀ e ∈ fs, relates e = false) {b : Option Int} (rightValue : value? σ fs = some b) :
    (truth σ).operand (es ++ ((signs.map Token.symbol).map .ofToken ++ fs)) =
      some (op.compare a b) := by
  rw [← relate?_symbols sign known right rightValue]
  obtain ⟨c, signs, rfl⟩ := List.exists_cons_of_ne_nil (nonempty_of_comparison? sign)
  refine operand_relate left leftValue ?_ _
  simpa [relates, Entry.ofToken] using known c (by simp)

/-- A comparison of two values. -/
theorem comparison_standsAs (op : ComparisonOp) (known : ∀ symbol, op ≠ .other symbol)
    {l r : Sql} {a b : Option Int} (hl : Denotes σ p quoteNames l a)
    (hr : Denotes σ p quoteNames r b) :
    (truth σ).StandsAs p quoteNames (l ++ Sql.raw (" " ++ op.symbol ++ " ") ++ r)
      (some (op.compare a b)) := by
  obtain ⟨left, leftItems, leftPlain, leftValue⟩ := hl
  obtain ⟨right, rightItems, rightPlain, rightValue⟩ := hr
  have signs : (op.symbol.toList.all fun c => (Token.symbol c).mark == .plain) ∧
      op.symbol.toList.all (['=', '<', '>'].contains ·) ∧
      Lexer.plainTokens (" " ++ op.symbol ++ " ").toList = op.symbol.toList.map .symbol := by
    cases op with
    | other symbol => exact absurd rfl (known symbol)
    | _ => decide
  obtain ⟨plain, signs, tokens⟩ := signs
  have signs : ∀ c ∈ op.symbol.toList, c ∈ ['=', '<', '>'] := fun c member =>
    List.contains_iff_mem.mp (List.all_eq_true.mp signs c member)
  have marks : ∀ t ∈ op.symbol.toList.map Token.symbol, t.mark = .plain := by
    rw [List.forall_mem_map]
    exact fun c member => eq_of_beq (List.all_eq_true.mp plain c member)
  have behind : Groups ((Sql.raw (" " ++ op.symbol ++ " ") ++ r).tokens p quoteNames)
      ((op.symbol.toList.map Token.symbol).map .token ++ right) := by
    rw [Sql.tokens_append, Sql.tokens_raw, tokens]
    refine .append (.tokens (List.all_eq_true.mpr fun t member => ?_)) rightItems.grouped
    rw [marks t member]
    rfl
  have calm : ∀ i ∈ (op.symbol.toList.map Token.symbol).map Item.token ++ right,
      i.mark ∈ [.plain, .not] := by
    intro i member
    rcases List.mem_append.mp member with sign | value
    · obtain ⟨t, listed, rfl⟩ := List.mem_map.mp sign
      rw [Item.mark, marks t listed]
      decide
    · rw [rightItems.plain i value]
      decide
  have stands := Interpretation.calm_standsAs (r := truth σ) leftItems behind calm
  rw [Interpretation.entries_append, Interpretation.entries_append, Interpretation.entries_tokens,
    operand_symbols (comparison?_symbol known) signs leftPlain leftValue rightPlain rightValue]
    at stands
  rw [List.append_assoc]
  exact stands

theorem mark_of_hasItems {items : List Item} (h : HasItems p quoteNames s items) :
    ∀ e ∈ (truth σ).entries items, e.item.mark = .plain := by
  intro e member
  obtain ⟨i, listed, mark⟩ := Interpretation.mark_of_mem_entries member
  rw [mark, h.plain i listed]

theorem between_standsAs {e l h : Sql} {a b c : Option Int} (he : Denotes σ p quoteNames e a)
    (hl : Denotes σ p quoteNames l b) (hh : Denotes σ p quoteNames h c) :
    (truth σ).StandsAs p quoteNames (e ++ Sql.raw " BETWEEN " ++ l ++ Sql.raw " AND " ++ h)
      (some (Truth.all [ComparisonOp.greaterEqual.compare a b,
        ComparisonOp.lessEqual.compare a c])) := by
  obtain ⟨expr, exprItems, exprPlain, exprValue⟩ := he
  obtain ⟨low, lowItems, -, lowValue⟩ := hl
  obtain ⟨high, highItems, -, highValue⟩ := hh
  have keyword : Text.upper "BETWEEN" = "BETWEEN" := by decide
  have andMark : (Token.word "AND").mark = .and := by decide
  have before : ∀ e ∈ (truth σ).entries low, decide (e.item.mark ≠ .and) = true := by
    intro e member
    simp [mark_of_hasItems lowItems e member]
  have ends : ∀ e ∈ (Entry.ofToken (.word "AND") :: (truth σ).entries high).head?,
      decide (e.item.mark ≠ .and) = false := by simp [andMark]
  obtain ⟨first, second⟩ := span_append before ends
  have ranged : relate? σ a (.ofToken (.word "BETWEEN") ::
      ((truth σ).entries low ++ .ofToken (.word "AND") :: (truth σ).entries high)) =
      some (Truth.all [ComparisonOp.greaterEqual.compare a b,
        ComparisonOp.lessEqual.compare a c]) := by
    rw [Entry.ofToken, relate?, if_pos keyword, isBetween?, first, second, List.tail_cons, lowValue,
      highValue]
    rfl
  have stands := Interpretation.between_standsAs (r := truth σ) exprItems lowItems highItems
  have split : (truth σ).entries (expr ++ Interpretation.rangeItems low high) =
      (truth σ).entries expr ++ .ofToken (.word "BETWEEN") ::
        ((truth σ).entries low ++ .ofToken (.word "AND") :: (truth σ).entries high) := by
    simp only [Interpretation.rangeItems, Interpretation.entries_append,
      Interpretation.entries_cons]
  rw [split, operand_relate exprPlain exprValue (by rfl), ranged] at stands
  exact stands

/-- A value is NULL, or is not, as the words say. -/
theorem isNothing_standsAs {e : Sql} {a : Option Int} (he : Denotes σ p quoteNames e a)
    {text : String} {ts : List Token} (tokens : Lexer.plainTokens text.toList = .word "IS" :: ts)
    (calm : ∀ t ∈ Token.word "IS" :: ts, t.mark ∈ [.plain, .not]) {known : Truth}
    (stated : isNothing? a (ts.map .ofToken) = some known) :
    (truth σ).StandsAs p quoteNames (e ++ Sql.raw text) (some known) := by
  obtain ⟨expr, exprItems, exprPlain, exprValue⟩ := he
  have keyword : Text.upper "IS" ≠ "BETWEEN" ∧ Text.upper "IS" ≠ "IN" ∧ Text.upper "IS" = "IS" := by
    decide
  have related (left : Option Int) (rest : List (Entry Meaning)) :
      relate? σ left (.ofToken (.word "IS") :: rest) = isNothing? left rest := by
    rw [Entry.ofToken, relate?, if_neg keyword.1, if_neg keyword.2.1, if_pos keyword.2.2]
  have stands := Interpretation.words_standsAs (r := truth σ) exprItems tokens calm
  rw [Interpretation.entries_append, Interpretation.entries_tokens, List.map_cons,
    operand_relate exprPlain exprValue (by rfl), related, stated] at stands
  exact stands

theorem isNull_standsAs {e : Sql} {a : Option Int} (he : Denotes σ p quoteNames e a) :
    (truth σ).StandsAs p quoteNames (e ++ Sql.raw " IS NULL") (some (some a.isNone)) := by
  have tokens : Lexer.plainTokens " IS NULL".toList = [.word "IS", .word "NULL"] := by decide
  exact isNothing_standsAs he tokens (by decide) (if_pos (by decide))

theorem isNotNull_standsAs {e : Sql} {a : Option Int} (he : Denotes σ p quoteNames e a) :
    (truth σ).StandsAs p quoteNames (e ++ Sql.raw " IS NOT NULL") (some (some a.isSome)) := by
  have tokens : Lexer.plainTokens " IS NOT NULL".toList =
    [.word "IS", .word "NOT", .word "NULL"] := by decide
  refine isNothing_standsAs he tokens (by decide) ?_
  rw [isNothing?, if_neg (by decide), if_pos (by decide)]

/-- The items of values. -/
theorem exists_items {vs : List Sql} {as : List (Option Int)}
    (each : List.Forall₂ (Denotes σ p quoteNames) vs as) :
    ∃ iss, List.Forall₂ Groups (vs.map (Sql.tokens p quoteNames)) iss ∧
      (∀ is ∈ iss, ∀ e ∈ (truth σ).entries is, e.item.mark = .plain) ∧
      (iss.map (truth σ).entries).mapM (value? σ) = some as := by
  induction each with
  | nil => exact ⟨[], .nil, by simp, rfl⟩
  | cons first rest ih =>
    obtain ⟨items, found, -, here⟩ := first
    obtain ⟨iss, groups, plain, values⟩ := ih
    refine ⟨items :: iss, .cons found.grouped groups, ?_, ?_⟩
    · rw [List.forall_mem_cons]
      exact ⟨mark_of_hasItems found, plain⟩
    · rw [mapM_eq_some] at values ⊢
      rw [List.map_cons, List.map_cons, values, here, List.map_cons]

/-- The values in parentheses are found again between the commas. -/
theorem isAmong?_intercalate {iss : List (List Item)} (filled : iss ≠ [])
    (plain : ∀ is ∈ iss, ∀ e ∈ (truth σ).entries is, e.item.mark = .plain)
    {as : List (Option Int)} (values : (iss.map (truth σ).entries).mapM (value? σ) = some as)
    (left : Option Int) :
    isAmong? left ((truth σ).entries [.group .paren ([.token (.symbol ',')].intercalate iss)]) =
      some (Truth.any (as.map (ComparisonOp.equal.compare left))) := by
  have found : Precedence.cut (.separates .paren) false
      ((truth σ).entries ([.token (.symbol ',')].intercalate iss)) = iss.map (truth σ).entries := by
    rw [Interpretation.entries, Item.entries_intercalate]
    refine Precedence.cut_intercalate rfl rfl (by simpa using filled) ?_
    rw [List.forall_mem_map]
    refine fun is member => Precedence.after_of_calm (by decide) false fun e inside => ?_
    rw [plain is member e inside]
    decide
  rw [Interpretation.entries_group, isAmong?]
  change Option.map _ (List.mapM (value? σ) (Precedence.cut _ _ _)) = _
  rw [found, values, Option.map_some]

theorem inList_standsAs {e : Sql} {a : Option Int} (he : Denotes σ p quoteNames e a)
    {vs : List Sql} {as : List (Option Int)} (nonempty : as ≠ [])
    (each : List.Forall₂ (Denotes σ p quoteNames) vs as) :
    (truth σ).StandsAs p quoteNames (e ++ Sql.raw " IN (" ++ Sql.joinWith ", " vs ++ Sql.raw ")")
      (some (Truth.any (as.map (ComparisonOp.equal.compare a)))) := by
  obtain ⟨expr, exprItems, exprPlain, exprValue⟩ := he
  obtain ⟨iss, groups, plain, values⟩ := exists_items each
  have filled : iss ≠ [] := by
    rintro rfl
    simp only [List.map_nil, List.mapM_nil] at values
    exact nonempty (Option.some.inj values).symm
  have opening : Lexer.plainTokens " IN (".toList = [.word "IN", .symbol '('] := by decide
  have closing : Lexer.plainTokens ")".toList = [.symbol ')'] := by decide
  have comma : Lexer.plainTokens ", ".toList = [.symbol ','] := by decide
  have inMark : (Token.word "IN").mark = .plain := by decide
  have keyword : Text.upper "IN" ≠ "BETWEEN" ∧ Text.upper "IN" = "IN" := by decide
  have listed : Groups ((Sql.joinWith ", " vs).tokens p quoteNames)
      ([.token (.symbol ',')].intercalate iss) := by
    rw [Sql.tokens_joinWith, comma]
    exact Groups.intercalate (.token (by decide)) groups
  have behind : Groups
      ((Sql.raw " IN (" ++ (Sql.joinWith ", " vs ++ Sql.raw ")")).tokens p quoteNames)
      ([Item.token (.word "IN")] ++
        [Item.group .paren ([.token (.symbol ',')].intercalate iss)]) := by
    have word : Groups [.word "IN"] [.token (.word "IN")] := .token (by decide)
    simp only [Sql.tokens_append, Sql.tokens_raw, opening, closing]
    exact word.append (Groups.parens listed)
  have calm : ∀ i ∈ [Item.token (.word "IN")] ++
      [Item.group .paren ([.token (.symbol ',')].intercalate iss)], i.mark ∈ [.plain, .not] := by
    simp [Item.mark, inMark]
  have related : relate? σ a (.ofToken (.word "IN") :: (truth σ).entries
      [.group .paren ([.token (.symbol ',')].intercalate iss)]) =
      some (Truth.any (as.map (ComparisonOp.equal.compare a))) := by
    rw [Entry.ofToken, relate?, if_neg keyword.1, if_pos keyword.2,
      isAmong?_intercalate filled plain values]
  have stands := Interpretation.calm_standsAs (r := truth σ) exprItems behind calm
  rw [Interpretation.entries_append, Interpretation.entries_append, Interpretation.entries_token,
    List.singleton_append, operand_relate exprPlain exprValue (by rfl), related] at stands
  simp only [List.append_assoc]
  exact stands

/-! ## Conditions as values -/

/-- The items between CASE and END of a condition that stands as a value. -/
def caseItems (items : List Item) : List Item :=
  .token (.word "WHEN") :: (items ++ .token (.word "THEN") :: .token (.number "1") ::
    .token (.word "WHEN") :: (Interpretation.notItems items ++
      [.token (.word "THEN"), .token (.number "0")]))

theorem caseItems_groups {t : Sql} {items : List Item} (h : Groups (t.tokens p quoteNames) items) :
    Groups ((Render.truthCase t).tokens p quoteNames) [.group .case (caseItems items)] := by
  have opening : Lexer.plainTokens "CASE WHEN ".toList = [.word "CASE", .word "WHEN"] := by decide
  have middle : Lexer.plainTokens " THEN 1 WHEN NOT (".toList =
    [.word "THEN", .number "1", .word "WHEN", .word "NOT", .symbol '('] := by decide
  have closing : Lexer.plainTokens ") THEN 0 END".toList =
    [.symbol ')', .word "THEN", .number "0", .word "END"] := by decide
  have first : Groups [.word "WHEN"] [.token (.word "WHEN")] := .token (by decide)
  have second : Groups [.word "THEN", .number "1", .word "WHEN", .word "NOT"]
      [.token (.word "THEN"), .token (.number "1"), .token (.word "WHEN"), .token (.word "NOT")] :=
    .tokens (by decide)
  have last : Groups [.word "THEN", .number "0"] [.token (.word "THEN"), .token (.number "0")] :=
    .tokens (by decide)
  have inner := ((first.append h).append second).append
    ((Groups.parens h).append last)
  have whole : Groups (.word "CASE" :: (_ ++ [.word "END"])) [.group .case _] :=
    .group (by decide) (by decide) inner
  simp only [Render.truthCase, Sql.tokens_append, Sql.tokens_raw, opening, middle, closing]
  simpa [caseItems, Interpretation.notItems] using whole

theorem mark_of_part? {e : Entry Meaning} {part : Part} (begins : part? e = some part) :
    e.item.mark = .separates .case := by
  obtain ⟨word, here, known⟩ := Option.bind_eq_some_iff.mp begins
  unfold word? at here
  split at here
  · rename_i w token
    obtain rfl := Option.some.inj here
    obtain ⟨before, after, split, -⟩ := List.lookup_eq_some_iff.mp known
    have listed : (Text.upper w, part) ∈ partWords := by simp [split]
    have words : Text.upper w ∈ partWords.map (·.1) := List.mem_map_of_mem listed
    rw [token, Item.mark, Token.mark]
    revert words
    generalize Text.upper w = word
    revert word
    decide
  · contradiction

/-- What shows no part of a CASE stands in front of the first part. -/
theorem parts_append {es : List (Entry Meaning)}
    (whole : Precedence.after (.separates .case) false es = some false)
    (fs : List (Entry Meaning)) :
    parts (es ++ fs) = (es ++ (parts fs).1, (parts fs).2) := by
  have none : ∀ e ∈ es, part? e = none := by
    intro e member
    by_contra begins
    obtain ⟨part, begins⟩ := Option.ne_none_iff_exists'.mp begins
    exact Precedence.mark_ne_of_after (by decide) whole e member (mark_of_part? begins)
  clear whole
  induction es with
  | nil => rfl
  | cons e es ih =>
    rw [List.forall_mem_cons] at none
    simp only [List.cons_append, parts, none.1, ih none.2]

theorem parts_of_after {es : List (Entry Meaning)}
    (whole : Precedence.after (.separates .case) false es = some false) : parts es = (es, []) := by
  simpa [parts] using parts_append whole []

theorem parts_cons {word : String} {part : Part}
    (begins : part? (.ofToken (.word word)) = some part) (es : List (Entry Meaning)) :
    parts (.ofToken (.word word) :: es) = ([], (part, (parts es).1) :: (parts es).2) := by
  rw [parts, begins]

/-- The parts of the CASE are found again. -/
theorem parts_caseItems {items : List Item}
    (whole : Precedence.after (.separates .case) false ((truth σ).entries items) = some false) :
    parts ((truth σ).entries (caseItems items)) =
      ([], [(.condition, (truth σ).entries items), (.result, [.ofToken (.number "1")]),
        (.condition, (truth σ).entries (Interpretation.notItems items)),
        (.result, [.ofToken (.number "0")])]) := by
  have begins : part? (.ofToken (.word "WHEN")) = some .condition ∧
      part? (.ofToken (.word "THEN")) = some .result := by decide
  have number (digits : String) :
      Precedence.after (.separates .case) false [(.ofToken (.number digits) : Entry Meaning)] =
        some false := rfl
  have negated := (Interpretation.stands_not (r := truth σ) items).case
  have split : (truth σ).entries (caseItems items) = Entry.ofToken (.word "WHEN") ::
      ((truth σ).entries items ++ Entry.ofToken (.word "THEN") ::
        ([Entry.ofToken (.number "1")] ++ Entry.ofToken (.word "WHEN") ::
          ((truth σ).entries (Interpretation.notItems items) ++
            Entry.ofToken (.word "THEN") :: [.ofToken (.number "0")]))) := by
    simp only [caseItems, Interpretation.entries_append, Interpretation.entries_cons]
    rfl
  simp only [split, parts_cons begins.1, parts_cons begins.2, parts_append whole,
    parts_append negated, parts_append (number _), parts_of_after (number _), List.append_nil]

/-- The first branch is taken if its condition is true. -/
theorem branches?_cons {condition result : List (Entry Meaning)} {known : Truth}
    {chosen others : Option Int} (holds : (truth σ).condition condition = some known)
    (value : value? σ result = some chosen) {rest : List (Part × List (Entry Meaning))}
    (below : branches? σ rest = some others) :
    branches? σ ((.condition, condition) :: (.result, result) :: rest) =
      some (if known = some true then chosen else others) := by
  have known : (reader σ).condition condition = some known := holds
  simp [branches?, known, value, below]

/-- A condition that stands as a value comes to the number of its truth. -/
theorem truthCase_denotes {t : Sql} {a : Truth} (h : (truth σ).Reads p quoteNames t (some a)) :
    Denotes σ p quoteNames (Render.truthCase t) a.code := by
  obtain ⟨items, grouped, whole, holds⟩ := h
  refine ⟨[.group .case (caseItems items)],
    ⟨caseItems_groups grouped, by simp [Item.mark], by simp⟩,
    by simp [Interpretation.entries_group, relates], ?_⟩
  have negated : (truth σ).condition ((truth σ).entries (Interpretation.notItems items)) =
      some (a.map (! ·)) := by
    rw [(truth σ).condition_of_stands (Interpretation.stands_not items),
      Interpretation.negation_not, holds]
    rfl
  have one : value? σ [.ofToken (.number "1")] = some (some 1) := rfl
  have zero : value? σ [.ofToken (.number "0")] = some (some 0) := rfl
  have branches : case? σ ((truth σ).entries (caseItems items)) = some a.code := by
    have nothing : branches? σ [] = some none := rfl
    have second := branches?_cons negated zero nothing
    rw [case?, parts_caseItems whole]
    refine (branches?_cons holds one second).trans ?_
    rcases a with _ | _ | _ <;> rfl
  rw [Interpretation.entries_group]
  exact value?_constant branches

/-! ## Constants -/

/-- The number of a truth value. -/
def digit (b : Bool) : String := if b then "1" else "0"

theorem digit_denotes (b : Bool) :
    Denotes σ p quoteNames (Sql.raw (digit b)) (Truth.code (some b)) := by
  have tokens : ∀ b, Lexer.plainTokens (digit b).toList = [.number (digit b)] := by decide
  have number : value? σ [.ofToken (.number (digit b))] = some (Truth.code (some b)) := by
    cases b <;> rfl
  exact .const (tokens b) rfl rfl number

/-- A truth value where a condition is expected. -/
theorem digit_standsAs (b : Bool) :
    (truth σ).StandsAs p quoteNames (Sql.raw ("1 = " ++ digit b)) (some (some b)) := by
  have tokens : ∀ b, Lexer.plainTokens ("1 = " ++ digit b).toList =
      Lexer.plainTokens (digit true).toList ++
        Lexer.plainTokens (" " ++ ComparisonOp.equal.symbol ++ " ").toList ++
        Lexer.plainTokens (digit b).toList := by decide
  have compared : (truth σ).StandsAs p quoteNames (Sql.raw (digit true) ++
      Sql.raw (" " ++ ComparisonOp.equal.symbol ++ " ") ++ Sql.raw (digit b)) _ :=
    comparison_standsAs .equal (by simp) (digit_denotes true) (digit_denotes b)
  have meaning : ComparisonOp.equal.compare (Truth.code (some true)) (Truth.code (some b)) =
      some b := by cases b <;> rfl
  rw [meaning] at compared
  refine compared.congr ?_
  simp only [Sql.tokens_append, Sql.tokens_raw, tokens]

end Evaluation

end Pushdown
