import Mathlib.Data.Fintype.OfMap
import Mathlib.Data.List.Forall2
import Pushdown.Proofs.Sql.Phrase

/-!
# Operators and their operands

A text is gone through from left to right, and what was read so far says what may follow: an
operator that joins operands needs one before it, and behind it the next one has to begin. The
same goes for the words that ask for an operand, for commas and for closing parentheses. A `Gap` is
what is known between two tokens; it tells a sign from an operator, the star of a projection from a
product, and the parentheses of a call from others.

A part of a text `Reaches` some gaps from others if its tokens are admitted one after the other. The
rules below put parts together, and what they ask of a constant text can be decided. They also keep
track of empty parentheses that belong to no call.
-/

namespace Pushdown

/-- What a token does for the operands of a text. -/
inductive Token.Role where
  /-- A name, a text, or a word that means something by itself. -/
  | value
  | number
  /-- Says something of what stands before it. -/
  | trails
  /-- A word that stands in front of parentheses which may be empty: the name of a function, or
  `OVER`. -/
  | call
  /-- Joins the operand before it with the one behind it. -/
  | joins
  | equals | less | greater | bar | colon
  /-- A product, or all rows. -/
  | star
  /-- A sum, a difference, or a sign. -/
  | sign
  | opens | closes | separates
  /-- Says something of the operand behind it. -/
  | applies
  | case | ends
  /-- A word of a clause, behind which another one or a part of the clause stands. -/
  | leads
  /-- A word of a clause, behind which an operand stands. -/
  | asks
  | select | top
deriving DecidableEq

instance : Fintype Token.Role := .ofList [
    .value, .number, .trails, .call, .joins, .equals, .less, .greater, .bar, .colon, .star, .sign,
    .opens, .closes, .separates, .applies, .case, .ends, .leads, .asks, .select, .top]
  fun r => by cases r <;> decide

/-- What stands between two tokens. -/
inductive Gap where
  /-- An operand has ended. -/
  | ended
  /-- The same, with a word that can be the name of a call. -/
  | named
  /-- Behind an opening parenthesis. -/
  | opened
  /-- Behind the opening parenthesis of a call. -/
  | called
  /-- A projection begins. -/
  | projection
  /-- The number of rows is missing. -/
  | top
  /-- A part of a clause begins. -/
  | free
  /-- An operand has to begin. -/
  | needed
  /-- Behind the first character of an operator. -/
  | less | greater | bar | colon
deriving DecidableEq

instance : Fintype Gap := .ofList [
    .ended, .named, .opened, .called, .projection, .top, .free, .needed, .less, .greater, .bar,
    .colon]
  fun g => by cases g <;> decide

namespace Gap

def isEnded : Gap → Bool
  | ended | named => true
  | _ => false

/-- Where an operand may begin. -/
def beginnings : List Gap := [opened, called, projection, free, needed, less, greater]

def takesOperand (g : Gap) : Bool := beginnings.contains g

/-- Whether a token may stand in the gap. -/
def admits (g : Gap) : Token.Role → Bool
  | .value | .call | .opens | .sign => g.isEnded || g.takesOperand
  | .number => g.isEnded || g.takesOperand || g == top
  | .trails => g.isEnded || g == called
  | .applies | .case => g.takesOperand
  | .joins | .less | .separates | .ends => g.isEnded
  | .equals => g.isEnded || g == less || g == greater
  | .greater => g.isEnded || g == less
  | .bar => g.isEnded || g == bar
  | .colon => g.isEnded || g == colon
  | .star => g.isEnded || g == called || g == projection
  | .closes => g.isEnded || g == opened || g == called
  | .leads | .asks => g.isEnded || g == opened || g == called || g == free
  | .select => g == opened || g == free
  | .top => g == projection

/-- The gap behind a token. -/
def next (g : Gap) : Token.Role → Gap
  | .value | .trails | .closes | .ends => ended
  | .number => if g = top then projection else ended
  | .call => named
  | .opens => if g = named then called else opened
  | .star => if g.isEnded then needed else ended
  | .less => less
  | .greater => if g = less then needed else greater
  | .bar => if g = bar then needed else bar
  | .colon => if g = colon then needed else colon
  | .case | .leads => free
  | .select => projection
  | .top => top
  | .joins | .equals | .sign | .separates | .applies | .asks => needed

/-- The gap behind some tokens. -/
def after : Gap → List Token.Role → Gap
  | g, [] => g
  | g, r :: rest => (g.next r).after rest

/-- Every token is admitted where it stands. -/
def admitsAll : Gap → List Token.Role → Bool
  | _, [] => true
  | g, r :: rest => g.admits r && (g.next r).admitsAll rest

/-- No parentheses are empty but those of calls. -/
def fills : Gap → List Token.Role → Bool
  | _, [] => true
  | g, r :: rest => !(g == opened && r == .closes) && (g.next r).fills rest

section

variable (g : Gap) (rs qs : List Token.Role)

theorem after_append : g.after (rs ++ qs) = (g.after rs).after qs := by
  induction rs generalizing g with
  | nil => rfl
  | cons r rs ih => exact ih _

theorem admitsAll_append :
    g.admitsAll (rs ++ qs) = (g.admitsAll rs && (g.after rs).admitsAll qs) := by
  induction rs generalizing g with
  | nil => rfl
  | cons r rs ih => simp only [List.cons_append, admitsAll, after, ih, Bool.and_assoc]

theorem fills_append : g.fills (rs ++ qs) = (g.fills rs && (g.after rs).fills qs) := by
  induction rs generalizing g with
  | nil => rfl
  | cons r rs ih => simp only [List.cons_append, fills, after, ih, Bool.and_assoc]

end

end Gap

/-! ## Vocabularies -/

/-- The words of a dialect that the language itself does not have. -/
structure Vocabulary where
  /-- The names of functions that are called with their arguments in parentheses. -/
  calls : List String := []
  /-- The words that stand between operands. -/
  operators : List String := []

/-- The words that begin with a character and mean the same in every dialect that writes them. The
names of types and of the fields of a date are values. -/
def commonWords : List Char → List (String × Token.Role)
  | 'A' :: _ => [("AND", .joins), ("AS", .asks), ("ASC", .trails)]
  | 'B' :: _ => [("BETWEEN", .joins), ("BINARY_DOUBLE", .value), ("BIT", .value), ("BOOL", .value),
      ("BOOLEAN", .value), ("BY", .asks)]
  | 'C' :: _ => [("CASE", .case), ("CAST", .value), ("CHAR", .value), ("CURRENT", .value),
      ("CURRENT_DATE", .value), ("CURRENT_TIMESTAMP", .value)]
  | 'D' :: _ => [("DATE", .value), ("DATEPART", .value), ("DATETIME", .value),
      ("DATETIME2", .value), ("DATETIMEOFFSET", .value), ("DAY", .value), ("DECIMAL", .value),
      ("DESC", .trails), ("DISTINCT", .applies), ("DOUBLE", .value), ("DUAL", .value)]
  | 'E' :: _ => [("ELSE", .asks), ("END", .ends), ("ESCAPE", .joins), ("EXTRACT", .value)]
  | 'F' :: _ => [("FALSE", .value), ("FETCH", .trails), ("FILTER", .trails), ("FIRST", .trails),
      ("FLOAT", .value), ("FLOAT64", .value), ("FOLLOWING", .trails), ("FROM", .asks),
      ("FULL", .leads)]
  | 'G' :: _ => [("GEOGRAPHY", .value), ("GEOMETRY", .value), ("GROUP", .leads),
      ("GROUP_CONCAT", .value)]
  | 'H' :: _ => [("HASHTYPE", .value), ("HAVING", .asks), ("HOUR", .value)]
  | 'I' :: _ => [("IN", .joins), ("INNER", .leads), ("INTEGER", .value), ("INTERVAL", .value),
      ("IS", .joins)]
  | 'J' :: _ => [("JOIN", .asks)]
  | 'L' :: _ => [("LAST", .trails), ("LEFT", .leads), ("LIKE", .joins), ("LIMIT", .asks),
      ("LISTAGG", .value), ("LOCAL", .trails)]
  | 'M' :: _ => [("MINUTE", .value), ("MONTH", .value)]
  | 'N' :: _ => [("NOT", .applies), ("NULL", .value), ("NULLS", .trails), ("NUMBER", .value),
      ("NUMERIC", .value)]
  | 'O' :: _ => [("OFFSET", .asks), ("ON", .asks), ("ONLY", .trails), ("OR", .joins),
      ("ORDER", .leads), ("OUTER", .leads), ("OVER", .call)]
  | 'P' :: _ => [("PARTITION", .leads), ("PRECEDING", .trails), ("PRECISION", .trails)]
  | 'R' :: _ => [("RANGE", .trails), ("REAL", .value), ("RIGHT", .leads), ("ROW", .trails),
      ("ROWS", .trails)]
  | 'S' :: _ => [("SECOND", .value), ("SELECT", .select), ("SEPARATOR", .asks),
      ("STRFTIME", .value), ("STRING", .value), ("STRING_AGG", .value)]
  | 'T' :: _ => [("TEXT", .value), ("THEN", .asks), ("TIME", .value), ("TIMESTAMP", .value),
      ("TIMESTAMPTZ", .value), ("TO", .trails), ("TOP", .top), ("TRUE", .value)]
  | 'U' :: _ => [("UNBOUNDED", .value)]
  | 'V' :: _ => [("VARCHAR", .value), ("VARCHAR2", .value)]
  | 'W' :: _ => [("WHEN", .asks), ("WHERE", .asks), ("WITH", .trails), ("WITHIN", .trails)]
  | 'Y' :: _ => [("YEAR", .value)]
  | 'Z' :: _ => [("ZONE", .trails)]
  | _ => []

/-- The role of a word that means the same in every dialect. -/
def commonRole? (w : String) : Option Token.Role := (commonWords w.toList).lookup w

/-- The symbols that are not operators, or of which two can be one operator. -/
def punctuation : List (Char × Token.Role) := [
  ('=', .equals), ('<', .less), ('>', .greater), ('|', .bar), (':', .colon), ('*', .star),
  ('+', .sign), ('-', .sign), ('(', .opens), (')', .closes), (',', .separates)]

namespace Vocabulary

/-- The role of a token. A word that is not known is a name. -/
def role (v : Vocabulary) : Token → Token.Role
  | .word w => (commonRole? w).getD
      (if v.operators.contains w then .joins else if v.calls.contains w then .call else .value)
  | .number _ => .number
  | .symbol c => (punctuation.lookup c).getD .joins
  | .quoted _ | .string _ | .comment => .value

variable {v : Vocabulary}

/-- The roles of words. -/
def wordRoles : List Token.Role :=
  [.joins, .applies, .leads, .asks, .case, .ends, .select, .top, .call, .trails, .value]

theorem commonRole?_mem {w : String} {r : Token.Role} (found : commonRole? w = some r) :
    r ∈ wordRoles := by
  have table (chars : List Char) : (commonWords chars).all fun entry => entry.2 ∈ wordRoles := by
    unfold commonWords
    split <;> decide
  obtain ⟨front, back, same, -⟩ := List.lookup_eq_some_iff.mp found
  have all := table w.toList
  rw [same, List.all_eq_true] at all
  simpa using all (w, r) (by simp)

/-- A word is no number and no parenthesis. -/
theorem role_word_mem (w : String) : v.role (.word w) ∈ wordRoles := by
  simp only [role]
  cases found : commonRole? w with
  | none =>
    simp only [Option.getD_none]
    split
    · decide
    · split <;> decide
  | some r => exact commonRole?_mem found

/-- Only parentheses have the role of one. -/
theorem role_eq_paren {t : Token} {c : Char} {r : Token.Role}
    (paren : (c, r) ∈ [('(', Token.Role.opens), (')', Token.Role.closes)]) :
    v.role t = r ↔ t = .symbol c := by
  have words : ∀ entry ∈ [('(', Token.Role.opens), (')', Token.Role.closes)],
      entry.2 ∉ wordRoles ∧ entry.2 ≠ .number := by
    decide
  obtain ⟨word, number⟩ := words _ paren
  constructor
  · rintro rfl
    cases t with
    | word w => exact absurd (role_word_mem w) word
    | number text => exact absurd rfl number
    | symbol a =>
      simp only [role] at paren
      cases found : punctuation.lookup a with
      | none => simp [found] at paren
      | some r =>
        obtain ⟨front, back, same, -⟩ := List.lookup_eq_some_iff.mp found
        have listed : (a, r) ∈ punctuation := by simp [same]
        simp only [found, Option.getD_some] at paren
        have unique : ∀ entry ∈ punctuation,
            ∀ other ∈ [('(', Token.Role.opens), (')', Token.Role.closes)],
              entry.2 = other.2 → entry.1 = other.1 := by
          decide
        exact congrArg Token.symbol (unique _ listed _ paren rfl)
    | quoted name => simp [role] at paren
    | string text => simp [role] at paren
    | comment => simp [role] at paren
  · rintro rfl
    have known : ∀ entry ∈ [('(', Token.Role.opens), (')', Token.Role.closes)],
        (punctuation.lookup entry.1).getD .joins = entry.2 := by
      decide
    exact known _ paren

theorem role_eq_opens {t : Token} : v.role t = .opens ↔ t = .symbol '(' := role_eq_paren (by simp)

theorem role_eq_closes {t : Token} : v.role t = .closes ↔ t = .symbol ')' := role_eq_paren (by simp)

/-- Every token has the operands that it needs. -/
structure Complete (v : Vocabulary) (ts : List Token) : Prop where
  /-- Each token may stand behind those before it. -/
  admitted : ∀ front t back, ts = front ++ t :: back →
    (Gap.free.after (front.map v.role)).admits (v.role t)
  /-- No operand is missing at the end. -/
  ended : (Gap.free.after (ts.map v.role)).isEnded

/-- Empty parentheses stand only behind the name of a function, or behind `OVER`. -/
def Filled (v : Vocabulary) (ts : List Token) : Prop :=
  ∀ front back, ts = front ++ .symbol '(' :: .symbol ')' :: back →
    ∃ before t, front = before ++ [t] ∧ v.role t = .call

theorem admitsAll_iff {ts : List Token} {g : Gap} :
    g.admitsAll (ts.map v.role) ↔ ∀ front t back, ts = front ++ t :: back →
      (g.after (front.map v.role)).admits (v.role t) := by
  constructor
  · rintro admitted front t back rfl
    rw [List.map_append, List.map_cons, Gap.admitsAll_append, Gap.admitsAll, Bool.and_eq_true,
      Bool.and_eq_true] at admitted
    exact admitted.2.1
  · intro each
    induction ts generalizing g with
    | nil => rfl
    | cons t ts ih =>
      rw [List.map_cons, Gap.admitsAll, Bool.and_eq_true]
      refine ⟨each [] t ts rfl, ih fun front u back same => ?_⟩
      exact each (t :: front) u back (by rw [same, List.cons_append])

theorem complete_iff {ts : List Token} : v.Complete ts ↔
    Gap.free.admitsAll (ts.map v.role) ∧ (Gap.free.after (ts.map v.role)).isEnded := by
  rw [admitsAll_iff]
  exact ⟨fun h => ⟨h.admitted, h.ended⟩, fun h => ⟨h.1, h.2⟩⟩

/-- The gap behind a word that can be the name of a call. -/
theorem after_eq_named {ts : List Token} {g : Gap} (other : g ≠ .named) :
    g.after (ts.map v.role) = .named ↔ ∃ before t, ts = before ++ [t] ∧ v.role t = .call := by
  have last (g : Gap) (r : Token.Role) : g.next r = .named ↔ r = .call := by
    cases r <;> simp [Gap.next, ite_eq_iff]
  rcases List.eq_nil_or_concat ts with rfl | ⟨before, t, rfl⟩
  · simp [Gap.after, other]
  · simp [Gap.after_append, Gap.after, last]

/-- Going through a text finds the empty parentheses that belong to no call. -/
theorem fills_iff {ts : List Token} {g : Gap} :
    g.fills (ts.map v.role) ↔ (g = .opened → ts.head? ≠ some (.symbol ')')) ∧
      ∀ front back, ts = front ++ Token.symbol '(' :: .symbol ')' :: back →
        g.after (front.map v.role) = .named := by
  induction ts generalizing g with
  | nil => simp [Gap.fills]
  | cons t ts ih =>
    have here : (!(g == .opened && v.role t == .closes)) = true ↔
        (g = .opened → (t :: ts).head? ≠ some (.symbol ')')) := by
      simp [role_eq_closes, imp_iff_not_or]
    have pair : (g.next (v.role t) = .opened → ts.head? ≠ some (.symbol ')')) ↔
        ∀ back, t :: ts = .symbol '(' :: .symbol ')' :: back → g = .named := by
      have opens : g.next (v.role t) = .opened ↔ t = .symbol '(' ∧ g ≠ .named := by
        rw [← role_eq_opens (v := v)]
        cases v.role t <;> simp [Gap.next, ite_eq_iff]
      constructor
      · intro filled back same
        obtain ⟨rfl, rfl⟩ := List.cons.inj same
        by_contra other
        exact filled (opens.mpr ⟨rfl, other⟩) rfl
      · intro called opened closing
        obtain ⟨rfl, other⟩ := opens.mp opened
        obtain ⟨back, rfl⟩ := List.head?_eq_some_iff.mp closing
        exact other (called back rfl)
    rw [List.map_cons, Gap.fills, Bool.and_eq_true, here, ih, pair]
    refine and_congr_right fun _ => ⟨?_, ?_⟩
    · rintro ⟨first, rest⟩ front back same
      cases front with
      | nil => exact first back same
      | cons u front =>
        obtain ⟨rfl, tail⟩ := List.cons.inj same
        exact rest front back tail
    · intro all
      refine ⟨fun back same => all [] back same, fun front back same => ?_⟩
      exact all (t :: front) back (by rw [same, List.cons_append])

theorem filled_iff {ts : List Token} : Gap.free.fills (ts.map v.role) ↔ v.Filled ts := by
  rw [fills_iff]
  simp only [reduceCtorEq, false_implies, true_and, Filled, after_eq_named (g := .free) (by decide)]

/-! ## Operators -/

/-- The roles of a token at the end of an operand. -/
def operandEnds : List Token.Role := [.value, .number, .trails, .call, .closes, .ends, .star]

/-- The roles of a token at the beginning of an operand. -/
def operandBegins : List Token.Role := [.value, .number, .call, .opens, .sign, .applies, .case]

/-- The roles of the tokens of an operator. -/
def spellings : List (List Token.Role) := [
  [.joins], [.equals], [.less], [.greater], [.less, .greater], [.less, .equals],
  [.greater, .equals], [.bar, .bar], [.colon, .colon], [.star], [.sign]]

/-- The tokens are a whole operator. Where an operand may begin, a star stands for all rows, and a
plus or a minus is a sign. -/
structure IsInfix (v : Vocabulary) (front op back : List Token) : Prop where
  known : op.map v.role ∈ spellings
  first : ∀ t, front.getLast? = some t → v.role t :: op.map v.role ∉ spellings
  last : ∀ t, back.head? = some t → op.map v.role ++ [v.role t] ∉ spellings
  binary : op.map v.role ∈ [[.star], [.sign]] → Gap.free.after (front.map v.role) ∉ Gap.beginnings

/-- Every operator stands between operands. -/
def Flanked (v : Vocabulary) (ts : List Token) : Prop :=
  ∀ front op back, ts = front ++ op ++ back → v.IsInfix front op back →
    (∃ before t, front = before ++ [t] ∧ v.role t ∈ operandEnds) ∧
      ∃ t rest, back = t :: rest ∧ v.role t ∈ operandBegins

/-- Before an operator an operand has ended. -/
theorem IsInfix.ends {front op back : List Token} (h : v.IsInfix front op back)
    (admitted : (Gap.free.after (front.map v.role)).admitsAll (op.map v.role)) :
    ∃ before t, front = before ++ [t] ∧ v.role t ∈ operandEnds := by
  have start : ∀ op ∈ spellings, (op ∈ [[.star], [.sign]] → Gap.free ∉ Gap.beginnings) →
      Gap.free.admitsAll op = false := by decide
  have behind : ∀ op ∈ spellings, ∀ (g : Gap) (r : Token.Role), r :: op ∉ spellings →
      (op ∈ [[.star], [.sign]] → g.next r ∉ Gap.beginnings) → (g.next r).admitsAll op →
      r ∈ operandEnds := by decide +kernel
  obtain ⟨known, first, -, binary⟩ := h
  rcases List.eq_nil_or_concat front with rfl | ⟨before, t, rfl⟩
  · rw [List.map_nil, Gap.after, start _ known binary] at admitted
    exact absurd admitted Bool.false_ne_true
  · simp only [List.concat_eq_append, List.map_append, List.map_cons, List.map_nil,
      Gap.after_append, Gap.after] at admitted binary
    exact ⟨before, t, List.concat_eq_append ..,
      behind _ known _ _ (first t (by simp)) binary admitted⟩

/-- Behind an operator the next operand begins. -/
theorem IsInfix.begins {front op back : List Token} (h : v.IsInfix front op back)
    (admitted : (Gap.free.after (front.map v.role)).admitsAll (op.map v.role))
    (admitted' : ((Gap.free.after (front.map v.role)).after (op.map v.role)).admitsAll
      (back.map v.role))
    (ended : (((Gap.free.after (front.map v.role)).after (op.map v.role)).after
      (back.map v.role)).isEnded) :
    ∃ t rest, back = t :: rest ∧ v.role t ∈ operandBegins := by
  have behind : ∀ op ∈ spellings, ∀ g : Gap, (op ∈ [[.star], [.sign]] → g ∉ Gap.beginnings) →
      g.admitsAll op → (g.after op).isEnded = false ∧
        ∀ r, (g.after op).admits r → r ∈ operandBegins ∨ op ++ [r] ∈ spellings := by decide
  obtain ⟨waits, begins⟩ := behind _ h.known _ h.binary admitted
  cases back with
  | nil =>
    rw [List.map_nil, Gap.after, waits] at ended
    exact absurd ended Bool.false_ne_true
  | cons t rest =>
    rw [List.map_cons, Gap.admitsAll, Bool.and_eq_true] at admitted'
    exact ⟨t, rest, rfl, (begins _ admitted'.1).resolve_right (h.last t rfl)⟩

theorem Complete.flanked {ts : List Token} (h : v.Complete ts) : v.Flanked ts := by
  rintro front op back rfl operator
  obtain ⟨admitted, ended⟩ := complete_iff.mp h
  rw [List.map_append, List.map_append, Gap.admitsAll_append, Gap.admitsAll_append,
    Gap.after_append, Bool.and_eq_true, Bool.and_eq_true] at admitted
  rw [List.map_append, List.map_append, Gap.after_append, Gap.after_append] at ended
  exact ⟨operator.ends admitted.1.2, operator.begins admitted.1.2 admitted.2 ended⟩

end Vocabulary

/-! ## Parts of a text -/

/-- The roles of the tokens of a fragment. A name has one token, however it is written. -/
def Fragment.roles (v : Vocabulary) : Fragment → List Token.Role
  | .raw s => (Lexer.plainTokens s.toList).map v.role
  | .name _ | .text _ => [.value]

/-- The roles of the tokens of all fragments. -/
def Sql.roles (v : Vocabulary) (s : Sql) : List Token.Role := s.flatMap (Fragment.roles v)

theorem Sql.roles_append (v : Vocabulary) (s t : Sql) : (s ++ t).roles v = s.roles v ++ t.roles v :=
  List.flatMap_append

theorem Sql.roles_raw (v : Vocabulary) (text : String) :
    (Sql.raw text).roles v = (Lexer.plainTokens text.toList).map v.role := by
  simp [raw, roles, Fragment.roles]

/-- The roles are those of the tokens if every name is quoted. -/
theorem Sql.map_role_tokens (v : Vocabulary) (p : Profile) (s : Sql) :
    (s.tokens p true).map v.role = s.roles v := by
  rw [tokens, roles, List.map_flatMap]
  refine List.flatMap_congr fun f _ => ?_
  cases f <;> simp [Fragment.tokens, Fragment.roles, Vocabulary.role]

/-- The text leads from each of the first gaps to one of the others, and leaves no parentheses
empty that have to be filled. -/
def Vocabulary.leads (v : Vocabulary) (starts : List Gap) (text : String) (stops : List Gap) :
    Bool :=
  let roles := (Lexer.plainTokens text.toList).map v.role
  starts.all fun g => g.admitsAll roles && stops.contains (g.after roles) && g.fills roles

/-- The words of the token mean the same in every dialect. -/
def Token.isCommon : Token → Bool
  | .word w => (commonRole? w).isSome
  | _ => true

/-- The text leads from the first gaps to the others in every dialect. -/
def leadsAlways (starts : List Gap) (text : String) (stops : List Gap) : Bool :=
  (Lexer.plainTokens text.toList).all Token.isCommon && ({} : Vocabulary).leads starts text stops

namespace Vocabulary

variable {v : Vocabulary} {starts middle stops : List Gap} {a b : String}

theorem leads_iff : v.leads starts a stops ↔ ∀ g ∈ starts,
    let roles := (Lexer.plainTokens a.toList).map v.role
    g.admitsAll roles ∧ g.after roles ∈ stops ∧ g.fills roles := by
  simp [leads, and_assoc]

/-- The words of a dialect do not matter to a text that has none of them. -/
theorem leads_of_always (h : leadsAlways starts a stops) : v.leads starts a stops := by
  rw [leadsAlways, Bool.and_eq_true, List.all_eq_true] at h
  have same : (Lexer.plainTokens a.toList).map v.role =
      (Lexer.plainTokens a.toList).map ({} : Vocabulary).role := by
    refine List.map_congr_left fun t member => ?_
    have common := h.1 t member
    cases t with
    | word w =>
      obtain ⟨r, found⟩ := Option.isSome_iff_exists.mp common
      simp [role, found]
    | _ => rfl
  rw [leads, same]
  exact h.2

theorem leads_weaken (h : v.leads starts a stops) {starts' stops' : List Gap}
    (less : starts' ⊆ starts) (more : stops ⊆ stops') : v.leads starts' a stops' := by
  rw [leads_iff] at h ⊢
  intro g member
  obtain ⟨admitted, arrives, filled⟩ := h g (less member)
  exact ⟨admitted, more arrives, filled⟩

theorem leads_append (first : v.leads starts a middle) (second : v.leads middle b stops)
    (meets : Lexer.endsIdle a.toList ∨ Lexer.startsApart b.toList) :
    v.leads starts (a ++ b) stops := by
  have tokens : Lexer.plainTokens (a ++ b).toList =
      Lexer.plainTokens a.toList ++ Lexer.plainTokens b.toList := by
    rw [String.toList_append]
    rcases meets with idle | apart
    · exact Lexer.plainTokens_append_of_idle idle
    · exact Lexer.plainTokens_append_of_starts apart
  rw [leads_iff] at first second ⊢
  intro g member
  obtain ⟨admitted, arrives, filled⟩ := first g member
  obtain ⟨admitted', arrives', filled'⟩ := second _ arrives
  simp only [tokens, List.map_append, Gap.admitsAll_append, Gap.after_append, Gap.fills_append,
    Bool.and_eq_true]
  exact ⟨⟨admitted, admitted'⟩, arrives', filled, filled'⟩

end Vocabulary

/-- From each of the first gaps the tokens of the text are admitted one after the other and lead to
one of the other gaps. All parentheses are filled that have to be if and only if `filled` holds. -/
structure Sql.Reaches (v : Vocabulary) (starts stops : List Gap) (filled : Prop) (s : Sql) :
    Prop where
  admitted : ∀ g ∈ starts, g.admitsAll (s.roles v)
  arrives : ∀ g ∈ starts, g.after (s.roles v) ∈ stops
  fills : ∀ g ∈ starts, g.fills (s.roles v) ↔ filled

/-- The text begins where an operand may begin, and at its end none is missing. -/
abbrev Sql.IsOperand (v : Vocabulary) (filled : Prop) (s : Sql) : Prop :=
  s.Reaches v Gap.beginnings [.ended] filled

namespace Sql.Reaches

variable {v : Vocabulary} {starts middle middle' stops : List Gap} {P Q : Prop} {s t : Sql}

theorem congr (h : s.Reaches v starts stops P) (same : P ↔ Q) : s.Reaches v starts stops Q :=
  ⟨h.admitted, h.arrives, fun g member => (h.fills g member).trans same⟩

theorem weaken (h : s.Reaches v starts stops P) {starts' stops' : List Gap}
    (less : starts' ⊆ starts) (more : stops ⊆ stops') : s.Reaches v starts' stops' P :=
  ⟨fun g member => h.admitted g (less member), fun g member => more (h.arrives g (less member)),
    fun g member => h.fills g (less member)⟩

theorem nil : Reaches v starts starts True [] :=
  ⟨fun _ _ => rfl, fun _ member => member, fun _ _ => by simp [roles, Gap.fills]⟩

theorem append (h : s.Reaches v starts middle P) (k : t.Reaches v middle' stops Q)
    (meets : middle ⊆ middle') : (s ++ t).Reaches v starts stops (P ∧ Q) := by
  refine ⟨fun g member => ?_, fun g member => ?_, fun g member => ?_⟩
  · have between := meets (h.arrives g member)
    rw [roles_append, Gap.admitsAll_append, Bool.and_eq_true]
    exact ⟨h.admitted g member, k.admitted _ between⟩
  · rw [roles_append, Gap.after_append]
    exact k.arrives _ (meets (h.arrives g member))
  · have between := meets (h.arrives g member)
    rw [roles_append, Gap.fills_append, Bool.and_eq_true]
    exact and_congr (h.fills g member) (k.fills _ between)

theorem ofText {text : String} (step : v.leads starts text stops) :
    (Sql.raw text).Reaches v starts stops True := by
  rw [Vocabulary.leads_iff] at step
  refine ⟨fun g member => ?_, fun g member => ?_, fun g member => ?_⟩
  · rw [roles_raw]
    exact (step g member).1
  · rw [roles_raw]
    exact (step g member).2.1
  · rw [roles_raw, iff_true]
    exact (step g member).2.2

/-- A constant text. -/
theorem ofConst {text : String} (stops : List Gap) (step : leadsAlways starts text stops) :
    (Sql.raw text).Reaches v starts stops True := ofText (Vocabulary.leads_of_always step)

/-- Add a text. -/
theorem text (h : s.Reaches v starts middle P) {text : String} (step : v.leads middle text stops) :
    (s ++ Sql.raw text).Reaches v starts stops P :=
  (h.append (ofText step) (List.Subset.refl _)).congr (by simp)

/-- Add a constant text. -/
theorem const (h : s.Reaches v starts middle P) (text : String) (stops : List Gap)
    (step : leadsAlways middle text stops) : (s ++ Sql.raw text).Reaches v starts stops P :=
  h.text (Vocabulary.leads_of_always step)

/-- A text with a part behind it. -/
theorem behind {text : String} (step : v.leads starts text middle)
    (k : t.Reaches v middle' stops P) (meets : middle ⊆ middle') :
    (Sql.raw text ++ t).Reaches v starts stops P := ((ofText step).append k meets).congr (by simp)

/-- A constant text with a part behind it. -/
theorem lead {text : String} (middle : List Gap) (step : leadsAlways starts text middle)
    (k : t.Reaches v middle' stops P) (meets : middle ⊆ middle') :
    (Sql.raw text ++ t).Reaches v starts stops P := behind (Vocabulary.leads_of_always step) k meets

theorem ofFragment {f : Fragment} (one : f.roles v = [.value])
    (admitted : ∀ g ∈ starts, g.admits .value) : Reaches v starts [.ended] True [f] := by
  have roles : Sql.roles v [f] = [.value] := by simp [Sql.roles, one]
  refine ⟨fun g member => ?_, fun g member => ?_, fun g member => ?_⟩
  · simp [roles, Gap.admitsAll, admitted g member]
  · simp [roles, Gap.after, Gap.next]
  · simp [roles, Gap.fills]

theorem ofName (a : String) (admitted : ∀ g ∈ starts, g.admits .value) :
    Reaches v starts [.ended] True [.name a] := ofFragment rfl admitted

theorem ofString (a : String) (admitted : ∀ g ∈ starts, g.admits .value) :
    Reaches v starts [.ended] True [.text a] := ofFragment rfl admitted

/-- Add a name. -/
theorem name (h : s.Reaches v starts middle P) (a : String)
    (admitted : ∀ g ∈ middle, g.admits .value) :
    Reaches v starts [.ended] P (s ++ [Fragment.name a]) :=
  (h.append (ofName a admitted) (List.Subset.refl _)).congr (by simp)

/-- Add a string constant. -/
theorem string (h : s.Reaches v starts middle P) (a : String)
    (admitted : ∀ g ∈ middle, g.admits .value) :
    Reaches v starts [.ended] P (s ++ [.text a]) :=
  (h.append (ofString a admitted) (List.Subset.refl _)).congr (by simp)

theorem parens (h : t.Reaches v starts [.ended] P) (inside : .opened ∈ starts) :
    (Sql.parens t).IsOperand v P := by
  have opened : t.Reaches v [.opened] [.ended] P :=
    h.weaken (by simpa using inside) (List.Subset.refl _)
  exact (lead [.opened] (by decide) opened (by decide)).const _ [.ended] (by decide)

section

variable {α : Type} {ok : α → Prop}

/-- Parts with a separator between them. -/
theorem joinWith (separator : String) (step : v.leads stops separator starts) {xs : List α}
    (nonempty : xs ≠ []) {parts : List Sql}
    (each : List.Forall₂ (fun x part => part.Reaches v starts stops (ok x)) xs parts) :
    (Sql.joinWith separator parts).Reaches v starts stops (∀ x ∈ xs, ok x) := by
  unfold Sql.joinWith
  induction each with
  | nil => contradiction
  | @cons x part xs parts first rest ih =>
    cases rest with
    | nil => simpa using first
    | @cons y next xs parts second rest =>
      have more := (first.text step).append (ih (by simp)) (List.Subset.refl _)
      have text : (List.intersperse (raw separator) (part :: next :: parts)).flatten =
          part ++ raw separator ++ (List.intersperse (raw separator) (next :: parts)).flatten := by
        simp [List.intersperse]
      rw [text]
      exact more.congr (by simp)

/-- Operands with commas between them. -/
theorem commas {xs : List α} (nonempty : xs ≠ []) {parts : List Sql}
    (each : List.Forall₂ (fun x part => part.IsOperand v (ok x)) xs parts) :
    (Sql.joinWith ", " parts).IsOperand v (∀ x ∈ xs, ok x) :=
  joinWith ", " (Vocabulary.leads_of_always (by decide)) nonempty each

/-- Parts with a separator between them, if there are any. -/
theorem list (separator : String) (step : leadsAlways stops separator starts) {xs : List α}
    {parts : List Sql}
    (each : List.Forall₂ (fun x part => part.Reaches v starts stops (ok x)) xs parts)
    {first : List Gap} (less : first ⊆ starts) :
    (Sql.joinWith separator parts).Reaches v first (first ++ stops) (∀ x ∈ xs, ok x) := by
  cases each with
  | nil => exact (nil.weaken (List.Subset.refl _) (by simp)).congr (by simp)
  | cons first rest =>
    exact (joinWith separator (Vocabulary.leads_of_always step) (by simp)
      (.cons first rest)).weaken less (by simp)

/-- Parts one behind the other. -/
theorem flatten (again : stops ⊆ starts) {xs : List α} (nonempty : xs ≠ []) {parts : List Sql}
    (each : List.Forall₂ (fun x part => part.Reaches v starts stops (ok x)) xs parts) :
    Reaches v starts stops (∀ x ∈ xs, ok x) parts.flatten := by
  induction each with
  | nil => contradiction
  | @cons x part xs parts first rest ih =>
    cases rest with
    | nil => simpa using first
    | @cons y next xs parts second rest =>
      exact (first.append (ih (by simp)) again).congr (by simp)

/-- A clause behind its keyword, or nothing. -/
theorem clause (h : s.Reaches v starts stops P) (keyword : String) (middle : List Gap)
    (step : leadsAlways stops keyword middle) {o : Option α} {t : Option Sql}
    (each : Option.Rel (fun x u => u.Reaches v middle' stops (ok x)) o t)
    (meets : middle ⊆ middle') :
    (s ++ Render.clause keyword t).Reaches v starts stops (P ∧ ∀ x ∈ o, ok x) := by
  cases each with
  | none => simpa [Render.clause] using h
  | some first =>
    have added := h.append (lead middle step first meets) (List.Subset.refl _)
    exact added.congr (by simp)

end

end Sql.Reaches

end Pushdown
