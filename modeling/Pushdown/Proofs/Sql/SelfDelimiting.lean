import Pushdown.Proofs.Dialect.Reserved
import Pushdown.Proofs.Sql.ClauseWords
import Pushdown.Proofs.Sql.Relations
import Pushdown.Proofs.Syntax.Lawful

/-!
# Operands that delimit themselves

Comparisons, argument lists, sort keys and joined texts put the texts of operands side by side. They
can be told apart again because an operand closes what it opens and shows nothing that belongs to
what stands around it: no comma, no connective and nothing that relates values.

What the tokens of an operand are does not depend on the marks around names. So the proof looks at
the dialect with double quotes as its marks, which no built-in dialect writes elsewhere, and what it
finds holds with all others, also where they keep the text from being read.
-/

namespace Pushdown

open Render (node asOperand inOrder Ensures)

/-! ## Delimited tokens -/

/-- Takes a list or a condition apart: a comma, a connective, or what relates two values. -/
def Token.divides : Token → Bool
  | .symbol c => [',', '=', '<', '>'].contains c
  | .word w => ["AND", "OR", "NOT", "BETWEEN", "IN", "IS", "LIKE"].contains (Text.upper w)
  | _ => false

theorem ComparisonOp.divides {op : ComparisonOp} (known : ∀ symbol, op ≠ .other symbol) :
    (Lexer.plainTokens op.symbol.toList).all Token.divides := by
  cases op with
  | other symbol => exact absurd rfl (known symbol)
  | _ => decide

/-- The tokens can stand next to any others. -/
structure SelfDelimiting (ts : List Token) : Prop where
  nonempty : ts ≠ []
  /-- No parenthesis closes one that was opened in front of the tokens. -/
  neverBelow : ∀ front, front <+: ts → front.count (.symbol ')') ≤ front.count (.symbol '(')
  balanced : ts.count (.symbol ')') = ts.count (.symbol '(')
  /-- A parenthesis or an END closes the innermost parenthesis or CASE that is open. -/
  nested : nest false [] ts = some []
  undivided : ∀ t ∈ (outside 0 ts).2, t.divides = false

/-- The parentheses that are open are those that were opened and not closed. -/
theorem count_of_nest {quiet : Bool} {opened after : List Bracket} {ts : List Token}
    (h : nest quiet opened ts = some after) :
    opened.count .paren + ts.count (.symbol '(') = after.count .paren + ts.count (.symbol ')') := by
  induction ts generalizing opened with
  | nil =>
    obtain rfl : opened = after := by simpa [nest] using h
    rfl
  | cons t ts ih =>
    simp only [List.count_cons, beq_iff_eq, ← Token.mark_eq_opens_paren,
      ← Token.mark_eq_closes_paren]
    simp only [nest] at h
    split at h
    · rename_i mark
      simpa [mark] using ih h
    · rename_i b mark
      have deeper := ih h
      rw [List.count_cons] at deeper
      cases b <;> simp [mark] at deeper ⊢ <;> omega
    · rename_i b mark
      split at h
      · contradiction
      · rename_i last opened
        split at h
        · rename_i same
          subst same
          have outer := ih h
          cases last <;> simp [mark] at outer ⊢ <;> omega
        · contradiction
    · rename_i plain opens closes
      split at h
      · contradiction
      · rw [if_neg (opens .paren), if_neg (closes .paren)]
        exact ih h

/-- What stands in front of a place has opened as many parentheses as it has closed, or more. -/
theorem count_le_of_nest {quiet : Bool} {after : List Bracket} {front ts : List Token}
    (h : nest quiet [] ts = some after) (before : front <+: ts) :
    front.count (.symbol ')') ≤ front.count (.symbol '(') := by
  obtain ⟨rest, rfl⟩ := before
  rw [nest_append] at h
  obtain ⟨opened, nested, -⟩ := Option.bind_eq_some_iff.mp h
  have counted := count_of_nest nested
  rw [List.count_nil] at counted
  omega

/-- What neither groups anything nor relates values takes nothing apart. -/
theorem Token.divides_eq_false {t : Token} (plain : t.mark = .plain) (unrelated : t.isUnrelated) :
    t.divides = false := by
  rw [isUnrelated, Bool.not_eq_true'] at unrelated
  cases t with
  | symbol c =>
    have comma : c ≠ ',' := by
      rintro rfl
      contradiction
    simp_all [divides, relates]
  | word w =>
    have grouping : ∀ word ∈ ["AND", "OR", "NOT"],
        (groupingWords.lookup word).getD .plain ≠ .plain := by decide
    have silent : ∀ word ∈ ["AND", "OR", "NOT"], Text.upper w ≠ word := by
      rintro word listed rfl
      exact grouping _ listed plain
    simp_all [divides, relates]
  | _ => rfl

/-- A value that shows nothing that relates values delimits itself. -/
theorem IsValue.selfDelimiting {p : Profile} {quoteNames : Bool} {s : Sql}
    (value : IsValue p quoteNames s) (unrelated : s.ShowsOnly p quoteNames Token.isUnrelated 0 0) :
    SelfDelimiting (s.tokens p quoteNames) := by
  have nested := value.phrase.nested
  obtain ⟨items, known⟩ := value.exists_items
  have shown := unrelated.items known.grouped
  constructor
  · exact value.nonempty
  · intro front before
    exact count_le_of_nest nested before
  · have counted := count_of_nest nested
    simpa using counted.symm
  · exact value.condition.nested
  · intro t member
    rw [known.grouped.outside] at member
    obtain ⟨i, inside, same⟩ := List.mem_filterMap.mp member
    have plain : t.mark = .plain := by
      cases i with
      | group b inner => simp [Item.token?] at same
      | token u =>
        obtain rfl : u = t := by simpa [Item.token?] using same
        exact known.plain _ inside
    exact t.divides_eq_false plain (shown i inside t same)

/-! ## Lists of operands -/

/-- Cut a list at the commas outside of brackets, of which some are open already. -/
def cutAtCommas : Nat → List Token → List (List Token)
  | _, [] => [[]]
  | depth, t :: rest =>
    if depth = 0 ∧ t = .symbol ',' then [] :: cutAtCommas 0 rest
    else (cutAtCommas (outside depth [t]).1 rest).modifyHead (t :: ·)

/-- The elements of a list, which has none if there are no tokens. -/
def listElements (ts : List Token) : List (List Token) := if ts = [] then [] else cutAtCommas 0 ts

/-- Where no comma is shown, nothing is cut. -/
theorem cutAtCommas_append {depth : Nat} {ts : List Token} (closed : (outside depth ts).1 = 0)
    (whole : ∀ t ∈ (outside depth ts).2, t ≠ .symbol ',') (us : List Token) :
    cutAtCommas depth (ts ++ us) = (cutAtCommas 0 us).modifyHead (ts ++ ·) := by
  induction ts generalizing depth with
  | nil =>
    obtain rfl : depth = 0 := closed
    exact (congrFun List.modifyHead_id _).symm
  | cons t ts ih =>
    rw [← List.singleton_append, outside_append] at closed whole
    have kept : ¬ (depth = 0 ∧ t = .symbol ',') := by
      rintro ⟨rfl, rfl⟩
      exact whole (.symbol ',') (List.mem_append_left _ (by decide)) rfl
    have rest := ih closed fun u member => whole u (List.mem_append_right _ member)
    rw [List.cons_append, cutAtCommas, if_neg kept, rest, List.modifyHead_modifyHead]
    rfl

namespace SelfDelimiting

/-- Whatever follows an operand, the first cut is behind it. -/
theorem cutAtCommas_append {ts : List Token} (h : SelfDelimiting ts) (us : List Token) :
    cutAtCommas 0 (ts ++ us) = (cutAtCommas 0 us).modifyHead (ts ++ ·) := by
  obtain ⟨items, grouped, -⟩ := Grouping.exists_groups h.nested
  refine Pushdown.cutAtCommas_append (by rw [grouped.outside]) ?_ us
  rintro t member rfl
  exact absurd (h.undivided _ member) (by decide)

variable {parts : List (List Token)} (each : ∀ ts ∈ parts, SelfDelimiting ts)

include each

theorem cutAtCommas_intercalate (nonempty : parts ≠ []) :
    cutAtCommas 0 ([.symbol ','].intercalate parts) = parts := by
  induction parts with
  | nil => contradiction
  | cons ts parts ih =>
    have first := each ts List.mem_cons_self
    cases parts with
    | nil =>
      have alone := first.cutAtCommas_append []
      simpa [cutAtCommas] using alone
    | cons next parts =>
      have rest := ih (fun us member => each us (List.mem_cons_of_mem _ member)) (by simp)
      rw [List.intercalate_cons_cons, List.append_assoc, List.singleton_append,
        first.cutAtCommas_append, cutAtCommas, if_pos ⟨rfl, rfl⟩, rest]
      simp

/-- A list of operands is cut into the operands. None of them is empty, so the list without
operands can be told from the others. -/
theorem listElements_intercalate : listElements ([.symbol ','].intercalate parts) = parts := by
  cases parts with
  | nil => rfl
  | cons ts parts =>
    have some : [Token.symbol ','].intercalate (ts :: parts) ≠ [] := by
      have first := (each ts List.mem_cons_self).nonempty
      cases parts <;> simp [first]
    rw [listElements, if_neg some, cutAtCommas_intercalate each (by simp)]

end SelfDelimiting

/-! ## Texts of operands -/

/-- A text that has tokens is not empty. -/
theorem Sql.write_ne_empty {p : Profile} (mark : p.quoteOpen ≠ "") {quoteNames : Bool} {s : Sql}
    (nonempty : s.tokens p quoteNames ≠ []) : s.write p quoteNames ≠ "" := by
  intro empty
  refine nonempty ?_
  rw [tokens, List.flatMap_eq_nil_iff]
  intro f member
  have nothing : f.write p quoteNames = "" := by
    obtain ⟨before, after, rfl⟩ := List.append_of_mem member
    rw [write_append, write_cons, String.append_eq_empty_iff, String.append_eq_empty_iff] at empty
    exact empty.2.1
  cases f with
  | raw text =>
    obtain rfl : text = "" := nothing
    have silent : Lexer.plainTokens "".toList = [] := by decide
    exact silent
  | name a =>
    simp only [Fragment.write, Profile.writeName] at nothing
    split at nothing
    · simp [Profile.quotedName, mark] at nothing
    · rename_i bare
      subst nothing
      simp [Profile.needsQuotes, isRegularName] at bare
  | text value => simp [Fragment.write, Profile.quotedText] at nothing

namespace Builtin

section

variable (b : Builtin) (notes : Notes) (ctx : Context)

theorem quoteOpen_ne_empty : (b.build notes).profile.quoteOpen ≠ "" := by
  cases b with
  | generic =>
    simp only [build, genericProfile]
    split
    · decide
    · rename_i named
      intro absurdity
      exact named (by rw [absurdity]; decide)
  | _ => simp [build, bigQueryProfile, exasolProfile, mySqlProfile, oracleProfile,
      postgreSqlProfile, sqliteProfile, sqlServerProfile]

theorem operand_selfDelimiting {n : Node} (wellFormed : n.WellFormed) (expression : n.isExpression)
    {s : Sql} (rendered : asOperand (b.build notes) n (node (b.build notes) ctx n) = .ok s)
    (quoteNames : Bool) : SelfDelimiting (s.tokens (b.build notes).profile quoteNames) := by
  let d := (b.build notes).quotedBy "\"" "\""
  have marks : Lexer.HasMarks d.profile :=
    .of '"' '"' (by rfl) (by rfl) (by decide) (by decide)
  have ordinary : ∀ c ∈ b.others, Lexer.isOrdinary d.profile c := by
    have apart : ∀ c ∈ rareMarks, c ≠ '"' ∧ c ≠ '\'' := by simp [rareMarks]
    have rare : ∀ c ∈ b.others, c ∈ rareMarks := by cases b <;> simp [others]
    have opens : d.profile.quoteOpen = "\"" := rfl
    have closes : d.profile.quoteClose = "\"" := rfl
    intro c member
    obtain ⟨mark, quote⟩ := apart c (rare c member)
    rw [Lexer.isOrdinary_iff, opens, closes]
    simpa [eq_comm] using And.intro mark quote
  have readable : d.Readable := b.quotedBy_readable notes _ _ _ marks ordinary
  have shows : d.Shows Token.isUnrelated :=
    (b.quotedBy_shows notes _ _ _ marks).imp fun t inert =>
      t.isUnrelated_of_isFree (t.isFree_of_isInert inert)
  have like : "LIKE" ∈ d.profile.reserved := by
    have standard : "LIKE" ∈ standardReserved := by decide +kernel
    exact List.contains_iff_mem.mp (b.reserves_standard notes standard)
  have again : asOperand d n (node d ctx n) = .ok s := by
    rw [Render.node_quotedBy]
    exact rendered
  have value : IsValue d.profile quoteNames s :=
    Render.asOperand_value marks expression (Render.node_rendered readable wellFormed) s again
  have unrelated : s.ShowsOnly d.profile quoteNames Token.isUnrelated 0 0 :=
    operand_showsOnly readable shows wellFormed expression
      (fun _ _ part => part.isUnrelated readable.legible like) s again
  rw [← Sql.tokens_quotedBy (b.build notes) "\"" "\""]
  exact value.selfDelimiting unrelated

end

end Builtin

end Pushdown
