import Pushdown.Sql.Fragment

/-!
# Lexical rules

The rules by which a database takes the text of a statement apart, as a machine that goes from
character to character: an identifier between quotes ends at a closing mark that is not doubled,
a string constant ends as the dialect writes quotes inside it, and everything else is words,
numbers and symbols. Marks are single characters. A comment shows as a token at its beginning.

A word, a number and a closing mark end only with the character that follows, so two texts can
merge at the point where they meet. They do not if the second one starts with a character that
stands apart or if nothing is pending after the first one. Then the tokens of the whole are those
of the two texts.
-/

namespace Pushdown

inductive Token where
  | word (text : String)
  | number (text : String)
  | symbol (c : Char)
  /-- An identifier that stands between quotes. -/
  | quoted (name : String)
  /-- A string constant. -/
  | string (text : String)
  /-- The beginning of a comment. -/
  | comment
deriving DecidableEq, Inhabited

namespace Lexer

/-! ## Words, numbers and symbols -/

/-- What the next character may still belong to, outside of quotes. -/
inductive Pending where
  | nothing
  | word (chars : List Char)
  | number (chars : List Char)
  /-- A symbol that can be the first of two. -/
  | lone (c : Char)
deriving DecidableEq, Inhabited

namespace Pending

def tokens : Pending → List Token
  | nothing => []
  | word chars => [.word (String.ofList chars)]
  | number chars => [.number (String.ofList chars)]
  | lone c => [.symbol c]

end Pending

def isWordChar (c : Char) : Bool := c.isAlphanum || c == '_'

/-- The first character of a token, or a blank. -/
def start (c : Char) : List Token × Pending :=
  if c.isWhitespace then ([], .nothing)
  else if c.isDigit then ([], .number [c])
  else if isWordChar c then ([], .word [c])
  else if c == '-' || c == '/' || c == '.' then ([], .lone c)
  else ([.symbol c], .nothing)

/-- Whether a sign that follows belongs to the number. -/
def takesSign (chars : List Char) : Bool :=
  match chars.getLast? with
  | some c => c == 'e' || c == 'E'
  | none => false

namespace Pending

/-- What becomes of a pending token that the character belongs to. -/
def joined? : Pending → Char → Option (List Token × Pending)
  | nothing, _ => none
  | word chars, c => if isWordChar c then some ([], word (chars ++ [c])) else none
  | number chars, c =>
    if isWordChar c || c == '.' || ((c == '+' || c == '-') && takesSign chars) then
      some ([], number (chars ++ [c]))
    else none
  | lone first, c =>
    if first == '-' && c == '-' || first == '/' && c == '*' then some ([.comment], nothing)
    else if first == '.' && c.isDigit then some ([], number [first, c])
    else none

/-- Go on with a character outside of quotes. -/
def next (p : Pending) (c : Char) : List Token × Pending :=
  match p.joined? c with
  | some result => result
  | none => (p.tokens ++ (start c).1, (start c).2)

def run : Pending → List Char → List Token × Pending
  | p, [] => ([], p)
  | p, c :: rest => ((p.next c).1 ++ ((p.next c).2.run rest).1, ((p.next c).2.run rest).2)

end Pending

/-- The tokens of a text without quotes. -/
def plainTokens (chars : List Char) : List Token :=
  (Pending.nothing.run chars).1 ++ (Pending.nothing.run chars).2.tokens

/-! ## Quotes -/

inductive State where
  | plain (pending : Pending)
  | quoted (chars : List Char)
  /-- A closing mark inside an identifier, which ends it unless another follows. -/
  | quotedMark (chars : List Char)
  | string (chars : List Char)
  /-- A quote inside a string constant, which ends it unless another follows. -/
  | stringMark (chars : List Char)
  /-- A backslash inside a string constant. -/
  | escaped (chars : List Char)
deriving DecidableEq, Inhabited

/-- Whether a backslash changes the meaning of the character behind it. -/
def escapes : StringEscape → Bool
  | .backslash | .doubledBackslash => true
  | .doubled | .other _ => false

/-- A character outside of quotes. -/
def outside (p : Profile) (pending : Pending) (c : Char) : List Token × State :=
  if p.quoteOpen.toList = [c] then (pending.tokens, .quoted [])
  else if c = '\'' then (pending.tokens, .string [])
  else ((pending.next c).1, .plain (pending.next c).2)

def step (p : Profile) : State → Char → List Token × State
  | .plain pending, c => outside p pending c
  | .quoted chars, c =>
    ([], if p.quoteClose.toList = [c] then .quotedMark chars else .quoted (chars ++ [c]))
  | .quotedMark chars, c =>
    if p.quoteClose.toList = [c] then ([], .quoted (chars ++ [c]))
    else (.quoted (String.ofList chars) :: (outside p .nothing c).1, (outside p .nothing c).2)
  | .string chars, c =>
    if c = '\'' then
      if p.stringEscape = .backslash then ([.string (String.ofList chars)], .plain .nothing)
      else ([], .stringMark chars)
    else if c = '\\' ∧ escapes p.stringEscape then ([], .escaped chars)
    else ([], .string (chars ++ [c]))
  | .stringMark chars, c =>
    if c = '\'' then ([], .string (chars ++ [c]))
    else (.string (String.ofList chars) :: (outside p .nothing c).1, (outside p .nothing c).2)
  | .escaped chars, c => ([], .string (chars ++ [c]))

def run (p : Profile) : State → List Char → List Token × State
  | s, [] => ([], s)
  | s, c :: rest => ((step p s c).1 ++ (run p (step p s c).2 rest).1, (run p (step p s c).2 rest).2)

/-- The tokens that end with the text, unless it ends inside of quotes. -/
def State.settle : State → Option (List Token)
  | .plain pending => some pending.tokens
  | .quotedMark chars => some [.quoted (String.ofList chars)]
  | .stringMark chars => some [.string (String.ofList chars)]
  | .quoted _ | .string _ | .escaped _ => none

/-- The tokens of a text, or nothing if it ends inside of quotes. -/
def scan (p : Profile) (chars : List Char) : Option (List Token) :=
  (run p (.plain .nothing) chars).2.settle.map ((run p (.plain .nothing) chars).1 ++ ·)

/-! ## Texts that meet -/

theorem Pending.run_append (p : Pending) (a b : List Char) :
    p.run (a ++ b) = ((p.run a).1 ++ ((p.run a).2.run b).1, ((p.run a).2.run b).2) := by
  induction a generalizing p with
  | nil => simp [run]
  | cons c a ih => simp [run, ih]

theorem run_append (p : Profile) (s : State) (a b : List Char) :
    run p s (a ++ b) = ((run p s a).1 ++ (run p (run p s a).2 b).1, (run p (run p s a).2 b).2) := by
  induction a generalizing s with
  | nil => simp [run]
  | cons c a ih => simp [run, ih]

/-- A character that never belongs to the same token as its neighbours. -/
def isApart (c : Char) : Bool := c == ' ' || c == '(' || c == ')' || c == ','

/-- The text does not merge with what stands before it. -/
def startsApart : List Char → Bool
  | [] => true
  | c :: _ => isApart c

/-- The text does not merge with what stands behind it. -/
def endsIdle (chars : List Char) : Bool := (Pending.nothing.run chars).2 == .nothing

theorem startsApart_append {a b : String} (apart : a ≠ "" ∧ startsApart a.toList) :
    startsApart (a ++ b).toList := by
  obtain ⟨nonempty, apart⟩ := apart
  obtain ⟨c, rest, chars⟩ : ∃ c rest, a.toList = c :: rest :=
    List.exists_cons_of_ne_nil (by simpa using nonempty)
  simp only [chars, startsApart, String.toList_append, List.cons_append] at apart ⊢
  exact apart

theorem isApart_iff {c : Char} : isApart c ↔ c = ' ' ∨ c = '(' ∨ c = ')' ∨ c = ',' := by
  simp [isApart, or_assoc]

theorem start_apart {c : Char} (apart : isApart c) : (start c).2 = .nothing := by
  rcases isApart_iff.mp apart with rfl | rfl | rfl | rfl <;> rfl

theorem Pending.next_apart (p : Pending) {c : Char} (apart : isApart c) :
    p.next c = (p.tokens ++ (start c).1, .nothing) := by
  have alone : p.joined? c = none := by
    rcases isApart_iff.mp apart with rfl | rfl | rfl | rfl <;> cases p <;>
      first | rfl | simp [joined?]
  simp [next, alone, start_apart apart]

/-- The tokens of two texts, the second of which stands apart. -/
theorem plainTokens_append_of_starts {a b : List Char} (apart : startsApart b) :
    plainTokens (a ++ b) = plainTokens a ++ plainTokens b := by
  cases b with
  | nil => simp [plainTokens, Pending.run, Pending.tokens]
  | cons c b =>
    simp [plainTokens, Pending.run_append, Pending.run, Pending.next_apart _ apart, Pending.tokens]

/-- The tokens of two texts, where nothing is pending after the first one. -/
theorem plainTokens_append_of_idle {a b : List Char} (idle : endsIdle a) :
    plainTokens (a ++ b) = plainTokens a ++ plainTokens b := by
  simp [plainTokens, Pending.run_append, eq_of_beq idle, Pending.tokens]

theorem endsIdle_append {a b : List Char} (apart : startsApart b) (nonempty : b ≠ [])
    (idle : endsIdle b) : endsIdle (a ++ b) := by
  cases b with
  | nil => contradiction
  | cons c b =>
    simp only [endsIdle, Pending.run_append, Pending.run, Pending.next_apart _ apart] at idle ⊢
    exact idle

/-- Letters, digits and the punctuation that every dialect writes outside of quotes. -/
def isCommon (c : Char) : Bool := isWordChar c || " (),.*+-/=<>".toList.contains c

/-- The character neither opens nor closes a quotation. -/
def isOrdinary (p : Profile) (c : Char) : Bool :=
  p.quoteOpen.toList != [c] && p.quoteClose.toList != [c] && c != '\''

variable {p : Profile}

theorem isOrdinary_iff {c : Char} :
    isOrdinary p c ↔ p.quoteOpen.toList ≠ [c] ∧ p.quoteClose.toList ≠ [c] ∧ c ≠ '\'' := by
  simp [isOrdinary, and_assoc]

theorem outside_ordinary (pending : Pending) {c : Char} (ordinary : isOrdinary p c) :
    outside p pending c = ((pending.next c).1, .plain (pending.next c).2) := by
  obtain ⟨opens, -, quote⟩ := isOrdinary_iff.mp ordinary
  simp [outside, opens, quote]

/-- Outside of quotes, a text without marks reads the same in every dialect. -/
theorem run_ordinary (pending : Pending) {chars : List Char}
    (ordinary : chars.all (isOrdinary p)) :
    run p (.plain pending) chars = ((pending.run chars).1, .plain (pending.run chars).2) := by
  induction chars generalizing pending with
  | nil => rfl
  | cons c chars ih =>
    rw [List.all_cons, Bool.and_eq_true] at ordinary
    simp [run, step, Pending.run, outside_ordinary pending ordinary.1, ih _ ordinary.2]

theorem scan_ordinary {chars : List Char} (ordinary : chars.all (isOrdinary p)) :
    scan p chars = some (plainTokens chars) := by
  simp [scan, run_ordinary _ ordinary, State.settle, plainTokens]

/-- A character that stands apart ends whatever is pending. -/
theorem step_apart {s : State} {ts : List Token} {c : Char} (settled : s.settle = some ts)
    (apart : isApart c) (ordinary : isOrdinary p c) :
    step p s c = (ts ++ (start c).1, .plain .nothing) := by
  obtain ⟨-, closes, quote⟩ := isOrdinary_iff.mp ordinary
  cases s with
  | plain pending =>
    obtain rfl : pending.tokens = ts := by simpa [State.settle] using settled
    simp [step, outside_ordinary _ ordinary, Pending.next_apart _ apart]
  | quotedMark chars =>
    obtain rfl : [.quoted (String.ofList chars)] = ts := by simpa [State.settle] using settled
    simp [step, closes, outside_ordinary _ ordinary, Pending.next_apart _ apart, Pending.tokens]
  | stringMark chars =>
    obtain rfl : [.string (String.ofList chars)] = ts := by simpa [State.settle] using settled
    simp [step, quote, outside_ordinary _ ordinary, Pending.next_apart _ apart, Pending.tokens]
  | quoted chars => simp [State.settle] at settled
  | string chars => simp [State.settle] at settled
  | escaped chars => simp [State.settle] at settled

/-- The marks of a dialect are single characters that it does not write elsewhere. -/
structure HasMarks (p : Profile) : Prop where
  opens : ∃ c, p.quoteOpen.toList = [c]
  closes : ∃ c, p.quoteClose.toList = [c]
  common : ∀ c, isCommon c → isOrdinary p c
  quote : p.quoteOpen.toList ≠ ['\'']

theorem HasMarks.apart (marks : HasMarks p) {c : Char} (apart : isApart c) : isOrdinary p c := by
  refine marks.common c ?_
  rcases isApart_iff.mp apart with rfl | rfl | rfl | rfl <;> decide

theorem HasMarks.dot (marks : HasMarks p) : isOrdinary p '.' := marks.common _ (by decide)

/-- Two texts do not merge if the second one stands apart. -/
theorem scan_append_of_starts (marks : HasMarks p) {a b : List Char} {ts us : List Token}
    (first : scan p a = some ts) (second : scan p b = some us) (apart : startsApart b) :
    scan p (a ++ b) = some (ts ++ us) := by
  obtain ⟨last, settled, rfl⟩ := Option.map_eq_some_iff.mp first
  cases b with
  | nil =>
    obtain rfl : [] = us := by simpa [scan, run, State.settle, Pending.tokens] using second
    simpa using first
  | cons c b =>
    have ordinary := marks.apart apart
    have from_start := step_apart (p := p) (s := .plain .nothing) rfl apart ordinary
    have from_end := step_apart settled apart ordinary
    simp only [scan, run, from_start, Pending.tokens, List.nil_append] at second
    obtain ⟨rest, settled', rfl⟩ := Option.map_eq_some_iff.mp second
    simp [scan, run_append, run, from_end, settled']

/-- Two texts do not merge if nothing is pending after the first one. -/
theorem scan_append_of_idle {a b : List Char} {ts us : List Token}
    (first : scan p a = some ts) (second : scan p b = some us)
    (idle : (run p (.plain .nothing) a).2 = .plain .nothing) :
    scan p (a ++ b) = some (ts ++ us) := by
  obtain ⟨rest, settled, rfl⟩ := Option.map_eq_some_iff.mp second
  simp only [scan, idle, State.settle, Pending.tokens, Option.map_some, List.append_nil,
    Option.some.injEq] at first
  simp [scan, run_append, idle, first, settled]

/-! ## Names and texts -/

theorem doubleMark_cons_self (mark : Char) (chars : List Char) :
    doubleMark [mark] 0 (mark :: chars) = mark :: mark :: doubleMark [mark] 0 chars := by
  simp [doubleMark]

theorem doubleMark_cons_of_ne {mark c : Char} (different : mark ≠ c) (chars : List Char) :
    doubleMark [mark] 0 (c :: chars) = c :: doubleMark [mark] 0 chars := by
  simp [doubleMark, different]

/-- Inside of quotes, a name with its closing marks doubled reads as the name. -/
theorem run_doubled {mark : Char} (closes : p.quoteClose.toList = [mark])
    (read chars : List Char) :
    run p (.quoted read) (doubleMark [mark] 0 chars) = ([], .quoted (read ++ chars)) := by
  induction chars generalizing read with
  | nil => simp [doubleMark, run]
  | cons c chars ih =>
    by_cases same : mark = c
    · subst same
      simp [doubleMark_cons_self, run, step, closes, ih]
    · simp [doubleMark_cons_of_ne same, run, step, closes, same, ih]

theorem run_quotedName (marks : HasMarks p) (name : String) :
    run p (.plain .nothing) (p.quotedName name).toList = ([], .quotedMark name.toList) := by
  obtain ⟨first, opens⟩ := marks.opens
  obtain ⟨last, closes⟩ := marks.closes
  simp [Profile.quotedName, opens, closes, run, step, outside, Pending.tokens, run_append,
    run_doubled closes]

theorem Pending.run_word (read : List Char) {chars : List Char} (letters : chars.all isWordChar) :
    (word read).run chars = ([], word (read ++ chars)) := by
  induction chars generalizing read with
  | nil => simp [run]
  | cons c chars ih =>
    rw [List.all_cons, Bool.and_eq_true] at letters
    simp [run, next, joined?, letters.1, ih _ letters.2]

theorem isDigit_of_isAlpha {c : Char} (letter : c.isAlpha) : c.isDigit = false := by
  have alpha : c.isAlpha = (c.isUpper || c.isLower) := rfl
  have upper : c.isUpper = decide ('A'.val ≤ c.val ∧ c.val ≤ 'Z'.val) := rfl
  have lower : c.isLower = (decide ('a'.val ≤ c.val) && decide (c.val ≤ 'z'.val)) := rfl
  simp only [alpha, upper, lower, Char.isDigit, UInt32.le_iff_toNat_le, ge_iff_le,
    Bool.or_eq_true, Bool.and_eq_true, decide_eq_true_eq, Bool.and_eq_false_iff,
    decide_eq_false_iff_not] at letter ⊢
  simp only [show 'A'.val.toNat = 65 from rfl, show 'Z'.val.toNat = 90 from rfl,
    show 'a'.val.toNat = 97 from rfl, show 'z'.val.toNat = 122 from rfl,
    show '0'.val.toNat = 48 from rfl, show '9'.val.toNat = 57 from rfl] at letter ⊢
  omega

theorem start_letter {c : Char} (letter : c.isAlpha) : start c = ([], .word [c]) := by
  have visible : c.isWhitespace = false := by
    refine Bool.eq_false_iff.mpr fun blank => ?_
    simp only [Char.isWhitespace, Bool.or_eq_true, decide_eq_true_eq] at blank
    rcases blank with ((rfl | rfl) | rfl) | rfl <;> contradiction
  simp [start, visible, isDigit_of_isAlpha letter, isWordChar, Char.isAlphanum, letter]

/-- A regular name is one word. -/
theorem Pending.run_name {name : List Char} (regular : isRegularName name) :
    nothing.run name = ([], word name) := by
  cases name with
  | nil => simp [isRegularName] at regular
  | cons c rest =>
    simp only [isRegularName, Bool.and_eq_true] at regular
    simp [run, next, joined?, start_letter regular.1, tokens, run_word [c] regular.2]

/-- Inside of quotes, a text as it is written reads as the text. -/
theorem run_escaped (read chars : List Char) :
    run p (.string read) (chars.flatMap p.stringEscape.char) = ([], .string (read ++ chars)) := by
  induction chars generalizing read with
  | nil => simp [run]
  | cons c chars ih =>
    have one : run p (.string read) (p.stringEscape.char c) = ([], .string (read ++ [c])) := by
      by_cases quote : c = '\''
      · subst quote
        cases style : p.stringEscape <;>
          simp [StringEscape.char, run, step, style, escapes]
      · by_cases backslash : c = '\\'
        · subst backslash
          cases style : p.stringEscape <;>
            simp [StringEscape.char, run, step, style, escapes]
        · cases style : p.stringEscape <;>
            simp [StringEscape.char, run, step, quote, backslash]
    rw [List.flatMap_cons, run_append, one, ih]
    simp

/-- A text between quotes is one string constant. -/
theorem scan_quotedText (marks : HasMarks p) (text : String) :
    scan p (p.quotedText text).toList = some [.string text] := by
  have body : run p (.string []) (text.toList.flatMap p.stringEscape.char) =
      ([], .string text.toList) := run_escaped [] text.toList
  have closed : run p (.plain .nothing) (p.quotedText text).toList =
      step p (.string text.toList) '\'' := by
    simp [Profile.quotedText, run, step.eq_1, outside, marks.quote, run_append, body,
      Pending.tokens]
  by_cases style : p.stringEscape = .backslash
  · simp [scan, closed, step, style, State.settle, Pending.tokens]
  · simp [scan, closed, step, style, State.settle]

/-- What is pending after a name. -/
def State.isName : State → Bool
  | .plain (.word _) | .quotedMark _ => true
  | _ => false

/-- A point behind a name is a symbol of its own. -/
theorem step_dot (marks : HasMarks p) {s : State} {ts : List Token} (settled : s.settle = some ts)
    (name : s.isName) : step p s '.' = (ts, .plain (.lone '.')) := by
  obtain ⟨-, closes, -⟩ := isOrdinary_iff.mp marks.dot
  have alone : start '.' = ([], .lone '.') := by decide
  have breaks : isWordChar '.' = false := by decide
  unfold State.isName at name
  split at name
  · rename_i chars
    obtain rfl : [.word (String.ofList chars)] = ts := by
      simpa [State.settle, Pending.tokens] using settled
    simp [step, outside_ordinary _ marks.dot, Pending.next, Pending.joined?, breaks, alone,
      Pending.tokens]
  · rename_i chars
    obtain rfl : [.quoted (String.ofList chars)] = ts := by simpa [State.settle] using settled
    simp [step, closes, outside_ordinary _ marks.dot, Pending.next, Pending.joined?, alone,
      Pending.tokens]
  · contradiction

/-- Names with a point between them do not merge. -/
theorem run_dot (marks : HasMarks p) {a b : List Char} {ts us : List Token} {s t : State}
    (first : run p (.plain .nothing) a = (ts, s)) (name : s.isName)
    (second : run p (.plain .nothing) b = (us, t)) {c : Char} {rest : List Char}
    (starts : b = c :: rest) (undigit : c.isDigit = false) :
    ∃ last, s.settle = some last ∧
      run p (.plain .nothing) (a ++ '.' :: b) = (ts ++ last ++ .symbol '.' :: us, t) := by
  obtain ⟨last, settled⟩ : ∃ last, s.settle = some last := by
    unfold State.isName at name
    split at name
    · exact ⟨_, rfl⟩
    · exact ⟨_, rfl⟩
    · contradiction
  refine ⟨last, settled, ?_⟩
  -- the character behind the point starts a token as if nothing were pending
  have fresh : step p (.plain (.lone '.')) c =
      (.symbol '.' :: (step p (.plain .nothing) c).1, (step p (.plain .nothing) c).2) := by
    simp only [step, outside]
    split
    · simp [Pending.tokens]
    · split
      · simp [Pending.tokens]
      · simp [Pending.next, Pending.joined?, undigit, Pending.tokens]
  subst starts
  simp only [run, Prod.mk.injEq] at second
  obtain ⟨rfl, rfl⟩ := second
  simp [run_append, first, run, step_dot marks settled name, fresh]

end Lexer

end Pushdown
