import Pushdown.Dialect.Builtin
import Pushdown.Proofs.Sql.Token

/-!
# Texts read back as written

A text constant ends at the first single quote that its style does not take for a character of the
text. Each style has its own rule: a doubled quote may stand for a quote, and a backslash may take
the character behind it as it is. Whatever a text consists of, backslashes and quotes at its end
included, the way it is written undoes the rule of its own style.
-/

namespace Pushdown

/-! ## Reading a text constant -/

namespace StringEscape

/-- Whether two single quotes in a text stand for one. -/
def doubles : StringEscape → Bool
  | backslash => false
  | doubled | doubledBackslash | other _ => true

/-- The text in front of its closing quote, and what follows that quote. -/
def unescape? (e : StringEscape) : List Char → Option (List Char × List Char)
  | [] => none
  | '\'' :: '\'' :: rest =>
    if e.doubles then (unescape? e rest).map fun (text, rest) => ('\'' :: text, rest)
    else some ([], '\'' :: rest)
  | '\'' :: rest => some ([], rest)
  | '\\' :: c :: rest =>
    if Lexer.escapes e then (unescape? e rest).map fun (text, rest) => (c :: text, rest)
    else (unescape? e (c :: rest)).map fun (text, rest) => ('\\' :: text, rest)
  | c :: rest => (unescape? e rest).map fun (text, rest) => (c :: text, rest)

end StringEscape

/-- The text constant at the start of a text, and what follows it. -/
def Profile.untext? (p : Profile) (text : String) : Option (String × String) :=
  match text.toList with
  | '\'' :: rest =>
    (p.stringEscape.unescape? rest).map fun (text, rest) => (String.ofList text, String.ofList rest)
  | _ => none

/-! ## Each character is read back -/

namespace StringEscape

variable {e : StringEscape}

/-! One equation for each way to go on in a text constant. -/

section

attribute [local simp] unescape?

theorem unescape?_quote {rest : List Char} (ends : e.doubles → ¬ ['\''] <+: rest) :
    e.unescape? ('\'' :: rest) = some ([], rest) := by
  cases rest with
  | nil => simp
  | cons c rest =>
    by_cases quote : c = '\''
    · subst quote
      have single : e.doubles = false := by
        apply Bool.eq_false_iff.mpr
        intro doubles
        exact ends doubles (by simp)
      simp [single]
    · simp [quote]

theorem unescape?_doubled (doubles : e.doubles) (rest : List Char) :
    e.unescape? ('\'' :: '\'' :: rest) =
      (e.unescape? rest).map fun (text, rest) => ('\'' :: text, rest) := by
  simp [doubles]

theorem unescape?_escaped (escapes : Lexer.escapes e) (c : Char) (rest : List Char) :
    e.unescape? ('\\' :: c :: rest) =
      (e.unescape? rest).map fun (text, rest) => (c :: text, rest) := by
  simp [escapes]

theorem unescape?_backslash (plain : Lexer.escapes e = false) (rest : List Char) :
    e.unescape? ('\\' :: rest) =
      (e.unescape? rest).map fun (text, rest) => ('\\' :: text, rest) := by
  cases rest with
  | nil => simp
  | cons c rest => simp [plain]

theorem unescape?_cons {c : Char} (quote : c ≠ '\'') (backslash : c ≠ '\\') (rest : List Char) :
    e.unescape? (c :: rest) = (e.unescape? rest).map fun (text, rest) => (c :: text, rest) := by
  simp [quote, backslash]

end

theorem char_ordinary {c : Char} (quote : c ≠ '\'') (backslash : c ≠ '\\') : e.char c = [c] := by
  cases e <;> simp [char, quote, backslash]

/-- A character as it is written is read as that character. -/
theorem unescape?_char (e : StringEscape) (c : Char) (rest : List Char) :
    e.unescape? (e.char c ++ rest) =
      (e.unescape? rest).map fun (text, rest) => (c :: text, rest) := by
  by_cases quote : c = '\''
  · subst quote
    cases e with
    | backslash => exact unescape?_escaped rfl '\'' rest
    | doubled | doubledBackslash | other _ => exact unescape?_doubled rfl rest
  by_cases backslash : c = '\\'
  · subst backslash
    cases e with
    | backslash | doubledBackslash => exact unescape?_escaped rfl '\\' rest
    | doubled | other _ => exact unescape?_backslash rfl rest
  · rw [char_ordinary quote backslash]
    exact unescape?_cons quote backslash rest

theorem unescape?_flatMap_char (e : StringEscape) (text : List Char) {rest : List Char}
    (ends : e.doubles → ¬ ['\''] <+: rest) :
    e.unescape? (text.flatMap e.char ++ '\'' :: rest) = some (text, rest) := by
  induction text with
  | nil => exact unescape?_quote ends
  | cons c text ih => rw [List.flatMap_cons, List.append_assoc, unescape?_char, ih, Option.map_some]

end StringEscape

/-! ## Escaping in two passes -/

/-- A text with each occurrence of a character replaced. -/
def replaceChar (c : Char) (into text : List Char) : List Char :=
  text.flatMap fun other => if other = c then into else [other]

theorem replaceChar_cons (c : Char) (into : List Char) (other : Char) (text : List Char) :
    replaceChar c into (other :: text) =
      (if other = c then into else [other]) ++ replaceChar c into text := rfl

/-- Character by character or in two passes, the text is the same: first backslashes are doubled,
then quotes are replaced. The backslashes that the second pass writes are not doubled. -/
theorem StringEscape.flatMap_char_eq (e : StringEscape) (text : List Char) :
    text.flatMap e.char =
      replaceChar '\'' (if e.doubles then ['\'', '\''] else ['\\', '\''])
        (if Lexer.escapes e then replaceChar '\\' ['\\', '\\'] text else text) := by
  induction text with
  | nil => cases e <;> rfl
  | cons c text ih =>
    rw [List.flatMap_cons, ih]
    by_cases quote : c = '\''
    · subst quote
      cases e <;> simp [char, doubles, Lexer.escapes, replaceChar_cons]
    by_cases backslash : c = '\\'
    · subst backslash
      cases e <;> simp [char, doubles, Lexer.escapes, replaceChar_cons]
    · rw [char_ordinary quote backslash]
      cases e <;> simp [doubles, Lexer.escapes, replaceChar_cons, quote, backslash]

/-! ## Whole texts -/

/-- Texts read back as they are written, in every style: up to the end of the constant, and with
what follows it left over. Where a style doubles quotes, a quote must not follow directly. -/
theorem texts_read_back (p : Profile) (text rest : String)
    (ends : p.stringEscape.doubles → ¬ ['\''] <+: rest.toList) :
    p.untext? (p.quotedText text ++ rest) = some (text, rest) := by
  have written : (p.quotedText text ++ rest).toList =
      '\'' :: (text.toList.flatMap p.stringEscape.char ++ '\'' :: rest.toList) := by
    simp [Profile.quotedText]
  have read := p.stringEscape.unescape?_flatMap_char text.toList ends
  simp only [Profile.untext?, written, read, Option.map_some, String.ofList_toList]

/-- A text that ends in a backslash and a quote, in each style: with quotes doubled, with both
doubled, and with backslashes, where a quote may follow directly. -/
theorem texts_read_back_hostile :
    (¬ ['\''] <+: " = ''".toList ∧
      Builtin.postgreSqlProfile.quotedText "x\\' OR 1=1 --\\'" = "'x\\'' OR 1=1 --\\'''" ∧
      Builtin.postgreSqlProfile.untext?
          (Builtin.postgreSqlProfile.quotedText "x\\' OR 1=1 --\\'" ++ " = ''") =
        some ("x\\' OR 1=1 --\\'", " = ''")) ∧
    (¬ ['\''] <+: " = ''".toList ∧
      (Builtin.mySqlProfile {}).quotedText "x\\' OR 1=1 --\\'" = "'x\\\\'' OR 1=1 --\\\\'''" ∧
      (Builtin.mySqlProfile {}).untext?
          ((Builtin.mySqlProfile {}).quotedText "x\\' OR 1=1 --\\'" ++ " = ''") =
        some ("x\\' OR 1=1 --\\'", " = ''")) ∧
    (Builtin.bigQueryProfile.stringEscape.doubles = false ∧
      Builtin.bigQueryProfile.quotedText "x\\' OR 1=1 --\\'" = "'x\\\\\\' OR 1=1 --\\\\\\''" ∧
      Builtin.bigQueryProfile.untext?
          (Builtin.bigQueryProfile.quotedText "x\\' OR 1=1 --\\'" ++ "''") =
        some ("x\\' OR 1=1 --\\'", "''")) := by
  have ends : ¬ ['\''] <+: " = ''".toList := by decide
  refine ⟨⟨ends, rfl, ?_⟩, ⟨ends, rfl, ?_⟩, rfl, rfl, ?_⟩
  · apply texts_read_back Builtin.postgreSqlProfile
    intro _
    exact ends
  · apply texts_read_back (Builtin.mySqlProfile {})
    intro _
    exact ends
  · apply texts_read_back Builtin.bigQueryProfile
    intro doubles
    contradiction

end Pushdown
