import Pushdown.Proofs.Json.Grammar
import Pushdown.Proofs.Outcome

/-!
# Documents that are written

A string that has been written follows the grammar and is read back, whatever it consists of: quotes
and backslashes, control characters, characters with a meaning in markup, and characters outside
of the basic plane. An object whose members are such strings and lists of them is therefore read
back as the same members in the same order.
-/

namespace Pushdown

namespace Json

/-! ## Strings -/

/-- The piece is one character, which no other piece can change. -/
def Piece.Is (c : Char) : Piece → Prop
  | .char d => d = c
  | .code n => isHighHalf n = false ∧ single n = c

theorem assemble_of_is {cs : List Char} {pieces : List Piece}
    (each : List.Forall₂ Piece.Is cs pieces) : assemble pieces = cs := by
  induction each with
  | nil => rfl
  | @cons c piece cs pieces first more ih =>
    cases piece with
    | char d =>
      obtain rfl : d = c := first
      rw [assemble, ih]
    | code n =>
      obtain ⟨noPair, rfl⟩ := first
      cases pieces with
      | nil => simpa [assemble] using ih
      | cons next pieces =>
        cases next with
        | char d => rw [assemble, ih]; simp
        | code m => simp [assemble, pair?, noPair, ih]

/-- The text can stand in a string, where it is read as the piece. -/
structure Stands (text : List Char) (piece : Piece) : Prop where
  inside : ∀ more, IsString more → IsString (text ++ more)
  read : ∀ rest, pieces? (text ++ rest) =
    (pieces? rest).bind fun (more, rest) => some (piece :: more, rest)

theorem Stands.escape {letter c : Char} (known : escaped? letter = some c)
    (listed : letter ∈ ['"', '\\', '/', 'b', 'f', 'n', 'r', 't']) :
    Stands ['\\', letter] (.char c) :=
  ⟨fun _ more => .escape listed more, fun _ => pieces?_escape known⟩

theorem hexValue?_hexDigit : ∀ d < 16, hexValue? (Text.hexDigit d) = some d := by decide

theorem Stands.code {n : Nat} (small : n < 0x10000) :
    Stands ('\\' :: 'u' :: Text.hexDigits 4 n) (.code n) := by
  have digits : Text.hexDigits 4 n = [Text.hexDigit (n / 16 / 16 / 16 % 16),
      Text.hexDigit (n / 16 / 16 % 16), Text.hexDigit (n / 16 % 16), Text.hexDigit (n % 16)] := rfl
  have value (m : Nat) : hexValue? (Text.hexDigit (m % 16)) = some (m % 16) :=
    hexValue?_hexDigit _ (Nat.mod_lt _ (by decide))
  have whole : ((n / 16 / 16 / 16 % 16 * 16 + n / 16 / 16 % 16) * 16 + n / 16 % 16) * 16 + n % 16 =
      n := by omega
  rw [digits]
  refine ⟨fun more inside => .code ?_ inside, fun rest => ?_⟩
  · simp [value]
  · simp [pieces?, value, whole]

theorem needsCode_lt {c : Char} (needed : needsCode c) : c.toNat < 0xD800 := by
  simp only [needsCode, Bool.or_eq_true, decide_eq_true_eq, beq_iff_eq] at needed
  rcases needed with ((((control | rfl) | rfl) | rfl) | line) | paragraph
  · omega
  · decide
  · decide
  · decide
  · omega
  · omega

/-- Each character is written as a piece that is this character. -/
theorem exists_stands_writeChar (c : Char) :
    ∃ piece, Piece.Is c piece ∧ Stands (writeChar c) piece := by
  unfold writeChar
  split
  · exact ⟨.char '"', rfl, .escape rfl (by decide)⟩
  · exact ⟨.char '\\', rfl, .escape rfl (by decide)⟩
  · exact ⟨.char '\n', rfl, .escape rfl (by decide)⟩
  · exact ⟨.char '\r', rfl, .escape rfl (by decide)⟩
  · exact ⟨.char '\t', rfl, .escape rfl (by decide)⟩
  · rename_i noQuote noEscape _ _ _
    split
    · rename_i needed
      have small := needsCode_lt needed
      refine ⟨.code c.toNat, ⟨?_, ?_⟩, .code (by omega)⟩
      · simp [isHighHalf]
        omega
      · have whole : (isHighHalf c.toNat || isLowHalf c.toNat) = false := by
          simp [isHighHalf, isLowHalf]
          omega
        simp [single, whole]
    · rename_i visible
      have visible : 0x20 ≤ c.toNat := by
        simp only [needsCode, Bool.or_eq_true, decide_eq_true_eq, not_or] at visible
        omega
      exact ⟨.char c, rfl, fun _ more => .char visible noQuote noEscape more,
        fun rest => pieces?_char noQuote noEscape⟩

/-- A written string follows the grammar and is read back. -/
theorem exists_pieces_flatMap_writeChar (cs : List Char) :
    IsString (cs.flatMap writeChar) ∧
      ∃ pieces, assemble pieces = cs ∧
        ∀ rest, pieces? (cs.flatMap writeChar ++ '"' :: rest) = some (pieces, rest) := by
  suffices found : IsString (cs.flatMap writeChar) ∧
      ∃ pieces, List.Forall₂ Piece.Is cs pieces ∧
        ∀ rest, pieces? (cs.flatMap writeChar ++ '"' :: rest) = some (pieces, rest) by
    obtain ⟨inside, pieces, each, read⟩ := found
    exact ⟨inside, pieces, assemble_of_is each, read⟩
  induction cs with
  | nil => exact ⟨.nil, [], .nil, fun rest => rfl⟩
  | cons c cs ih =>
    obtain ⟨inside, pieces, each, read⟩ := ih
    obtain ⟨piece, is, stands⟩ := exists_stands_writeChar c
    refine ⟨stands.inside _ inside, piece :: pieces, .cons is each, fun rest => ?_⟩
    rw [List.flatMap_cons, List.append_assoc, stands.read, read]
    rfl

theorem toList_writeString (s : String) :
    (writeString s).toList = '"' :: s.toList.flatMap writeChar ++ ['"'] := String.toList_ofList

theorem string?_writeString (s : String) : string? (writeString s).toList = some s := by
  obtain ⟨-, pieces, whole, read⟩ := exists_pieces_flatMap_writeChar s.toList
  simp only [toList_writeString, List.cons_append, string?, stringBody?, read [], Option.map_some,
    whole, String.ofList_toList]

theorem spells_writeString (s : String) {n : Nat} : Spells .value n (writeString s).toList := by
  rw [toList_writeString]
  exact .string (exists_pieces_flatMap_writeChar s.toList).1

/-! ## Objects of strings -/

/-- A value that is a string or a list of strings. -/
inductive TextValue where
  | text (text : String)
  | texts (texts : List String)
deriving DecidableEq, Inhabited

/-- A value from its text. -/
def textValue? (cs : Source) : Option TextValue :=
  match string? cs with
  | some s => some (.text s)
  | none => do some (.texts (← (← elements? cs).mapM string?))

/-- The members of an object of strings and lists of strings, in their order. -/
def textMembers? (text : String) : Option (List (String × TextValue)) := do
  (← members? (content text)).mapM fun (name, source) => do some (name, ← textValue? source)

/-- The text is a member of an object and is read as the given one. -/
structure Decodes (text : String) (member : String × TextValue) : Prop where
  spells : Spells .member 1 text.toList
  read : ∃ source, Reads member? text.toList (member.1, source) ∧
    textValue? source = some member.2

theorem Decodes.of_value {value : String} {decoded : TextValue} (name : String)
    (spells : Spells .value 1 value.toList) (read : textValue? value.toList = some decoded) :
    Decodes (writeString name ++ ":" ++ value) (name, decoded) := by
  obtain ⟨named, pieces, whole, readName⟩ := exists_pieces_flatMap_writeChar name.toList
  have split : (writeString name ++ ":" ++ value).toList =
      [] ++ '"' :: name.toList.flatMap writeChar ++ '"' :: [] ++
        ':' :: ([] ++ value.toList ++ []) := by
    simp [toList_writeString]
  obtain rfl : String.ofList (assemble pieces) = name := by rw [whole, String.ofList_toList]
  constructor
  · rw [split]
    exact .member .nil named .nil (.element .nil spells .nil)
  · refine ⟨value.toList, ?_, read⟩
    rw [split]
    exact spells.reads_named (by decide) readName .nil .nil .nil .nil

theorem Decodes.text (name text : String) :
    Decodes (writeString name ++ ":" ++ writeString text) (name, .text text) :=
  .of_value name (spells_writeString text) (by rw [textValue?, string?_writeString])

theorem Decodes.texts (name : String) {texts : List String} (filled : texts ≠ []) :
    Decodes (writeString name ++ ":" ++ ("[" ++ ",".intercalate (texts.map writeString) ++ "]"))
      (name, .texts texts) := by
  let sources := texts.map fun text => (writeString text).toList
  have list : ("[" ++ ",".intercalate (texts.map writeString) ++ "]").toList =
      '[' :: [','].intercalate sources ++ [']'] := by
    simp [sources, String.toList_intercalate, Function.comp_def]
  have nonempty : sources ≠ [] := by simpa [sources] using filled
  refine .of_value name ?_ ?_
  · rw [list]
    refine .array nonempty fun part member => ?_
    obtain ⟨text, -, rfl⟩ := List.mem_map.mp member
    have element := Spells.element (n := 0) .nil (spells_writeString text) .nil
    rwa [List.nil_append, List.append_nil] at element
  · have split : elements? ('[' :: [','].intercalate sources ++ [']']) = some sources := by
      refine elements?_intercalate (List.forall₂_same.mpr fun part member => ?_) nonempty
      obtain ⟨text, -, rfl⟩ := List.mem_map.mp member
      have reads := (spells_writeString text (n := 0)).reads_value (by decide) .nil .nil
      rwa [List.nil_append, List.append_nil] at reads
    have read : sources.mapM string? = some texts := by
      rw [mapM_eq_some, List.map_map]
      refine List.map_congr_left fun text _ => ?_
      rw [Function.comp_apply, string?_writeString]
    have other : string? ('[' :: [','].intercalate sources ++ [']']) = none := rfl
    rw [list, textValue?, other]
    simp only [split, read, Option.bind_eq_bind, Option.bind_some]

theorem exists_sources {texts : List String} {members : List (String × TextValue)}
    (each : List.Forall₂ Decodes texts members) :
    (∀ text ∈ texts, Spells .member 1 text.toList) ∧ ∃ sources : List (String × Source),
      List.Forall₂ (fun text source => Reads member? text.toList source) texts sources ∧
      (sources.map fun source => do some (source.1, ← textValue? source.2)) =
        members.map some := by
  induction each with
  | nil => exact ⟨by simp, [], .nil, rfl⟩
  | @cons _ m _ _ first _ ih =>
    obtain ⟨spells, sources, reads, values⟩ := ih
    obtain ⟨source, read, value⟩ := first.read
    refine ⟨?_, (m.1, source) :: sources, .cons read reads, ?_⟩
    · simpa using ⟨first.spells, spells⟩
    · rw [List.map_cons, List.map_cons, values, value]
      rfl

/-- An object is read back as its members. -/
theorem textMembers?_of_decodes {texts : List String} {members : List (String × TextValue)}
    (each : List.Forall₂ Decodes texts members) (filled : texts ≠ []) :
    IsDocument 2 ("\x7b" ++ ",".intercalate texts ++ "\x7d") ∧
      textMembers? ("\x7b" ++ ",".intercalate texts ++ "\x7d") = some members := by
  have whole : ("\x7b" ++ ",".intercalate texts ++ "\x7d").toList =
      '{' :: [','].intercalate (texts.map String.toList) ++ ['}'] := by
    simp [String.toList_intercalate]
  have nonempty : texts.map String.toList ≠ [] := by simpa using filled
  obtain ⟨spelled, sources, reads, values⟩ := exists_sources each
  have spells : Spells .object 2 ('{' :: [','].intercalate (texts.map String.toList) ++ ['}']) := by
    refine .members nonempty fun part member => ?_
    obtain ⟨text, listed, rfl⟩ := List.mem_map.mp member
    exact spelled text listed
  have split := members?_intercalate (List.forall₂_map_left_iff.mpr reads) nonempty .nil
  rw [List.append_nil] at split
  refine ⟨⟨[], _, [], .nil, spells, .nil, by simp⟩, ?_⟩
  rw [textMembers?, content_eq (by rw [whole]; exact spells.noEnd), whole, split]
  exact mapM_eq_some.mpr values

end Json

end Pushdown
