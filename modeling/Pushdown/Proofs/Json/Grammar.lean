import Mathlib.Data.List.Forall2
import Pushdown.Json.Source

/-!
# Documents by their grammar

`Spells` is the grammar of documents, with a bound on how deep their containers are nested. Reading
goes through a document one level at a time and looks for the end of each part by its brackets, so
the main fact is that such a scan passes over whatever the grammar allows, provided that it has
levels left for it. What an object then reads as depends neither on the white space around it nor
on what follows it.
-/

namespace Pushdown.Json

/-! ## The grammar -/

/-- White space, or nothing. -/
def IsBlank (cs : List Char) : Prop := ∀ c ∈ cs, isSpace c

/-- One or more digits. -/
def IsDigits (cs : List Char) : Prop := cs ≠ [] ∧ ∀ c ∈ cs, c.isDigit

/-- A number: a sign, digits without a leading zero, a fraction and an exponent. -/
def IsNumber (cs : List Char) : Prop :=
  ∃ sign whole fraction exponent, cs = sign ++ whole ++ fraction ++ exponent ∧
    (sign = [] ∨ sign = ['-']) ∧
    (whole = ['0'] ∨ IsDigits whole ∧ whole.head? ≠ some '0') ∧
    (fraction = [] ∨ ∃ digits, IsDigits digits ∧ fraction = '.' :: digits) ∧
    (exponent = [] ∨ ∃ mark sign digits, mark ∈ ['e', 'E'] ∧ sign ∈ [[], ['+'], ['-']] ∧
      IsDigits digits ∧ exponent = mark :: sign ++ digits)

/-- What stands between the quotes of a string. -/
inductive IsString : List Char → Prop
  | nil : IsString []
  | char {c : Char} {cs : List Char} (visible : 0x20 ≤ c.toNat) (noQuote : c ≠ '"')
      (noEscape : c ≠ '\\') (more : IsString cs) : IsString (c :: cs)
  | escape {letter : Char} {cs : List Char}
      (known : letter ∈ ['"', '\\', '/', 'b', 'f', 'n', 'r', 't']) (more : IsString cs) :
      IsString ('\\' :: letter :: cs)
  | code {a b c d : Char} {cs : List Char}
      (hex : ∀ digit ∈ [a, b, c, d], (hexValue? digit).isSome) (more : IsString cs) :
      IsString ('\\' :: 'u' :: a :: b :: c :: d :: cs)

/-- What the rules of the grammar are about. -/
inductive Phrase where
  | value
  | object
  /-- A value with white space around it. -/
  | element
  /-- A name and an element. -/
  | member

/-- The text is a phrase whose containers are nested at most so many levels deep. -/
inductive Spells : Phrase → Nat → List Char → Prop
  | word {n : Nat} {cs : List Char} (known : cs ∈ words) : Spells .value n cs
  | number {n : Nat} {cs : List Char} (number : IsNumber cs) : Spells .value n cs
  | string {n : Nat} {cs : List Char} (inside : IsString cs) : Spells .value n ('"' :: cs ++ ['"'])
  | emptyArray {n : Nat} {blank : List Char} (inside : IsBlank blank) :
      Spells .value (n + 1) ('[' :: blank ++ [']'])
  | array {n : Nat} {parts : List (List Char)} (some : parts ≠ [])
      (each : ∀ part ∈ parts, Spells .element n part) :
      Spells .value (n + 1) ('[' :: [','].intercalate parts ++ [']'])
  | object {n : Nat} {cs : List Char} (object : Spells .object n cs) : Spells .value n cs
  | emptyObject {n : Nat} {blank : List Char} (inside : IsBlank blank) :
      Spells .object (n + 1) ('{' :: blank ++ ['}'])
  | members {n : Nat} {parts : List (List Char)} (some : parts ≠ [])
      (each : ∀ part ∈ parts, Spells .member n part) :
      Spells .object (n + 1) ('{' :: [','].intercalate parts ++ ['}'])
  | element {n : Nat} {before cs after : List Char} (blank : IsBlank before)
      (value : Spells .value n cs) (blank' : IsBlank after) :
      Spells .element n (before ++ cs ++ after)
  | member {n : Nat} {before name after cs : List Char} (blank : IsBlank before)
      (named : IsString name) (blank' : IsBlank after) (element : Spells .element n cs) :
      Spells .member n (before ++ '"' :: name ++ '"' :: after ++ ':' :: cs)

/-- A whole document that is an object, with white space around it. -/
def IsDocument (n : Nat) (text : String) : Prop :=
  ∃ before cs after, IsBlank before ∧ Spells .object n cs ∧ IsBlank after ∧
    text.toList = before ++ cs ++ after

/-- A digit is no special character of a string. -/
theorem noQuote_of_hexValue? {digit : Char} (hex : (hexValue? digit).isSome) :
    digit ≠ '"' ∧ digit ≠ '\\' := by
  constructor <;> rintro rfl <;> contradiction

/-! ## Scans for the end of a container -/

section

variable {opening closing c : Char} {inner n : Nat} {level : Int} {rest : List Char}

theorem containerLength?_quoted (noEscape : c ≠ '\\') :
    containerLength? opening closing true inner level n (c :: rest) =
      containerLength? opening closing (c != '"') inner level (n + 1) rest := by
  rw [containerLength?.eq_def]
  simp [noEscape]

theorem containerLength?_escape :
    containerLength? opening closing true inner level n ('\\' :: c :: rest) =
      containerLength? opening closing true inner level (n + 2) rest := by
  rw [containerLength?.eq_def]
  simp

/-- Outside of strings, a character is a quotation mark, a bracket or neither. -/
theorem containerLength?_unquoted :
    containerLength? opening closing false inner level n (c :: rest) =
      if c == '"' then containerLength? opening closing true inner level (n + 1) rest
      else if c == '{' || c == '[' then
        if level < maxLevel then
          containerLength? opening closing false (if c == opening then inner + 1 else inner)
            (level + 1) (n + 1) rest
        else none
      else if c == closing then
        match inner with
        | 0 => some (n + 1)
        | inner + 1 => containerLength? opening closing false inner (level - 1) (n + 1) rest
      else if c == '}' || c == ']' then
        containerLength? opening closing false inner (level - 1) (n + 1) rest
      else containerLength? opening closing false inner level (n + 1) rest := by
  rw [containerLength?.eq_def]
  rfl

theorem containerLength?_quote :
    containerLength? opening closing false inner level n ('"' :: rest) =
      containerLength? opening closing true inner level (n + 1) rest := by
  rw [containerLength?_unquoted]
  simp

theorem containerLength?_open (bracket : c = '{' ∨ c = '[') (room : level < maxLevel) :
    containerLength? opening closing false inner level n (c :: rest) =
      containerLength? opening closing false (if c = opening then inner + 1 else inner) (level + 1)
        (n + 1) rest := by
  rw [containerLength?_unquoted]
  rcases bracket with rfl | rfl <;> simp [room]

theorem containerLength?_full (bracket : c = '{' ∨ c = '[') (full : ¬ level < maxLevel) :
    containerLength? opening closing false inner level n (c :: rest) = none := by
  rw [containerLength?_unquoted]
  rcases bracket with rfl | rfl <;> simp [full]

theorem containerLength?_close (bracket : closing = '}' ∨ closing = ']') :
    containerLength? opening closing false (inner + 1) level n (closing :: rest) =
      containerLength? opening closing false inner (level - 1) (n + 1) rest := by
  rw [containerLength?_unquoted]
  rcases bracket with rfl | rfl <;> simp

theorem containerLength?_end (bracket : closing = '}' ∨ closing = ']') :
    containerLength? opening closing false 0 level n (closing :: rest) = some (n + 1) := by
  rw [containerLength?_unquoted]
  rcases bracket with rfl | rfl <;> simp

theorem containerLength?_closeOther (bracket : c = '}' ∨ c = ']') (other : c ≠ closing) :
    containerLength? opening closing false inner level n (c :: rest) =
      containerLength? opening closing false inner (level - 1) (n + 1) rest := by
  rw [containerLength?_unquoted]
  rcases bracket with rfl | rfl <;> simp [other]

theorem containerLength?_plain (plain : c ∉ ['"', '{', '}', '[', ']']) (other : c ≠ closing) :
    containerLength? opening closing false inner level n (c :: rest) =
      containerLength? opening closing false inner level (n + 1) rest := by
  rw [containerLength?_unquoted]
  simp_all

end

/-- A scan gives up when there are more levels than it takes. -/
theorem containerLength?_deep {opening closing c : Char} {inner n k : Nat} {level : Int}
    {rest : List Char} (bracket : c = '{' ∨ c = '[') (deep : maxLevel ≤ level + k) :
    containerLength? opening closing false inner level n (List.replicate k c ++ c :: rest) =
      none := by
  induction k generalizing inner level n with
  | zero => exact containerLength?_full bracket (by omega)
  | succ k ih =>
    rw [List.replicate_succ, List.cons_append]
    by_cases room : level < maxLevel
    · rw [containerLength?_open bracket room]
      exact ih (by omega)
    · exact containerLength?_full bracket room

/-- The two brackets belong together. -/
def IsPair (opening closing : Char) : Prop :=
  opening = '{' ∧ closing = '}' ∨ opening = '[' ∧ closing = ']'

/-- A scan for the end of a container passes over the text if it has that many levels left. -/
def Passes (n : Nat) (cs : List Char) : Prop :=
  ∀ opening closing, IsPair opening closing →
    ∀ (inner : Nat) (level : Int) (k : Nat) (rest : List Char), level + n ≤ maxLevel →
      containerLength? opening closing false inner level k (cs ++ rest) =
        containerLength? opening closing false inner level (k + cs.length) rest

namespace Passes

variable {n : Nat} {cs : List Char}

theorem nil : Passes n [] := fun _ _ _ _ _ _ _ _ => rfl

theorem append {ds : List Char} (first : Passes n cs) (second : Passes n ds) :
    Passes n (cs ++ ds) := by
  intro opening closing kind inner level k rest room
  rw [List.append_assoc, first opening closing kind inner level k _ room,
    second opening closing kind inner level _ rest room, List.length_append, Nat.add_assoc]

theorem cons {c : Char} (plain : c ∉ ['"', '{', '}', '[', ']']) (more : Passes n cs) :
    Passes n (c :: cs) := by
  intro opening closing kind inner level k rest room
  have other : c ≠ closing := by
    rintro rfl
    rcases kind with ⟨-, rfl⟩ | ⟨-, rfl⟩ <;> simp at plain
  rw [List.cons_append, containerLength?_plain plain other,
    more opening closing kind inner level _ rest room, List.length_cons, Nat.add_right_comm,
    Nat.add_assoc]

theorem of_forall (plain : ∀ c ∈ cs, c ∉ ['"', '{', '}', '[', ']']) : Passes n cs := by
  induction cs with
  | nil => exact nil
  | cons c cs ih =>
    exact cons (plain c (by simp)) (ih fun d member => plain d (List.mem_cons_of_mem c member))

theorem intercalate {parts : List (List Char)} (each : ∀ part ∈ parts, Passes n part) :
    Passes n ([','].intercalate parts) := by
  induction parts with
  | nil => exact nil
  | cons part parts ih =>
    have first := each part (by simp)
    cases parts with
    | nil => simpa using first
    | cons next parts =>
      rw [List.intercalate_cons_cons, List.append_assoc]
      exact first.append (cons (by decide)
        (ih fun other member => each other (List.mem_cons_of_mem part member)))

/-- Brackets inside a string do not count. -/
theorem quoted (inside : IsString cs) : Passes n ('"' :: cs ++ ['"']) := by
  intro opening closing kind inner level k rest room
  have through (k : Nat) : containerLength? opening closing true inner level k
      (cs ++ '"' :: rest) =
      containerLength? opening closing false inner level (k + (cs.length + 1)) rest := by
    induction inside generalizing k with
    | nil => exact containerLength?_quoted (by decide)
    | @char c cs visible noQuote noEscape more ih =>
      have stays : (c != '"') = true := by simpa using noQuote
      rw [List.cons_append, containerLength?_quoted noEscape, stays, ih, List.length_cons]
      congr 1
      omega
    | escape known more ih =>
      rw [List.cons_append, List.cons_append, containerLength?_escape, ih]
      simp only [List.length_cons]
      congr 1
      omega
    | @code a b c d cs hex more ih =>
      have step (digit : Char) (member : digit ∈ [a, b, c, d]) (k : Nat) (rest : List Char) :
          containerLength? opening closing true inner level k (digit :: rest) =
            containerLength? opening closing true inner level (k + 1) rest := by
        obtain ⟨noQuote, noEscape⟩ := noQuote_of_hexValue? (hex digit member)
        rw [containerLength?_quoted noEscape, show (digit != '"') = true by simpa using noQuote]
      simp only [List.cons_append]
      rw [containerLength?_escape, step a (by simp), step b (by simp), step c (by simp),
        step d (by simp), ih]
      simp only [List.length_cons]
      congr 1
      omega
  have joined : '"' :: cs ++ ['"'] ++ rest = '"' :: (cs ++ '"' :: rest) := by simp
  rw [joined, containerLength?_quote, through]
  simp only [List.cons_append, List.length_cons, List.length_append, List.length_nil]
  congr 1
  omega

/-- A container takes one level. -/
theorem container {opening closing : Char} (kind : IsPair opening closing)
    (inside : Passes n cs) : Passes (n + 1) (opening :: cs ++ [closing]) := by
  intro outerOpening outerClosing outerKind inner level k rest room
  have isOpening : opening = '{' ∨ opening = '[' := kind.imp And.left And.left
  have isClosing : closing = '}' ∨ closing = ']' := kind.imp And.right And.right
  have same : opening = outerOpening ↔ closing = outerClosing := by
    rcases kind with ⟨rfl, rfl⟩ | ⟨rfl, rfl⟩ <;>
      rcases outerKind with ⟨rfl, rfl⟩ | ⟨rfl, rfl⟩ <;> decide
  rw [show opening :: cs ++ [closing] ++ rest = opening :: (cs ++ closing :: rest) by simp,
    containerLength?_open isOpening (by omega),
    inside outerOpening outerClosing outerKind _ _ _ _ (by omega)]
  have counted : k + 1 + cs.length + 1 = k + (opening :: cs ++ [closing]).length := by
    simp only [List.cons_append, List.length_cons, List.length_append, List.length_nil]
    omega
  by_cases matching : opening = outerOpening
  · obtain rfl := same.mp matching
    rw [if_pos matching, containerLength?_close isClosing, Int.add_sub_cancel, counted]
  · rw [if_neg matching, containerLength?_closeOther isClosing (mt same.mpr matching),
      Int.add_sub_cancel, counted]

end Passes

theorem IsBlank.nil : IsBlank [] := nofun

theorem IsBlank.plain {blank : List Char} (h : IsBlank blank) :
    ∀ c ∈ blank, c ∉ ['"', '{', '}', '[', ']'] := by
  rintro c member bracket
  have space := h c member
  revert space
  simp only [List.mem_cons, List.not_mem_nil, or_false] at bracket
  rcases bracket with rfl | rfl | rfl | rfl | rfl <;> decide

theorem IsNumber.all {cs : List Char} (number : IsNumber cs) : ∀ c ∈ cs, isNumberChar c := by
  have digit (digits : List Char) (h : IsDigits digits) : ∀ c ∈ digits, isNumberChar c :=
    fun c member => by simp [isNumberChar, h.2 c member]
  obtain ⟨sign, whole, fraction, exponent, rfl, signed, digits, fractional, exponential⟩ := number
  simp only [List.mem_append]
  rintro c (((member | member) | member) | member)
  · rcases signed with rfl | rfl
    · contradiction
    · obtain rfl := List.mem_singleton.mp member
      decide
  · rcases digits with rfl | ⟨digits, -⟩
    · obtain rfl := List.mem_singleton.mp member
      decide
    · exact digit whole digits c member
  · rcases fractional with rfl | ⟨digits, some, rfl⟩
    · contradiction
    · rcases List.mem_cons.mp member with rfl | member
      · decide
      · exact digit digits some c member
  · rcases exponential with rfl | ⟨mark, sign, digits, marks, signs, some, rfl⟩
    · contradiction
    · rw [List.cons_append, List.mem_cons, List.mem_append] at member
      simp only [List.mem_cons, List.not_mem_nil, or_false] at marks signs
      rcases member with rfl | member | member
      · rcases marks with rfl | rfl <;> decide
      · rcases signs with rfl | rfl | rfl
        · contradiction
        · obtain rfl := List.mem_singleton.mp member
          decide
        · obtain rfl := List.mem_singleton.mp member
          decide
      · exact digit digits some c member

/-- A number starts with a digit or a sign. -/
theorem IsNumber.exists_cons {cs : List Char} (number : IsNumber cs) :
    ∃ c rest, cs = c :: rest ∧ (c.isDigit ∨ c = '-') := by
  obtain ⟨sign, whole, fraction, exponent, rfl, signed, digits, -, -⟩ := number
  rcases signed with rfl | rfl
  · rcases digits with rfl | ⟨⟨some, digits⟩, -⟩
    · exact ⟨'0', _, rfl, .inl rfl⟩
    · obtain ⟨c, rest, rfl⟩ := List.exists_cons_of_ne_nil some
      exact ⟨c, _, rfl, .inl (digits c (by simp))⟩
  · exact ⟨'-', _, rfl, .inr rfl⟩

theorem plain_of_isNumberChar {c : Char} (part : isNumberChar c) :
    c ∉ ['"', '{', '}', '[', ']'] := by
  intro bracket
  revert part
  simp only [List.mem_cons, List.not_mem_nil, or_false] at bracket
  rcases bracket with rfl | rfl | rfl | rfl | rfl <;> decide

theorem Spells.passes {p : Phrase} {n : Nat} {cs : List Char} (h : Spells p n cs) :
    Passes n cs := by
  induction h with
  | word known =>
    simp only [words, List.mem_cons, List.not_mem_nil, or_false] at known
    rcases known with rfl | rfl | rfl <;> exact .of_forall (by simp)
  | number number => exact .of_forall fun c member => plain_of_isNumberChar (number.all c member)
  | string inside => exact .quoted inside
  | emptyArray inside => exact .container (.inr ⟨rfl, rfl⟩) (.of_forall inside.plain)
  | array _ _ each => exact .container (.inr ⟨rfl, rfl⟩) (.intercalate each)
  | object _ object => exact object
  | emptyObject inside => exact .container (.inl ⟨rfl, rfl⟩) (.of_forall inside.plain)
  | members _ _ each => exact .container (.inl ⟨rfl, rfl⟩) (.intercalate each)
  | element before _ after value =>
    exact (Passes.append (.of_forall before.plain) value).append (.of_forall after.plain)
  | @member n before name after cs blank named blank' _ element =>
    have front : Passes n (before ++ ('"' :: name ++ ['"'])) :=
      .append (.of_forall blank.plain) (.quoted named)
    have back : Passes n (after ++ ':' :: cs) :=
      .append (.of_forall blank'.plain) (.cons (by decide) element)
    simpa using front.append back

/-! ## Documents are read to their end -/

theorem length_le_length_intercalate (parts : List (List Char)) :
    parts.length ≤ ([','].intercalate parts).length + 1 := by
  induction parts with
  | nil => simp
  | cons part parts ih =>
    cases parts with
    | nil => simp
    | cons next parts =>
      rw [List.intercalate_cons_cons, List.length_append, List.length_append, List.length_cons]
      simp only [List.length_cons, List.length_nil] at ih ⊢
      omega

theorem mem_intercalate {parts : List (List Char)} {c : Char}
    (member : c ∈ [','].intercalate parts) : c = ',' ∨ ∃ part ∈ parts, c ∈ part := by
  induction parts with
  | nil => contradiction
  | cons part parts ih =>
    cases parts with
    | nil => exact .inr ⟨part, by simp, by simpa using member⟩
    | cons next parts =>
      rw [List.intercalate_cons_cons, List.mem_append, List.mem_append,
        List.mem_singleton] at member
      rcases member with (here | comma) | later
      · exact .inr ⟨part, by simp, here⟩
      · exact .inl comma
      · exact (ih later).imp_right fun ⟨other, listed, inside⟩ =>
          ⟨other, List.mem_cons_of_mem part listed, inside⟩

theorem IsString.noEnd {cs : List Char} (h : IsString cs) : Char.ofNat 0 ∉ cs := by
  induction h with
  | nil => simp
  | char visible _ _ _ ih =>
    refine List.not_mem_cons_of_ne_of_not_mem ?_ ih
    rintro rfl
    exact absurd visible (by decide)
  | escape known _ ih =>
    have noLetter : Char.ofNat 0 ∉ ['"', '\\', '/', 'b', 'f', 'n', 'r', 't'] := by decide
    refine List.not_mem_cons_of_ne_of_not_mem (by decide) (List.not_mem_cons_of_ne_of_not_mem ?_ ih)
    rintro rfl
    exact noLetter known
  | @code a b c d cs hex _ ih =>
    have noDigit : Char.ofNat 0 ∉ [a, b, c, d] := fun member => absurd (hex _ member) (by decide)
    have split : '\\' :: 'u' :: a :: b :: c :: d :: cs = ['\\', 'u'] ++ ([a, b, c, d] ++ cs) := rfl
    rw [split, List.mem_append, List.mem_append, not_or, not_or]
    exact ⟨by decide, noDigit, ih⟩

theorem IsBlank.noEnd {blank : List Char} (h : IsBlank blank) : Char.ofNat 0 ∉ blank :=
  fun member => absurd (h _ member) (by decide)

/-- No part of a document ends the document. -/
theorem Spells.noEnd {p : Phrase} {n : Nat} {cs : List Char} (h : Spells p n cs) :
    Char.ofNat 0 ∉ cs := by
  have noPart (parts : List (List Char)) (each : ∀ part ∈ parts, Char.ofNat 0 ∉ part) :
      Char.ofNat 0 ∉ [','].intercalate parts := by
    intro member
    rcases mem_intercalate member with comma | ⟨part, listed, inside⟩
    · exact absurd comma (by decide)
    · exact each part listed inside
  induction h with
  | word known =>
    simp only [words, List.mem_cons, List.not_mem_nil, or_false] at known
    rcases known with rfl | rfl | rfl <;> decide
  | number number => exact fun member => absurd (number.all _ member) (by decide)
  | string inside => simpa using inside.noEnd
  | emptyArray inside | emptyObject inside => simpa using inside.noEnd
  | array _ _ each | members _ _ each => simpa using noPart _ each
  | object _ object => exact object
  | element before _ after value => simpa using ⟨before.noEnd, value, after.noEnd⟩
  | member before named after _ element =>
    simpa using ⟨before.noEnd, named.noEnd, after.noEnd, element⟩

/-- A text without NUL characters is read to its end. -/
theorem content_eq {text : String} (noEnd : Char.ofNat 0 ∉ text.toList) :
    content text = text.toList := by
  rw [content, ← List.append_nil text.toList, List.takeWhile_append_of_pos]
  · simp
  · intro c member
    rw [bne_iff_ne]
    rintro rfl
    exact noEnd member

theorem skipSpace_blank {blank : List Char} (h : IsBlank blank) (rest : List Char) :
    skipSpace (blank ++ rest) = skipSpace rest := List.dropWhile_append_of_pos h

theorem skipSpace_cons {c : Char} (visible : isSpace c = false) (rest : List Char) :
    skipSpace (c :: rest) = c :: rest := List.dropWhile_cons_of_neg (by simp [visible])

theorem isSpace_of_isDigit {c : Char} (digit : c.isDigit) : isSpace c = false := by
  rcases Bool.eq_false_or_eq_true (isSpace c) with space | visible
  · simp only [isSpace, Bool.or_eq_true, beq_iff_eq] at space
    rcases space with ((rfl | rfl) | rfl) | rfl <;> contradiction
  · exact visible

/-- The first character of a value is neither white space nor does it end a container. -/
theorem Spells.exists_cons {n : Nat} {cs : List Char} (h : Spells .value n cs) :
    ∃ c rest, cs = c :: rest ∧ isSpace c = false ∧ c ≠ ']' ∧ c ≠ '}' := by
  cases h with
  | word known =>
    simp only [words, List.mem_cons, List.not_mem_nil, or_false] at known
    rcases known with rfl | rfl | rfl <;> exact ⟨_, _, rfl, by decide⟩
  | number number =>
    obtain ⟨c, rest, rfl, digit | rfl⟩ := number.exists_cons
    · refine ⟨c, rest, rfl, isSpace_of_isDigit digit, ?_, ?_⟩ <;>
        rintro rfl <;> contradiction
    · exact ⟨_, _, rfl, by decide⟩
  | string | emptyArray | array => exact ⟨_, _, rfl, by decide⟩
  | object object =>
    cases object with
    | emptyObject | members => exact ⟨_, _, rfl, by decide⟩

section

variable {c letter : Char} {k : Nat} {rest : List Char}

theorem stringLength?_char (noQuote : c ≠ '"') (noEscape : c ≠ '\\') :
    stringLength? k (c :: rest) = stringLength? (k + 1) rest := by
  rw [stringLength?.eq_def]
  split <;> simp_all

theorem stringLength?_escape :
    stringLength? k ('\\' :: c :: rest) = stringLength? (k + 2) rest := by
  rw [stringLength?]

theorem pieces?_char (noQuote : c ≠ '"') (noEscape : c ≠ '\\') :
    pieces? (c :: rest) = (pieces? rest).bind fun (more, rest) => some (.char c :: more, rest) := by
  rw [pieces?.eq_def]
  split <;> simp_all

theorem pieces?_escape (known : escaped? letter = some c) :
    pieces? ('\\' :: letter :: rest) =
      (pieces? rest).bind fun (more, rest) => some (.char c :: more, rest) := by
  have noCode : letter ≠ 'u' := by
    rintro rfl
    contradiction
  rw [pieces?, known]
  · rfl
  · intro _ _ _ _ _ code
    exact absurd code noCode

theorem pieces?_code {a b d : Char} (hex : ∀ digit ∈ [a, b, c, d], (hexValue? digit).isSome) :
    ∃ code, ∀ rest, pieces? ('\\' :: 'u' :: a :: b :: c :: d :: rest) =
      (pieces? rest).bind fun (more, rest) => some (.code code :: more, rest) := by
  simp only [List.mem_cons, List.not_mem_nil, or_false, forall_eq_or_imp, forall_eq,
    Option.isSome_iff_exists] at hex
  obtain ⟨⟨i, first⟩, ⟨j, second⟩, ⟨k, third⟩, ⟨l, fourth⟩⟩ := hex
  refine ⟨((i * 16 + j) * 16 + k) * 16 + l, fun rest => ?_⟩
  simp [pieces?, first, second, third, fourth]

end

theorem IsString.length {cs : List Char} (h : IsString cs) (k : Nat) (rest : List Char) :
    stringLength? k (cs ++ '"' :: rest) = some (k + cs.length + 1) := by
  induction h generalizing k with
  | nil => simp [stringLength?]
  | char _ noQuote noEscape _ ih =>
    rw [List.cons_append, stringLength?_char noQuote noEscape, ih, List.length_cons]
    congr 1
    omega
  | escape _ _ ih =>
    rw [List.cons_append, List.cons_append, stringLength?_escape, ih]
    simp only [List.length_cons]
    congr 1
    omega
  | @code a b c d cs hex _ ih =>
    have step (digit : Char) (member : digit ∈ [a, b, c, d]) (k : Nat) (rest : List Char) :
        stringLength? k (digit :: rest) = stringLength? (k + 1) rest := by
      obtain ⟨noQuote, noEscape⟩ := noQuote_of_hexValue? (hex digit member)
      exact stringLength?_char noQuote noEscape
    simp only [List.cons_append]
    rw [stringLength?_escape, step a (by simp), step b (by simp), step c (by simp),
      step d (by simp), ih]
    simp only [List.length_cons]
    congr 1
    omega

/-- The name that a string stands for does not depend on what follows it. -/
theorem IsString.pieces {cs : List Char} (h : IsString cs) :
    ∃ pieces, ∀ rest, pieces? (cs ++ '"' :: rest) = some (pieces, rest) := by
  induction h with
  | nil => exact ⟨[], fun rest => rfl⟩
  | @char c _ _ noQuote noEscape _ ih =>
    obtain ⟨pieces, read⟩ := ih
    refine ⟨.char c :: pieces, fun rest => ?_⟩
    rw [List.cons_append, pieces?_char noQuote noEscape, read]
    rfl
  | @escape letter _ known _ ih =>
    obtain ⟨pieces, read⟩ := ih
    obtain ⟨c, found⟩ : ∃ c, escaped? letter = some c := by
      simp only [List.mem_cons, List.not_mem_nil, or_false] at known
      rcases known with rfl | rfl | rfl | rfl | rfl | rfl | rfl | rfl <;> exact ⟨_, rfl⟩
    refine ⟨.char c :: pieces, fun rest => ?_⟩
    rw [List.cons_append, List.cons_append, pieces?_escape found, read]
    rfl
  | code hex _ ih =>
    obtain ⟨pieces, read⟩ := ih
    obtain ⟨code, first⟩ := pieces?_code hex
    refine ⟨.code code :: pieces, fun rest => ?_⟩
    simp only [List.cons_append]
    rw [first, read]
    rfl

/-- The scan for the end of a container finds it. -/
theorem Passes.valueLength? {opening closing : Char} {n : Nat} {cs : List Char}
    (inside : Passes n cs) (kind : IsPair opening closing) (room : (n + 1 : Int) < maxLevel)
    (rest : List Char) :
    Json.valueLength? (opening :: cs ++ [closing] ++ rest) =
      some (opening :: cs ++ [closing]).length := by
  have start : Json.valueLength? (opening :: cs ++ [closing] ++ rest) =
      containerLength? opening closing false 0 2 1 (cs ++ closing :: rest) := by
    rcases kind with ⟨rfl, rfl⟩ | ⟨rfl, rfl⟩ <;> simp [Json.valueLength?]
  rw [start, inside opening closing kind 0 2 1 (closing :: rest) (by omega),
    containerLength?_end (kind.imp And.right And.right)]
  simp only [List.cons_append, List.length_cons, List.length_append, List.length_nil]
  congr 1
  omega

theorem valueLength?_number {c : Char} {digits rest : List Char} (first : c.isDigit ∨ c = '-')
    (all : ∀ d ∈ digits, isNumberChar d) (apart : ∀ d ∈ rest.head?, isNumberChar d = false) :
    valueLength? (c :: digits ++ rest) = some (c :: digits).length := by
  have stops : rest.takeWhile isNumberChar = [] := by
    cases rest with
    | nil => rfl
    | cons d rest => simp [apart d rfl]
  have through : (digits ++ rest).takeWhile isNumberChar = digits := by
    rw [List.takeWhile_append_of_pos all, stops, List.append_nil]
  have known : (c.isDigit || c == '-') = true := by simpa using first
  rw [List.cons_append, valueLength?.eq_def]
  split
  · contradiction
  · simp_all
  · simp_all
  · simp_all
  · rename_i other heq
    obtain ⟨rfl, rfl⟩ := List.cons.inj heq
    rw [if_pos known, through, List.length_cons, Nat.add_comm]

/-- The end of a value is found, whatever follows it. Behind a number no other character of a number
may follow. -/
theorem Spells.valueLength? {n : Nat} {cs : List Char} (h : Spells .value n cs)
    (room : (n : Int) < maxLevel) {rest : List Char}
    (apart : ∀ c ∈ rest.head?, isNumberChar c = false) :
    Json.valueLength? (cs ++ rest) = some cs.length := by
  cases h with
  | word known =>
    simp only [words, List.mem_cons, List.not_mem_nil, or_false] at known
    rcases known with rfl | rfl | rfl <;> rfl
  | number number =>
    obtain ⟨c, digits, rfl, first⟩ := number.exists_cons
    have digits := fun d member => number.all d (List.mem_cons_of_mem c member)
    exact valueLength?_number first digits apart
  | string inside =>
    simp [Json.valueLength?, inside.length]
    omega
  | emptyArray inside =>
    exact (Passes.of_forall inside.plain).valueLength? (.inr ⟨rfl, rfl⟩) (by simpa using room) rest
  | array _ each =>
    exact (Passes.intercalate fun part member => (each part member).passes).valueLength?
      (.inr ⟨rfl, rfl⟩) (by simpa using room) rest
  | object object =>
    cases object with
    | emptyObject inside =>
      exact (Passes.of_forall inside.plain).valueLength? (.inl ⟨rfl, rfl⟩)
        (by simpa using room) rest
    | members _ each =>
      exact (Passes.intercalate fun part member => (each part member).passes).valueLength?
        (.inl ⟨rfl, rfl⟩) (by simpa using room) rest

theorem Spells.value? {n : Nat} {before cs rest : List Char} (h : Spells .value n cs)
    (room : (n : Int) < maxLevel) (blank : IsBlank before)
    (apart : ∀ c ∈ rest.head?, isNumberChar c = false) :
    Json.value? (before ++ cs ++ rest) = some (cs, rest) := by
  obtain ⟨c, tail, rfl, visible, -⟩ := h.exists_cons
  have skipped : skipSpace (before ++ c :: tail ++ rest) = c :: tail ++ rest := by
    rw [List.append_assoc, skipSpace_blank blank, List.cons_append, skipSpace_cons visible]
  simp only [Json.value?, skipped, h.valueLength? room apart, Option.map_some, List.take_left,
    List.drop_left]

/-! ## Containers are split into their parts -/

/-- The text is read as a part of a container, up to white space behind it. -/
structure Reads {α : Type} (part? : List Char → Option (α × List Char)) (text : List Char)
    (part : α) : Prop where
  /-- It does not end the container. -/
  opens : ∃ before c rest, text = before ++ c :: rest ∧ IsBlank before ∧ isSpace c = false ∧
    c ≠ ']' ∧ c ≠ '}'
  read : ∃ after, IsBlank after ∧ ∀ c ∈ [',', '}', ']'], ∀ rest,
    part? (text ++ c :: rest) = some (part, after ++ c :: rest)

/-- Behind white space and a separator no number goes on. -/
theorem apart_of_blank {after rest : List Char} {c : Char} (blank : IsBlank after)
    (separator : c ∈ [',', '}', ']']) :
    ∀ d ∈ (after ++ c :: rest).head?, isNumberChar d = false := by
  intro d first
  cases after with
  | nil =>
    obtain rfl : c = d := by simpa using first
    simp only [List.mem_cons, List.not_mem_nil, or_false] at separator
    rcases separator with rfl | rfl | rfl <;> rfl
  | cons e after =>
    obtain rfl : e = d := by simpa using first
    have space := blank e (by simp)
    simp only [isSpace, Bool.or_eq_true, beq_iff_eq] at space
    rcases space with ((rfl | rfl) | rfl) | rfl <;> rfl

/-- An element is read as its value. -/
theorem Spells.reads_value {n : Nat} {before cs after : List Char} (h : Spells .value n cs)
    (room : (n : Int) < maxLevel) (blank : IsBlank before) (blank' : IsBlank after) :
    Reads Json.value? (before ++ cs ++ after) cs where
  opens := by
    obtain ⟨c, rest, rfl, visible, opens⟩ := h.exists_cons
    exact ⟨before, c, rest ++ after, by simp, blank, visible, opens⟩
  read := by
    refine ⟨after, blank', fun c separator rest => ?_⟩
    rw [List.append_assoc (before ++ cs)]
    exact h.value? room blank (apart_of_blank blank' separator)

/-- A member is read as its name and its value. -/
theorem Spells.reads_named {n : Nat} {before name after inner cs last : List Char}
    {pieces : List Piece} (h : Spells .value n cs) (room : (n : Int) < maxLevel)
    (read : ∀ rest, pieces? (name ++ '"' :: rest) = some (pieces, rest)) (blank : IsBlank before)
    (blankAfter : IsBlank after) (blankInner : IsBlank inner) (blankLast : IsBlank last) :
    Reads member? (before ++ '"' :: name ++ '"' :: after ++ ':' :: (inner ++ cs ++ last))
      (String.ofList (assemble pieces), cs) where
  opens := ⟨before, '"', name ++ '"' :: after ++ ':' :: (inner ++ cs ++ last), by simp, blank,
    by decide⟩
  read := by
    refine ⟨last, blankLast, fun c separator rest => ?_⟩
    have split :
        before ++ '"' :: name ++ '"' :: after ++ ':' :: (inner ++ cs ++ last) ++ c :: rest =
        before ++ '"' ::
          (name ++ '"' :: (after ++ ':' :: (inner ++ cs ++ (last ++ c :: rest)))) := by
      simp
    have quote (tail : List Char) : skipSpace (before ++ '"' :: tail) = '"' :: tail := by
      rw [skipSpace_blank blank, skipSpace_cons (by decide)]
    have colon (tail : List Char) : skipSpace (after ++ ':' :: tail) = ':' :: tail := by
      rw [skipSpace_blank blankAfter, skipSpace_cons (by decide)]
    have apart : ∀ d ∈ (last ++ c :: rest).head?, isNumberChar d = false :=
      apart_of_blank blankLast separator
    have found := h.value? room blankInner apart
    rw [split]
    simp only [member?, name?, quote, stringBody?, read, colon, found, Option.map_some,
      Option.bind_eq_bind, Option.bind_some]

theorem Spells.reads_member {n : Nat} {cs : List Char} (h : Spells .member n cs)
    (room : (n : Int) < maxLevel) : ∃ m, Reads member? cs m := by
  cases h with
  | member blank named blankAfter element =>
    cases element with
    | element blankInner value blankLast =>
      obtain ⟨pieces, read⟩ := named.pieces
      exact ⟨_, value.reads_named room read blank blankAfter blankInner blankLast⟩

section

variable {α : Type} {part? : List Char → Option (α × List Char)} {closing : Char}
  {texts : List (List Char)} {values : List α}

theorem partsUpTo_intercalate (ends : closing = '}' ∨ closing = ']')
    (each : List.Forall₂ (Reads part?) texts values) (some : texts ≠ []) {limit : Nat}
    (enough : texts.length ≤ limit) (rest : List Char) :
    partsUpTo closing part? limit ([','].intercalate texts ++ closing :: rest) =
      .some (values, rest) := by
  have separator : closing ∈ [',', '}', ']'] := by rcases ends with rfl | rfl <;> simp
  have visible : isSpace closing = false := by rcases ends with rfl | rfl <;> rfl
  have other : closing ≠ ',' := by rcases ends with rfl | rfl <;> decide
  induction each generalizing limit with
  | nil => contradiction
  | @cons text value texts values first more ih =>
    obtain ⟨after, blank, read⟩ := first.read
    obtain ⟨limit, rfl⟩ : ∃ fewer, limit = fewer + 1 := ⟨limit - 1, by simp at enough; omega⟩
    cases more with
    | nil =>
      have stop : skipSpace (after ++ closing :: rest) = closing :: rest := by
        rw [skipSpace_blank blank, skipSpace_cons visible]
      simp [partsUpTo, read closing separator, stop, other]
    | @cons next _ texts _ second more =>
      have comma (tail : List Char) : skipSpace (after ++ ',' :: tail) = ',' :: tail := by
        rw [skipSpace_blank blank, skipSpace_cons (by decide)]
      have fewer : (next :: texts).length ≤ limit := by simpa using enough
      have remaining := ih (by simp) fewer
      rw [List.intercalate_cons_cons]
      simp [partsUpTo, read ',' (by simp), comma, remaining]

/-- A container is split where its commas are. -/
theorem parts?_intercalate (ends : closing = '}' ∨ closing = ']')
    (each : List.Forall₂ (Reads part?) texts values) (some : texts ≠ []) (rest : List Char) :
    parts? closing part? ([','].intercalate texts ++ closing :: rest) = .some (values, rest) := by
  have enough : texts.length ≤ ([','].intercalate texts ++ closing :: rest).length := by
    have := length_le_length_intercalate texts
    simp only [List.length_append, List.length_cons]
    omega
  obtain ⟨c, tail, skipped, open'⟩ : ∃ c tail,
      skipSpace ([','].intercalate texts ++ closing :: rest) = c :: tail ∧ c ≠ closing := by
    cases each with
    | nil => contradiction
    | @cons text _ more _ first =>
      obtain ⟨before, c, tail, rfl, blank, visible, notArray, notObject⟩ := first.opens
      obtain ⟨others, joined⟩ :
          ∃ others, [','].intercalate ((before ++ c :: tail) :: more) = before ++ c :: others := by
        cases more with
        | nil => exact ⟨tail, by simp⟩
        | cons =>
          rw [List.intercalate_cons_cons, List.append_assoc, List.append_assoc]
          exact ⟨_, rfl⟩
      refine ⟨c, others ++ closing :: rest, ?_, ?_⟩
      · rw [joined, List.append_assoc, skipSpace_blank blank, List.cons_append,
          skipSpace_cons visible]
      · rcases ends with rfl | rfl
        · exact notObject
        · exact notArray
  rw [parts?, skipped]
  simp only [beq_iff_eq, open', if_false]
  exact partsUpTo_intercalate ends each some enough rest

theorem parts?_none {cs : List Char} {c : Char} {rest : List Char}
    (first : skipSpace cs = c :: rest) (opens : c ≠ closing) (unread : part? cs = none) :
    parts? closing part? cs = none := by
  have stops (limit : Nat) : partsUpTo closing part? limit cs = none := by
    cases limit <;> simp [partsUpTo, unread]
  simp [parts?, first, opens, stops]

theorem parts?_blank (ends : closing = '}' ∨ closing = ']') {blank : List Char}
    (inside : IsBlank blank) (rest : List Char) :
    parts? closing part? (blank ++ closing :: rest) = .some ([], rest) := by
  have visible : isSpace closing = false := by rcases ends with rfl | rfl <;> rfl
  simp [parts?, skipSpace_blank inside, skipSpace_cons visible]

end

theorem alone?_blank {α : Type} (value : α) {after : List Char} (blank : IsBlank after) :
    alone? (value, after) = some value := by
  have ended : skipSpace after = [] := by
    rw [← List.append_nil after, skipSpace_blank blank]
    rfl
  simp [alone?, ended]

theorem exists_forall₂ {α β : Type} {r : α → β → Prop} {xs : List α}
    (each : ∀ x ∈ xs, ∃ y, r x y) : ∃ ys, List.Forall₂ r xs ys := by
  induction xs with
  | nil => exact ⟨[], .nil⟩
  | cons x xs ih =>
    obtain ⟨y, first⟩ := each x (by simp)
    obtain ⟨ys, more⟩ := ih fun x member => each x (List.mem_cons_of_mem _ member)
    exact ⟨y :: ys, .cons first more⟩

theorem members?_braces (inside after : List Char) : members? ('{' :: inside ++ ['}'] ++ after) =
    (parts? '}' member? (inside ++ '}' :: after)).bind alone? := by
  simp [members?, skipSpace_cons (show isSpace '{' = false from rfl)]

/-- An object is split into its members. -/
theorem members?_intercalate {texts : List (List Char)} {members : List (String × Source)}
    (each : List.Forall₂ (Reads member?) texts members) (some : texts ≠ []) {after : List Char}
    (blank : IsBlank after) :
    members? ('{' :: [','].intercalate texts ++ ['}'] ++ after) = .some members := by
  rw [members?_braces, parts?_intercalate (.inl rfl) each some]
  exact alone?_blank members blank

/-- What an object reads as does not depend on the white space behind it. -/
theorem Spells.members? {n : Nat} {cs : List Char} (h : Spells .object n cs)
    (room : (n : Int) ≤ maxLevel) :
    ∃ members, ∀ after, IsBlank after → Json.members? (cs ++ after) = some members := by
  cases h with
  | emptyObject inside =>
    refine ⟨[], fun after blank => ?_⟩
    rw [members?_braces, parts?_blank (.inl rfl) inside]
    exact alone?_blank [] blank
  | @members n parts some each =>
    have read (part : List Char) (member : part ∈ parts) : ∃ m, Reads member? part m :=
      (each part member).reads_member (by omega)
    obtain ⟨members, all⟩ := exists_forall₂ read
    exact ⟨members, fun after => members?_intercalate all some⟩

theorem elements?_brackets (inside : List Char) : elements? ('[' :: inside ++ [']']) =
    (parts? ']' Json.value? (inside ++ [']'])).bind alone? := by
  simp [elements?, skipSpace_cons (show isSpace '[' = false from rfl)]

/-- An array of values is split into them. -/
theorem elements?_intercalate {texts values : List (List Char)}
    (each : List.Forall₂ (Reads Json.value?) texts values) (some : texts ≠ []) :
    elements? ('[' :: [','].intercalate texts ++ [']']) = .some values := by
  rw [elements?_brackets, parts?_intercalate (.inr rfl) each some]
  exact alone?_blank values .nil

end Pushdown.Json
