/-!
# Bytes of a text

A text is stored as UTF-8. Bytes that have been put together need not be a text again: an escape
without the four digits that it should have can cut a character, in a document that does not follow
the grammar. A byte that belongs to no character is read as the replacement character.
-/

namespace Pushdown.Text

/-- The character that stands for what cannot be read. -/
def replacement : Char := Char.ofNat 0xFFFD

/-- The bytes of a text. -/
def bytes (cs : List Char) : List UInt8 := cs.flatMap String.utf8EncodeChar

/-- Whether a byte continues a character. -/
def isContinuation (byte : UInt8) : Bool := 0x80 ≤ byte && byte ≤ 0xBF

/-- The value of the last six bits of a byte. -/
def lowBits (byte : UInt8) : Nat := byte.toNat % 64

/-- A character code that has to lie above `least`, which fewer bytes could have written. -/
def codeAbove? (least code : Nat) : Option Char :=
  if least ≤ code ∧ code.isValidChar then some (Char.ofNat code) else none

/-- The character at the start of some bytes, and the bytes that follow it. -/
def firstChar? : List UInt8 → Option (Char × List UInt8)
  | [] => none
  | a :: rest =>
    if a < 0x80 then some (Char.ofNat a.toNat, rest)
    else
      match rest with
      | b :: rest =>
        if !isContinuation b then none
        else if 0xC0 ≤ a && a < 0xE0 then
          (codeAbove? 0x80 (a.toNat % 32 * 64 + lowBits b)).map fun c => (c, rest)
        else
          match rest with
          | c :: rest =>
            if !isContinuation c then none
            else if 0xE0 ≤ a && a < 0xF0 then
              (codeAbove? 0x800 ((a.toNat % 16 * 64 + lowBits b) * 64 + lowBits c)).map fun c =>
                (c, rest)
            else
              match rest with
              | d :: rest =>
                if isContinuation d && 0xF0 ≤ a && a < 0xF8 then
                  (codeAbove? 0x10000
                    (((a.toNat % 8 * 64 + lowBits b) * 64 + lowBits c) * 64 + lowBits d)).map
                      fun c => (c, rest)
                else none
              | [] => none
          | [] => none
      | [] => none

/-- The text of at most `limit` bytes. -/
def charsUpTo : (limit : Nat) → List UInt8 → List Char
  | 0, _ => []
  | _, [] => []
  | limit + 1, byte :: rest =>
    match firstChar? (byte :: rest) with
    | some (c, rest) => c :: charsUpTo limit rest
    | none => replacement :: charsUpTo limit rest

/-- The text that some bytes are. -/
def ofBytes (bytes : List UInt8) : String := String.ofList (charsUpTo bytes.length bytes)

end Pushdown.Text
