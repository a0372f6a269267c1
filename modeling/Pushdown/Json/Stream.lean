import Pushdown.Json.Source
import Pushdown.Text.Bytes

/-!
# Streams

A stream of bytes is read through a buffer, which is filled in blocks. A zero byte in the buffer
is where the block ends, so it asks for the next block, which then takes its place; a zero byte of
the stream itself does the same, and what is left of its block is lost. The end of the stream is a
block without bytes.
-/

namespace Pushdown.Json

structure Stream where
  /-- The buffer from the place of reading on. -/
  ahead : List UInt8
  /-- The number of bytes in the buffer before the place of reading. -/
  passed : Nat := 0
  /-- The number of bytes in the buffer that have been filled in. -/
  filled : Nat := 0
  /-- The number of bytes that the buffer was made with. -/
  size : Nat
  /-- Whether the last block took all the room there was. -/
  full : Bool := false
  ended : Bool := false
  unread : List UInt8
  /-- No loop over the stream takes more steps than this. -/
  budget : Nat

namespace Stream

/-- The number of bytes in the first buffer. -/
def firstSize : Nat := 512

/-- A stream before anything of it has been read. -/
def ofBytes (bytes : List UInt8) : Stream :=
  { ahead := List.replicate firstSize 0
    size := firstSize
    unread := bytes
    budget := 2 * bytes.length + firstSize }

/-- Make a full buffer twice as large. -/
def grow (s : Stream) : Stream :=
  if s.full then
    { s with
      size := 2 * s.size
      ahead := s.ahead ++ List.replicate (2 * s.size - (s.passed + s.ahead.length)) 0 }
  else s

/-- Read the next block, unless the stream has ended. It goes behind the bytes that are left, and
the last byte of the buffer stays zero. -/
def next? (s : Stream) : Option Stream :=
  if s.ended then none
  else
    let s := s.grow
    let kept := (s.ahead.take (s.filled - s.passed)).takeWhile (· != 0)
    let room := s.ahead.length - kept.length - 1
    let block := s.unread.take room
    let rest := s.ahead.drop (kept.length + block.length)
    some { s with
      ahead := kept ++ block ++ rest.take (room - block.length) ++ [0]
      filled := s.passed + kept.length + block.length
      full := block.length == room
      ended := s.unread.isEmpty
      unread := s.unread.drop room }

/-- The byte at the place of reading. -/
def peek (s : Stream) : UInt8 := s.ahead.headD 0

/-- Move on by some bytes. -/
def skip (s : Stream) (n : Nat := 1) : Stream :=
  { s with ahead := s.ahead.drop n, passed := s.passed + n }

/-- Put bytes in place of an escape: of the backslash before the place of reading, and of `taken`
bytes behind it. -/
def unescape (s : Stream) (taken put : Nat) : Stream :=
  { s with
    ahead := s.ahead.drop taken
    passed := s.passed - 1 + put
    filled := s.filled + put - (taken + 1) }

/-- Let the buffer start at the place of reading. -/
def forget (s : Stream) : Stream := { s with passed := 0, filled := s.filled - s.passed }

def isSpaceByte (b : UInt8) : Bool := b == 0x20 || b == 0x09 || b == 0x0A || b == 0x0D

/-- Move on to the next byte that is no white space. -/
def skipSpaceUpTo : (limit : Nat) → Stream → Stream
  | 0, s => s
  | limit + 1, s =>
    if isSpaceByte s.peek then skipSpaceUpTo limit s.skip
    else if s.peek != 0 then s
    else
      match s.next? with
      | some s => skipSpaceUpTo limit s
      | none => s

def skipSpace (s : Stream) : Stream := skipSpaceUpTo s.budget s

/-- Read blocks until more than `n` bytes are there. -/
def ensureUpTo (n : Nat) : (limit : Nat) → Stream → Option Stream
  | 0, _ => none
  | limit + 1, s =>
    if s.passed + n < s.filled then some s
    else do ensureUpTo n limit (← s.next?)

def ensure? (s : Stream) (n : Nat) : Option Stream := ensureUpTo n s.budget s

/-- Step behind a word, whose first letter is already known. A letter that a block ends before counts
as read. -/
def afterWord? (s : Stream) (letters : String) : Option Stream :=
  (letters.toList.foldlM (fun s letter =>
    let s := s.skip
    if s.peek == letter.toNat.toUInt8 then some s
    else if s.peek == 0 then s.next?
    else none) s).map skip

end Stream

/-! ## Strings -/

/-- The value of a hexadecimal digit; anything else counts as zero. -/
def hexByte (b : UInt8) : Nat := (hexValue? (Char.ofNat b.toNat)).getD 0

/-- The code of four hexadecimal digits. -/
def hexCode (digits : List UInt8) : Nat := digits.foldl (fun n b => n * 16 + hexByte b) 0

/-- The bytes of an escaped code from its letter on, with the number of bytes that it takes. Two
halves are one character if the second follows the first. -/
def codeBytes? (s : Stream) : Option (List UInt8 × Nat × Stream) := do
  let s ← s.ensure? 5
  let code := hexCode ((s.ahead.drop 1).take 4)
  let alone (s : Stream) (c : Char) : List UInt8 × Nat × Stream := (String.utf8EncodeChar c, 5, s)
  if isHighHalf code || isLowHalf code then
    match s.ensure? 11 with
    | none => some (alone s Text.replacement)
    | some s =>
      let partner := s.ahead.drop 5
      let second := hexCode ((partner.drop 2).take 4)
      match partner, pair? code second with
      | 0x5C :: 0x75 :: _, some c => some (String.utf8EncodeChar c, 11, s)
      | _, _ => some (alone s Text.replacement)
  else some (alone s (Char.ofNat code))

/-- The bytes that an escape stands for, from behind its backslash. -/
def escapeUpTo : (limit : Nat) → Stream → Option (List UInt8 × Stream)
  | 0, _ => none
  | limit + 1, s =>
    match Char.ofNat s.peek.toNat with
    | 'u' => do
      let (bytes, taken, s) ← codeBytes? s
      some (bytes, s.unescape taken bytes.length)
    | letter =>
      if s.peek == 0 then do escapeUpTo limit (← s.next?)
      else (escaped? letter).map fun c => ([c.toNat.toUInt8], s.unescape 1 1)

/-- The bytes that an escape stands for, from its backslash on. -/
def escape? (s : Stream) : Option (List UInt8 × Stream) := escapeUpTo s.budget s.skip

/-- The bytes of a string up to its closing quote, in front of which are those of `front`, in
reverse. -/
def stringUpTo (front : List UInt8) : (limit : Nat) → Stream → Option (List UInt8 × Stream)
  | 0, _ => none
  | limit + 1, s =>
    match s.peek with
    | 0x22 => some (front.reverse, s.skip)
    | 0x5C => do
      let (bytes, s) ← escape? s
      stringUpTo (bytes.reverse ++ front) limit s
    | 0 => do stringUpTo front limit (← s.next?)
    | byte => stringUpTo (byte :: front) limit s.skip

/-- Whether a character is all there, or can be seen to be none. -/
def isWholeChar : List UInt8 → Bool
  | [] => false
  | a :: rest =>
    let needed :=
      if a < 0xC2 || 0xF5 ≤ a then 0 else if a < 0xE0 then 1 else if a < 0xF0 then 2 else 3
    needed ≤ rest.length || (rest.take needed).any (!Text.isContinuation ·)

/-- The bytes of a name up to its closing quote. What is no character is replaced. -/
def nameUpTo (front : List UInt8) : (limit : Nat) → Stream → Option (List UInt8 × Stream)
  | 0, _ => none
  | limit + 1, s =>
    match s.peek with
    | 0x22 => some (front.reverse, s.skip)
    | 0x5C => do
      let (bytes, s) ← escape? s
      nameUpTo (bytes.reverse ++ front) limit s
    | 0 => do nameUpTo front limit (← s.next?)
    | byte =>
      if byte < 0x80 then nameUpTo (byte :: front) limit s.skip
      else if !isWholeChar (s.ahead.take 5).dropLast then do nameUpTo front limit (← s.next?)
      else
        match Text.firstChar? s.ahead with
        | some (c, _) =>
          let bytes := String.utf8EncodeChar c
          nameUpTo (bytes.reverse ++ front) limit (s.skip bytes.length)
        | none =>
          let bytes := String.utf8EncodeChar Text.replacement
          let after := { s.skip with passed := s.passed + 3, filled := s.filled + 3 }
          nameUpTo (bytes.reverse ++ front) limit after

/-- A string from behind its opening quote. -/
def Stream.string? (s : Stream) : Option (String × Stream) :=
  (stringUpTo [] s.budget s).map fun (bytes, s) => (Text.ofBytes bytes, s)

/-- The name of a member. The word `null` is an empty name. -/
def Stream.name? (s : Stream) : Option (String × Stream) :=
  let s := s.skipSpace
  match s.peek with
  | 0x22 => (nameUpTo [] s.budget s.skip).map fun (bytes, s) => (Text.ofBytes bytes, s.forget)
  | 0x6E => (s.afterWord? "ull").map fun s => ("", s)
  | _ => none

end Pushdown.Json
