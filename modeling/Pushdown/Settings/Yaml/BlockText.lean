import Pushdown.Settings.Yaml.ScalarText

/-!
# Scalars in blocks

The text of a scalar that is written as indented lines below a bar, which keeps its line ends, or
below an angle bracket, which folds them where neither line starts with a blank.
-/

namespace Pushdown.Yaml

/-- How a block is written. -/
structure BlockStyle where
  isFolded : Bool
  /-- Whether the line ends at the end are all kept, or none. One is kept if nothing is said. -/
  keepsEnd : Option Bool := none
  /-- How far the lines are indented, if the first line does not decide that. -/
  indent : Option Nat := none

/-- The mark for the line ends at the end. -/
def endMark? (c : Char) : Option Bool :=
  if c == '+' then some true else if c == '-' then some false else none

/-- The style with the marks behind the bar or angle bracket, and the place behind them. -/
def BlockStyle.read? (style : BlockStyle) (c : Cursor) : Option (BlockStyle × Cursor) :=
  let withEnd (style : BlockStyle) (c : Cursor) : BlockStyle × Cursor :=
    match c.rest.head?.bind endMark? with
    | some keeps => ({ style with keepsEnd := some keeps }, c.skip 1)
    | none => (style, c)
  let (style, c) := withEnd style c
  match c.rest.head? with
  | some digit =>
    if digit == '0' then none
    else if digit.isDigit then
      let style := { style with indent := some (digit.toNat - '0'.toNat) }
      some (if style.keepsEnd.isNone then withEnd style (c.skip 1) else (style, c.skip 1))
    else some (style, c)
  | none => some (style, c)

/-- Lines without content: their line ends, the length of the longest, and the place of the first
character that is not part of them. Only the first `indent` columns are part of them, if that is
known. -/
def emptyLines? (indent : Option Nat) (longest line column : Nat) :
    List Char → Option (List Char × Nat × Cursor)
  | [] => some ([], max longest column, ⟨[], line, column⟩)
  | c :: rest =>
    let isIndent := indent.all (column < ·)
    if isIndent && c == ' ' then emptyLines? indent longest line (column + 1) rest
    else if isIndent && c == '\t' then none
    else if isBreak c then
      (emptyLines? indent (max longest column) (line + 1) 0 rest).map fun (breaks, more) =>
        (breakText c :: breaks, more)
    else some ([], max longest column, ⟨c :: rest, line, column⟩)

/-- The end of the line before, the empty lines behind it, and whether it started with a blank. -/
structure BlockGap where
  lineEnd : List Char := []
  empty : List Char := []
  isAfterBlank : Bool := false

/-- The text that a gap counts as in front of a line. -/
def BlockGap.text (gap : BlockGap) (isFolded isBeforeBlank : Bool) : List Char :=
  if isFolded && !gap.isAfterBlank && !isBeforeBlank && gap.lineEnd == ['\n'] then
    if gap.empty.isEmpty then [' '] else gap.empty
  else gap.lineEnd ++ gap.empty

/-- The text that a gap counts as at the end of a block. -/
def BlockGap.endText (gap : BlockGap) : Option Bool → List Char
  | some false => []
  | none => gap.lineEnd
  | some true => gap.lineEnd ++ gap.empty

/-- The lines of a block, of which there are at most `limit`. -/
def blockLines? (style : BlockStyle) (indent : Nat) :
    (limit : Nat) → BlockGap → Cursor → Option (List Char × Cursor)
  | 0, _, _ => none
  | limit + 1, gap, c =>
    if c.column != indent || c.rest.isEmpty then some (gap.endText style.keepsEnd, c)
    else do
      let startsBlank := c.rest.head?.any isBlank
      let content := c.rest.takeWhile (!isBreak ·)
      let lineEnd := c.skipLine
      let next := lineEnd.skipBreak
      let (empty, _, next) ← emptyLines? (some indent) 0 next.line next.column next.rest
      let after : BlockGap :=
        ⟨(lineEnd.rest.head?.map breakText).toList, empty, startsBlank⟩
      prepend (gap.text style.isFolded startsBlank ++ content)
        (blockLines? style indent limit after next)

/-- The text of a scalar in a block, from behind its bar or angle bracket. `outer` is the least
indentation of what is inside the collection around it. -/
def blockScalar? (isFolded : Bool) (outer : Nat) (c : Cursor) : Scanned := do
  let (style, c) ← BlockStyle.read? { isFolded } c
  let c := c.skipComment.skipWhile isBlank
  if c.rest.head?.any (!isBreak ·) then none
  else
    let c := c.skipBreak
    let indent? := style.indent.map (outer - 1 + ·)
    let (empty, longest, next) ← emptyLines? indent? 0 c.line c.column c.rest
    let indent := indent?.getD (max longest (max outer 1))
    blockLines? style indent (next.rest.length + 1) { empty } next

end Pushdown.Yaml
