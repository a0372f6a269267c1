import Pushdown.Text.CaseTable

/-!
# Upper and lower case

`upper` and `lower` change each character on its own and keep the number of characters;
names of functions, types and dialects are compared after `upper`. `upperFully` also
expands the characters whose capital form is longer, and is used for reserved words.
-/

namespace Pushdown.Text

/-- Whether the run holds the character code `n`. -/
def CaseRun.contains (run : CaseRun) (n : Nat) : Bool :=
  run.first ≤ n && n ≤ run.last && (n - run.first) % run.step == 0

/-- Move `c` as the first run that holds it says. -/
def shiftCase (runs : List CaseRun) (c : Char) : Char :=
  match runs.find? (·.contains c.toNat) with
  | some run => Char.ofNat (c.toNat + run.shift).toNat
  | none => c

/-- Whether `c` is one of the 128 ASCII characters. -/
def isAscii (c : Char) : Bool := c.toNat < 0x80

def upperChar (c : Char) : Char :=
  if isAscii c then c.toUpper else shiftCase (upperRuns ++ recentUpperRuns) c

def lowerChar (c : Char) : Char :=
  if isAscii c then c.toLower else shiftCase (lowerRuns ++ recentLowerRuns) c

/-- Capital letters, one for each character. -/
def upper (s : String) : String := String.ofList (s.toList.map upperChar)

/-- Small letters, one for each character. -/
def lower (s : String) : String := String.ofList (s.toList.map lowerChar)

/-- The complete capital form of one character. -/
def capitals (c : Char) : List Char :=
  if isAscii c then [c.toUpper]
  else
    match longCapitals.lookup c.toNat with
    | some codes => codes.map Char.ofNat
    | none => [shiftCase upperRuns c]

/-- Capital letters, where one character may become several. -/
def upperFully (s : String) : String := String.ofList (s.toList.flatMap capitals)

end Pushdown.Text
