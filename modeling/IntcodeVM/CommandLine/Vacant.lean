import IntcodeVM.CommandLine.Arguments
import IntcodeVM.Diagnostic

/-!
Vacant amounts among numbers. A vacant amount can be kept in a cell, moved, repeated, tested for
being another one and written as `[]`, but it has no place among the numbers: it is not added to
one, not compared by size and leads to no address. So that machines can hold both, amounts are coded
as numbers. Main statement: the code is one to one, and numbers keep their order.
-/

namespace IntcodeVM.CommandLine

/-- The code of a vacant amount: the least number that is too long to be written. -/
def hole : Int := Text.illegible

def isVacant (code : Int) : Bool := code == hole

namespace Amount

/-- Numbers stand for themselves, but from the hole on they move up by one to make room for it. -/
def code : Amount → Int
  | number n => if n < hole then n else n + 1
  | vacant => hole

def ofCode (code : Int) : Amount :=
  if code < hole then number code
  else if code = hole then vacant
  else number (code - 1)

theorem ofCode_code (a : Amount) : ofCode a.code = a := by
  cases a with
  | number n =>
    by_cases h : n < hole
    · simp [code, ofCode, h]
    · simp [code, ofCode, h, show ¬n + 1 < hole by omega, show n + 1 ≠ hole by omega]
  | vacant => simp [code, ofCode]

theorem code_ofCode (c : Int) : (ofCode c).code = c := by
  by_cases h : c < hole
  · simp [code, ofCode, h]
  · by_cases hc : c = hole
    · simp [code, ofCode, hc]
    · simp [code, ofCode, h, hc, show ¬c - 1 < hole by omega]

theorem code_lt_code_iff {m n : Int} : (number m).code < (number n).code ↔ m < n := by
  by_cases hm : m < hole <;> by_cases hn : n < hole <;> simp [code, hm, hn] <;> omega

end Amount

def codedMemory (m : Memory) : Memory := m.map fun n => (Amount.number n).code

/-- A run of characters in a text with codes, and the character before it, as it is shown. -/
def showRun (before : Option Char) (run : List Char) : Option (List Char) :=
  if !Text.isLongNumeral run then some run
  else if run = Text.decimal hole ∧ before ≠ some '-' then some ['[', ']']
  else none

/-- A text with codes, with vacant amounts as they are shown, if all its numbers can be written. -/
def showVacant? (text : String) : Option String :=
  if text.length ≤ Text.digitLimit then some text
  else
    let runs := Text.digitRuns text.toList
    let befores := none :: runs.map List.getLast?
    let shown? := (befores.zip runs).mapM fun (before, run) => showRun before run
    shown?.map fun shown => String.ofList shown.flatten

def written? (vacant : Bool) (text : String) : Option String :=
  if vacant then showVacant? text else if Text.isLegibleText text then some text else none

inductive Misuse where
  /-- A vacant amount is not below a number. -/
  | below
  /-- A number is not below a vacant amount. -/
  | above
  /-- A vacant amount does not exceed a number. -/
  | exceeding
  /-- A number does not exceed a vacant amount. -/
  | exceeded
  /-- A number is not at most a vacant amount. -/
  | atMost
  /-- A vacant amount is not at least a number. -/
  | atLeast
  | addedTo
  | added
  | shifted
  | multiplied
  | repeatedTooOften
  | divided
  | lookedUp
  | aligned
  | path
  deriving DecidableEq, Repr

def Misuse.message : Misuse → String
  | below => "'<' not supported between instances of 'list' and 'int'"
  | above => "'<' not supported between instances of 'int' and 'list'"
  | exceeding => "'>' not supported between instances of 'list' and 'int'"
  | exceeded => "'>' not supported between instances of 'int' and 'list'"
  | atMost => "'<=' not supported between instances of 'int' and 'list'"
  | atLeast => "'>=' not supported between instances of 'list' and 'int'"
  | addedTo => "can only concatenate list (not \"int\") to list"
  | added => "unsupported operand type(s) for +: 'int' and 'list'"
  | shifted => "unsupported operand type(s) for +=: 'int' and 'list'"
  | multiplied => "can't multiply sequence by non-int of type 'list'"
  | repeatedTooOften => "cannot fit 'int' into an index-sized integer"
  | divided => "unsupported operand type(s) for %: 'list' and 'int'"
  | lookedUp => "unhashable type: 'list'"
  | aligned => "unsupported format string passed to list.__format__"
  | path => "expected str, bytes or os.PathLike object, not list"

def Misuse.diagnostic (m : Misuse) : Diagnostic :=
  if m = .repeatedTooOften then .overflow m.message else .mismatch m.message

end IntcodeVM.CommandLine
