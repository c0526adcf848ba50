import IntcodeVM.Diagnostic
import IntcodeVM.Text.Numeral
import IntcodeVM.Text.Quoted
import IntcodeVM.Text.Utf8

/-!
Programs as text: signed decimal integers between commas, with blanks around them. Only ASCII digits
count, and at most one sign. Numbers are read up to the number of digits that are written.
-/

namespace IntcodeVM.ProgramText

inductive Problem where
  | emptyProgram
  | missingValue
  | notAnInteger (token : List Char)
  /-- A well-formed number of more digits than are read. -/
  | tooManyDigits (count : Nat)
  | notUtf8 (position : Nat)
  deriving DecidableEq, Repr

/-- A problem and the number of the piece that has it, counted from zero. -/
structure LoadError where
  index : Nat
  problem : Problem
  deriving DecidableEq, Repr

def Problem.message : Problem → String
  | emptyProgram => "Empty program"
  | missingValue => "Missing value"
  | notAnInteger token => "Not an integer: " ++ String.ofList (Text.quoted token)
  | tooManyDigits count => Text.excessMessage count
  | notUtf8 position => s!"Not UTF-8 text: byte {position}"

def Problem.isMalformed : Problem → Bool
  | tooManyDigits _ => false
  | _ => true

/-- Only what is malformed is reported with its place in the text. -/
def LoadError.diagnostic (e : LoadError) : Diagnostic :=
  if e.problem.isMalformed then .load e.index e.problem.message else .badValue e.problem.message

def natural? (text : List Char) : Option Nat :=
  if text.isEmpty then none
  else text.foldlM (fun value c => (Text.asciiDigit? c).map (value * 10 + ·)) 0

def word (token : List Char) : Except Problem Int :=
  if token.isEmpty then .error .missingValue
  else match Text.signed? natural? token with
    | none => .error (.notAnInteger token)
    | some value =>
      match Text.excess? (token.countP Char.isDigit) with
      | some count => .error (.tooManyDigits count)
      | none => .ok value

/-- Reads pieces in order; the first that is no integer is reported with its number. -/
def wordsFrom (index : Nat) : List (List Char) → Except LoadError (List Int)
  | [] => .ok []
  | piece :: rest =>
    match word (Text.strip piece) with
    | .error problem => .error ⟨index, problem⟩
    | .ok value => (wordsFrom (index + 1) rest).map (value :: ·)

def parse (text : List Char) : Except LoadError (List Int) :=
  let stripped := Text.strip text
  if stripped.isEmpty then .error ⟨0, .emptyProgram⟩
  else wordsFrom 0 (Text.pieces ',' stripped)

def decode (bytes : List UInt8) : Except LoadError (List Char) :=
  match Text.decodeUtf8 bytes with
  | .ok text => .ok (Text.unifyLineEnds text)
  | .error e => .error ⟨0, .notUtf8 e.position⟩

def render (words : List Int) : List Char :=
  Text.commaSeparated words ++ ['\n']

end IntcodeVM.ProgramText
