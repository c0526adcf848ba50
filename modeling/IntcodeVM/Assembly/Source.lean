import IntcodeVM.Operand
import IntcodeVM.Text.Lowercase
import IntcodeVM.Text.Numeral

/-!
Assembly text as lines. A line may define labels and may hold one statement after them; a semicolon
starts a comment. Here a line is only taken apart: nothing is looked up, and only an unknown
mnemonic is refused.
-/

namespace IntcodeVM.Assembly

inductive Problem where
  | duplicateLabel (label : List Char)
  | unknownMnemonic (name : List Char)
  | noData
  | operandCount (op : Opcode) (given : Nat)
  | missingOperand
  | badValue (token : List Char)
  deriving DecidableEq, Repr

def Problem.message : Problem → String
  | duplicateLabel label => "Duplicate label: " ++ String.ofList label
  | unknownMnemonic name => "Unknown mnemonic: " ++ String.ofList name
  | noData => ".data needs at least one value"
  | operandCount op given => s!"{op.mnemonic} takes {op.paramCount} operand(s), got {given}"
  | missingOperand => "Missing operand after mode prefix"
  | badValue token => "Unknown label or bad number: " ++ String.ofList token

structure AssemblyError where
  line : Nat
  problem : Problem
  deriving DecidableEq, Repr

inductive Keyword where
  | data
  | op (opcode : Opcode)
  deriving DecidableEq, Repr

def Keyword.ofName? (name : List Char) : Option Keyword :=
  if name = ['.', 'd', 'a', 't', 'a'] then some .data
  else (Opcode.ofMnemonic? (String.ofList name)).map .op

structure Statement where
  line : Nat
  text : List Char
  keyword : Keyword
  operands : List (List Char)
  deriving DecidableEq, Repr

def Statement.size (s : Statement) : Nat :=
  match s.keyword with
  | .data => s.operands.length
  | .op op => op.paramCount + 1

/-- A line without its comment and outer blanks, cut at the colons after its labels. -/
structure Line where
  number : Nat
  labels : List (List Char)
  text : List Char
  deriving DecidableEq, Repr

/-- Letters, digits, underscores and dots, not starting with a digit or a dot. -/
def isLabel : List Char → Bool
  | [] => false
  | c :: rest =>
    (c.isAlpha || c == '_') && rest.all fun d => d.isAlphanum || d == '_' || d == '.'

def leadingLabels : List (List Char) → List (List Char) × List (List Char)
  | piece :: next :: more =>
    if isLabel (Text.strip piece) then
      let (labels, rest) := leadingLabels (next :: more)
      (Text.strip piece :: labels, rest)
    else ([], piece :: next :: more)
  | rest => ([], rest)

def Line.ofRaw (number : Nat) (raw : List Char) : Line :=
  let (labels, rest) := leadingLabels (Text.pieces ':' (Text.before ';' raw))
  ⟨number, labels, Text.strip (Text.glue ':' rest)⟩

def sourceLines (source : List Char) : List Line :=
  ((Text.pieces '\n' source).zipIdx 1).map fun (raw, number) => .ofRaw number raw

def operandTokens (text : List Char) : List (List Char) :=
  ((Text.pieces ',' text).map Text.strip).filter (!·.isEmpty)

def Line.statement? (line : Line) : Except AssemblyError (Option Statement) :=
  if line.text.isEmpty then .ok none
  else
    let (first, rest) := Text.splitFirstWord line.text
    let name := Text.lowercase first
    match Keyword.ofName? name with
    | none => .error ⟨line.number, .unknownMnemonic name⟩
    | some keyword => .ok (some ⟨line.number, line.text, keyword, operandTokens rest⟩)

end IntcodeVM.Assembly
