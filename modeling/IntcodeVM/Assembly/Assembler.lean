import IntcodeVM.Assembly.Layout
import IntcodeVM.Diagnostic

/-!
The assembler: statements become words, one after the other, with the labels of the whole source.
What was emitted before an error is kept, so that a listing can show it.
-/

namespace IntcodeVM.Assembly

/-- A number or a label; a text that reads as a number is one. -/
def value (labels : Labels) (token : List Char) : Except Problem Int :=
  match Text.integer? token with
  | some n => .ok n
  | none =>
    match labels.find? token with
    | some address => .ok address
    | none => .error (.badValue token)

def markedOperand (labels : Labels) (mode : Mode) (rest : List Char) : Except Problem Operand :=
  let token := Text.strip rest
  if token.isEmpty then .error .missingOperand else (value labels token).map (⟨mode, ·⟩)

def operand (labels : Labels) : List Char → Except Problem Operand
  | [] => .error (.badValue [])
  | c :: rest =>
    match Mode.ofMark? c with
    | some mode => markedOperand labels mode rest
    | none => (value labels (c :: rest)).map (⟨.position, ·⟩)

def encode (labels : Labels) (s : Statement) : Except Problem (List Int) :=
  match s.keyword with
  | .data => if s.operands.isEmpty then .error .noData else s.operands.mapM (value labels)
  | .op op =>
    match Instruction.ofList? op s.operands with
    | none => .error (.operandCount op s.operands.length)
    | some i => (i.mapM (operand labels)).map Instruction.words

structure Emitted where
  placed : Placed
  words : List Int
  deriving DecidableEq, Repr

structure Progress where
  emitted : List Emitted := []
  error : Option AssemblyError := none
  deriving DecidableEq, Repr

def emit (labels : Labels) : List Placed → Progress
  | [] => {}
  | p :: rest =>
    match encode labels p.statement with
    | .error problem => { error := some ⟨p.statement.line, problem⟩ }
    | .ok words =>
      let progress := emit labels rest
      { progress with emitted := ⟨p, words⟩ :: progress.emitted }

def progress (source : List Char) : Progress :=
  match layout source with
  | .error e => { error := some e }
  | .ok l => emit l.labels l.statements

def assemble (source : List Char) : Except AssemblyError (List Int) :=
  let p := progress source
  match p.error with
  | some e => .error e
  | none => .ok (p.emitted.flatMap Emitted.words)

/-- The line of a listing; the text of the statement is shown as it is. -/
def Emitted.line? (e : Emitted) : Option String :=
  Text.lineOf? e.words <|
    "  " ++ Text.alignRight 5 (toString e.placed.address) ++ ": " ++
      Text.alignLeft 28 (String.ofList (Text.commaSeparated e.words)) ++ " " ++
      String.ofList e.placed.statement.text

def Progress.listing (p : Progress) : List (Option String) :=
  p.emitted.map Emitted.line?

def AssemblyError.diagnostic (e : AssemblyError) : Diagnostic :=
  .assembly e.line e.problem.message

end IntcodeVM.Assembly
