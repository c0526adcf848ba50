import IntcodeVM.Instruction
import IntcodeVM.Text.Numeral

namespace IntcodeVM

structure Operand where
  mode : Mode
  value : Int
  deriving DecidableEq, Repr

def Mode.mark : Mode → List Char
  | .position => []
  | .immediate => ['#']
  | .relative => ['@']

def Mode.ofMark? : Char → Option Mode
  | '#' => some .immediate
  | '@' => some .relative
  | _ => none

def Operand.text (o : Operand) : List Char :=
  o.mode.mark ++ Text.decimal o.value

namespace Instruction

def headWord (op : Opcode) (modes : List Mode) : Nat :=
  modes.zipIdx.foldl (fun word (mode, index) => word + mode.digit * Nat.pow 10 (index + 2)) op.code

def words (i : Instruction Operand) : List Int :=
  headWord i.opcode (i.toList.map Operand.mode) :: i.toList.map Operand.value

/-- The mnemonic and the operands between commas, each after a space. -/
def text (i : Instruction Operand) : List Char :=
  i.opcode.mnemonic.toList ++ Text.glue ',' (i.toList.map fun o => ' ' :: o.text)

end Instruction

end IntcodeVM
