/-!
Operations and addressing modes. A word names its operation by its two low decimal digits and the
mode of each parameter by one further digit. Main statement: an operation's code reads back as the
operation, and no other number does.
-/

namespace IntcodeVM

inductive Opcode where
  | add
  | mul
  | input
  | output
  | jumpIfTrue
  | jumpIfFalse
  | lessThan
  | equals
  | adjustBase
  | halt
  deriving DecidableEq, Repr

namespace Opcode

def code : Opcode → Nat
  | add => 1
  | mul => 2
  | input => 3
  | output => 4
  | jumpIfTrue => 5
  | jumpIfFalse => 6
  | lessThan => 7
  | equals => 8
  | adjustBase => 9
  | halt => 99

def ofCode? : Nat → Option Opcode
  | 1 => some add
  | 2 => some mul
  | 3 => some input
  | 4 => some output
  | 5 => some jumpIfTrue
  | 6 => some jumpIfFalse
  | 7 => some lessThan
  | 8 => some equals
  | 9 => some adjustBase
  | 99 => some halt
  | _ => none

def paramCount : Opcode → Nat
  | add | mul | lessThan | equals => 3
  | jumpIfTrue | jumpIfFalse => 2
  | input | output | adjustBase => 1
  | halt => 0

def mnemonic : Opcode → String
  | add => "add"
  | mul => "mul"
  | input => "in"
  | output => "out"
  | jumpIfTrue => "jt"
  | jumpIfFalse => "jf"
  | lessThan => "lt"
  | equals => "eq"
  | adjustBase => "arb"
  | halt => "halt"

def all : List Opcode :=
  [add, mul, input, output, jumpIfTrue, jumpIfFalse, lessThan, equals, adjustBase, halt]

def ofMnemonic? (name : String) : Option Opcode :=
  all.find? fun op => op.mnemonic == name

theorem ofCode?_eq_some_iff {n : Nat} {op : Opcode} : ofCode? n = some op ↔ n = op.code := by
  constructor
  · unfold ofCode?
    split <;> rintro ⟨⟩ <;> rfl
  · rintro rfl
    cases op <;> rfl

end Opcode

inductive Mode where
  /-- The parameter is the operand's address. -/
  | position
  /-- The parameter's own cell is the operand. -/
  | immediate
  /-- The parameter is the operand's distance from the relative base. -/
  | relative
  deriving DecidableEq, Repr

namespace Mode

def digit : Mode → Nat
  | position => 0
  | immediate => 1
  | relative => 2

def ofDigit? : Nat → Option Mode
  | 0 => some position
  | 1 => some immediate
  | 2 => some relative
  | _ => none

def word : Mode → String
  | position => "position"
  | immediate => "immediate"
  | relative => "relative"

theorem ofDigit?_eq_some_iff {n : Nat} {mode : Mode} : ofDigit? n = some mode ↔ n = mode.digit := by
  constructor
  · unfold ofDigit?
    split <;> rintro ⟨⟩ <;> rfl
  · rintro rfl
    cases mode <;> rfl

end Mode

end IntcodeVM
