import IntcodeVM.Fault

/-!
Instructions over any kind of parameter: modes right after decoding, addresses before execution,
operands in assembly text. Decoding a word gives an instruction whose parameters are modes. Main
statement: an instruction has as many parameters as its operation declares, and such a list of
parameters makes one.
-/

namespace IntcodeVM

inductive Instruction (α : Type) where
  | add (left right dst : α)
  | mul (left right dst : α)
  | input (dst : α)
  | output (src : α)
  | jumpIfTrue (cond target : α)
  | jumpIfFalse (cond target : α)
  | lessThan (left right dst : α)
  | equals (left right dst : α)
  | adjustBase (delta : α)
  | halt
  deriving DecidableEq, Repr

namespace Instruction

variable {α β ε : Type}

def opcode : Instruction α → Opcode
  | add .. => .add
  | mul .. => .mul
  | input .. => .input
  | output .. => .output
  | jumpIfTrue .. => .jumpIfTrue
  | jumpIfFalse .. => .jumpIfFalse
  | lessThan .. => .lessThan
  | equals .. => .equals
  | adjustBase .. => .adjustBase
  | halt => .halt

def toList : Instruction α → List α
  | add a b c | mul a b c | lessThan a b c | equals a b c => [a, b, c]
  | jumpIfTrue a b | jumpIfFalse a b => [a, b]
  | input a | output a | adjustBase a => [a]
  | halt => []

def ofList? : Opcode → List α → Option (Instruction α)
  | .add, [a, b, c] => some (add a b c)
  | .mul, [a, b, c] => some (mul a b c)
  | .input, [a] => some (input a)
  | .output, [a] => some (output a)
  | .jumpIfTrue, [a, b] => some (jumpIfTrue a b)
  | .jumpIfFalse, [a, b] => some (jumpIfFalse a b)
  | .lessThan, [a, b, c] => some (lessThan a b c)
  | .equals, [a, b, c] => some (equals a b c)
  | .adjustBase, [a] => some (adjustBase a)
  | .halt, [] => some halt
  | _, _ => none

/-- The instruction whose parameters are their own numbers, counted from zero. -/
def ofOpcode : Opcode → Instruction Nat
  | .add => add 0 1 2
  | .mul => mul 0 1 2
  | .input => input 0
  | .output => output 0
  | .jumpIfTrue => jumpIfTrue 0 1
  | .jumpIfFalse => jumpIfFalse 0 1
  | .lessThan => lessThan 0 1 2
  | .equals => equals 0 1 2
  | .adjustBase => adjustBase 0
  | .halt => halt

def map (f : α → β) : Instruction α → Instruction β
  | add a b c => add (f a) (f b) (f c)
  | mul a b c => mul (f a) (f b) (f c)
  | input a => input (f a)
  | output a => output (f a)
  | jumpIfTrue a b => jumpIfTrue (f a) (f b)
  | jumpIfFalse a b => jumpIfFalse (f a) (f b)
  | lessThan a b c => lessThan (f a) (f b) (f c)
  | equals a b c => equals (f a) (f b) (f c)
  | adjustBase a => adjustBase (f a)
  | halt => halt

@[specialize]
def mapM (f : α → Except ε β) : Instruction α → Except ε (Instruction β)
  | add a b c => do return add (← f a) (← f b) (← f c)
  | mul a b c => do return mul (← f a) (← f b) (← f c)
  | input a => do return input (← f a)
  | output a => do return output (← f a)
  | jumpIfTrue a b => do return jumpIfTrue (← f a) (← f b)
  | jumpIfFalse a b => do return jumpIfFalse (← f a) (← f b)
  | lessThan a b c => do return lessThan (← f a) (← f b) (← f c)
  | equals a b c => do return equals (← f a) (← f b) (← f c)
  | adjustBase a => do return adjustBase (← f a)
  | halt => return halt

def numbered : Instruction α → Instruction (Nat × α)
  | add a b c => add (0, a) (1, b) (2, c)
  | mul a b c => mul (0, a) (1, b) (2, c)
  | input a => input (0, a)
  | output a => output (0, a)
  | jumpIfTrue a b => jumpIfTrue (0, a) (1, b)
  | jumpIfFalse a b => jumpIfFalse (0, a) (1, b)
  | lessThan a b c => lessThan (0, a) (1, b) (2, c)
  | equals a b c => equals (0, a) (1, b) (2, c)
  | adjustBase a => adjustBase (0, a)
  | halt => halt

/-- The digit for the mode of a parameter: the hundreds digit is the first. -/
def modeDigit (word index : Nat) : Nat :=
  word / Nat.pow 10 (index + 2) % 10

def modeOf (word index : Nat) : Except Cause Mode :=
  match Mode.ofDigit? (modeDigit word index) with
  | some mode => .ok mode
  | none => .error (.unknownMode (modeDigit word index) word)

/-- Splits a word into its operation and one mode for each parameter. Digits beyond the last
parameter are not looked at. -/
def decode : Int → Except Cause (Instruction Mode)
  | .negSucc n => .error (.negativeWord (.negSucc n))
  | .ofNat word =>
    match Opcode.ofCode? (word % 100) with
    | none => .error (.unknownOpcode word)
    | some op => (ofOpcode op).mapM (modeOf word)

@[simp] theorem opcode_ofOpcode (op : Opcode) : (ofOpcode op).opcode = op := by
  cases op <;> rfl

@[simp] theorem length_toList (i : Instruction α) : i.toList.length = i.opcode.paramCount := by
  cases i <;> rfl

theorem ofList?_eq_some_iff {op : Opcode} {ps : List α} {i : Instruction α} :
    ofList? op ps = some i ↔ i.opcode = op ∧ i.toList = ps := by
  constructor
  · unfold ofList?
    split <;> rintro ⟨⟩ <;> exact ⟨rfl, rfl⟩
  · rintro ⟨rfl, rfl⟩
    cases i <;> rfl

@[simp] theorem opcode_map (f : α → β) (i : Instruction α) : (i.map f).opcode = i.opcode := by
  cases i <;> rfl

@[simp] theorem toList_map (f : α → β) (i : Instruction α) : (i.map f).toList = i.toList.map f := by
  cases i <;> rfl

@[simp] theorem opcode_numbered (i : Instruction α) : i.numbered.opcode = i.opcode := by
  cases i <;> rfl

end Instruction

end IntcodeVM
