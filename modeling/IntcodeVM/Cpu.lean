import IntcodeVM.Memory
import IntcodeVM.Instruction

/-!
The state of one machine apart from its ports, and the reading of instructions: from the word at the
instruction pointer to an instruction whose parameters are addresses, and from there to its effect.
Nothing here changes a state.
-/

namespace IntcodeVM

/-- Memory, registers and the record of what happened. The phase is a value that answers the first
input instruction in place of the input port. -/
structure Cpu where
  name : String := "intcode"
  memory : Memory
  ip : Int := 0
  base : Int := 0
  phase : Option Int := none
  halted : Bool := false
  fault : Option Fault := none
  steps : Nat := 0
  lastOpcode : Option Opcode := none
  lastOutput : Option Int := none

namespace Cpu

instance : Inhabited Cpu := ⟨{ memory := .ofWords [] 0 }⟩

def operandAddress (m : Memory) (base slot : Int) (index : Nat) (mode : Mode) :
    Except Cause Int := do
  let addr ← match mode with
    | .position => m.read slot
    | .immediate => pure slot
    | .relative => (m.read slot).map (base + ·)
  if addr < 0 then throw (.negativeOperand addr mode index) else return addr

def locate (m : Memory) (base first : Int) (i : Instruction Mode) :
    Except Cause (Instruction Int) :=
  i.numbered.mapM fun (index, mode) => operandAddress m base (first + index) index mode

/-- The operand addresses of any list of modes, as if they were those of one instruction. -/
def locateAll (m : Memory) (base first : Int) (modes : List Mode) : Except Cause (List Int) :=
  modes.zipIdx.mapM fun (mode, index) => operandAddress m base (first + index) index mode

theorem locateAll_toList (m : Memory) (base first : Int) (i : Instruction Mode) :
    locateAll m base first i.toList = Instruction.toList <$> locate m base first i := by
  cases i <;>
    simp [locateAll, locate, Instruction.toList, Instruction.numbered, Instruction.mapM,
      List.zipIdx_cons, List.mapM_cons]

end Cpu

/-- What carrying out an instruction comes to. All but a jump and a halt go on to the next
instruction. -/
inductive Effect where
  | store (cell : Nat) (value : Int)
  /-- The next input value goes to this address. -/
  | take (dst : Int)
  | emit (value : Int)
  | jump (target : Int)
  | fallThrough
  | shift (delta : Int)
  | halt
  deriving DecidableEq, Repr

/-- Reads the operands of an instruction. The destination of a computed value is checked last; the
target of a jump is read only if the jump is taken. -/
def Instruction.effect (m : Memory) : Instruction Int → Except Cause Effect
  | .add a b dst => do
    let x ← m.read a
    let y ← m.read b
    return .store (← m.index dst) (x + y)
  | .mul a b dst => do
    let x ← m.read a
    let y ← m.read b
    return .store (← m.index dst) (x * y)
  | .input dst => return .take dst
  | .output src => return .emit (← m.read src)
  | .jumpIfTrue cond target => do
    if (← m.read cond) ≠ 0 then return .jump (← m.read target) else return .fallThrough
  | .jumpIfFalse cond target => do
    if (← m.read cond) = 0 then return .jump (← m.read target) else return .fallThrough
  | .lessThan a b dst => do
    let x ← m.read a
    let y ← m.read b
    return .store (← m.index dst) (if x < y then 1 else 0)
  | .equals a b dst => do
    let x ← m.read a
    let y ← m.read b
    return .store (← m.index dst) (if x = y then 1 else 0)
  | .adjustBase delta => return .shift (← m.read delta)
  | .halt => return .halt

inductive Refusal where
  | halted (name : String)
  | aborted (name : String) (fault : Fault)
  deriving DecidableEq, Repr

def Refusal.message : Refusal → String
  | halted name => s!"{name} is halted"
  | aborted name fault => s!"{name} aborted: {fault.message}"

namespace Cpu

def refusal? (cpu : Cpu) : Option Refusal :=
  if cpu.halted then some (.halted cpu.name)
  else cpu.fault.map (.aborted cpu.name)

def report (cpu : Cpu) : List String :=
  let phase := match cpu.phase with
    | none => "-"
    | some p => toString p
  let lines :=
    [s!"  IP    = {cpu.ip}", s!"  RBASE = {cpu.base}", s!"  PHASE = {phase}",
      s!"  STEPS = {cpu.steps}  HALTED = {Text.truthWord cpu.halted}"]
  match cpu.fault with
  | none => lines
  | some fault => lines ++ [s!"  FAULT = {fault.message}"]

end Cpu

end IntcodeVM
