import IntcodeVM.Opcode
import IntcodeVM.Text.Aligned
import IntcodeVM.Text.Legible

namespace IntcodeVM

inductive Cause where
  | negativeWord (word : Int)
  | unknownOpcode (word : Nat)
  | unknownMode (digit word : Nat)
  | negativeAddress (addr : Int)
  | outOfBounds (addr : Int) (size : Nat)
  /-- A parameter leads to a negative address. -/
  | negativeOperand (addr : Int) (mode : Mode) (index : Nat)
  /-- No value is left and none can come. -/
  | sourceTerminated (source : String)
  /-- Nobody is left to take the value, or the sender had already finished. -/
  | sinkTerminated (sink : String)
  /-- A robot's program ended between a color and its turn. -/
  | missingTurn (color : Int)
  deriving DecidableEq, Repr

inductive Cause.Family where
  | decoding
  | addressing
  | port
  deriving DecidableEq, Repr

namespace Cause

def family : Cause → Family
  | negativeWord _ | unknownOpcode _ | unknownMode _ _ => .decoding
  | negativeAddress _ | outOfBounds _ _ | negativeOperand _ _ _ => .addressing
  | sourceTerminated _ | sinkTerminated _ | missingTurn _ => .port

/-- A port is named in brackets, if it has a name. -/
def portLabel (name : String) : String :=
  if name.isEmpty then "" else " (" ++ name ++ ")"

def message : Cause → String
  | negativeWord word => s!"Unknown instruction {word}"
  | unknownOpcode word => s!"Unknown instruction {Text.twoDigits (word % 100)} (word {word})"
  | unknownMode digit word => s!"Unknown addressing mode {digit} in word {word}"
  | negativeAddress addr => s!"Negative address {addr}"
  | outOfBounds addr size => s!"Address {addr} out of bounds (memory size {size})"
  | negativeOperand addr mode index =>
    s!"Negative address {addr} ({mode.word} parameter {index})"
  | sourceTerminated source => "pull from terminated source" ++ portLabel source
  | sinkTerminated sink => "push to terminated sink" ++ portLabel sink
  | missingTurn color => s!"Machine halted after color {color} with no turn"

/-- Whether the numbers in the wording are short enough to be written. -/
def isLegible : Cause → Bool
  | unknownOpcode word | unknownMode _ word => Text.isLegible word
  | negativeWord n | negativeAddress n | outOfBounds n _ | negativeOperand n _ _ | missingTurn n =>
    Text.isLegible n
  | sourceTerminated _ | sinkTerminated _ => true

end Cause

/-- A cause and the address of the instruction that met it; there is none outside a machine. -/
structure Fault where
  cause : Cause
  ip : Option Int := none
  deriving DecidableEq, Repr

def ipLabel : Option Int → String
  | none => ""
  | some ip => s!" (ip={ip})"

def Fault.message (fault : Fault) : String :=
  fault.cause.message ++ ipLabel fault.ip

/-- Whether the fault came from a port, so that another machine may be behind it. -/
def Fault.isPort (fault : Fault) : Bool :=
  fault.cause.family = .port

end IntcodeVM
