import IntcodeVM.Cpu.Run
import IntcodeVM.Sink

namespace IntcodeVM

structure Machine where
  cpu : Cpu
  input : Channel Int
  output : Sink

abbrev Machine.Ports := Channel Int × Sink

def Machine.wiring : Wiring Machine.Ports where
  pull ports := let (pulled, input) := ports.1.pull; (pulled, input, ports.2)
  push value ports := let (refused, output) := ports.2.push value; (refused, ports.1, output)
  closeInput ports := (ports.1.closeReceiver, ports.2)
  closeOutput ports := (ports.1, ports.2.close)

namespace Machine

/-- The ports of a machine with an onlooker who can tell these outputs. -/
def telling (tells : Int → Bool) : Wiring Ports := { wiring with tells }

def assembled {α : Type} : α × Cpu × Ports → α × Machine
  | (answer, cpu, input, output) => (answer, ⟨cpu, input, output⟩)

def step : Machine → Outcome × Machine
  | ⟨cpu, input, output⟩ => assembled (cpu.step wiring (input, output))

def run (allowance : Nat) (limit : Option Int) : Machine → Except Stop Nat × Machine
  | ⟨cpu, input, output⟩ => assembled (cpu.runLimited wiring allowance limit (input, output))

def runUntilOutput (allowance : Nat) : Machine → Except Stop (Option Int) × Machine
  | ⟨cpu, input, output⟩ => assembled (cpu.runUntilOutput wiring allowance (input, output))

def decodeNext (m : Machine) : Except Cause (Instruction Mode) × Machine :=
  match m.cpu.memory.read m.cpu.ip with
  | .error cause => (.error cause, m)
  | .ok word => (Instruction.decode word, { m with cpu := { m.cpu with ip := m.cpu.ip + 1 } })

def locate (m : Machine) (modes : List Mode) : Except Cause (List Int) :=
  Cpu.locateAll m.cpu.memory m.cpu.base m.cpu.ip modes

inductive Event where
  | output (value : Int)
  /-- The steps before the halt itself. -/
  | halt (steps : Nat)
  deriving DecidableEq, Repr

/-- What an onlooker was told between two states with nothing but steps between them. -/
def eventsSince (earlier later : Machine) : List Event :=
  let seen := earlier.output.visible.length
  let outputs := (later.output.visible.drop seen).map Event.output
  if later.cpu.halted && !earlier.cpu.halted then outputs ++ [.halt (later.cpu.steps - 1)]
  else outputs

end Machine

end IntcodeVM
