import IntcodeVM.Diagnostic
import IntcodeVM.Disassembly
import IntcodeVM.Machine
import IntcodeVM.Text.ShellWords

/-!
The monitor's machine and what stepping it prints. The monitor never lets the machine wait: where
the next instruction asks for input and none is queued, it says so and stops. It tells each output
while the step is made, so that a step breaks off at one that cannot be written.
-/

namespace IntcodeVM.Monitor

/-- What a command meets and does not catch. -/
inductive Escape where
  | badQuoting (problem : Text.ShellProblem)
  | sendRefused (cause : Cause)
  /-- A number is too long to be written. -/
  | illegible
  deriving DecidableEq, Repr

def Escape.diagnostic : Escape → Diagnostic
  | badQuoting problem => .badValue problem.message
  | sendRefused cause => cause.diagnostic
  | illegible => .badValue Text.illegibleMessage

/-- The program image and the first inputs are kept, so that the machine can be started again. -/
structure Console where
  image : Memory
  inputs : List Int := []
  phase : Option Int := none
  /-- Addresses in ascending order. -/
  breakpoints : List Int := []
  machine : Machine

namespace Console

def boot (image : Memory) (inputs : List Int) (phase : Option Int) : Machine where
  cpu := { name := "monitor", memory := image, phase }
  input := .preloaded "monitor-in" inputs
  output := .collector {}

def start (image : Memory) (inputs : List Int) (phase : Option Int) : Console :=
  { image, inputs, phase, machine := boot image inputs phase }

end Console

def wiring : Wiring Machine.Ports := Machine.telling Text.isLegible

def stepOnce : Machine → Outcome × Machine
  | ⟨cpu, input, output⟩ => Machine.assembled (cpu.step wiring (input, output))

/-- Whether a word asks for input while no phase and no value is at hand. Only the two low digits of
the word are looked at. -/
def lacksInput (m : Machine) (word : Int) : Bool :=
  word % 100 = Opcode.input.code && m.cpu.phase.isNone && m.input.pending = 0

def starved (m : Machine) : Bool :=
  match m.cpu.memory.read m.cpu.ip with
  | .error _ => false
  | .ok word => lacksInput m word

structure Advance where
  printed : List String
  goesOn : Bool
  deriving DecidableEq, Repr

def Advance.ofOutcome (later : Cpu) : Outcome → Except Escape Advance
  | .ran .halt => .ok ⟨[s!"Machine halted after {later.steps} steps."], false⟩
  | .ran .output => .ok ⟨(later.lastOutput.map fun v => s!"  OUT {v}").toList, true⟩
  | .ran _ => .ok ⟨[], true⟩
  | .stopped (.unworded _) => .error .illegible
  | .stopped stop => .ok ⟨[s!"Fault: {stop.message}"], false⟩

/-- A machine that has ended does not go on, and neither does one that would have to wait. -/
def Advance.ended : Advance := ⟨["Machine is halted."], false⟩

def Advance.waiting (ip : Int) : Advance :=
  ⟨[s!"Waiting for input at {ip}.  Use 'send <values>'."], false⟩

/-- Steps once, unless the machine has ended or would have to wait. -/
def advance (m : Machine) : Except Escape Advance × Machine :=
  if m.cpu.halted || m.cpu.fault.isSome then (.ok .ended, m)
  else if starved m then (.ok (.waiting m.cpu.ip), m)
  else
    let (outcome, m) := stepOnce m
    (Advance.ofOutcome m.cpu outcome, m)

def instructionLine (cpu : Cpu) : String :=
  "  " ++ Disassembly.line cpu.ip (Disassembly.chunkAt cpu.memory cpu.ip).text

def showsInstruction (cpu : Cpu) : Bool :=
  Text.isLegible cpu.ip && Disassembly.isLegibleAt cpu.memory cpu.ip

def nextLine (cpu : Cpu) : Except Escape String :=
  if showsInstruction cpu then .ok (instructionLine cpu) else .error .illegible

inductive RunEnd where
  | budget
  | breakpoint (ip : Int)
  | stopped
  deriving DecidableEq, Repr

/-- How a machine is shown and stepped, and where a run stops. Each of these can end a command. -/
structure Stepper (ε : Type) where
  nextLine : Cpu → Except ε String
  advance : Machine → Except ε Advance × Machine
  stopsAt : (breakpoints : List Int) → (ip : Int) → Except ε Bool

namespace Stepper

variable {ε : Type} (s : Stepper ε)

/-- Steps up to `count` times and shows each instruction before it is carried out. -/
def stepMany : (count : Nat) → Machine → Array String → Option ε × Array String × Machine
  | 0, m, printed => (none, printed, m)
  | count + 1, m, printed =>
    match s.nextLine m.cpu with
    | .error e => (some e, printed, m)
    | .ok line =>
      let printed := printed.push line
      match s.advance m with
      | (.error e, m) => (some e, printed, m)
      | (.ok a, m) =>
        let printed := printed ++ a.printed.toArray
        if a.goesOn then stepMany count m printed else (none, printed, m)

/-- Runs within a budget. A breakpoint stops the run before its instruction, but not before the
first instruction of the run. -/
def runMany (breakpoints : List Int) : (budget : Nat) → (first : Bool) → Machine → Array String →
    Except ε RunEnd × Array String × Machine
  | 0, _, m, printed => (.ok .budget, printed, m)
  | budget + 1, first, m, printed =>
    match if first then .ok false else s.stopsAt breakpoints m.cpu.ip with
    | .error e => (.error e, printed, m)
    | .ok true => (.ok (.breakpoint m.cpu.ip), printed, m)
    | .ok false =>
      match s.advance m with
      | (.error e, m) => (.error e, printed, m)
      | (.ok a, m) =>
        let printed := printed ++ a.printed.toArray
        if a.goesOn then runMany breakpoints budget false m printed else (.ok .stopped, printed, m)

end Stepper

def stepper : Stepper Escape where
  nextLine := nextLine
  advance := advance
  stopsAt breakpoints ip := .ok (breakpoints.contains ip)

end IntcodeVM.Monitor
