import IntcodeVM.CommandLine.Vacant
import IntcodeVM.Cpu.Step

/-!
Steps of a machine whose words are codes of amounts. What an instruction reckons with is decoded
before and coded after; where no vacant amount is reckoned with, a step is the step of any machine.
A step that misuses one does not come about: nothing has changed, and nothing was closed.
-/

namespace IntcodeVM.CommandLine.Vacant

variable {σ : Type}

inductive Obstacle where
  | cause (cause : Cause)
  | misuse (misuse : Misuse)
  deriving DecidableEq, Repr

def number (misuse : Misuse) (code : Int) : Except Misuse Int :=
  match Amount.ofCode code with
  | .number n => .ok n
  | .vacant => .error misuse

def sum (x y : Int) : Except Misuse Int :=
  match Amount.ofCode x, Amount.ofCode y with
  | .number a, .number b => .ok (Amount.number (a + b)).code
  | .vacant, .vacant => .ok hole
  | .vacant, .number _ => .error .addedTo
  | .number _, .vacant => .error .added

/-- A vacant amount stays vacant however often it is repeated, as long as that can be counted. -/
def product (x y : Int) : Except Misuse Int :=
  let repeated (times : Int) : Except Misuse Int :=
    if -Int.pow 2 63 ≤ times && times < Int.pow 2 63 then .ok hole else .error .repeatedTooOften
  match Amount.ofCode x, Amount.ofCode y with
  | .number a, .number b => .ok (Amount.number (a * b)).code
  | .vacant, .vacant => .error .multiplied
  | .vacant, .number times | .number times, .vacant => repeated times

def lessThan (x y : Int) : Except Misuse Int :=
  match Amount.ofCode x, Amount.ofCode y with
  | .number a, .number b => .ok (if a < b then 1 else 0)
  | .vacant, .vacant => .ok 0
  | .vacant, .number _ => .error .below
  | .number _, .vacant => .error .above

def fromCause {α : Type} (r : Except Cause α) : Except Obstacle α := r.mapError .cause

def fromMisuse {α : Type} (r : Except Misuse α) : Except Obstacle α := r.mapError .misuse

def operandAddress (m : Memory) (base slot : Int) (index : Nat) (mode : Mode) :
    Except Obstacle Int := do
  let parameter (misuse : Misuse) : Except Obstacle Int := do
    fromMisuse (number misuse (← fromCause (m.read slot)))
  let addr ← match mode with
    | .position => parameter .below
    | .immediate => pure slot
    | .relative => (base + ·) <$> parameter .added
  if addr < 0 then throw (.cause (.negativeOperand addr mode index)) else return addr

/-- The effect of an instruction. Only reckoning can misuse an operand. -/
def effect (m : Memory) : Instruction Int → Except Obstacle Effect
  | .add a b dst => do
    let value ← fromMisuse (sum (← fromCause (m.read a)) (← fromCause (m.read b)))
    return .store (← fromCause (m.index dst)) value
  | .mul a b dst => do
    let value ← fromMisuse (product (← fromCause (m.read a)) (← fromCause (m.read b)))
    return .store (← fromCause (m.index dst)) value
  | .lessThan a b dst => do
    let value ← fromMisuse (lessThan (← fromCause (m.read a)) (← fromCause (m.read b)))
    return .store (← fromCause (m.index dst)) value
  | .adjustBase delta => do
    return .shift (← fromMisuse (number .shifted (← fromCause (m.read delta))))
  | i => fromCause (i.effect m)

def prepare (cpu : Cpu) (code : Int) : Except Obstacle (Opcode × Effect) := do
  let decoded ← fromCause (Instruction.decode (← fromMisuse (number .below code)))
  let located ← decoded.numbered.mapM fun (index, mode) =>
    operandAddress cpu.memory cpu.base (cpu.ip + 1 + index) index mode
  return (decoded.opcode, ← effect cpu.memory located)

def fetch (cpu : Cpu) : Except Misuse (Except Cause Int) := do
  return cpu.memory.read (← number .below cpu.ip)

inductive Setback where
  | stop (stop : Stop)
  | misuse (misuse : Misuse)
  deriving DecidableEq, Repr

/-- Misuse stays with the machine that commits it. -/
def Setback.isPortFault : Setback → Bool
  | stop s => s.isPortFault
  | misuse _ => false

def settled : Outcome × Cpu × σ → Except Setback Opcode × Cpu × σ
  | (.ran op, rest) => (.ok op, rest)
  | (.stopped stop, rest) => (.error (.stop stop), rest)

def step (w : Wiring σ) (cpu : Cpu) (ports : σ) : Except Setback Opcode × Cpu × σ :=
  match cpu.refusal? with
  | some refusal => (.error (.stop (.refused refusal)), cpu, ports)
  | none =>
    match fetch cpu with
    | .error misuse => (.error (.misuse misuse), cpu, ports)
    | .ok (.error cause) => settled (cpu.abort w (.cause cause) false ports)
    | .ok (.ok code) =>
      match prepare cpu code with
      | .error (.misuse misuse) => (.error (.misuse misuse), cpu, ports)
      | .error (.cause cause) => settled (cpu.abort w (.cause cause) true ports)
      | .ok (op, effect) => settled (cpu.perform w op effect ports)

def run (w : Wiring σ) : (allowance : Nat) → Cpu → σ → Except Setback Unit × Cpu × σ
  | 0, cpu, ports => (.error (.stop .unfinished), cpu, ports)
  | allowance + 1, cpu, ports =>
    match step w cpu ports with
    | (.ok .halt, cpu, ports) => (.ok (), cpu, ports)
    | (.ok _, cpu, ports) => run w allowance cpu ports
    | (.error setback, cpu, ports) => (.error setback, cpu, ports)

def runUntilOutput (w : Wiring σ) : (allowance : Nat) → Cpu → σ →
    Except Setback (Option Int) × Cpu × σ
  | 0, cpu, ports => (.error (.stop .unfinished), cpu, ports)
  | allowance + 1, cpu, ports =>
    match step w cpu ports with
    | (.ok .halt, cpu, ports) => (.ok none, cpu, ports)
    | (.ok .output, cpu, ports) => (.ok cpu.lastOutput, cpu, ports)
    | (.ok _, cpu, ports) => runUntilOutput w allowance cpu ports
    | (.error setback, cpu, ports) => (.error setback, cpu, ports)

end IntcodeVM.CommandLine.Vacant
