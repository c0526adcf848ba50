import IntcodeVM.Cpu.Step

namespace IntcodeVM.Cpu

variable {σ : Type}

/-- At most `limit` steps, and none after a halt; answers how many there were beyond `count`. -/
def runFor (w : Wiring σ) : (limit count : Nat) → Cpu → σ → Except Stop Nat × Cpu × σ
  | 0, count, cpu, ports => (.ok count, cpu, ports)
  | limit + 1, count, cpu, ports =>
    if cpu.halted then (.ok count, cpu, ports)
    else
      match cpu.step w ports with
      | (.ran _, cpu, ports) => runFor w limit (count + 1) cpu ports
      | (.stopped stop, cpu, ports) => (.error stop, cpu, ports)

def run (w : Wiring σ) (allowance : Nat) (cpu : Cpu) (ports : σ) : Except Stop Nat × Cpu × σ :=
  match runFor w allowance 0 cpu ports with
  | (.ok count, cpu, ports) =>
    if cpu.halted then (.ok count, cpu, ports) else (.error .unfinished, cpu, ports)
  | stopped => stopped

/-- A run with a limit, or without one if none is given; a negative limit allows no step. -/
def runLimited (w : Wiring σ) (allowance : Nat) (limit : Option Int) (cpu : Cpu) (ports : σ) :
    Except Stop Nat × Cpu × σ :=
  match limit with
  | some n => runFor w n.toNat 0 cpu ports
  | none => cpu.run w allowance ports

/-- Steps until a value has gone to the output, and answers it; no value once the machine halts. -/
def runUntilOutput (w : Wiring σ) : (allowance : Nat) → Cpu → σ →
    Except Stop (Option Int) × Cpu × σ
  | 0, cpu, ports => (.error .unfinished, cpu, ports)
  | allowance + 1, cpu, ports =>
    match cpu.step w ports with
    | (.ran .halt, cpu, ports) => (.ok none, cpu, ports)
    | (.ran .output, cpu, ports) => (.ok cpu.lastOutput, cpu, ports)
    | (.ran _, cpu, ports) => runUntilOutput w allowance cpu ports
    | (.stopped stop, cpu, ports) => (.error stop, cpu, ports)

end IntcodeVM.Cpu
