import IntcodeVM.Cpu
import IntcodeVM.Wiring

/-!
One step of a machine: read an instruction, find its effect, carry it out through the ports. A step
that fails records the fault with the address of the instruction and closes both ports, so that
machines at the other ends do not wait for ever. If there are no words for what went wrong, the step
breaks off where it is: there is no fault, and the ports stay open.
-/

namespace IntcodeVM

/-- What keeps a step from its end. -/
inductive Snag where
  | cause (cause : Cause)
  /-- An output that the onlooker cannot tell. -/
  | untold (value : Int)
  deriving DecidableEq, Repr

/-- The fault that a snag comes to, if it can be put into words. -/
def Snag.fault? (ip : Option Int) : Snag → Option Fault
  | cause c => if c.isLegible then some ⟨c, ip⟩ else none
  | untold _ => none

def Snag.isWorded (snag : Snag) : Bool := (snag.fault? none).isSome

/-- Why a step, or a run, ended without doing what it should. -/
inductive Stop where
  | fault (fault : Fault)
  /-- A step broke off, and there are no words for the reason. -/
  | unworded (snag : Snag)
  | refused (refusal : Refusal)
  /-- An input instruction found its port empty but open; nothing has changed. -/
  | waiting
  | unfinished
  deriving DecidableEq, Repr

def Stop.message : Stop → String
  | fault f => f.message
  | unworded _ => Text.illegibleMessage
  | refused r => r.message
  | waiting => "waiting for input"
  | unfinished => "no end within the allowance of steps"

def Snag.stop (ip : Option Int) (snag : Snag) : Stop :=
  match snag.fault? ip with
  | some fault => .fault fault
  | none => .unworded snag

/-- A port fault; only these can be caused by another machine. -/
def Stop.isPortFault : Stop → Bool
  | fault f => f.isPort
  | _ => false

inductive Outcome where
  | ran (op : Opcode)
  | stopped (stop : Stop)
  deriving DecidableEq, Repr

namespace Cpu

variable {σ : Type}

/-- Ends a machine with a fault, or breaks its step off. The fault bears the address of the
instruction; the pointer has moved past the instruction word if that could be read. -/
def abort (w : Wiring σ) (snag : Snag) (wordRead : Bool) (cpu : Cpu) (ports : σ) :
    Outcome × Cpu × σ :=
  let ip := if wordRead then cpu.ip + 1 else cpu.ip
  let fault := snag.fault? (some cpu.ip)
  let ports := if snag.isWorded then w.closeOutput (w.closeInput ports) else ports
  (.stopped (snag.stop (some cpu.ip)), { cpu with ip := ip, fault := fault }, ports)

def complete (op : Opcode) (ip : Int) (cpu : Cpu) (ports : σ) : Outcome × Cpu × σ :=
  (.ran op, { cpu with ip := ip, steps := cpu.steps + 1, lastOpcode := some op }, ports)

def following (cpu : Cpu) (op : Opcode) : Int := cpu.ip + 1 + op.paramCount

/-- Stores an input value; it is gone even if the address turns out to be outside memory. -/
def receive (w : Wiring σ) (dst value : Int) (cpu : Cpu) (ports : σ) : Outcome × Cpu × σ :=
  match cpu.memory.index dst with
  | .error cause => cpu.abort w (.cause cause) true ports
  | .ok i =>
    let ip := cpu.following .input
    complete .input ip { cpu with memory := cpu.memory.put i value } ports

def perform (w : Wiring σ) (op : Opcode) (effect : Effect) (cpu : Cpu) (ports : σ) :
    Outcome × Cpu × σ :=
  match effect with
  | .store i value =>
    let ip := cpu.following op
    complete op ip { cpu with memory := cpu.memory.put i value } ports
  | .take dst =>
    match cpu.phase with
    | some value => receive w dst value { cpu with phase := none } ports
    | none =>
      match w.pull ports with
      | (.value value, ports) => cpu.receive w dst value ports
      | (.waiting, ports) => (.stopped .waiting, cpu, ports)
      | (.refused cause, ports) => cpu.abort w (.cause cause) true ports
  | .emit value =>
    match w.push value ports with
    | (some cause, ports) => cpu.abort w (.cause cause) true ports
    | (none, ports) =>
      let ip := cpu.following op
      let sent := { cpu with lastOutput := some value }
      if w.tells value then complete op ip sent ports else sent.abort w (.untold value) true ports
  | .jump target => complete op target cpu ports
  | .fallThrough => let ip := cpu.following op; complete op ip cpu ports
  | .shift delta =>
    let ip := cpu.following op
    complete op ip { cpu with base := cpu.base + delta } ports
  | .halt =>
    let ip := cpu.following op
    complete op ip { cpu with halted := true } (w.closeOutput ports)

def prepare (cpu : Cpu) (word : Int) : Except Cause (Opcode × Effect) := do
  let decoded ← Instruction.decode word
  let located ← locate cpu.memory cpu.base (cpu.ip + 1) decoded
  let effect ← located.effect cpu.memory
  return (decoded.opcode, effect)

/-- Carries out one instruction. A machine that has halted or aborted refuses. -/
def step (w : Wiring σ) (cpu : Cpu) (ports : σ) : Outcome × Cpu × σ :=
  match cpu.refusal? with
  | some refusal => (.stopped (.refused refusal), cpu, ports)
  | none =>
    match cpu.memory.read cpu.ip with
    | .error cause => cpu.abort w (.cause cause) false ports
    | .ok word =>
      match cpu.prepare word with
      | .error cause => cpu.abort w (.cause cause) true ports
      | .ok (op, effect) => cpu.perform w op effect ports

end Cpu

end IntcodeVM
