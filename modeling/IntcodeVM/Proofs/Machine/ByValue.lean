import IntcodeVM.Proofs.Machine.PortAction

/-! The instruction set as a table of values. A parameter stands for a value or for a destination
here, and addresses do not occur: an immediate parameter is its own literal, the others lead to the
cell at the literal or at the base plus the literal. -/
namespace IntcodeVM.ByValue

def modeDigit (word : Int) (index : Nat) : Int := word / Int.pow 10 (index + 2) % 10

/-- The mode of a parameter whose digit is at most two. -/
def modeAt (word : Int) (index : Nat) : Mode :=
  if modeDigit word index = 0 then .position
  else if modeDigit word index = 1 then .immediate
  else .relative

def checkMode (word : Int) (index : Nat) : Except Cause Unit :=
  if modeDigit word index ≤ 2 then .ok ()
  else .error (.unknownMode (modeDigit word index).toNat word.toNat)

/-- The operation in the two low digits of a word whose mode digits are in order. -/
def opcode (word : Int) : Except Cause Opcode :=
  if word < 0 then .error (.negativeWord word)
  else
    match Opcode.all.find? fun op => word % 100 = op.code with
    | none => .error (.unknownOpcode word.toNat)
    | some op => do
      (List.range op.paramCount).forM (checkMode word)
      return op

structure Parameter where
  index : Nat
  slot : Int
  mode : Mode

namespace Parameter

def value (m : Memory) (base : Int) (p : Parameter) : Except Cause Int := do
  let literal ← m.read p.slot
  match p.mode with
  | .immediate => return literal
  | .position => m.read literal
  | .relative => m.read (base + literal)

def destination (m : Memory) (base : Int) (p : Parameter) : Except Cause Int :=
  match p.mode with
  | .immediate => return p.slot
  | .position => m.read p.slot
  | .relative => return base + (← m.read p.slot)

/-- Every parameter is looked at before any value is read; none may lead below zero. -/
def check (m : Memory) (base : Int) (p : Parameter) : Except Cause Unit := do
  let addr ← p.destination m base
  if addr < 0 then throw (.negativeOperand addr p.mode p.index)

end Parameter

def parameter (cpu : Cpu) (word : Int) (index : Nat) : Parameter :=
  ⟨index, cpu.ip + 1 + index, modeAt word index⟩

variable {σ : Type} (w : Wiring σ) (cpu : Cpu) (ports : σ)

/-- A step that fails leaves a fault and closes both ports, if there are words for the fault. -/
def failed (snag : Snag) (wordRead : Bool) (met : Cpu) (ports : σ) : Outcome × Cpu × σ :=
  (.stopped (snag.stop (some met.ip)), met.faulted snag wordRead, w.left snag ports)

/-- Goes on behind the instruction, or fails. -/
def resumed (op : Opcode) (next : Except Cause Cpu) (met : Cpu) (ports : σ) : Outcome × Cpu × σ :=
  match next with
  | .error cause => failed w (.cause cause) true met ports
  | .ok next => (.ran op, next.advanced op (cpu.ip + 1 + op.paramCount), ports)

def stored (met : Cpu) (p : Parameter) (value : Int) : Except Cause Cpu := do
  let addr ← p.destination met.memory met.base
  let cell ← met.memory.index addr
  return { met with memory := met.memory.put cell value }

def computed (op : Opcode) (f : Int → Int → Int) (left right dst : Parameter) :
    Outcome × Cpu × σ :=
  let next := do
    let x ← left.value cpu.memory cpu.base
    let y ← right.value cpu.memory cpu.base
    stored cpu dst (f x y)
  resumed w cpu op next cpu ports

/-- The target's value is asked for only if the jump is taken. -/
def branched (op : Opcode) (taken : Int → Bool) (cond target : Parameter) : Outcome × Cpu × σ :=
  match cond.value cpu.memory cpu.base with
  | .error cause => failed w (.cause cause) true cpu ports
  | .ok x =>
    if taken x then
      match target.value cpu.memory cpu.base with
      | .error cause => failed w (.cause cause) true cpu ports
      | .ok next => (.ran op, cpu.advanced op next, ports)
    else resumed w cpu op (.ok cpu) cpu ports

/-- The phase answers before the input port does. -/
def received (dst : Parameter) : Outcome × Cpu × σ :=
  match cpu.phase with
  | some value =>
    let met := { cpu with phase := none }
    resumed w cpu .input (stored met dst value) met ports
  | none =>
    match w.pull ports with
    | (.value value, ports) => resumed w cpu .input (stored cpu dst value) cpu ports
    | (.refused cause, ports) => failed w (.cause cause) true cpu ports
    | (.waiting, ports) => (.stopped .waiting, cpu, ports)

def emitted (src : Parameter) : Outcome × Cpu × σ :=
  match src.value cpu.memory cpu.base with
  | .error cause => failed w (.cause cause) true cpu ports
  | .ok value =>
    match w.push value ports with
    | (some cause, ports) => failed w (.cause cause) true cpu ports
    | (none, ports) =>
      let sent := { cpu with lastOutput := some value }
      if w.tells value then resumed w cpu .output (.ok sent) cpu ports
      else failed w (.untold value) true sent ports

def shifted (delta : Parameter) : Outcome × Cpu × σ :=
  let next := do return { cpu with base := cpu.base + (← delta.value cpu.memory cpu.base) }
  resumed w cpu .adjustBase next cpu ports

def execute (op : Opcode) (p : Nat → Parameter) : Outcome × Cpu × σ :=
  match op with
  | .add => computed w cpu ports op (fun x y => x + y) (p 0) (p 1) (p 2)
  | .mul => computed w cpu ports op (fun x y => x * y) (p 0) (p 1) (p 2)
  | .input => received w cpu ports (p 0)
  | .output => emitted w cpu ports (p 0)
  | .jumpIfTrue => branched w cpu ports op (fun x => x ≠ 0) (p 0) (p 1)
  | .jumpIfFalse => branched w cpu ports op (fun x => x = 0) (p 0) (p 1)
  | .lessThan => computed w cpu ports op (fun x y => if x < y then 1 else 0) (p 0) (p 1) (p 2)
  | .equals => computed w cpu ports op (fun x y => if x = y then 1 else 0) (p 0) (p 1) (p 2)
  | .adjustBase => shifted w cpu ports (p 0)
  | .halt => resumed w cpu op (.ok { cpu with halted := true }) cpu (w.closeOutput ports)

def step : Outcome × Cpu × σ :=
  match cpu.memory.read cpu.ip with
  | .error cause => failed w (.cause cause) false cpu ports
  | .ok word =>
    let prepared := do
      let op ← opcode word
      (List.range op.paramCount).forM fun i =>
        (parameter cpu word i).check cpu.memory cpu.base
      return op
    match prepared with
    | .error cause => failed w (.cause cause) true cpu ports
    | .ok op => execute w cpu ports op (parameter cpu word)

end IntcodeVM.ByValue
