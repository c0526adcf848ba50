import IntcodeVM.Machine
import IntcodeVM.Proofs.Attempt
import IntcodeVM.Proofs.Channel.Requests
import IntcodeVM.Proofs.Machine.ByValue

/-! Addresses against values. The machine turns every parameter into an address first and reads
through it later; the table of values never forms an address. Main statement: a step does what the
table says, for every memory and all kinds of ports. -/
namespace IntcodeVM.ByValue

theorem mapM_ofOpcode {ε β : Type} {f : Nat → Except ε β} {check : Nat → Except ε Unit}
    {g : Nat → β} (h : ∀ i, f i = do check i; return g i) (op : Opcode) :
    (Instruction.ofOpcode op).mapM f = do
      (List.range op.paramCount).forM check
      return (Instruction.ofOpcode op).map g := by
  cases op <;>
    simp [Instruction.ofOpcode, Instruction.mapM, Instruction.map, Opcode.paramCount, h,
      List.range_succ]

theorem modeOf_eq (n index : Nat) :
    Instruction.modeOf n index = do checkMode n index; return modeAt n index := by
  have hd : modeDigit n index = (Instruction.modeDigit n index : Int) := by
    rw [modeDigit, Instruction.modeDigit, Text.pow_ten, Int.natCast_emod, Int.natCast_ediv]
    rfl
  unfold Instruction.modeOf checkMode modeAt
  rw [hd]
  rcases hm : Instruction.modeDigit n index with _ | _ | _ | d
  · rfl
  · rfl
  · rfl
  · have high : ¬ ((d + 1 + 1 + 1 : Nat) : Int) ≤ 2 := by omega
    simp only [if_neg high]
    rfl

theorem find?_code (n : Nat) :
    (Opcode.all.find? fun op => (n : Int) % 100 = op.code) = Opcode.ofCode? (n % 100) := by
  have hn : ∀ op : Opcode, (n : Int) % 100 = op.code ↔ n % 100 = op.code := by intro op; omega
  simp only [hn]
  cases h : Opcode.ofCode? (n % 100) with
  | some op =>
    rw [Opcode.ofCode?_eq_some_iff.1 h]
    cases op <;> rfl
  | none =>
    simp only [List.find?_eq_none, decide_eq_true_eq]
    intro op _ hc
    cases h.symm.trans (Opcode.ofCode?_eq_some_iff.2 hc)

theorem decode_eq (word : Int) :
    Instruction.decode word = do
      let op ← opcode word
      return (Instruction.ofOpcode op).map (modeAt word) := by
  cases word with
  | negSucc n =>
    simp only [Instruction.decode, opcode, if_pos (Int.negSucc_lt_zero n)]
    rfl
  | ofNat n =>
    have hn : ¬ Int.ofNat n < 0 := by simp
    simp only [Instruction.decode, opcode, if_neg hn]
    simp only [Int.ofNat_eq_natCast, find?_code]
    cases Opcode.ofCode? (n % 100) with
    | none => rfl
    | some op => simp [mapM_ofOpcode (modeOf_eq n)]

def Parameter.address (m : Memory) (base : Int) (p : Parameter) : Int :=
  (p.destination m base).toOption.getD 0

theorem address_of_destination {m : Memory} {base addr : Int} {p : Parameter}
    (h : p.destination m base = .ok addr) : p.address m base = addr := by
  simp [Parameter.address, h, Except.toOption]

theorem check_of_destination {m : Memory} {base addr : Int} {p : Parameter}
    (h : p.destination m base = .ok addr) :
    p.check m base = if addr < 0 then .error (.negativeOperand addr p.mode p.index) else .ok () := by
  simp [Parameter.check, h]

theorem check_bind_address (m : Memory) (base : Int) (p : Parameter) :
    (do p.check m base; return p.address m base) = do
      let addr ← p.destination m base
      if addr < 0 then throw (.negativeOperand addr p.mode p.index) else return addr := by
  cases h : p.destination m base with
  | error cause => simp [Parameter.check, h]
  | ok addr =>
    rw [check_of_destination h, address_of_destination h]
    by_cases negative : addr < 0 <;> simp [negative]

theorem operandAddress_eq (m : Memory) (base : Int) (p : Parameter) :
    Cpu.operandAddress m base p.slot p.index p.mode = do
      p.check m base
      return p.address m base := by
  rw [check_bind_address]
  obtain ⟨index, slot, mode⟩ := p
  cases mode with
  | immediate => rfl
  | position => rfl
  | relative =>
    cases h : m.read slot <;> simp [Cpu.operandAddress, Parameter.destination, h, Except.map]

theorem value_eq {m : Memory} {base addr : Int} {p : Parameter}
    (h : p.destination m base = .ok addr) : p.value m base = m.read addr := by
  obtain ⟨index, slot, mode⟩ := p
  cases mode with
  | immediate =>
    cases h
    cases hr : m.read slot <;> simp [Parameter.value, hr]
  | position => simp only [Parameter.destination] at h; simp [Parameter.value, h]
  | relative =>
    obtain ⟨literal, hr, rfl⟩ := map_eq_ok_iff.1 h
    simp [Parameter.value, hr]

theorem locate_eq (cpu : Cpu) (word : Int) (op : Opcode) :
    Cpu.locate cpu.memory cpu.base (cpu.ip + 1) ((Instruction.ofOpcode op).map (modeAt word)) = do
      (List.range op.paramCount).forM fun i =>
        (parameter cpu word i).check cpu.memory cpu.base
      return (Instruction.ofOpcode op).map fun i =>
        (parameter cpu word i).address cpu.memory cpu.base := by
  rw [← mapM_ofOpcode fun i => operandAddress_eq cpu.memory cpu.base (parameter cpu word i)]
  cases op <;> rfl

theorem of_forM_ok {α ε : Type} {f : α → Except ε Unit} {list : List α}
    (h : list.forM f = .ok ()) : ∀ a ∈ list, f a = .ok () := by
  induction list with
  | nil => simp
  | cons a rest ih =>
    obtain ⟨⟨⟩, ha, hr⟩ := bind_eq_ok_iff.1 (List.forM_cons.symm.trans h)
    exact List.forall_mem_cons.2 ⟨ha, ih hr⟩

theorem destination_of_check {m : Memory} {base : Int} {p : Parameter}
    (h : p.check m base = .ok ()) : p.destination m base = .ok (p.address m base) := by
  obtain ⟨addr, hd, _⟩ := bind_eq_ok_iff.1 h
  rw [hd, address_of_destination hd]

section

variable {σ : Type} (w : Wiring σ) (cpu : Cpu) (ports : σ)

/-- An effect that was found is performed; otherwise the step fails. -/
def performed (op : Opcode) (effect : Except Cause Effect) : Outcome × Cpu × σ :=
  match effect with
  | .error cause => cpu.abort w (.cause cause) true ports
  | .ok effect => cpu.perform w op effect ports

theorem computed_eq {op : Opcode} {f : Int → Int → Int} {left right dst : Parameter} {a b d : Int}
    (hl : left.destination cpu.memory cpu.base = .ok a)
    (hr : right.destination cpu.memory cpu.base = .ok b)
    (hd : dst.destination cpu.memory cpu.base = .ok d) :
    performed w cpu ports op (do
      let x ← cpu.memory.read a
      let y ← cpu.memory.read b
      return .store (← cpu.memory.index d) (f x y)) =
    computed w cpu ports op f left right dst := by
  simp only [computed, value_eq hl, value_eq hr]
  cases cpu.memory.read a with
  | error cause => rfl
  | ok x =>
    cases cpu.memory.read b with
    | error cause => rfl
    | ok y =>
      simp only [stored, hd, ok_bind]
      cases cpu.memory.index d with
      | error cause => rfl
      | ok cell => rfl

theorem branched_eq {op : Opcode} {taken : Int → Bool} {cond target : Parameter} {a b : Int}
    (hc : cond.destination cpu.memory cpu.base = .ok a)
    (ht : target.destination cpu.memory cpu.base = .ok b) :
    performed w cpu ports op (do
      let x ← cpu.memory.read a
      if taken x then return .jump (← cpu.memory.read b) else return .fallThrough) =
    branched w cpu ports op taken cond target := by
  simp only [branched, value_eq hc, value_eq ht]
  cases cpu.memory.read a with
  | error cause => rfl
  | ok x =>
    cases hx : taken x with
    | false => simp [hx]; rfl
    | true =>
      cases cpu.memory.read b with
      | error cause => simp [hx]; rfl
      | ok next => simp [hx]; rfl

theorem received_eq {dst : Parameter} {d : Int}
    (hd : dst.destination cpu.memory cpu.base = .ok d) :
    performed w cpu ports .input (.ok (.take d)) = received w cpu ports dst := by
  have store : ∀ (met : Cpu) (value : Int) (ports : σ), met.memory = cpu.memory →
      met.base = cpu.base → met.ip = cpu.ip →
      met.receive w d value ports = resumed w cpu .input (stored met dst value) met ports := by
    intro met value ports hm hb hi
    simp only [Cpu.receive, stored, hm, hb, hd, ok_bind]
    cases cpu.memory.index d with
    | error cause => rfl
    | ok cell => simp [resumed, Cpu.following, hi]; rfl
  simp only [performed, Cpu.perform, received]
  cases cpu.phase with
  | some value => exact store _ value ports rfl rfl rfl
  | none =>
    rcases w.pull ports with ⟨pulled, after⟩
    cases pulled with
    | value value => exact store cpu value after rfl rfl rfl
    | waiting => rfl
    | refused cause => rfl

theorem emitted_eq {src : Parameter} {a : Int}
    (hs : src.destination cpu.memory cpu.base = .ok a) :
    performed w cpu ports .output (do return .emit (← cpu.memory.read a)) =
      emitted w cpu ports src := by
  simp only [emitted, value_eq hs]
  cases cpu.memory.read a with
  | error cause => rfl
  | ok value =>
    simp only [ok_bind, pure_eq_ok, performed, Cpu.perform]
    rcases w.push value ports with ⟨refused, after⟩
    cases refused with
    | none => rfl
    | some cause => rfl

theorem shifted_eq {delta : Parameter} {a : Int}
    (hd : delta.destination cpu.memory cpu.base = .ok a) :
    performed w cpu ports .adjustBase (do return .shift (← cpu.memory.read a)) =
      shifted w cpu ports delta := by
  simp only [shifted, value_eq hd]
  cases cpu.memory.read a with
  | error cause => rfl
  | ok value => rfl

theorem execute_eq {op : Opcode} {p : Nat → Parameter} {addr : Nat → Int}
    (h : ∀ i < op.paramCount, (p i).destination cpu.memory cpu.base = .ok (addr i)) :
    performed w cpu ports op (((Instruction.ofOpcode op).map addr).effect cpu.memory) =
      execute w cpu ports op p := by
  cases op with
  | add | mul | lessThan | equals =>
    exact computed_eq w cpu ports (h 0 (by decide)) (h 1 (by decide)) (h 2 (by decide))
  | jumpIfTrue =>
    rw [execute, ← branched_eq w cpu ports (h 0 (by decide)) (h 1 (by decide))]
    simp [Instruction.ofOpcode, Instruction.map, Instruction.effect]
  | jumpIfFalse =>
    rw [execute, ← branched_eq w cpu ports (h 0 (by decide)) (h 1 (by decide))]
    simp [Instruction.ofOpcode, Instruction.map, Instruction.effect]
  | input => exact received_eq w cpu ports (h 0 (by decide))
  | output => exact emitted_eq w cpu ports (h 0 (by decide))
  | adjustBase => exact shifted_eq w cpu ports (h 0 (by decide))
  | halt => rfl

theorem step_eq (live : cpu.refusal? = none) : cpu.step w ports = step w cpu ports := by
  simp only [Cpu.step, live, step]
  cases cpu.memory.read cpu.ip with
  | error cause => rfl
  | ok word =>
    simp only [Cpu.prepare, decode_eq]
    cases opcode word with
    | error cause => rfl
    | ok op =>
      simp only [ok_bind, pure_eq_ok, locate_eq, Instruction.opcode_map,
        Instruction.opcode_ofOpcode]
      cases checked : (List.range op.paramCount).forM fun i =>
          (parameter cpu word i).check cpu.memory cpu.base with
      | error cause => rfl
      | ok checked' =>
        have found : ∀ i < op.paramCount, _ := fun i hi =>
          destination_of_check (of_forM_ok checked i (List.mem_range.2 hi))
        simp only [ok_bind]
        rw [← execute_eq w cpu ports found]
        cases ((Instruction.ofOpcode op).map _).effect cpu.memory with
        | error cause => rfl
        | ok effect => rfl

end

theorem pull_oldest {input : Channel Int} {value : Int} {rest : List Int}
    (queued : input.queue = value :: rest) (output : Sink) :
    ∃ left, Machine.wiring.pull (input, output) = (.value value, left, output) ∧
      left.queue = rest := by
  have front : input.history[input.taken]? = some value := by
    rw [← Channel.head?_queue, queued, List.head?_cons]
  obtain ⟨left, pulled, taken⟩ := Channel.pull_of_front front
  refine ⟨left, by simp only [Machine.wiring, pulled], ?_⟩
  exact (List.cons.inj (taken.queue.symm.trans queued)).2

theorem pull_exhausted {input : Channel Int} (queued : input.queue = [])
    (closed : input.closed = true) (output : Sink) :
    Machine.wiring.pull (input, output) =
      (.refused (.sourceTerminated input.name), input, output) := by
  have front : input.history[input.taken]? = none := by
    rw [← Channel.head?_queue, queued, List.head?_nil]
  simp only [Machine.wiring, Channel.pull_of_no_front front, if_pos closed]

/-- A step follows the table of values, whatever answers at the ports. At the ports of a machine on
its own the oldest queued value is taken, a value is delivered behind the others, and what was
delivered stays when the output is closed. -/
theorem step_follows_table :
    (∀ {σ : Type} (w : Wiring σ) (cpu : Cpu) (ports : σ), cpu.refusal? = none →
      cpu.step w ports = step w cpu ports) ∧
    (∀ m : Machine, m.cpu.refusal? = none →
      m.step = Machine.assembled (step Machine.wiring m.cpu (m.input, m.output))) ∧
    ∀ (input : Channel Int) (output : Sink),
      (∀ value rest, input.queue = value :: rest →
        ∃ left, Machine.wiring.pull (input, output) = (.value value, left, output) ∧
          left.queue = rest) ∧
      (input.queue = [] → input.closed = true →
        Machine.wiring.pull (input, output) =
          (.refused (.sourceTerminated input.name), input, output)) ∧
      (∀ value, output.closed = false →
        ∃ after, Machine.wiring.push value (input, output) = (none, input, after) ∧
          after.delivered = output.delivered ++ [value]) ∧
      Machine.wiring.closeOutput (input, output) = (input, output.close) ∧
      output.close.delivered = output.delivered := by
  refine ⟨fun w cpu ports live => step_eq w cpu ports live, ?_, ?_⟩
  · intro m live
    rw [← step_eq Machine.wiring m.cpu (m.input, m.output) live]
    rfl
  · intro input output
    refine ⟨fun value rest queued => pull_oldest queued output,
      fun queued closed => pull_exhausted queued closed output, ?_, rfl,
      output.delivered_close⟩
    intro value opened
    obtain ⟨after, pushed, delivered⟩ := Sink.push_of_open opened value
    exact ⟨after, by simp only [Machine.wiring, pushed], delivered⟩

/-- The sum goes to the cell that names its own destination. -/
theorem step_follows_table_aliased :
    let m : Machine :=
      ⟨{ memory := .ofWords [22201, 0, 3, 3, 99] 0 }, .ofList [5], .collector {}⟩
    m.cpu.refusal? = none ∧
      m.step = Machine.assembled (step Machine.wiring m.cpu (m.input, m.output)) ∧
      m.step.2.cpu.memory.toList = [22201, 0, 3, 22204, 99] ∧
      m.input.queue = [5] ∧ m.output.closed = false ∧
      ∃ left, Machine.wiring.pull (m.input, m.output) = (.value 5, left, m.output) ∧
        left.queue = [] := by
  refine ⟨rfl, step_follows_table.2.1 _ rfl, by decide +kernel, rfl, rfl, ?_⟩
  exact (step_follows_table.2.2 _ _).1 5 [] rfl

end IntcodeVM.ByValue
