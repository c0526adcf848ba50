import IntcodeVM.Hull.Robot
import IntcodeVM.Machine
import IntcodeVM.Proofs.Circuit.Link
import IntcodeVM.Proofs.Machine.OpcodeEffect
import IntcodeVM.Proofs.Machine.OperandValues

/-! What a fault leaves behind. A step asks its memory everything that it may have to refuse for
before it changes anything; the one exception is an input value, which is taken before the bounds of
its destination are looked at. Main statement: a step that fails changes the pointer, the record of
the fault and the two closed sides, and it loses an input value in just this one case. -/
namespace IntcodeVM

/-- A port that refuses says so with a port fault and stays as it is. -/
structure Wiring.RefusesCleanly {σ : Type} (w : Wiring σ) : Prop where
  pull {ports after : σ} {cause : Cause} : w.pull ports = (.refused cause, after) →
    cause.family = .port ∧ after = ports
  push {ports after : σ} {value : Int} {cause : Cause} : w.push value ports = (some cause, after) →
    cause.family = .port ∧ after = ports

namespace Cpu

variable {σ : Type}

/-- An input instruction has found its destination behind the end of memory. -/
def StoresBeyondEnd (cpu : Cpu) (cause : Cause) : Prop :=
  ∃ word mode dst, cpu.memory.read cpu.ip = .ok word ∧
    Instruction.decode word = .ok (.input mode) ∧
    operandAddress cpu.memory cpu.base (cpu.ip + 1) 0 mode = .ok dst ∧
    (cpu.memory.size : Int) ≤ dst ∧ cause = .outOfBounds dst cpu.memory.size

/-- The state after a fault against the state before the step. -/
structure FaultFrame (w : Wiring σ) (cpu : Cpu) (ports : σ) (fault : Fault) (next : Cpu)
    (after : σ) : Prop where
  name : next.name = cpu.name
  memory : next.memory = cpu.memory
  base : next.base = cpu.base
  halted : next.halted = cpu.halted
  steps : next.steps = cpu.steps
  lastOpcode : next.lastOpcode = cpu.lastOpcode
  lastOutput : next.lastOutput = cpu.lastOutput
  ip : next.ip = if (cpu.memory.read cpu.ip).isOk then cpu.ip + 1 else cpu.ip
  recorded : next.fault = some fault
  place : fault.ip = some cpu.ip
  kept : ¬ cpu.StoresBeyondEnd fault.cause →
    next.phase = cpu.phase ∧ after = w.closeOutput (w.closeInput ports)
  lost : cpu.StoresBeyondEnd fault.cause → next.phase = none ∧ ∃ value left,
    (cpu.phase = some value ∧ left = ports ∨
      cpu.phase = none ∧ w.pull ports = (.value value, left)) ∧
    after = w.closeOutput (w.closeInput left)

theorem prepare_eq_take {cpu : Cpu} {word dst : Int} {op : Opcode}
    (h : cpu.prepare word = .ok (op, .take dst)) :
    ∃ mode, Instruction.decode word = .ok (.input mode) ∧
      operandAddress cpu.memory cpu.base (cpu.ip + 1) 0 mode = .ok dst := by
  obtain ⟨decoded, located, hd, hl, he, -⟩ := prepare_eq_ok_iff.1 h
  have isInput := Opcode.eq_input_of_allows (Instruction.allows_of_effect he)
  obtain ⟨addr, rfl⟩ := Instruction.eq_input_of_opcode isInput
  cases he
  obtain ⟨mode, rfl⟩ := Instruction.eq_input_of_opcode (opcode_of_locate hl).symm
  obtain ⟨found, located, same⟩ := map_eq_ok_iff.1 hl
  cases same
  exact ⟨mode, hd, by simpa using located⟩

theorem prepare_of_input {cpu : Cpu} {word dst : Int} {mode : Mode}
    (decoded : Instruction.decode word = .ok (.input mode))
    (found : operandAddress cpu.memory cpu.base (cpu.ip + 1) 0 mode = .ok dst) :
    cpu.prepare word = .ok (.input, .take dst) := by
  simp [prepare, decoded, locate, Instruction.numbered, Instruction.mapM, found,
    Instruction.effect, Instruction.opcode]

theorem nonneg_of_operandAddress {m : Memory} {base slot addr : Int} {index : Nat} {mode : Mode}
    (h : operandAddress m base slot index mode = .ok addr) : 0 ≤ addr := by
  let p : ByValue.Parameter := ⟨index, slot, mode⟩
  have located := (ByValue.operandAddress_eq m base p).symm.trans h
  obtain ⟨⟨⟩, checked, same⟩ := bind_eq_ok_iff.1 located
  have found := ByValue.destination_of_check checked
  rw [ByValue.check_of_destination found] at checked
  cases same
  by_cases negative : p.address m base < 0
  · simp [negative] at checked
  · exact Int.not_lt.1 negative

end Cpu

theorem Memory.index_eq_error_iff {m : Memory} {addr : Int} {cause : Cause} (h : 0 ≤ addr) :
    m.index addr = .error cause ↔ (m.size : Int) ≤ addr ∧ cause = .outOfBounds addr m.size := by
  have low : ¬ addr < 0 := by omega
  by_cases high : m.size ≤ addr.toNat
  · have beyond : (m.size : Int) ≤ addr := by omega
    simp [Memory.index, low, high, beyond, eq_comm]
  · have inside : ¬ (m.size : Int) ≤ addr := by omega
    simp [Memory.index, low, high, inside]

namespace Cpu

theorem storesBeyondEnd_of_take {cpu : Cpu} {op : Opcode} {dst : Int} {cause : Cause}
    (intends : cpu.Intends op (.take dst)) (h : cpu.memory.index dst = .error cause) :
    cpu.StoresBeyondEnd cause := by
  obtain ⟨_, word, fetched, prepared⟩ := intends
  obtain ⟨mode, decoded, found⟩ := prepare_eq_take prepared
  obtain ⟨beyond, rfl⟩ := (Memory.index_eq_error_iff (nonneg_of_operandAddress found)).1 h
  exact ⟨word, mode, dst, fetched, decoded, found, beyond, rfl⟩

theorem StoresBeyondEnd.prepared {cpu : Cpu} {word : Int} {cause : Cause}
    (h : cpu.StoresBeyondEnd cause) (fetched : cpu.memory.read cpu.ip = .ok word) :
    ∃ dst, cpu.prepare word = .ok (.input, .take dst) := by
  obtain ⟨other, mode, dst, read, decoded, found, _, _⟩ := h
  cases read.symm.trans fetched
  exact ⟨dst, prepare_of_input decoded found⟩

theorem not_storesBeyondEnd_of_port {cpu : Cpu} {cause : Cause} (h : cause.family = .port) :
    ¬ cpu.StoresBeyondEnd cause := by
  rintro ⟨_, _, _, _, _, _, _, rfl⟩
  cases h

theorem FaultFrame.of_faulted {w : Wiring σ} {cpu met : Cpu} {ports left : σ} {cause : Cause}
    {wordRead : Bool} (legible : cause.isLegible = true) (same : met = { cpu with phase := met.phase })
    (read : wordRead = (cpu.memory.read cpu.ip).isOk)
    (kept : ¬ cpu.StoresBeyondEnd cause → met.phase = cpu.phase ∧ left = ports)
    (lost : cpu.StoresBeyondEnd cause → met.phase = none ∧ ∃ value,
      cpu.phase = some value ∧ left = ports ∨
        cpu.phase = none ∧ w.pull ports = (.value value, left)) :
    FaultFrame w cpu ports ⟨cause, some cpu.ip⟩ (met.faulted (.cause cause) wordRead)
      (w.closeOutput (w.closeInput left)) := by
  rw [same] at kept lost ⊢
  refine ⟨rfl, rfl, rfl, rfl, rfl, rfl, rfl, by rw [read]; rfl, Snag.fault?_cause legible _, rfl,
    ?_, ?_⟩
  · intro elsewhere
    obtain ⟨phase, rfl⟩ := kept elsewhere
    exact ⟨phase, rfl⟩
  · intro beyond
    obtain ⟨phase, value, source⟩ := lost beyond
    exact ⟨phase, value, left, source, rfl⟩

/-- Each of the six ways to fail keeps to the frame. -/
theorem Fails.frame {w : Wiring σ} (clean : w.RefusesCleanly) {cpu met : Cpu} {ports left : σ}
    {cause : Cause} {wordRead : Bool} (fails : Fails w cpu ports (.cause cause) wordRead met left)
    (legible : cause.isLegible = true) :
    FaultFrame w cpu ports ⟨cause, some cpu.ip⟩ (met.faulted (.cause cause) wordRead)
      (w.closeOutput (w.closeInput left)) := by
  have read : ∀ {op effect}, cpu.Intends op effect → true = (cpu.memory.read cpu.ip).isOk := by
    rintro op effect ⟨_, word, fetched, _⟩
    rw [fetched]
    rfl
  cases fails with
  | fetch live fetched =>
    refine .of_faulted legible rfl (by rw [fetched]; rfl) (fun _ => ⟨rfl, rfl⟩) ?_
    rintro ⟨word, _, _, read, _⟩
    cases read.symm.trans fetched
  | prepare live fetched prepared =>
    refine .of_faulted legible rfl (by rw [fetched]; rfl) (fun _ => ⟨rfl, rfl⟩) ?_
    intro beyond
    obtain ⟨dst, other⟩ := beyond.prepared fetched
    cases other.symm.trans prepared
  | lostPhase intends primed outside =>
    have beyond := storesBeyondEnd_of_take intends outside
    exact .of_faulted legible rfl (read intends) (fun h => absurd beyond h)
      (fun _ => ⟨rfl, _, .inl ⟨primed, rfl⟩⟩)
  | lostInput intends unprimed outside pulled =>
    have beyond := storesBeyondEnd_of_take intends outside
    exact .of_faulted legible rfl (read intends) (fun h => absurd beyond h)
      (fun _ => ⟨unprimed, _, .inr ⟨unprimed, pulled⟩⟩)
  | noInput intends unprimed pulled =>
    obtain ⟨port, rfl⟩ := clean.pull pulled
    exact .of_faulted legible rfl (read intends) (fun _ => ⟨rfl, rfl⟩)
      (fun beyond => absurd beyond (not_storesBeyondEnd_of_port port))
  | noOutput intends pushed =>
    obtain ⟨port, rfl⟩ := clean.push pushed
    exact .of_faulted legible rfl (read intends) (fun _ => ⟨rfl, rfl⟩)
      (fun beyond => absurd beyond (not_storesBeyondEnd_of_port port))

end Cpu

theorem Amplifier.Circuit.link_refusesCleanly (input output : Nat) :
    (link input output).RefusesCleanly where
  pull := by
    intro channels after cause h
    obtain ⟨_, _, rfl, rfl⟩ := link_pull_refused_iff.1 h
    exact ⟨rfl, rfl⟩
  push := by
    intro channels after value cause h
    obtain ⟨_, rfl, rfl⟩ := link_push_refused_iff.1 h
    exact ⟨rfl, rfl⟩

theorem Machine.wiring_refusesCleanly : Machine.wiring.RefusesCleanly where
  pull := by
    rintro ⟨input, output⟩ after cause h
    rcases pulled : input.pull with ⟨answer, left⟩
    simp only [wiring, pulled] at h
    cases h
    obtain ⟨_, _, rfl, rfl⟩ := Channel.pull_refused_iff.1 pulled
    exact ⟨rfl, rfl⟩
  push := by
    rintro ⟨input, output⟩ after value cause h
    rcases pushed : output.push value with ⟨answer, left⟩
    simp only [wiring, pushed] at h
    cases h
    obtain ⟨_, port, rfl⟩ := Sink.push_refused pushed
    exact ⟨port, rfl⟩

theorem Hull.Rig.wiring_refusesCleanly : Rig.wiring.RefusesCleanly where
  pull := by
    intro rig after cause h
    cases closed : rig.cameraClosed with
    | false => simp [wiring, look, closed] at h
    | true =>
      simp only [wiring, look, closed, if_true] at h
      cases h
      exact ⟨rfl, rfl⟩
  push := by
    intro rig after value cause h
    cases closed : rig.sink.closed with
    | false => simp [wiring, Collector.push, closed] at h
    | true =>
      simp only [wiring, Collector.push, closed, if_true] at h
      cases h
      exact ⟨rfl, rfl⟩

/-- The ports of a machine on its own after a fault, besides what holds of every machine. -/
structure Machine.FaultFrame (m : Machine) (fault : Fault) (next : Machine) : Prop extends
    Cpu.FaultFrame wiring m.cpu (m.input, m.output) fault next.cpu (next.input, next.output) where
  receiverClosed : next.input.receiverClosed = true
  senderClosed : next.output.senderClosed = true
  delivered : next.output.delivered = m.output.delivered
  queueKept : ¬ m.cpu.StoresBeyondEnd fault.cause → next.input.queue = m.input.queue
  queueLost : m.cpu.StoresBeyondEnd fault.cause →
    (m.cpu.phase.isSome → next.input.queue = m.input.queue) ∧
    (m.cpu.phase = none → ∃ value, m.input.queue = value :: next.input.queue)

theorem Machine.frame_of_cpu {m next : Machine} {fault : Fault}
    (frame : Cpu.FaultFrame wiring m.cpu (m.input, m.output) fault next.cpu
      (next.input, next.output)) : m.FaultFrame fault next := by
  have closed : ∃ left, next.input = Channel.closeReceiver left ∧ next.output = m.output.close ∧
      (¬ m.cpu.StoresBeyondEnd fault.cause → left = m.input) ∧
      (m.cpu.StoresBeyondEnd fault.cause → (m.cpu.phase.isSome → left = m.input) ∧
        (m.cpu.phase = none → ∃ value, m.input.queue = value :: left.queue)) := by
    by_cases beyond : m.cpu.StoresBeyondEnd fault.cause
    · obtain ⟨_, value, left, source, same⟩ := frame.lost beyond
      obtain ⟨hi, ho⟩ := Prod.mk.inj same
      rcases source with ⟨primed, rfl⟩ | ⟨unprimed, h⟩
      · exact ⟨m.input, hi, ho, fun _ => rfl, fun _ => ⟨fun _ => rfl, by simp [primed]⟩⟩
      · rcases pulled : m.input.pull with ⟨answer, rest⟩
        simp only [wiring, pulled] at h
        cases h
        have taken := Channel.pull_value_iff.1 pulled
        exact ⟨rest, hi, ho, fun h => absurd beyond h,
          fun _ => ⟨by simp [unprimed], fun _ => ⟨value, taken.queue⟩⟩⟩
    · obtain ⟨hi, ho⟩ := Prod.mk.inj (frame.kept beyond).2
      exact ⟨m.input, hi, ho, fun _ => rfl, fun h => absurd h beyond⟩
  obtain ⟨left, hi, ho, kept, lost⟩ := closed
  have queue : next.input.queue = left.queue := by rw [hi]; rfl
  refine ⟨frame, by rw [hi]; rfl, by rw [ho, Sink.senderClosed_close],
    by rw [ho, Sink.delivered_close], ?_, ?_⟩
  · intro elsewhere
    rw [queue, kept elsewhere]
  · intro beyond
    obtain ⟨primed, unprimed⟩ := lost beyond
    rw [queue]
    exact ⟨fun h => by rw [primed h], unprimed⟩

/-- A step that fails keeps to the frame, at every kind of ports and at those of a machine on its
own in particular. -/
theorem fault_keeps_frame :
    (∀ {σ : Type} (w : Wiring σ), w.RefusesCleanly →
      ∀ (cpu next : Cpu) (ports after : σ) (fault : Fault),
        cpu.step w ports = (.stopped (.fault fault), next, after) →
        Cpu.FaultFrame w cpu ports fault next after) ∧
    (∀ input output : Nat, (Amplifier.Circuit.link input output).RefusesCleanly) ∧
    Hull.Rig.wiring.RefusesCleanly ∧
    ∀ (m next : Machine) (fault : Fault), m.step = (.stopped (.fault fault), next) →
      m.FaultFrame fault next := by
  have keeps : ∀ {σ : Type} (w : Wiring σ), w.RefusesCleanly →
      ∀ (cpu next : Cpu) (ports after : σ) (fault : Fault),
        cpu.step w ports = (.stopped (.fault fault), next, after) →
        Cpu.FaultFrame w cpu ports fault next after := by
    intro σ w clean cpu next ports after fault h
    obtain ⟨cause, wordRead, met, left, fails, legible, rfl, rfl, rfl⟩ := Cpu.step_fault_iff.1 h
    exact fails.frame clean legible
  refine ⟨keeps, Amplifier.Circuit.link_refusesCleanly, Hull.Rig.wiring_refusesCleanly, ?_⟩
  intro m next fault h
  rcases stepped : m.cpu.step Machine.wiring (m.input, m.output) with ⟨outcome, cpu, input, output⟩
  have same : Machine.assembled (outcome, cpu, input, output) = (.stopped (.fault fault), next) :=
    stepped ▸ h
  cases same
  exact Machine.frame_of_cpu (keeps _ Machine.wiring_refusesCleanly _ _ _ _ _ stepped)

/-- The one case in which an input value is lost. -/
theorem fault_keeps_frame_input_lost :
    let m : Machine := ⟨{ memory := .ofWords [3, 7] 0 }, .ofList [5, 6], .collector {}⟩
    m.step = (.stopped (.fault ⟨.outOfBounds 7 2, some 0⟩), m.step.2) ∧
      m.FaultFrame ⟨.outOfBounds 7 2, some 0⟩ m.step.2 ∧ m.step.2.input.queue = [6] := by
  intro m
  have outcome : m.step.1 = .stopped (.fault ⟨.outOfBounds 7 2, some 0⟩) := by decide +kernel
  have stepped : m.step = (.stopped (.fault ⟨.outOfBounds 7 2, some 0⟩), m.step.2) := by
    rw [← outcome]
  exact ⟨stepped, fault_keeps_frame.2.2.2 _ _ _ stepped, by decide +kernel⟩

end IntcodeVM
