import IntcodeVM.Machine
import IntcodeVM.Proofs.Machine.AnchoredOperands

/-! Relative addressing as position addressing. The machine with an anchored instruction differs in a few
cells, and nothing that a step writes is one of them. Main statement: the anchored instruction does what
the other one does, as long as no parameter leads to a cell in which they differ. -/
namespace IntcodeVM

namespace Cause

/-- The same cause, but for the mode that a negative operand is said to have. -/
inductive Alike : Cause → Cause → Prop
  | refl (cause : Cause) : Alike cause cause
  | operand (addr : Int) (mode other : Mode) (index : Nat) :
    Alike (.negativeOperand addr mode index) (.negativeOperand addr other index)

theorem alike_anchored (cause : Cause) (chosen : List Nat) :
    cause.Alike (cause.anchored chosen) := by
  cases cause with
  | negativeOperand addr mode index => exact .operand addr mode _ index
  | negativeWord | unknownOpcode | unknownMode | negativeAddress | outOfBounds | sourceTerminated
    | sinkTerminated | missingTurn => exact .refl _

theorem Alike.isLegible {cause other : Cause} (alike : cause.Alike other) :
    other.isLegible = cause.isLegible := by
  cases alike with
  | refl => rfl
  | operand => rfl

end Cause

inductive Snag.Alike : Snag → Snag → Prop
  | cause {cause other : Cause} : cause.Alike other → Alike (.cause cause) (.cause other)
  | untold (value : Int) : Alike (.untold value) (.untold value)

structure Fault.Alike (f g : Fault) : Prop where
  cause : f.cause.Alike g.cause
  ip : g.ip = f.ip

inductive Outcome.Alike : Outcome → Outcome → Prop
  | same (outcome : Outcome) : Alike outcome outcome
  | fault {f g : Fault} : f.Alike g → Alike (.stopped (.fault f)) (.stopped (.fault g))
  | unworded {snag other : Snag} : snag.Alike other →
    Alike (.stopped (.unworded snag)) (.stopped (.unworded other))

namespace Snag.Alike

variable {snag other : Snag} {ip : Option Int}

theorem fault? (alike : snag.Alike other) (ip : Option Int) :
    Option.Rel Fault.Alike (snag.fault? ip) (other.fault? ip) := by
  cases alike with
  | untold value => exact .none
  | @cause cause other alike =>
    simp only [Snag.fault?, alike.isLegible]
    cases cause.isLegible with
    | true => exact .some ⟨alike, rfl⟩
    | false => exact .none

theorem stop (alike : snag.Alike other) (ip : Option Int) :
    Outcome.Alike (.stopped (snag.stop ip)) (.stopped (other.stop ip)) := by
  have faults := alike.fault? ip
  unfold Snag.stop
  generalize snag.fault? ip = here at faults
  generalize other.fault? ip = there at faults
  cases faults with
  | none => exact .unworded alike
  | some alike => exact .fault alike

theorem isWorded (alike : snag.Alike other) : other.isWorded = snag.isWorded := by
  have faults := alike.fault? none
  unfold Snag.isWorded
  generalize snag.fault? none = here at faults
  generalize other.fault? none = there at faults
  cases faults with
  | none => rfl
  | some => rfl

end Snag.Alike

theorem Instruction.mem_of_take {m : Memory} {i : Instruction Int} {dst : Int}
    (h : i.effect m = .ok (.take dst)) : dst ∈ i.toList := by
  obtain ⟨addr, rfl⟩ := eq_input_of_opcode (Opcode.eq_input_of_allows (allows_of_effect h))
  cases h
  exact List.mem_singleton_self dst

namespace Cpu

variable {σ : Type} {w : Wiring σ} {cpu met : Cpu} {ports : σ} {chosen : List Nat} {word : Int}
  {located : Instruction Int} {snag other : Snag}

/-- A step against the step of the machine with its instruction anchored. -/
structure SameStep (cpu : Cpu) (chosen : List Nat) (here there : Outcome × Cpu × σ) : Prop where
  outcome : here.1.Alike there.1
  ports : there.2.2 = here.2.2
  registers : there.2.1 = { here.2.1 with memory := there.2.1.memory, fault := there.2.1.fault }
  fault : Option.Rel Fault.Alike here.2.1.fault there.2.1.fault
  size : there.2.1.memory.size = here.2.1.memory.size
  outside {addr : Int} : ¬ cpu.Rewrites chosen addr →
    there.2.1.memory.read addr = here.2.1.memory.read addr
  kept {addr : Int} : cpu.Rewrites chosen addr →
    here.2.1.memory.read addr = cpu.memory.read addr ∧
      there.2.1.memory.read addr = (cpu.anchored chosen).memory.read addr

/-- The memory of another state of the machine, with the instruction anchored. -/
def withAnchor (met cpu : Cpu) (chosen : List Nat) : Cpu :=
  { met with memory := met.memory.rewritten (cpu.anchorWord chosen) }

/-- Nothing was written to the cells in which the anchored instruction differs. -/
def Spares (met cpu : Cpu) (chosen : List Nat) : Prop :=
  ∀ addr, cpu.Rewrites chosen addr → met.memory.read addr = cpu.memory.read addr

theorem sameStep_of_spares {here there : Outcome × Cpu × σ} (outcome : here.1.Alike there.1)
    (ports : there.2.2 = here.2.2)
    (state : there.2.1 = { here.2.1.withAnchor cpu chosen with fault := there.2.1.fault })
    (fault : Option.Rel Fault.Alike here.2.1.fault there.2.1.fault)
    (spares : here.2.1.Spares cpu chosen) : SameStep cpu chosen here there := by
  have memory : there.2.1.memory = here.2.1.memory.rewritten (cpu.anchorWord chosen) := by
    rw [state]
    rfl
  refine ⟨outcome, ports, ?_, fault, ?_, fun spared => ?_, fun rewritten => ?_⟩
  · rw [state]
    rfl
  · rw [memory, Memory.size_rewritten]
  · rw [memory, read_anchored_of_spared spared]
  · have kept := spares _ rewritten
    rw [memory, Memory.read_rewritten, kept]
    exact ⟨rfl, (Memory.read_rewritten ..).symm⟩

theorem sameStep_complete (spares : met.Spares cpu chosen) (op : Opcode) (ip : Int) (ports : σ) :
    SameStep cpu chosen (complete op ip met ports)
      (complete op ip (met.withAnchor cpu chosen) ports) := by
  refine sameStep_of_spares (.same _) rfl rfl ?_ spares
  show Option.Rel Fault.Alike met.fault met.fault
  cases met.fault with
  | none => exact .none
  | some fault => exact .some ⟨.refl _, rfl⟩

theorem sameStep_abort (spares : met.Spares cpu chosen) (alike : snag.Alike other)
    (wordRead : Bool) (ports : σ) :
    SameStep cpu chosen (met.abort w snag wordRead ports)
      ((met.withAnchor cpu chosen).abort w other wordRead ports) := by
  refine sameStep_of_spares (alike.stop _) ?_ rfl (alike.fault? _) spares
  simp only [abort, alike.isWorded]

theorem spares_put {cell : Nat} (spares : met.Spares cpu chosen)
    (apart : ¬ cpu.Rewrites chosen cell) (inside : cell < met.memory.size) (value : Int) :
    Spares { met with memory := met.memory.put cell value } cpu chosen := by
  intro addr rewritten
  rw [Memory.read_put inside, if_neg]
  · exact spares addr rewritten
  · rintro rfl
    exact apart rewritten

theorem put_withAnchor {cell : Nat} (apart : ¬ cpu.Rewrites chosen cell) (met : Cpu) (value : Int) :
    (met.withAnchor cpu chosen).memory.put cell value =
      (met.memory.put cell value).rewritten (cpu.anchorWord chosen) :=
  Memory.put_rewritten (anchorWord_of_spared apart value)

theorem sameStep_receive {dst : Int} (spares : met.Spares cpu chosen)
    (apart : ¬ cpu.Rewrites chosen dst) (value : Int) (ports : σ) :
    SameStep cpu chosen (met.receive w dst value ports)
      ((met.withAnchor cpu chosen).receive w dst value ports) := by
  have index : (met.withAnchor cpu chosen).memory.index dst = met.memory.index dst :=
    Memory.index_rewritten _ _ dst
  unfold receive
  rw [index]
  cases found : met.memory.index dst with
  | error cause => exact sameStep_abort spares (.cause (.refl cause)) true ports
  | ok cell =>
    obtain ⟨rfl, inside⟩ := Memory.index_eq_ok_iff.1 found
    dsimp only
    rw [put_withAnchor apart]
    exact sameStep_complete (spares_put spares apart inside value) _ _ ports

/-- An effect that leads to none of the cells in which the machines differ. -/
def Apart (cpu : Cpu) (chosen : List Nat) : Effect → Prop
  | .store cell _ => ¬ cpu.Rewrites chosen cell ∧ cell < cpu.memory.size
  | .take dst => ¬ cpu.Rewrites chosen dst
  | _ => True

theorem sameStep_perform {effect : Effect} (apart : cpu.Apart chosen effect) (op : Opcode)
    (ports : σ) :
    SameStep cpu chosen (cpu.perform w op effect ports)
      ((cpu.anchored chosen).perform w op effect ports) := by
  have spares : cpu.Spares cpu chosen := fun _ _ => rfl
  cases effect with
  | store cell value =>
    obtain ⟨apart, inside⟩ := apart
    have stored := sameStep_complete (spares_put spares apart inside value) op (cpu.following op) ports
    rwa [withAnchor, ← put_withAnchor apart cpu value] at stored
  | take dst =>
    have phase : (cpu.anchored chosen).phase = cpu.phase := rfl
    simp only [perform, phase]
    cases cpu.phase with
    | some value =>
      have spares : Spares { cpu with phase := none } cpu chosen := spares
      exact sameStep_receive spares apart value ports
    | none =>
      rcases w.pull ports with ⟨pulled, after⟩
      cases pulled with
      | value value => exact sameStep_receive spares apart value after
      | refused cause => exact sameStep_abort spares (.cause (.refl cause)) true after
      | waiting =>
        refine sameStep_of_spares (.same _) rfl rfl ?_ spares
        show Option.Rel Fault.Alike cpu.fault cpu.fault
        cases cpu.fault with
        | none => exact .none
        | some fault => exact .some ⟨.refl _, rfl⟩
  | emit value =>
    simp only [perform]
    rcases w.push value ports with ⟨refused, after⟩
    cases refused with
    | some cause => exact sameStep_abort spares (.cause (.refl cause)) true after
    | none =>
      have spares : Spares { cpu with lastOutput := some value } cpu chosen := spares
      cases w.tells value with
      | true => exact sameStep_complete spares _ _ after
      | false => exact sameStep_abort spares (.untold value) true after
  | jump target => exact sameStep_complete spares op target ports
  | fallThrough => exact sameStep_complete spares op _ ports
  | shift delta =>
    have spares : Spares { cpu with base := cpu.base + delta } cpu chosen := spares
    exact sameStep_complete spares _ _ ports
  | halt =>
    have spares : Spares { cpu with halted := true } cpu chosen := spares
    exact sameStep_complete spares _ _ _

theorem apart_of_located {effect : Effect} (found : located.effect cpu.memory = .ok effect)
    (apart : ∀ addr ∈ located.toList, ¬ cpu.Rewrites chosen addr) : cpu.Apart chosen effect := by
  cases effect with
  | store cell value =>
    obtain ⟨dst, mem, index⟩ := Instruction.index_of_store found
    obtain ⟨rfl, inside⟩ := Memory.index_eq_ok_iff.1 index
    exact ⟨apart _ mem, inside⟩
  | take dst => exact apart dst (Instruction.mem_of_take found)
  | emit | jump | fallThrough | shift | halt => trivial

/-- Relative addressing is position addressing at the base plus what the parameter says. A step from a
state in which some relative parameters of the instruction are written as positions goes as it went
before, for every operation and every mixture of modes, to the same registers and the same ports or to
the same fault, as long as no parameter leads to a cell that was rewritten. Those cells keep what they
held; all others agree. -/
theorem relative_is_position (w : Wiring σ) (cpu : Cpu) (ports : σ) (chosen : List Nat) {word : Int}
    {i : Instruction Mode} (live : cpu.refusal? = none)
    (fetched : cpu.memory.read cpu.ip = .ok word) (decoded : Instruction.decode word = .ok i)
    (relative : ∀ index ∈ chosen, i.toList[index]? = some .relative)
    (apart : cpu.LeadsApart chosen i) :
    SameStep cpu chosen (cpu.step w ports) ((cpu.anchored chosen).step w ports) := by
  have live' : (cpu.anchored chosen).refusal? = none := live
  have fetched' : (cpu.anchored chosen).memory.read (cpu.anchored chosen).ip =
      .ok (Instruction.clearModes word chosen) := by
    show (cpu.memory.rewritten (cpu.anchorWord chosen)).read cpu.ip = _
    rw [Memory.read_rewritten, fetched]
    exact congrArg Except.ok (if_pos rfl)
  have prepared := prepare_anchored decoded relative apart
  simp only [step, live, live', fetched, fetched', prepared]
  cases effect : cpu.prepare word with
  | error cause => exact sameStep_abort (fun _ _ => rfl) (.cause (cause.alike_anchored chosen)) true ports
  | ok intent =>
    obtain ⟨op, effect⟩ := intent
    obtain ⟨_, located, same, found, evaluated, -⟩ := prepare_eq_ok_iff.1 effect
    cases decoded.symm.trans same
    exact sameStep_perform (apart_of_located evaluated (apart located found)) op ports

/-- A product that goes back into one of its factors, below a base of minus four: the factor that it goes
into is given by its address, the other one still by the base. -/
theorem relative_is_position_aliased :
    let cpu : Cpu := { memory := .ofWords [22202, 9, 10, 9, 99, 7, 6] 0, base := -4 }
    let ports : Machine.Ports := (.ofList [], .collector {})
    (cpu.anchored [0, 2]).memory.toList = [2002, 5, 10, 5, 99, 7, 6] ∧
      SameStep cpu [0, 2] (cpu.step Machine.wiring ports)
        ((cpu.anchored [0, 2]).step Machine.wiring ports) ∧
      ((cpu.anchored [0, 2]).step Machine.wiring ports).2.1.memory.toList =
        [2002, 5, 10, 5, 99, 42, 6] := by
  intro cpu ports
  have found : locate cpu.memory cpu.base (cpu.ip + 1) (.mul .relative .relative .relative) =
      .ok (.mul 5 6 5) := by decide
  have apart : cpu.LeadsApart [0, 2] (.mul .relative .relative .relative) := by
    rintro located same addr mem ⟨index, chosen, rewritten⟩
    cases found.symm.trans same
    have leads : addr = 5 ∨ addr = 6 := by simpa [Instruction.toList, or_comm] using mem
    have first : cpu.ip = 0 := rfl
    have early : index = 0 ∨ index = 2 := by simpa using chosen
    omega
  exact ⟨by decide, relative_is_position Machine.wiring cpu ports [0, 2] rfl rfl
    (i := .mul .relative .relative .relative) (by decide) (by decide) apart, by decide⟩

end Cpu

end IntcodeVM
