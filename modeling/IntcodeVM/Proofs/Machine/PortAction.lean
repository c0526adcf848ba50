import IntcodeVM.Cpu.Step

/-! A step seen from its ports. A machine finds out alone what it will ask for; the ports answer, and
the rest is settled again by the machine. Main statements: a step runs exactly when its request is
answered, and it fails exactly for one of seven reasons. -/
namespace IntcodeVM

/-- What a step that ran had from its ports. -/
inductive PortAction where
  | quiet
  | took (value : Int)
  | sent (value : Int)
  | ended
  deriving DecidableEq, Repr

/-- The ports carry out an action and are `after` it what they are. -/
def PortAction.Answered {σ : Type} (w : Wiring σ) : PortAction → σ → σ → Prop
  | quiet, ports, after => after = ports
  | took value, ports, after => w.pull ports = (.value value, after)
  | sent value, ports, after => w.push value ports = (none, after) ∧ w.tells value = true
  | ended, ports, after => after = w.closeOutput ports

/-- What a failed step leaves of the ports: they are closed if there is a fault. -/
def Wiring.left {σ : Type} (w : Wiring σ) (snag : Snag) (ports : σ) : σ :=
  if snag.isWorded then w.closeOutput (w.closeInput ports) else ports

theorem Snag.fault?_cause {cause : Cause} (legible : cause.isLegible = true) (ip : Option Int) :
    (Snag.cause cause).fault? ip = some ⟨cause, ip⟩ := by
  simp [Snag.fault?, legible]

theorem Snag.stop_cause {cause : Cause} (legible : cause.isLegible = true) (ip : Option Int) :
    (Snag.cause cause).stop ip = .fault ⟨cause, ip⟩ := by
  simp [Snag.stop, Snag.fault?_cause legible]

theorem Snag.stop_cause_eq_fault_iff {cause : Cause} {ip : Option Int} {fault : Fault} :
    (Snag.cause cause).stop ip = .fault fault ↔ cause.isLegible = true ∧ fault = ⟨cause, ip⟩ := by
  cases legible : cause.isLegible with
  | true => simp [Snag.stop_cause legible, eq_comm]
  | false => simp [Snag.stop, Snag.fault?, legible]

/-- A snag comes to a fault, or else the step breaks off. -/
theorem Snag.cases (snag : Snag) (ip : Option Int) :
    (∃ cause, snag = .cause cause ∧ cause.isLegible = true ∧ snag.isWorded = true ∧
        snag.fault? ip = some ⟨cause, ip⟩ ∧ snag.stop ip = .fault ⟨cause, ip⟩) ∨
      snag.isWorded = false ∧ snag.fault? ip = none ∧ snag.stop ip = .unworded snag := by
  cases snag with
  | untold value => exact .inr ⟨rfl, rfl, rfl⟩
  | cause cause =>
    cases legible : cause.isLegible with
    | true =>
      exact .inl ⟨cause, rfl, legible, by simp [isWorded, fault?, legible], fault?_cause legible ip,
        stop_cause legible ip⟩
    | false => exact .inr (by simp [isWorded, fault?, stop, legible])

theorem Snag.stop_inj {snag other : Snag} {ip place : Option Int}
    (same : snag.stop ip = other.stop place) : snag = other := by
  rcases snag.cases ip with ⟨cause, rfl, -, -, -, here⟩ | ⟨-, -, here⟩ <;>
    rcases other.cases place with ⟨cause', rfl, -, -, -, there⟩ | ⟨-, -, there⟩ <;>
    cases here.symm.trans (same.trans there) <;> rfl

theorem Snag.stop_ne_waiting (snag : Snag) (ip : Option Int) : snag.stop ip ≠ .waiting := by
  rcases snag.cases ip with ⟨_, -, -, -, -, same⟩ | ⟨-, -, same⟩
  · exact same ▸ nofun
  · exact same ▸ nofun

theorem Snag.stop_ne_unfinished (snag : Snag) (ip : Option Int) : snag.stop ip ≠ .unfinished := by
  rcases snag.cases ip with ⟨_, -, -, -, -, same⟩ | ⟨-, -, same⟩
  · exact same ▸ nofun
  · exact same ▸ nofun

/-- What a step that fails gives for a reason. -/
def Stop.isFailure : Stop → Bool
  | fault _ | unworded _ => true
  | refused _ | waiting | unfinished => false

@[simp]
theorem Snag.isFailure_stop (snag : Snag) (ip : Option Int) : (snag.stop ip).isFailure = true := by
  rcases snag.cases ip with ⟨_, -, -, -, -, same⟩ | ⟨-, -, same⟩ <;> rw [same] <;> rfl

namespace Cpu

variable {σ : Type}

/-- A machine that has not ended stands at an instruction with this effect. -/
def Intends (cpu : Cpu) (op : Opcode) (effect : Effect) : Prop :=
  cpu.refusal? = none ∧
    ∃ word, cpu.memory.read cpu.ip = .ok word ∧ cpu.prepare word = .ok (op, effect)

def advanced (cpu : Cpu) (op : Opcode) (ip : Int) : Cpu :=
  { cpu with ip := ip, steps := cpu.steps + 1, lastOpcode := some op }

def faulted (cpu : Cpu) (snag : Snag) (wordRead : Bool) : Cpu :=
  { cpu with
    ip := if wordRead then cpu.ip + 1 else cpu.ip
    fault := snag.fault? (some cpu.ip) }

/-- Steps that run, with the action that the ports have to answer. -/
inductive Acts (cpu : Cpu) : Opcode → PortAction → Cpu → Prop
  | store {op : Opcode} {i : Nat} {value : Int} : cpu.Intends op (.store i value) →
      Acts cpu op .quiet
        ({ cpu with memory := cpu.memory.put i value }.advanced op (cpu.following op))
  | jump {op : Opcode} {target : Int} : cpu.Intends op (.jump target) →
      Acts cpu op .quiet (cpu.advanced op target)
  | fallThrough {op : Opcode} : cpu.Intends op .fallThrough →
      Acts cpu op .quiet (cpu.advanced op (cpu.following op))
  | shift {op : Opcode} {delta : Int} : cpu.Intends op (.shift delta) →
      Acts cpu op .quiet ({ cpu with base := cpu.base + delta }.advanced op (cpu.following op))
  | phase {op : Opcode} {dst value : Int} {i : Nat} : cpu.Intends op (.take dst) →
      cpu.phase = some value → cpu.memory.index dst = .ok i →
      Acts cpu .input .quiet
        ({ cpu with phase := none, memory := cpu.memory.put i value }.advanced .input
          (cpu.following .input))
  | take {op : Opcode} {dst : Int} {i : Nat} (value : Int) : cpu.Intends op (.take dst) →
      cpu.phase = none → cpu.memory.index dst = .ok i →
      Acts cpu .input (.took value)
        ({ cpu with memory := cpu.memory.put i value }.advanced .input (cpu.following .input))
  | emit {op : Opcode} {value : Int} : cpu.Intends op (.emit value) →
      Acts cpu op (.sent value)
        ({ cpu with lastOutput := some value }.advanced op (cpu.following op))
  | halt {op : Opcode} : cpu.Intends op .halt →
      Acts cpu op .ended ({ cpu with halted := true }.advanced op (cpu.following op))

/-- Steps that fail: the snag, whether the instruction word was read, and the machine and its ports
when the snag is met. -/
inductive Fails (w : Wiring σ) (cpu : Cpu) (ports : σ) : Snag → Bool → Cpu → σ → Prop
  | fetch {cause : Cause} : cpu.refusal? = none → cpu.memory.read cpu.ip = .error cause →
      Fails w cpu ports (.cause cause) false cpu ports
  | prepare {cause : Cause} {word : Int} : cpu.refusal? = none →
      cpu.memory.read cpu.ip = .ok word → cpu.prepare word = .error cause →
      Fails w cpu ports (.cause cause) true cpu ports
  | lostPhase {op : Opcode} {dst value : Int} {cause : Cause} : cpu.Intends op (.take dst) →
      cpu.phase = some value → cpu.memory.index dst = .error cause →
      Fails w cpu ports (.cause cause) true { cpu with phase := none } ports
  | lostInput {op : Opcode} {dst value : Int} {cause : Cause} {after : σ} :
      cpu.Intends op (.take dst) → cpu.phase = none → cpu.memory.index dst = .error cause →
      w.pull ports = (.value value, after) → Fails w cpu ports (.cause cause) true cpu after
  | noInput {op : Opcode} {dst : Int} {cause : Cause} {after : σ} : cpu.Intends op (.take dst) →
      cpu.phase = none → w.pull ports = (.refused cause, after) →
      Fails w cpu ports (.cause cause) true cpu after
  | noOutput {op : Opcode} {value : Int} {cause : Cause} {after : σ} :
      cpu.Intends op (.emit value) → w.push value ports = (some cause, after) →
      Fails w cpu ports (.cause cause) true cpu after
  | untold {op : Opcode} {value : Int} {after : σ} : cpu.Intends op (.emit value) →
      w.push value ports = (none, after) → w.tells value = false →
      Fails w cpu ports (.untold value) true { cpu with lastOutput := some value } after

theorem step_of_intends {cpu : Cpu} {op : Opcode} {effect : Effect} (h : cpu.Intends op effect)
    (w : Wiring σ) (ports : σ) : cpu.step w ports = cpu.perform w op effect ports := by
  obtain ⟨live, word, fetched, prepared⟩ := h
  simp only [step, live, fetched, prepared]

theorem step_of_acts {cpu next : Cpu} {op : Opcode} {action : PortAction} {w : Wiring σ}
    {ports after : σ} (acts : cpu.Acts op action next) (answered : action.Answered w ports after) :
    cpu.step w ports = (.ran op, next, after) := by
  cases acts with
  | store h | jump h | fallThrough h | shift h | halt h =>
    cases answered
    rw [step_of_intends h]
    rfl
  | phase h hp hi =>
    cases answered
    rw [step_of_intends h]
    simp only [perform, hp, receive, hi]
    rfl
  | take value h hp hi =>
    rw [step_of_intends h]
    simp only [PortAction.Answered] at answered
    simp only [perform, hp, answered, receive, hi]
    rfl
  | emit h =>
    rw [step_of_intends h]
    obtain ⟨pushed, told⟩ := answered
    simp only [perform, pushed, told]
    rfl

theorem step_of_fails {w : Wiring σ} {cpu met : Cpu} {ports after : σ} {snag : Snag}
    {wordRead : Bool} (fails : Fails w cpu ports snag wordRead met after) :
    cpu.step w ports = (.stopped (snag.stop (some cpu.ip)), met.faulted snag wordRead,
      w.left snag after) := by
  cases fails with
  | fetch live h => simp only [step, live, h]; rfl
  | prepare live h hp => simp only [step, live, h, hp]; rfl
  | lostPhase h hp hi =>
    rw [step_of_intends h]
    simp only [perform, hp, receive, hi]
    rfl
  | lostInput h hp hi pulled =>
    rw [step_of_intends h]
    simp only [perform, hp, pulled, receive, hi]
    rfl
  | noInput h hp pulled =>
    rw [step_of_intends h]
    simp only [perform, hp, pulled]
    rfl
  | noOutput h pushed =>
    rw [step_of_intends h]
    simp only [perform, pushed]
    rfl
  | untold h pushed untold =>
    rw [step_of_intends h]
    simp only [perform, pushed, untold]
    rfl

/-- A machine waits for a value that may still come. -/
def Waits (w : Wiring σ) (cpu : Cpu) (ports after : σ) : Prop :=
  ∃ op dst, cpu.Intends op (.take dst) ∧ cpu.phase = none ∧ w.pull ports = (.waiting, after)

theorem step_of_waits {w : Wiring σ} {cpu : Cpu} {ports after : σ} (h : Waits w cpu ports after) :
    cpu.step w ports = (.stopped .waiting, cpu, after) := by
  obtain ⟨op, dst, intends, hp, pulled⟩ := h
  rw [step_of_intends intends]
  simp only [perform, hp, pulled]

theorem step_of_refusal {w : Wiring σ} {cpu : Cpu} {r : Refusal} (h : cpu.refusal? = some r)
    (ports : σ) : cpu.step w ports = (.stopped (.refused r), cpu, ports) := by
  simp only [step, h]

theorem cases_of_take (w : Wiring σ) {cpu : Cpu} {op : Opcode} {dst : Int} (ports : σ)
    (intends : cpu.Intends op (.take dst)) :
    (∃ after, Waits w cpu ports after) ∨
      (∃ op action next after, cpu.Acts op action next ∧ action.Answered w ports after) ∨
      ∃ snag wordRead met after, Fails w cpu ports snag wordRead met after := by
  cases hp : cpu.phase with
  | some value =>
    cases hi : cpu.memory.index dst with
    | ok i => exact .inr (.inl ⟨_, _, _, _, .phase intends hp hi, rfl⟩)
    | error cause => exact .inr (.inr ⟨_, _, _, _, .lostPhase intends hp hi⟩)
  | none =>
    rcases hw : w.pull ports with ⟨pulled, after⟩
    cases pulled with
    | waiting => exact .inl ⟨after, op, dst, intends, hp, hw⟩
    | refused cause => exact .inr (.inr ⟨_, _, _, _, .noInput intends hp hw⟩)
    | value value =>
      cases hi : cpu.memory.index dst with
      | ok i => exact .inr (.inl ⟨_, _, _, _, .take value intends hp hi, hw⟩)
      | error cause => exact .inr (.inr ⟨_, _, _, _, .lostInput intends hp hi hw⟩)

theorem cases_of_intends (w : Wiring σ) {cpu : Cpu} {op : Opcode} {effect : Effect} (ports : σ)
    (intends : cpu.Intends op effect) :
    (∃ after, Waits w cpu ports after) ∨
      (∃ op action next after, cpu.Acts op action next ∧ action.Answered w ports after) ∨
      ∃ snag wordRead met after, Fails w cpu ports snag wordRead met after := by
  cases effect with
  | store i value => exact .inr (.inl ⟨_, _, _, _, .store intends, rfl⟩)
  | take dst => exact cases_of_take w ports intends
  | emit value =>
    rcases hw : w.push value ports with ⟨refused, after⟩
    cases refused with
    | none =>
      cases told : w.tells value with
      | true => exact .inr (.inl ⟨_, _, _, _, .emit intends, hw, told⟩)
      | false => exact .inr (.inr ⟨_, _, _, _, .untold intends hw told⟩)
    | some cause => exact .inr (.inr ⟨_, _, _, _, .noOutput intends hw⟩)
  | jump target => exact .inr (.inl ⟨_, _, _, _, .jump intends, rfl⟩)
  | fallThrough => exact .inr (.inl ⟨_, _, _, _, .fallThrough intends, rfl⟩)
  | shift delta => exact .inr (.inl ⟨_, _, _, _, .shift intends, rfl⟩)
  | halt => exact .inr (.inl ⟨_, _, _, _, .halt intends, rfl⟩)

/-- A machine that has not ended waits, acts or fails. -/
theorem cases_of_live (w : Wiring σ) {cpu : Cpu} (ports : σ) (live : cpu.refusal? = none) :
    (∃ after, Waits w cpu ports after) ∨
      (∃ op action next after, cpu.Acts op action next ∧ action.Answered w ports after) ∨
      ∃ snag wordRead met after, Fails w cpu ports snag wordRead met after := by
  cases fetched : cpu.memory.read cpu.ip with
  | error cause => exact .inr (.inr ⟨_, _, _, _, .fetch live fetched⟩)
  | ok word =>
    cases prepared : cpu.prepare word with
    | error cause => exact .inr (.inr ⟨_, _, _, _, .prepare live fetched prepared⟩)
    | ok intent => exact cases_of_intends w ports ⟨live, word, fetched, prepared⟩

theorem Acts.live {cpu next : Cpu} {op : Opcode} {action : PortAction}
    (acts : cpu.Acts op action next) : cpu.refusal? = none := by
  cases acts with
  | store h | jump h | fallThrough h | shift h | phase h | take _ h | emit h | halt h => exact h.1

theorem Fails.live {w : Wiring σ} {cpu met : Cpu} {ports after : σ} {snag : Snag}
    {wordRead : Bool} (fails : Fails w cpu ports snag wordRead met after) :
    cpu.refusal? = none := by
  cases fails with
  | fetch live | prepare live => exact live
  | lostPhase h | lostInput h | noInput h | noOutput h | untold h => exact h.1

theorem step_ran_iff {w : Wiring σ} {cpu next : Cpu} {op : Opcode} {ports after : σ} :
    cpu.step w ports = (.ran op, next, after) ↔
      ∃ action, cpu.Acts op action next ∧ action.Answered w ports after := by
  constructor
  · intro h
    cases live : cpu.refusal? with
    | some r => cases (step_of_refusal live ports).symm.trans h
    | none =>
      rcases cases_of_live w ports live with ⟨_, waits⟩ | ⟨_, action, _, _, acts, answered⟩ |
        ⟨_, _, _, _, fails⟩
      · cases (step_of_waits waits).symm.trans h
      · cases (step_of_acts acts answered).symm.trans h
        exact ⟨action, acts, answered⟩
      · cases (step_of_fails fails).symm.trans h
  · rintro ⟨action, acts, answered⟩
    exact step_of_acts acts answered

theorem fails_of_step {w : Wiring σ} {cpu next : Cpu} {stop : Stop} {ports after : σ}
    (stepped : cpu.step w ports = (.stopped stop, next, after)) (moved : stop ≠ .waiting)
    (live : cpu.refusal? = none) : ∃ snag wordRead met left, Fails w cpu ports snag wordRead met left ∧
      stop = snag.stop (some cpu.ip) ∧ next = met.faulted snag wordRead ∧ after = w.left snag left := by
  rcases cases_of_live w ports live with ⟨_, waits⟩ | ⟨_, action, _, _, acts, answered⟩ |
    ⟨snag, wordRead, met, left, fails⟩
  · cases (step_of_waits waits).symm.trans stepped
    exact absurd rfl moved
  · cases (step_of_acts acts answered).symm.trans stepped
  · cases (step_of_fails fails).symm.trans stepped
    exact ⟨snag, wordRead, met, left, fails, rfl, rfl, rfl⟩

theorem live_of_stopped {w : Wiring σ} {cpu next : Cpu} {stop : Stop} {ports after : σ}
    (stepped : cpu.step w ports = (.stopped stop, next, after)) (own : ∀ r, stop ≠ .refused r) :
    cpu.refusal? = none := by
  cases live : cpu.refusal? with
  | none => rfl
  | some r =>
    cases (step_of_refusal live ports).symm.trans stepped
    exact absurd rfl (own r)

theorem fails_of_failure {w : Wiring σ} {cpu next : Cpu} {stop : Stop} {ports after : σ}
    (stepped : cpu.step w ports = (.stopped stop, next, after)) (failure : stop.isFailure = true) :
    ∃ snag wordRead met left, Fails w cpu ports snag wordRead met left ∧
      stop = snag.stop (some cpu.ip) ∧ next = met.faulted snag wordRead ∧
      after = w.left snag left := by
  refine fails_of_step stepped ?_ (live_of_stopped stepped fun r => ?_)
  all_goals
    rintro rfl
    cases failure

theorem step_fault_iff {w : Wiring σ} {cpu next : Cpu} {fault : Fault} {ports after : σ} :
    cpu.step w ports = (.stopped (.fault fault), next, after) ↔
      ∃ cause wordRead met left, Fails w cpu ports (.cause cause) wordRead met left ∧
        cause.isLegible = true ∧ fault = ⟨cause, some cpu.ip⟩ ∧
        next = met.faulted (.cause cause) wordRead ∧ after = w.closeOutput (w.closeInput left) := by
  constructor
  · intro stepped
    obtain ⟨snag, wordRead, met, left, fails, same, rfl, rfl⟩ :=
      fails_of_step stepped nofun (live_of_stopped stepped nofun)
    rcases snag.cases (some cpu.ip) with ⟨cause, rfl, legible, worded, -, stop⟩ | ⟨-, -, stop⟩
    · cases same.trans stop
      exact ⟨cause, wordRead, met, left, fails, legible, rfl, rfl, if_pos worded⟩
    · cases same.trans stop
  · rintro ⟨cause, wordRead, met, left, fails, legible, rfl, rfl, rfl⟩
    have worded : (Snag.cause cause).isWorded = true := by simp [Snag.isWorded, Snag.fault?, legible]
    rw [step_of_fails fails, Snag.stop_cause legible, Wiring.left, if_pos worded]

/-- A step breaks off just where there are no words for its snag, and the ports stay as they are. -/
theorem step_unworded_iff {w : Wiring σ} {cpu next : Cpu} {snag : Snag} {ports after : σ} :
    cpu.step w ports = (.stopped (.unworded snag), next, after) ↔
      ∃ wordRead met, Fails w cpu ports snag wordRead met after ∧ snag.isWorded = false ∧
        next = met.faulted snag wordRead := by
  constructor
  · intro stepped
    obtain ⟨other, wordRead, met, left, fails, same, rfl, rfl⟩ :=
      fails_of_step stepped nofun (live_of_stopped stepped nofun)
    rcases other.cases (some cpu.ip) with ⟨cause, rfl, -, -, -, stop⟩ | ⟨bare, -, stop⟩
    · cases same.trans stop
    · cases same.trans stop
      rw [Wiring.left, if_neg (by simp [bare])]
      exact ⟨wordRead, met, fails, bare, rfl⟩
  · rintro ⟨wordRead, met, fails, bare, rfl⟩
    rcases snag.cases (some cpu.ip) with ⟨cause, -, -, worded, -, -⟩ | ⟨-, -, stop⟩
    · rw [bare] at worded
      cases worded
    · rw [step_of_fails fails, stop, Wiring.left, if_neg (by simp [bare])]

end Cpu

end IntcodeVM
