import IntcodeVM.Cpu.Run
import IntcodeVM.Proofs.Machine.Transcript

namespace IntcodeVM.Cpu

variable {σ τ : Type} {w : Wiring σ} {v : Wiring τ} {cpu next peer last : Cpu} {ports after : σ}
  {there left : τ} {outcome : Outcome} {outcomes : List Outcome} {n count : Nat}

def walk (w : Wiring σ) : Nat → Cpu → σ → List Outcome × Cpu × σ
  | 0, cpu, ports => ([], cpu, ports)
  | n + 1, cpu, ports =>
    let (outcome, next, after) := cpu.step w ports
    let (outcomes, last, left) := walk w n next after
    (outcome :: outcomes, last, left)

theorem walk_succ (stepped : cpu.step w ports = (outcome, next, after)) (n : Nat) :
    walk w (n + 1) cpu ports =
      (outcome :: (walk w n next after).1, (walk w n next after).2) := by
  rw [walk, stepped]

theorem walk_add (w : Wiring σ) (m n : Nat) (cpu : Cpu) (ports : σ) :
    walk w (m + n) cpu ports =
      let (outcomes, next, after) := walk w m cpu ports
      let (more, last, left) := walk w n next after
      (outcomes ++ more, last, left) := by
  induction m generalizing cpu ports with
  | zero => simp [walk]
  | succ m ih =>
    rcases stepped : cpu.step w ports with ⟨outcome, next, after⟩
    rw [Nat.add_right_comm, walk_succ stepped, walk_succ stepped, ih]
    rfl

theorem live_iff : cpu.refusal? = none ↔ cpu.halted = false ∧ cpu.fault = none := by
  unfold refusal?
  cases cpu.halted <;> simp

/-- A step is refused, waits, acts or fails. -/
inductive Stepped (w : Wiring σ) (cpu : Cpu) (ports : σ) : Outcome → Cpu → σ → Prop
  | refused {r : Refusal} : cpu.refusal? = some r →
      Stepped w cpu ports (.stopped (.refused r)) cpu ports
  | waits {after : σ} : Waits w cpu ports after → Stepped w cpu ports (.stopped .waiting) cpu after
  | acts {op : Opcode} {action : PortAction} {next : Cpu} {after : σ} : cpu.Acts op action next →
      action.Answered w ports after → Stepped w cpu ports (.ran op) next after
  | fails {snag : Snag} {wordRead : Bool} {met : Cpu} {left : σ} :
      Fails w cpu ports snag wordRead met left →
      Stepped w cpu ports (.stopped (snag.stop (some cpu.ip))) (met.faulted snag wordRead)
        (w.left snag left)

theorem stepped_of_step (stepped : cpu.step w ports = (outcome, next, after)) :
    Stepped w cpu ports outcome next after := by
  cases live : cpu.refusal? with
  | some r =>
    cases (step_of_refusal live ports).symm.trans stepped
    exact .refused live
  | none =>
    rcases cases_of_live w ports live with ⟨after, waits⟩ | ⟨op, action, next, after, acts, answered⟩ |
      ⟨snag, wordRead, met, left, fails⟩
    · cases (step_of_waits waits).symm.trans stepped
      exact .waits waits
    · cases (step_of_acts acts answered).symm.trans stepped
      exact .acts acts answered
    · cases (step_of_fails fails).symm.trans stepped
      exact .fails fails

theorem snd_run (w : Wiring σ) (allowance : Nat) (cpu : Cpu) (ports : σ) :
    (cpu.run w allowance ports).2 = (runFor w allowance 0 cpu ports).2 := by
  rw [run]
  rcases runFor w allowance 0 cpu ports with ⟨answer, next, after⟩
  cases answer with
  | error stop => rfl
  | ok count =>
    dsimp only
    split <;> rfl

theorem walk_of_refusal {r : Refusal} (ended : cpu.refusal? = some r) (n : Nat) :
    (walk w n cpu ports).2 = (cpu, ports) := by
  induction n with
  | zero => rfl
  | succ n ih => rw [walk_succ (step_of_refusal ended ports), ih]

theorem Fails.met_eq {snag : Snag} {wordRead : Bool} {met : Cpu}
    (fails : Fails w cpu ports snag wordRead met after) :
    met = { cpu with phase := met.phase, lastOutput := met.lastOutput } ∧
      (met.phase = cpu.phase ∨ met.phase = none) ∧
      (met.lastOutput = cpu.lastOutput ∨ snag.isWorded = false) := by
  cases fails with
  | lostPhase => exact ⟨rfl, .inr rfl, .inl rfl⟩
  | untold => exact ⟨rfl, .inl rfl, .inr rfl⟩
  | fetch | prepare | lostInput | noInput | noOutput => exact ⟨rfl, .inl rfl, .inl rfl⟩

theorem Fails.met_cause {cause : Cause} {wordRead : Bool} {met : Cpu}
    (fails : Fails w cpu ports (.cause cause) wordRead met after) :
    met = { cpu with phase := met.phase } ∧ (met.phase = cpu.phase ∨ met.phase = none) := by
  cases fails with
  | lostPhase => exact ⟨rfl, .inr rfl⟩
  | fetch | prepare | lostInput | noInput | noOutput => exact ⟨rfl, .inl rfl⟩

theorem Fails.fault_eq {snag : Snag} {wordRead : Bool} {met : Cpu}
    (fails : Fails w cpu ports snag wordRead met after) :
    (met.faulted snag wordRead).fault = snag.fault? (some cpu.ip) := by
  rw [fails.met_eq.1]
  rfl

theorem Fails.steps_eq {snag : Snag} {wordRead : Bool} {met : Cpu}
    (fails : Fails w cpu ports snag wordRead met after) :
    (met.faulted snag wordRead).steps = cpu.steps := by
  rw [fails.met_eq.1]
  rfl

theorem Fails.recorded {cause : Cause} {wordRead : Bool} {met : Cpu}
    (fails : Fails w cpu ports (.cause cause) wordRead met after) (legible : cause.isLegible = true) :
    (met.faulted (.cause cause) wordRead).fault = some ⟨cause, some cpu.ip⟩ :=
  fails.fault_eq.trans (Snag.fault?_cause legible _)

theorem refusal?_faulted (met : Cpu) {cause : Cause} (legible : cause.isLegible = true)
    (wordRead : Bool) : ∃ r, (met.faulted (.cause cause) wordRead).refusal? = some r := by
  unfold refusal?
  split
  · exact ⟨_, rfl⟩
  · rw [faulted, Snag.fault?_cause legible]
    exact ⟨_, rfl⟩

/-- One machine does at its ports what another does at other ports, as long as it does not stop for
one of the barred reasons. -/
structure Matched (w : Wiring σ) (v : Wiring τ) (R : Cpu → σ → Cpu → τ → Prop)
    (barred : Stop → Prop) : Prop where
  halted {cpu peer : Cpu} {ports : σ} {there : τ} : R cpu ports peer there →
    peer.halted = cpu.halted
  step {cpu next peer : Cpu} {ports after : σ} {there : τ} {outcome : Outcome} :
    R cpu ports peer there → cpu.step w ports = (outcome, next, after) →
    (∀ stop, outcome = .stopped stop → ¬ barred stop) →
    ∃ last left, peer.step v there = (outcome, last, left) ∧ R next after last left

variable {R : Cpu → σ → Cpu → τ → Prop} {barred : Stop → Prop}

theorem Matched.walk (matched : Matched w v R barred) (related : R cpu ports peer there)
    (walked : Cpu.walk w n cpu ports = (outcomes, next, after))
    (spared : ∀ stop, .stopped stop ∈ outcomes → ¬ barred stop) :
    ∃ last left, Cpu.walk v n peer there = (outcomes, last, left) ∧ R next after last left := by
  induction n generalizing cpu ports peer there outcomes with
  | zero =>
    cases walked
    exact ⟨peer, there, rfl, related⟩
  | succ n ih =>
    rcases stepped : cpu.step w ports with ⟨outcome, mid, between⟩
    rw [walk_succ stepped] at walked
    obtain ⟨rfl, same⟩ := Prod.mk.inj walked
    obtain ⟨other, across, step, onward⟩ := matched.step related stepped
      fun stop stopped => spared stop (List.mem_cons.2 (.inl stopped.symm))
    obtain ⟨last, left, rest, ending⟩ := ih onward (Prod.ext rfl same)
      fun stop later => spared stop (List.mem_cons_of_mem _ later)
    exact ⟨last, left, by rw [walk_succ step, rest], ending⟩

theorem Matched.runFor {limit : Nat} {answer : Except Stop Nat} (matched : Matched w v R barred)
    (related : R cpu ports peer there)
    (ran : Cpu.runFor w limit count cpu ports = (answer, next, after))
    (spared : ∀ stop, answer = .error stop → ¬ barred stop) :
    ∃ last left, Cpu.runFor v limit count peer there = (answer, last, left) ∧
      R next after last left := by
  induction limit generalizing count cpu ports peer there with
  | zero =>
    cases ran
    exact ⟨peer, there, rfl, related⟩
  | succ limit ih =>
    rw [Cpu.runFor] at ran ⊢
    rw [matched.halted related]
    split at ran
    · rename_i halted
      cases ran
      rw [if_pos halted]
      exact ⟨peer, there, rfl, related⟩
    · rename_i going
      rw [if_neg going]
      rcases stepped : cpu.step w ports with ⟨outcome, mid, between⟩
      rw [stepped] at ran
      cases outcome with
      | ran op =>
        obtain ⟨other, across, step, onward⟩ := matched.step related stepped (by simp)
        rw [step]
        exact ih onward ran
      | stopped stop =>
        cases ran
        obtain ⟨last, left, step, onward⟩ := matched.step related stepped fun other same => by
          cases same
          exact spared stop rfl
        exact ⟨last, left, by rw [step], onward⟩

theorem Matched.run {allowance : Nat} {answer : Except Stop Nat} (matched : Matched w v R barred)
    (related : R cpu ports peer there) (ran : cpu.run w allowance ports = (answer, next, after))
    (spared : ∀ stop, answer = .error stop → ¬ barred stop) :
    ∃ last left, peer.run v allowance there = (answer, last, left) ∧ R next after last left := by
  rw [Cpu.run] at ran ⊢
  rcases steps : Cpu.runFor w allowance 0 cpu ports with ⟨reached, mid, between⟩
  rw [steps] at ran
  cases reached with
  | error stop =>
    cases ran
    obtain ⟨last, left, same, onward⟩ := matched.runFor related steps spared
    exact ⟨last, left, by rw [same], onward⟩
  | ok count =>
    obtain ⟨last, left, same, onward⟩ := matched.runFor related steps (by simp)
    rw [same]
    dsimp only at ran ⊢
    rw [matched.halted onward]
    split at ran
    · rename_i halted
      cases ran
      exact ⟨last, left, by rw [if_pos halted], onward⟩
    · rename_i going
      cases ran
      exact ⟨last, left, by rw [if_neg going], onward⟩

end IntcodeVM.Cpu
