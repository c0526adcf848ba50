import IntcodeVM.Amplifier.Ring
import IntcodeVM.Proofs.Circuit.Confluence
import IntcodeVM.Proofs.Machine.OpcodeEffect

namespace IntcodeVM.Amplifier.Circuit

open Settling

variable {stage i allowance : Nat} {order : List Nat} {c next last : Circuit} {cpu : Cpu}

theorem withStage_self (h : c.stages[stage]? = some cpu) :
    c.withStage stage cpu c.channels = c := by
  obtain ⟨inside, rfl⟩ := Array.getElem?_eq_some_iff.1 h
  simp [withStage, Array.setIfInBounds_def]

theorem withStage_again {first second : Cpu} {left right : Array (Channel Int)} :
    (c.withStage stage first left).withStage stage second right =
      c.withStage stage second right := by
  simp only [withStage, Array.setIfInBounds_setIfInBounds]

theorem path_once (h : Runs stage c next) : Path Runs [stage] c next := .cons h (.nil next)

/-- A stage acts until its next output. -/
def untilOutput (c : Circuit) (stage allowance : Nat) :
    Option (Except Stop (Option Int)) × Circuit :=
  c.onStage stage fun w => Cpu.runUntilOutput w allowance

theorem untilOutput_eq (found : c.stages[stage]? = some cpu) :
    c.untilOutput stage allowance =
      (some (cpu.runUntilOutput (c.wiring stage) allowance c.channels).1,
        c.withStage stage (cpu.runUntilOutput (c.wiring stage) allowance c.channels).2.1
          (cpu.runUntilOutput (c.wiring stage) allowance c.channels).2.2) :=
  onStage_eq_some found _

theorem untilOutput_ran {op : Opcode} {after : Cpu} {channels : Array (Channel Int)}
    (found : c.stages[stage]? = some cpu)
    (stepped : cpu.step (c.wiring stage) c.channels = (.ran op, after, channels))
    (halts : op ≠ .halt) (sends : op ≠ .output) :
    c.untilOutput stage (allowance + 1) =
      (c.withStage stage after channels).untilOutput stage allowance := by
  have onward : cpu.runUntilOutput (c.wiring stage) (allowance + 1) c.channels =
      after.runUntilOutput (c.wiring stage) allowance channels := by
    rw [Cpu.runUntilOutput, stepped]
    cases op with
    | halt => exact absurd rfl halts
    | output => exact absurd rfl sends
    | add | mul | input | jumpIfTrue | jumpIfFalse | lessThan | equals | adjustBase => rfl
  rw [untilOutput_eq found, untilOutput_eq (withStage_stages_self (lt_size_of_getElem? found)),
    withStage_again, onward, wiring, wiring, withStage_outputOf]
  rfl

/-- A turn is some steps of its stage. A stage that made none could not have made one. -/
structure Turned (stage : Nat) (c : Circuit) (turn : Turn Stop) (next : Circuit) (taken : Nat) :
    Prop where
  path : Path Runs (List.replicate taken stage) c next
  idle : taken = 0 → ∀ other, ¬ Runs stage c other
  halted : turn = .halted → next.stageHalted stage = true
  clean : turn = .halted ∨ turn = .sent ∨ turn = .waiting

theorem Turned.later {mid : Circuit} {turn : Turn Stop} {taken : Nat} (first : Runs stage c mid)
    (h : Turned stage mid turn next taken) : Turned stage c turn next (taken + 1) where
  path := .cons first h.path
  idle := by simp
  halted := h.halted
  clean := h.clean

theorem stageHalted_withStage {after : Cpu} {channels : Array (Channel Int)}
    (found : c.stages[stage]? = some cpu) (h : after.halted = true) :
    (c.withStage stage after channels).stageHalted stage = true := by
  rw [stageHalted, stage?, withStage_stages_self (lt_size_of_getElem? found)]
  exact h

theorem live_of_path (path : Path Runs order c last) (settled : last.Settled)
    (found : c.stages[stage]? = some cpu) (going : cpu.halted = false) : cpu.refusal? = none := by
  cases ended : cpu.refusal? with
  | none => rfl
  | some refusal =>
    have kept := (interleaving_of_path path).stays_ended found (by simp [ended])
    have halted := halted_of_allHalted settled.halted kept
    cases going.symm.trans halted

theorem untilOutput_turned (path : Path Runs order c last) (settled : last.Settled)
    (enough : order.length < allowance) (found : c.stages[stage]? = some cpu)
    (going : cpu.halted = false) :
    ∃ answer next taken, c.untilOutput stage allowance = (answer, next) ∧
      Turned stage c (.ofRun answer) next taken := by
  induction allowance generalizing c cpu order with
  | zero => simp at enough
  | succ allowance ih =>
    have live := live_of_path path settled found going
    rcases Cpu.cases_of_live (c.wiring stage) c.channels live with
      ⟨channels, waits⟩ | ⟨op, action, after, channels, acts, answered⟩ |
      ⟨snag, wordRead, met, channels, fails⟩
    · -- it waits right away, and the ports are as they were
      have stepped := Cpu.step_of_waits waits
      obtain ⟨_, _, _, _, pulled⟩ := waits
      cases eq_of_link_pull_waiting pulled
      refine ⟨some (.error .waiting), c, 0, ?_, .nil c, ?_, by simp [Turn.ofRun], .inr (.inr rfl)⟩
      · rw [untilOutput_eq found, Cpu.runUntilOutput, stepped, withStage_self found]
      · rintro - other ⟨op, ran⟩
        rw [onStage_step_eq found, stepped] at ran
        simp at ran
    · have stepped := Cpu.step_of_acts acts answered
      have runs : Runs stage c (c.withStage stage after channels) :=
        runs_iff.2 ⟨cpu, op, action, after, channels, found, acts, answered, rfl⟩
      by_cases halts : op = .halt
      · subst halts
        refine ⟨some (.ok none), c.withStage stage after channels, 1, ?_, path_once runs, by simp,
          fun _ => stageHalted_withStage found acts.halts, .inl rfl⟩
        rw [untilOutput_eq found, Cpu.runUntilOutput, stepped]
      · by_cases sends : op = .output
        · subst sends
          obtain ⟨value, recorded⟩ := acts.output_recorded
          refine ⟨some (.ok (some value)), c.withStage stage after channels, 1, ?_,
            path_once runs, by simp, by simp [Turn.ofRun], .inr (.inl rfl)⟩
          rw [untilOutput_eq found, Cpu.runUntilOutput, stepped, ← recorded]
        · -- the step can be made the first of the path, so the rest of the path is shorter
          obtain ⟨rest, onward, perm⟩ := commuting.first path settled.still runs
          have shorter : rest.length < allowance := by
            have := perm.length_eq
            simp only [List.length_cons] at this
            omega
          obtain ⟨answer, next, taken, same, turned⟩ := ih onward shorter
            (withStage_stages_self (lt_size_of_getElem? found))
            ((acts.goes_on halts).trans going)
          exact ⟨answer, next, taken + 1, (untilOutput_ran found stepped halts sends).trans same,
            turned.later runs⟩
    · exact absurd (failing_iff.2 ⟨cpu, snag, wordRead, met, channels, found, fails⟩)
        (commuting.not_fails path settled.still stage)

theorem not_runs_of_stageHalted (h : c.stageHalted stage = true) (other : Circuit) :
    ¬ Runs stage c other := by
  intro runs
  obtain ⟨cpu, _, _, _, _, found, acts, -⟩ := runs_iff.1 runs
  have halted : cpu.halted = true := by simpa [stageHalted, stage?, found] using h
  have live := acts.live
  simp [Cpu.refusal?, halted] at live

theorem turn_turned (path : Path Runs order c last) (settled : last.Settled)
    (enough : order.length < allowance) (stage : Nat) :
    ∃ kind next taken, turn allowance stage c = (kind, next) ∧
      Turned stage c kind next taken := by
  by_cases halted : c.stageHalted stage = true
  · refine ⟨.halted, c, 0, ?_, .nil c, fun _ => not_runs_of_stageHalted halted, fun _ => halted,
      .inl rfl⟩
    rw [turn, if_pos halted]
  · cases found : c.stages[stage]? with
    | none => simp [stageHalted, stage?, found] at halted
    | some cpu =>
      have going : cpu.halted = false := by simpa [stageHalted, stage?, found] using halted
      obtain ⟨answer, next, taken, same, turned⟩ :=
        untilOutput_turned path settled enough found going
      refine ⟨.ofRun answer, next, taken, ?_, turned⟩
      rw [turn, if_neg halted]
      rw [untilOutput] at same
      rw [same]

end IntcodeVM.Amplifier.Circuit
