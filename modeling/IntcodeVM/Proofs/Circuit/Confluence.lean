import IntcodeVM.Proofs.Circuit.Interleaving

/-! Circuits that come to rest. Main statement: if some order of steps brings every stage to its halt
without a fault, then every order does, with the same circuit in the end. -/
namespace IntcodeVM.Amplifier.Circuit

open Settling

/-- Every stage has halted, and none has a fault. -/
structure Settled (c : Circuit) : Prop where
  halted : c.allHalted = true
  faultless : ∀ cpu ∈ c.stages, cpu.fault = none

theorem settled_iff {c : Circuit} :
    c.Settled ↔ c.allHalted = true ∧ (c.stages.all fun cpu => cpu.fault.isNone) = true := by
  simp only [Array.all_eq_true_iff_forall_mem, Option.isNone_iff_eq_none]
  exact ⟨fun h => ⟨h.halted, h.faultless⟩, fun h => ⟨h.1, h.2⟩⟩

instance (c : Circuit) : Decidable c.Settled := decidable_of_iff _ settled_iff.symm

variable {stage i : Nat} {order other : List Nat} {c next last : Circuit} {cpu : Cpu}

theorem stage_of_faults (h : Faults stage c next) :
    ∃ cpu fault, next.stages[stage]? = some cpu ∧ cpu.fault = some fault := by
  obtain ⟨fault, h⟩ := h
  obtain ⟨cpu, after, channels, found, stepped, rfl⟩ := onStage_step_iff.1 h
  obtain ⟨cause, wordRead, met, left, -, legible, rfl, rfl, rfl⟩ := Cpu.step_fault_iff.1 stepped
  exact ⟨_, _, withStage_stages_self (lt_size_of_getElem? found), Snag.fault?_cause legible _⟩

theorem refusal?_of_fault {fault : Fault} (h : cpu.fault = some fault) : cpu.refusal? ≠ none := by
  unfold Cpu.refusal?
  split <;> simp [h]

theorem stays_ended (step : Runs stage c next ∨ Faults stage c next)
    (found : c.stages[i]? = some cpu) (ended : cpu.refusal? ≠ none) :
    next.stages[i]? = some cpu := by
  by_cases same : stage = i
  · subst same
    rcases step with ⟨op, h⟩ | ⟨fault, h⟩
    all_goals
      obtain ⟨actor, after, channels, there, stepped, rfl⟩ := onStage_step_iff.1 h
      cases found.symm.trans there
    · obtain ⟨action, acts, -⟩ := Cpu.step_ran_iff.1 stepped
      exact absurd acts.live ended
    · obtain ⟨_, _, _, _, fails, -⟩ := Cpu.step_fault_iff.1 stepped
      exact absurd fails.live ended
  · rcases step with ⟨op, h⟩ | ⟨fault, h⟩
    all_goals
      obtain ⟨actor, after, channels, there, stepped, rfl⟩ := onStage_step_iff.1 h
      rwa [withStage_stages_ne same]

theorem Interleaving.stays_ended (steps : Interleaving order c last)
    (found : c.stages[i]? = some cpu) (ended : cpu.refusal? ≠ none) :
    last.stages[i]? = some cpu := by
  induction steps with
  | nil => exact found
  | cons step _ ih => exact ih (Circuit.stays_ended step found ended)

/-- A way to a settled circuit has met no fault. -/
theorem Interleaving.path_of_settled (steps : Interleaving order c last) (settled : last.Settled) :
    Path Runs order c last := by
  induction steps with
  | nil => exact .nil _
  | cons step rest ih =>
    rcases step with runs | faults
    · exact .cons runs (ih settled)
    · -- the fault would still be on record at the end
      obtain ⟨cpu, fault, found, recorded⟩ := stage_of_faults faults
      have kept := rest.stays_ended found (refusal?_of_fault recorded)
      have clean := settled.faultless cpu (Array.mem_of_getElem? kept)
      cases recorded.symm.trans clean

theorem interleaving_of_path (path : Path Runs order c last) : Interleaving order c last := by
  induction path with
  | nil => exact .nil _
  | cons runs _ ih => exact .cons (.inl runs) ih

theorem halted_of_allHalted (h : c.allHalted = true) (found : c.stages[i]? = some cpu) :
    cpu.halted = true := by
  obtain ⟨inside, rfl⟩ := Array.getElem?_eq_some_iff.1 found
  exact Array.all_eq_true.1 h i inside

theorem Settled.still (settled : c.Settled) : Still Runs Failing c := by
  intro stage
  constructor
  · intro next runs
    obtain ⟨cpu, _, _, _, _, found, acts, -⟩ := runs_iff.1 runs
    have halted := halted_of_allHalted settled.halted found
    have live := acts.live
    simp [Cpu.refusal?, halted] at live
  · intro failing
    obtain ⟨cpu, _, _, _, _, found, fails⟩ := failing_iff.1 failing
    have halted := halted_of_allHalted settled.halted found
    have live := fails.live
    simp [Cpu.refusal?, halted] at live

/-- Where a settled circuit can be reached, no order of steps meets a fault. -/
theorem Interleaving.path (steps : Interleaving other c next) (path : Path Runs order c last)
    (settled : last.Settled) : Path Runs other c next := by
  induction steps generalizing order with
  | nil => exact .nil _
  | @cons stage _ c _ _ step _ ih =>
    rcases step with runs | faults
    · obtain ⟨rest, onward, -⟩ := commuting.first path settled.still runs
      exact .cons runs (ih onward)
    · exact absurd faults.failing (commuting.not_fails path settled.still stage)

theorem faultless_of_path (path : Path Runs order c last) (settled : last.Settled) :
    ∀ cpu ∈ c.stages, cpu.fault = none := by
  intro cpu mem
  obtain ⟨i, inside, found⟩ := Array.mem_iff_getElem.1 mem
  have found : c.stages[i]? = some cpu := Array.getElem?_eq_some_iff.2 ⟨inside, found⟩
  cases recorded : cpu.fault with
  | none => rfl
  | some fault =>
    have kept := (interleaving_of_path path).stays_ended found (refusal?_of_fault recorded)
    exact recorded.symm.trans (settled.faultless cpu (Array.mem_of_getElem? kept))

/-- What holds of every interleaving if one of them settles the circuit: no stage faults or breaks off
on the way. -/
structure Confluent (start final : Circuit) (order : List Nat) : Prop where
  faultless {other : List Nat} {c : Circuit} : Interleaving other start c →
    (∀ stage, ¬ Failing stage c) ∧ ∀ cpu ∈ c.stages, cpu.fault = none
  remaining {other : List Nat} {c : Circuit} : Interleaving other start c →
    ∃ rest, Interleaving rest c final ∧ (other ++ rest).Perm order
  same_end {other : List Nat} {c : Circuit} : Interleaving other start c → c.Stuck → c = final

theorem Interleaving.confluent (steps : Interleaving order c last) (settled : last.Settled) :
    Confluent c last order where
  faultless begun := by
    have path := steps.path_of_settled settled
    obtain ⟨rest, onward, -⟩ := commuting.remaining path settled.still (begun.path path settled)
    exact ⟨commuting.not_fails onward settled.still, faultless_of_path onward settled⟩
  remaining begun := by
    have path := steps.path_of_settled settled
    obtain ⟨rest, onward, perm⟩ :=
      commuting.remaining path settled.still (begun.path path settled)
    exact ⟨rest, interleaving_of_path onward, perm⟩
  same_end begun stuck := by
    have path := steps.path_of_settled settled
    exact (commuting.same_end path settled.still (begun.path path settled)
      fun stage next => (stuck stage next).1).1

end IntcodeVM.Amplifier.Circuit
