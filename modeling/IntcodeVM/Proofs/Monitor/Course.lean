import IntcodeVM.Proofs.Monitor.Readiness
import Mathlib.Order.Bounds.Basic

namespace IntcodeVM.Monitor

open Machine

variable {m next last t : Machine} {op : Opcode} {stop : Stop}
  {breakpoints : List Int} {since budget done n j : Nat} {ending : Except Escape RunEnd}

/-- What an attempt to step comes to: whether the loop goes on after it, and how it ends if not. -/
inductive Advanced (m : Machine) : Bool → Except Escape RunEnd → Machine → Prop
  | unable : canStep m = false → Advanced m false (.ok .stopped) m
  | failed {fault : Fault} {next : Machine} : canStep m = true →
      stepOnce m = (.stopped (.fault fault), next) → Advanced m false (.ok .stopped) next
  | broken {snag : Snag} {next : Machine} : canStep m = true →
      stepOnce m = (.stopped (.unworded snag), next) → Advanced m false (.error .illegible) next
  | halted {next : Machine} : canStep m = true → stepOnce m = (.ran .halt, next) →
      next.cpu.halted = true → Advanced m false (.ok .stopped) next
  | onward {op : Opcode} {how : Except Escape RunEnd} {next : Machine} : canStep m = true →
      stepOnce m = (.ran op, next) → Advanced m true how next

def endedBy (m : Machine) : Except Escape RunEnd := (advance m).1.map fun _ => .stopped

theorem advanced (m : Machine) : Advanced m (goesOn m) (endedBy m) (advance m).2 := by
  rw [goesOn, endedBy]
  cases able : canStep m with
  | false =>
    obtain ⟨line, same⟩ := advance_of_not_canStep able
    rw [same]
    exact .unable able
  | true =>
    rw [advance_of_canStep able]
    rcases Cpu.cases_of_live wiring (m.input, m.output) (live_of_canStep able) with
      ⟨after, waits⟩ | ⟨op, action, next, after, acts, answered⟩ |
      ⟨snag, wordRead, met, left, fails⟩
    · exact absurd waits (not_waits_of_canStep able)
    · have stepped := stepOnce_of_cpu (Cpu.step_of_acts acts answered)
      rw [stepped]
      cases op with
      | halt => exact .halted able stepped acts.halts
      | add | mul | input | output | jumpIfTrue | jumpIfFalse | lessThan | equals | adjustBase =>
        exact .onward able stepped
    · have stepped := stepOnce_of_cpu (Cpu.step_of_fails fails)
      rcases snag.cases (some m.cpu.ip) with ⟨cause, rfl, -, -, -, stop⟩ | ⟨-, -, stop⟩
      · rw [stop] at stepped
        rw [stepped]
        exact .failed able stepped
      · rw [stop] at stepped
        rw [stepped]
        exact .broken able stepped

theorem stepped_of_step {outcome : Outcome} (stepped : stepOnce m = (outcome, next)) :
    Cpu.Stepped wiring m.cpu (m.input, m.output) outcome next.cpu (next.input, next.output) := by
  apply Cpu.stepped_of_step
  rcases m with ⟨cpu, input, output⟩
  cases stepped
  rfl

theorem canStep_of_ran (ran : stepOnce m = (.ran op, next)) (fed : starved m = false) :
    canStep m = true := by
  cases stepped_of_step ran with
  | acts acts answered =>
    obtain ⟨going, sound⟩ := Cpu.live_iff.1 acts.live
    exact canStep_iff.2 ⟨going, sound, fed⟩

theorem steps_of_ran (ran : stepOnce m = (.ran op, next)) : next.cpu.steps = m.cpu.steps + 1 := by
  cases stepped_of_step ran with
  | acts acts answered => exact acts.counted

theorem steps_of_stopped (stopped : stepOnce m = (.stopped stop, next)) :
    next.cpu.steps = m.cpu.steps := by
  have stepped := stepped_of_step stopped
  generalize next.cpu = cpu, (next.input, next.output) = ports at stepped
  cases stepped with
  | refused | waits => rfl
  | fails fails => exact fails.steps_eq

/-- The machine after so many instructions, if all of them are carried out. -/
def afterSteps : Nat → Machine → Option Machine
  | 0, m => some m
  | n + 1, m =>
    match stepOnce m with
    | (.ran _, next) => afterSteps n next
    | (.stopped _, _) => none

theorem afterSteps_succ (ran : stepOnce m = (.ran op, next)) (n : Nat) :
    afterSteps (n + 1) m = afterSteps n next := by
  rw [afterSteps, ran]

theorem steps_afterSteps (reached : afterSteps n m = some t) : t.cpu.steps = m.cpu.steps + n := by
  induction n generalizing m with
  | zero =>
    cases reached
    rfl
  | succ n ih =>
    rw [afterSteps] at reached
    split at reached
    · rename_i ran
      rw [ih reached, steps_of_ran ran]
      omega
    · cases reached

/-- What stops a run at a machine, whatever is left of its budget. Breakpoints count from a number of
instructions on. -/
inductive Stops (breakpoints : List Int) (since done : Nat) (t : Machine) : Prop
  | halted : t.cpu.halted = true → Stops breakpoints since done t
  | faulted : t.cpu.fault.isSome = true → Stops breakpoints since done t
  | failing {stop : Stop} {next : Machine} : stepOnce t = (.stopped stop, next) →
      stop.isFailure = true → Stops breakpoints since done t
  | starved : starved t = true → Stops breakpoints since done t
  | breakpoint : since ≤ done → t.cpu.ip ∈ breakpoints → Stops breakpoints since done t

/-- Whether there is a reason to stop when so many instructions are done. -/
def Due (breakpoints : List Int) (since budget : Nat) (m : Machine) (done : Nat) : Prop :=
  done = budget ∨ ∃ t, afterSteps done m = some t ∧ Stops breakpoints since done t

/-- How a run ends with an instruction that fails: with a fault, or with a step that is broken off. -/
inductive Failed : Stop → Except Escape RunEnd → Prop
  | fault (fault : Fault) : Failed (.fault fault) (.ok .stopped)
  | unworded (snag : Snag) : Failed (.unworded snag) (.error .illegible)

/-- How a run ends at the machine that it has reached, and what it leaves: that machine, unless the next
instruction is attempted and fails. -/
inductive Leaves (breakpoints : List Int) (since budget done : Nat) (t : Machine) :
    Except Escape RunEnd → Machine → Prop
  | spent : done = budget → Leaves breakpoints since budget done t (.ok .budget) t
  | ended : (t.cpu.halted || t.cpu.fault.isSome) = true →
      Leaves breakpoints since budget done t (.ok .stopped) t
  | starved : starved t = true → Leaves breakpoints since budget done t (.ok .stopped) t
  | breakpoint : since ≤ done → t.cpu.ip ∈ breakpoints →
      Leaves breakpoints since budget done t (.ok (.breakpoint t.cpu.ip)) t
  | failed {stop : Stop} {how : Except Escape RunEnd} {next : Machine} : done < budget →
      (since ≤ done → t.cpu.ip ∉ breakpoints) → Monitor.starved t = false →
      stepOnce t = (.stopped stop, next) → Failed stop how →
      Leaves breakpoints since budget done t how next

/-- A run carries out the least number of instructions after which there is a reason to stop. -/
structure EndsAfter (breakpoints : List Int) (since budget : Nat) (m : Machine) (done : Nat)
    (ending : Except Escape RunEnd) (last : Machine) : Prop where
  least : IsLeast {j | Due breakpoints since budget m j} done
  left : ∃ t, afterSteps done m = some t ∧ Leaves breakpoints since budget done t ending last

theorem Stops.imp {since' done' : Nat} (late : since ≤ done → since' ≤ done')
    (stops : Stops breakpoints since done t) : Stops breakpoints since' done' t := by
  cases stops with
  | halted halted => exact .halted halted
  | faulted faulted => exact .faulted faulted
  | failing failed failure => exact .failing failed failure
  | starved unfed => exact .starved unfed
  | breakpoint now stop => exact .breakpoint (late now) stop

theorem stops_succ : Stops breakpoints since (done + 1) t ↔ Stops breakpoints (since - 1) done t :=
  ⟨.imp Nat.sub_le_of_le_add, .imp Nat.le_add_of_sub_le⟩

theorem due_succ (ran : stepOnce m = (.ran op, next)) :
    Due breakpoints since (budget + 1) m (j + 1) ↔ Due breakpoints (since - 1) budget next j := by
  simp only [Due, afterSteps_succ ran, stops_succ, Nat.add_right_cancel_iff]

theorem Leaves.succ (leaves : Leaves breakpoints (since - 1) budget done t ending last) :
    Leaves breakpoints since (budget + 1) (done + 1) t ending last := by
  cases leaves with
  | spent same => exact .spent (congrArg Nat.succ same)
  | ended finished => exact .ended finished
  | starved unfed => exact .starved unfed
  | breakpoint late stop => exact .breakpoint (Nat.le_add_of_sub_le late) stop
  | failed within spared fed stopped failed =>
    exact .failed (Nat.succ_lt_succ within) (fun late => spared (Nat.sub_le_of_le_add late)) fed
      stopped failed

theorem EndsAfter.succ (ran : stepOnce m = (.ran op, next))
    (early : ¬ Due breakpoints since (budget + 1) m 0)
    (ends : EndsAfter breakpoints (since - 1) budget next done ending last) :
    EndsAfter breakpoints since (budget + 1) m (done + 1) ending last := by
  refine ⟨⟨(due_succ ran).2 ends.least.1, ?_⟩, ?_⟩
  · rintro (_ | j) due
    · exact absurd due early
    · exact Nat.succ_le_succ (ends.least.2 ((due_succ ran).1 due))
  · obtain ⟨t, reached, leaves⟩ := ends.left
    exact ⟨t, (afterSteps_succ ran done).trans reached, leaves.succ⟩

theorem EndsAfter.zero (due : Due breakpoints since budget m 0)
    (leaves : Leaves breakpoints since budget 0 m ending last) :
    EndsAfter breakpoints since budget m 0 ending last :=
  ⟨⟨due, fun _ _ => Nat.zero_le _⟩, m, rfl, leaves⟩

theorem EndsAfter.counted (ends : EndsAfter breakpoints since budget m done ending last) :
    last.cpu.steps = m.cpu.steps + done := by
  obtain ⟨t, reached, leaves⟩ := ends.left
  rw [← steps_afterSteps reached]
  cases leaves with
  | spent | ended | starved | breakpoint => rfl
  | failed within spared fed stopped failed => exact steps_of_stopped stopped

/-- The loop of a run without what it prints. -/
def course (breakpoints : List Int) : (budget : Nat) → (first : Bool) → Machine →
    Except Escape RunEnd × Machine
  | 0, _, m => (.ok .budget, m)
  | budget + 1, first, m =>
    if !first && breakpoints.contains m.cpu.ip then (.ok (.breakpoint m.cpu.ip), m)
    else if goesOn m then course breakpoints budget false (advance m).2
    else (endedBy m, (advance m).2)

theorem runMany_eq_course (breakpoints : List Int) (budget : Nat) (first : Bool) (m : Machine)
    (printed : Array String) :
    ((stepper.runMany breakpoints budget first m printed).1,
      (stepper.runMany breakpoints budget first m printed).2.2) =
        course breakpoints budget first m := by
  induction budget generalizing first m printed with
  | zero => rfl
  | succ budget ih =>
    rw [runMany_succ, course]
    split
    · rfl
    · dsimp only
      split
      · exact ih ..
      · rfl

theorem not_due_zero (able : canStep m = true) (ran : stepOnce m = (.ran op, next))
    (spared : since ≤ 0 → m.cpu.ip ∉ breakpoints) :
    ¬ Due breakpoints since (budget + 1) m 0 := by
  obtain ⟨going, sound, fed⟩ := canStep_iff.1 able
  rintro (none | ⟨t, reached, stops⟩)
  · cases none
  · cases reached
    cases stops with
    | halted halted => cases going.symm.trans halted
    | faulted faulted =>
      rw [sound] at faulted
      cases faulted
    | failing failed failure => cases ran.symm.trans failed
    | starved unfed => cases fed.symm.trans unfed
    | breakpoint now stop => exact spared now stop

theorem endsAfter_course (breakpoints : List Int) (budget : Nat) (first : Bool) (m : Machine) :
    ∃ done, EndsAfter breakpoints first.toNat budget m done (course breakpoints budget first m).1
      (course breakpoints budget first m).2 := by
  induction budget generalizing first m with
  | zero => exact ⟨0, .zero (.inl rfl) (.spent rfl)⟩
  | succ budget ih =>
    rw [course]
    by_cases paused : (!first && breakpoints.contains m.cpu.ip) = true
    · rw [if_pos paused]
      obtain ⟨rfl, stop⟩ : first = false ∧ m.cpu.ip ∈ breakpoints := by simpa using paused
      have now : false.toNat ≤ 0 := Nat.le_refl 0
      exact ⟨0, .zero (.inr ⟨m, rfl, .breakpoint now stop⟩) (.breakpoint now stop)⟩
    · rw [if_neg paused]
      have spared : first.toNat ≤ 0 → m.cpu.ip ∉ breakpoints := by
        cases first <;> simp_all
      have attempt := advanced m
      generalize goesOn m = onward, endedBy m = how, (advance m).2 = next at attempt
      cases attempt with
      | unable unable =>
        refine ⟨0, ?_⟩
        by_cases finished : (m.cpu.halted || m.cpu.fault.isSome) = true
        · refine .zero (.inr ⟨m, rfl, ?_⟩) (.ended finished)
          exact (Bool.or_eq_true_iff.1 finished).elim .halted .faulted
        · have unfed : starved m = true := by simpa [canStep, finished] using unable
          exact .zero (.inr ⟨m, rfl, .starved unfed⟩) (.starved unfed)
      | failed able stopped =>
        exact ⟨0, .zero (.inr ⟨m, rfl, .failing stopped rfl⟩)
          (.failed (Nat.succ_pos budget) spared (canStep_iff.1 able).2.2 stopped (.fault _))⟩
      | broken able stopped =>
        exact ⟨0, .zero (.inr ⟨m, rfl, .failing stopped rfl⟩)
          (.failed (Nat.succ_pos budget) spared (canStep_iff.1 able).2.2 stopped (.unworded _))⟩
      | halted able ran halts =>
        have finished : (next.cpu.halted || next.cpu.fault.isSome) = true := by simp [halts]
        have ends : EndsAfter breakpoints (first.toNat - 1) budget next 0 (.ok .stopped) next :=
          .zero (.inr ⟨next, rfl, .halted halts⟩) (.ended finished)
        exact ⟨1, ends.succ ran (not_due_zero able ran spared)⟩
      | onward able ran =>
        obtain ⟨done, ends⟩ := ih false next
        have since : first.toNat - 1 = false.toNat := by cases first <;> rfl
        exact ⟨done + 1, (since ▸ ends).succ ran (not_due_zero able ran spared)⟩

end IntcodeVM.Monitor
