import IntcodeVM.Proofs.Machine.Lifecycle
import IntcodeVM.Proofs.Machine.OpcodeEffect

namespace IntcodeVM

open PortAction

/-- Two runs in a row. The second is made only if the first answers, and the answers add up. -/
def inTurn {S : Type} (first second : S → Except Stop Nat × S) (s : S) : Except Stop Nat × S :=
  match first s with
  | (.error stop, mid) => (.error stop, mid)
  | (.ok n, mid) => let (answer, last) := second mid; (answer.map (n + ·), last)

/-- How runs with a limit and without one hang together for something that counts its steps. -/
structure LimitsCompose {S : Type} (run : Option Int → S → Except Stop Nat × S) (steps : S → Nat)
    (s : S) : Prop where
  add (a b : Nat) : run (some (a + b : Nat)) s = inTurn (run (some a)) (run (some b)) s
  counted {limit : Option Int} {n : Nat} {last : S} : run limit s = (.ok n, last) →
    steps last = steps s + n
  ended {n : Nat} {last : S} : run none s = (.ok n, last) →
    ∀ m : Nat, n ≤ m → run (some m) s = (.ok n, last)
  stopped {stop : Stop} {last : S} : run none s = (.error stop, last) → stop ≠ .unfinished →
    ∀ m : Nat, steps last - steps s < m → run (some m) s = (.error stop, last)

theorem LimitsCompose.map {S T : Type} {run : Option Int → S → Except Stop Nat × S} {steps : S → Nat}
    {s : S} (composes : LimitsCompose run steps s) {shown : Option Int → T → Except Stop Nat × T}
    {counted : T → Nat} {f : S → T}
    (runs : ∀ limit s, shown limit (f s) = ((run limit s).1, f (run limit s).2))
    (counts : ∀ s, counted (f s) = steps s) : LimitsCompose shown counted (f s) where
  add a b := by
    rw [runs, composes.add, inTurn, inTurn, runs]
    rcases run (some a) s with ⟨answer, mid⟩
    cases answer with
    | error stop => rfl
    | ok n =>
      dsimp only
      rw [runs]
  counted {limit n last} ran := by
    rw [runs] at ran
    obtain ⟨answer, rfl⟩ := Prod.mk.inj ran
    rw [counts, counts]
    exact composes.counted (Prod.ext answer rfl)
  ended {n last} ran m more := by
    rw [runs] at ran ⊢
    obtain ⟨answer, rfl⟩ := Prod.mk.inj ran
    rw [composes.ended (Prod.ext answer rfl) m more]
  stopped {stop last} ran ended m more := by
    rw [runs] at ran ⊢
    obtain ⟨answer, rfl⟩ := Prod.mk.inj ran
    rw [counts, counts] at more
    rw [composes.stopped (Prod.ext answer rfl) ended m more]

namespace Cpu

variable {σ : Type} {w : Wiring σ} {cpu next last : Cpu} {ports after left : σ} {stop : Stop}
  {actions : List PortAction} {answer : Except Stop Nat} {allowance limit count n m : Nat}

theorem Transcript.counted (transcript : Transcript actions cpu next) :
    next.steps = cpu.steps + actions.length := by
  induction transcript with
  | nil => rfl
  | cons acts _ ih =>
    obtain ⟨op, acts⟩ := acts
    rw [ih, acts.counted, List.length_cons]
    omega

theorem steps_of_stopped (stepped : cpu.step w ports = (.stopped stop, next, after)) :
    next.steps = cpu.steps := by
  cases stepped_of_step stepped with
  | refused | waits => rfl
  | fails fails => exact fails.records.2.1

theorem runFor_add (w : Wiring σ) (a b count : Nat) (cpu : Cpu) (ports : σ) :
    runFor w (a + b) count cpu ports =
      match runFor w a count cpu ports with
      | (.ok n, mid, between) => runFor w b n mid between
      | (.error stop, last, left) => (.error stop, last, left) := by
  induction a generalizing count cpu ports with
  | zero =>
    rw [Nat.zero_add]
    rfl
  | succ a ih =>
    rw [Nat.add_right_comm, runFor, runFor]
    split
    · rename_i halted
      exact (runFor_of_halted halted).symm
    · rcases cpu.step w ports with ⟨outcome, next, after⟩
      cases outcome with
      | ran op => exact ih (count + 1) next after
      | stopped stop => rfl

theorem runFor_count (w : Wiring σ) (limit count : Nat) (cpu : Cpu) (ports : σ) :
    runFor w limit count cpu ports =
      ((runFor w limit 0 cpu ports).1.map (count + ·), (runFor w limit 0 cpu ports).2) := by
  induction limit generalizing count cpu ports with
  | zero => rfl
  | succ limit ih =>
    rw [runFor, runFor]
    split
    · rfl
    · rcases cpu.step w ports with ⟨outcome, next, after⟩
      cases outcome with
      | stopped stop => rfl
      | ran op =>
        dsimp only
        rw [ih (count + 1), ih (0 + 1)]
        cases (runFor w limit 0 next after).1 with
        | error stop => rfl
        | ok n => simp [Except.map, Nat.add_assoc]

/-- A run that answers has as many steps behind it as it says. -/
theorem transcript_of_runFor (ran : runFor w limit count cpu ports = (.ok n, next, after)) :
    ∃ actions, Transcript actions cpu next ∧ AllAnswered w actions ports after ∧
      n = count + actions.length := by
  induction limit generalizing count cpu ports with
  | zero =>
    cases ran
    exact ⟨[], .nil _, .nil _, rfl⟩
  | succ limit ih =>
    rw [runFor] at ran
    split at ran
    · cases ran
      exact ⟨[], .nil _, .nil _, rfl⟩
    · rcases stepped : cpu.step w ports with ⟨outcome, mid, between⟩
      rw [stepped] at ran
      cases outcome with
      | stopped stop => cases ran
      | ran op =>
        obtain ⟨action, acts, answered⟩ := step_ran_iff.1 stepped
        obtain ⟨actions, transcript, all, rfl⟩ := ih ran
        refine ⟨action :: actions, .cons ⟨op, acts⟩ transcript, .cons answered all, ?_⟩
        rw [List.length_cons]
        omega

/-- A run that ends is one with its allowance as the limit, and it answers only if it halts. -/
theorem runFor_of_run (ran : cpu.run w allowance ports = (answer, last, left))
    (ended : answer ≠ .error .unfinished) :
    runFor w allowance 0 cpu ports = (answer, last, left) ∧
      ∀ n, answer = .ok n → last.halted = true := by
  rw [run] at ran
  split at ran
  · rename_i reached
    split at ran
    · rename_i halted
      cases ran
      exact ⟨reached, fun _ _ => halted⟩
    · cases ran
      exact absurd rfl ended
  · rename_i unanswered
    refine ⟨ran, ?_⟩
    rintro n rfl
    exact absurd ran (unanswered _ _ _)

theorem transcript_of_runLimited {limit : Option Int}
    (ran : cpu.runLimited w allowance limit ports = (.ok n, next, after)) :
    ∃ actions, Transcript actions cpu next ∧ AllAnswered w actions ports after ∧
      n = actions.length := by
  have bounded : ∃ bound, runFor w bound 0 cpu ports = (.ok n, next, after) := by
    cases limit with
    | some limit => exact ⟨limit.toNat, ran⟩
    | none => exact ⟨allowance, (runFor_of_run ran nofun).1⟩
  obtain ⟨bound, ran⟩ := bounded
  obtain ⟨actions, transcript, answered, length⟩ := transcript_of_runFor ran
  exact ⟨actions, transcript, answered, length.trans (Nat.zero_add _)⟩

theorem runFor_of_run_ended (ran : cpu.run w allowance ports = (.ok n, last, left)) (more : n ≤ m) :
    runFor w m 0 cpu ports = (.ok n, last, left) := by
  obtain ⟨actions, next, after, transcript, answered, ending⟩ := exists_ending w allowance cpu ports
  rw [ran] at ending
  cases ending with
  | halted within halted =>
    obtain ⟨rest, rfl⟩ := Nat.exists_eq_add_of_le more
    rw [runFor_of_transcript transcript answered, runFor_of_halted halted, Nat.zero_add]

theorem runFor_of_run_stopped (ran : cpu.run w allowance ports = (.error stop, last, left))
    (ended : stop ≠ .unfinished) (more : last.steps - cpu.steps < m) :
    runFor w m 0 cpu ports = (.error stop, last, left) := by
  obtain ⟨actions, next, after, transcript, answered, ending⟩ := exists_ending w allowance cpu ports
  rw [ran] at ending
  cases ending with
  | spent => exact absurd rfl ended
  | stopped within going stepped =>
    have steps : last.steps = cpu.steps + actions.length :=
      (steps_of_stopped stepped).trans transcript.counted
    obtain ⟨rest, rfl⟩ : ∃ rest, m = actions.length + (rest + 1) :=
      ⟨m - actions.length - 1, by omega⟩
    rw [runFor_of_transcript transcript answered, runFor, if_neg (by simp [going]), stepped]

theorem limitsCompose (w : Wiring σ) (allowance : Nat) (s : Cpu × σ) :
    LimitsCompose (fun limit s => s.1.runLimited w allowance limit s.2) (fun s => s.1.steps) s where
  add a b := by
    have whole := runFor_add w a b 0 s.1 s.2
    show runFor w (a + b) 0 s.1 s.2 = inTurn (fun s => runFor w a 0 s.1 s.2) _ s
    rw [whole, inTurn]
    rcases runFor w a 0 s.1 s.2 with ⟨answer, mid, between⟩
    cases answer with
    | error stop => rfl
    | ok n => exact runFor_count w b n mid between
  counted ran := by
    obtain ⟨actions, transcript, -, rfl⟩ := transcript_of_runLimited ran
    exact transcript.counted
  ended ran m more := runFor_of_run_ended ran more
  stopped ran ended m more := runFor_of_run_stopped ran ended more

end Cpu

namespace Machine

variable {m later : Machine} {allowance n : Nat} {limit : Option Int} {answer : Except Stop Nat}

theorem assembled_eq_iff {α : Type} {answer : α} {result : α × Cpu × Ports} :
    assembled result = (answer, later) ↔
      result = (answer, later.cpu, later.input, later.output) := by
  rcases result with ⟨found, cpu, input, output⟩
  constructor
  · rintro ⟨⟩
    rfl
  · rintro ⟨⟩
    rfl

theorem run_eq_iff : m.run allowance limit = (answer, later) ↔
    m.cpu.runLimited wiring allowance limit (m.input, m.output) =
      (answer, later.cpu, later.input, later.output) := assembled_eq_iff

theorem limitsCompose_run (allowance : Nat) (m : Machine) :
    LimitsCompose (fun limit m => m.run allowance limit) (fun m => m.cpu.steps) m :=
  (Cpu.limitsCompose wiring allowance (m.cpu, m.input, m.output)).map
    (f := fun s => (⟨s.1, s.2.1, s.2.2⟩ : Machine)) (fun _ _ => rfl) fun _ => rfl

/-- Runs with limits compose, for a machine in any state and at any ports: two in a row do what one with
the sum of their limits does, each answers how far it has counted, and a run without a limit is every
run whose limit it does not reach. -/
theorem limited_runs_compose :
    (∀ {σ : Type} (w : Wiring σ) (allowance : Nat) (s : Cpu × σ),
      LimitsCompose (fun limit s => s.1.runLimited w allowance limit s.2) (fun s => s.1.steps) s) ∧
    ∀ (allowance : Nat) (m : Machine),
      LimitsCompose (fun limit m => m.run allowance limit) (fun m => m.cpu.steps) m :=
  ⟨fun w allowance s => Cpu.limitsCompose w allowance s,
    fun allowance m => limitsCompose_run allowance m⟩

/-- For want of an input a machine faults in its second step. -/
example :
    let m : Machine := ⟨{ memory := .ofWords [3, 5, 3, 5, 99, 0] 0 }, .ofList [7], .collector {}⟩
    (m.run 9 (some 1)).1 = .ok 1 ∧
      (m.run 9 (some 2)).1 = .error (.fault ⟨.sourceTerminated "", some 2⟩) := by
  decide +kernel

end Machine

end IntcodeVM
