import IntcodeVM.Proofs.Machine.LimitedRuns

/-! A run, output by output. Main statement: of a machine whose run ends, calls that each run to the next
output answer the values of the run one by one and in order, and the call after the last of them ends as
the run does and leaves what it leaves. -/
namespace IntcodeVM

open PortAction

section Repeated

variable {S T A : Type}

/-- So many calls in a row, and what each of them answered. -/
def repeated (call : S → A × S) : Nat → S → List A × S
  | 0, s => ([], s)
  | n + 1, s =>
    let (answer, next) := call s
    let (answers, last) := repeated call n next
    (answer :: answers, last)

theorem repeated_succ {call : S → A × S} {s next : S} {answer : A} (called : call s = (answer, next))
    (n : Nat) : repeated call (n + 1) s =
      (answer :: (repeated call n next).1, (repeated call n next).2) := by
  rw [repeated, called]

theorem repeated_congr (call : S → A × S) {s t : S} (same : call s = call t) (n : Nat) :
    repeated call (n + 1) s = repeated call (n + 1) t := by
  rw [repeated, same]
  rfl

theorem repeated_map (call : S → A × S) (onward : T → A × T) {f : S → T}
    (same : ∀ s, onward (f s) = ((call s).1, f (call s).2)) (n : Nat) (s : S) :
    repeated onward n (f s) = ((repeated call n s).1, f (repeated call n s).2) := by
  induction n generalizing s with
  | zero => rfl
  | succ n ih =>
    rw [repeated_succ (same s), ih]
    rfl

theorem mem_repeated_succ (call : S → A × S) (n : Nat) (s : S) :
    (call s).1 ∈ (repeated call (n + 1) s).1 := List.mem_cons_self

end Repeated

/-- What calls to the next output answer, if a run delivers these values and answers this. -/
def toldOf (values : List Int) (answer : Except Stop Nat) : List (Except Stop (Option Int)) :=
  values.map (fun value => .ok (some value)) ++ [answer.map fun _ => none]

theorem unfinished_notMem_toldOf {values : List Int} {answer : Except Stop Nat}
    (ended : answer ≠ .error .unfinished) : .error .unfinished ∉ toldOf values answer := by
  cases answer with
  | ok n => simp [toldOf, Except.map]
  | error stop =>
    have other : Stop.unfinished ≠ stop := fun same => ended (congrArg Except.error same.symm)
    simpa [toldOf, Except.map] using other

/-- A run that ends is told by calls to the next output: one for each value that it delivers, and one
for its end. -/
def ToldInTurn {S : Type} (run : S → Except Stop Nat × S) (next : S → Except Stop (Option Int) × S)
    (delivered : S → List Int) (s : S) : Prop :=
  ∀ answer last, run s = (answer, last) → answer ≠ .error .unfinished →
    ∃ values, delivered last = delivered s ++ values ∧
      repeated next (values.length + 1) s = (toldOf values answer, last)

namespace Cpu

variable {σ : Type} {w : Wiring σ} {view : PortView σ} {cpu next last : Cpu} {ports after left : σ}
  {op : Opcode} {stop : Stop} {answer : Except Stop Nat} {allowance larger limit count : Nat}
  {value : Int}

theorem runUntilOutput_mono (ended : (cpu.runUntilOutput w allowance ports).1 ≠ .error .unfinished)
    (more : allowance ≤ larger) :
    cpu.runUntilOutput w larger ports = cpu.runUntilOutput w allowance ports := by
  induction allowance generalizing cpu ports larger with
  | zero => exact absurd rfl ended
  | succ allowance ih =>
    obtain ⟨larger, rfl⟩ := Nat.exists_eq_add_of_le' (Nat.le_trans (Nat.succ_pos allowance) more)
    rcases stepped : cpu.step w ports with ⟨outcome, next, after⟩
    rw [runUntilOutput, stepped] at ended
    rw [runUntilOutput, runUntilOutput, stepped]
    cases outcome with
    | stopped stop => rfl
    | ran op =>
      cases op with
      | halt | output => rfl
      | add | mul | input | jumpIfTrue | jumpIfFalse | lessThan | equals | adjustBase =>
        exact ih ended (Nat.le_of_succ_le_succ more)

theorem runUntilOutput_passed (stepped : cpu.step w ports = (.ran op, next, after))
    (halts : op ≠ .halt) (outputs : op ≠ .output) (allowance : Nat) :
    cpu.runUntilOutput w (allowance + 1) ports = next.runUntilOutput w allowance after := by
  rw [runUntilOutput, stepped]
  cases op with
  | halt => exact absurd rfl halts
  | output => exact absurd rfl outputs
  | add | mul | input | jumpIfTrue | jumpIfFalse | lessThan | equals | adjustBase => rfl

theorem later_of_stopped (lawful : w.Shows view) (tells : ∀ value, w.tells value = true)
    (present : view.present ports) (stepped : cpu.step w ports = (.stopped stop, next, after)) :
    view.Later ports [] after := by
  cases stepped_of_step stepped with
  | refused => exact .refl present
  | waits waits =>
    obtain ⟨_, _, _, _, pulled⟩ := waits
    exact lawful.pull present pulled
  | @fails snag _ _ _ fails =>
    have closed := (fails.closed lawful present).1
    cases fails with
    | fetch | prepare | lostPhase | lostInput | noInput | noOutput => exact closed
    | @untold _ value _ _ _ untold => cases (tells value).symm.trans untold

theorem later_of_passed (lawful : w.Shows view) (present : view.present ports)
    (stepped : cpu.step w ports = (.ran op, next, after)) (outputs : op ≠ .output) :
    view.Later ports [] after := by
  obtain ⟨action, acts, answered⟩ := step_ran_iff.1 stepped
  have later := answered.later lawful present
  cases action with
  | sent value => exact absurd acts.eq_output_of_sent outputs
  | quiet | took | ended => exact later

theorem runFor_succ (stepped : cpu.step w ports = (.ran op, next, after)) (limit count : Nat) :
    runFor w (limit + 1) count cpu ports = runFor w limit (count + 1) next after := by
  obtain ⟨action, acts, -⟩ := step_ran_iff.1 stepped
  rw [runFor, if_neg (by simp [acts.going]), stepped]

/-- Calls to the next output, from here on, deliver some values and tell in the end what a run comes
to. -/
def Tells (w : Wiring σ) (view : PortView σ) (allowance : Nat) (answer : Except Stop Nat) (last : Cpu)
    (left : σ) (cpu : Cpu) (ports : σ) : Prop :=
  ∃ values, view.delivered left = view.delivered ports ++ values ∧
    repeated (fun s : Cpu × σ => s.1.runUntilOutput w allowance s.2) (values.length + 1)
      (cpu, ports) = (toldOf values answer, last, left)

theorem tells_end (later : view.Later ports [] left)
    (called : cpu.runUntilOutput w allowance ports = (answer.map fun _ => none, last, left)) :
    Tells w view allowance answer last left cpu ports :=
  ⟨[], later.delivered, repeated_succ called 0⟩

theorem Tells.output (lawful : w.Shows view) (present : view.present ports)
    (stepped : cpu.step w ports = (.ran .output, next, after))
    (onward : Tells w view (allowance + 1) answer last left next after) :
    Tells w view (allowance + 1) answer last left cpu ports := by
  obtain ⟨action, acts, answered⟩ := step_ran_iff.1 stepped
  obtain ⟨value, rfl, recorded⟩ := acts.output_sent
  have sent := (answered.later lawful present).delivered
  have called : cpu.runUntilOutput w (allowance + 1) ports = (.ok (some value), next, after) := by
    rw [runUntilOutput, stepped, ← recorded]
  obtain ⟨values, delivered, row⟩ := onward
  refine ⟨value :: values, ?_, ?_⟩
  · rw [delivered, sent, List.append_assoc]
    rfl
  · rw [List.length_cons, repeated_succ called, row]
    rfl

/-- The first call goes on with less than a whole allowance, which is enough if it is for the others. -/
theorem Tells.passed (lawful : w.Shows view) (present : view.present ports)
    (stepped : cpu.step w ports = (.ran op, next, after)) (halts : op ≠ .halt) (outputs : op ≠ .output)
    (ended : answer ≠ .error .unfinished) (less : Tells w view allowance answer last left next after)
    (onward : Tells w view (allowance + 1) answer last left next after) :
    Tells w view (allowance + 1) answer last left cpu ports := by
  have enough : (next.runUntilOutput w allowance after).1 ≠ .error .unfinished := by
    obtain ⟨values, -, row⟩ := less
    intro unfinished
    have first := mem_repeated_succ (fun s : Cpu × σ => s.1.runUntilOutput w allowance s.2)
      values.length (next, after)
    rw [row, unfinished] at first
    exact unfinished_notMem_toldOf ended first
  have called : cpu.runUntilOutput w (allowance + 1) ports =
      next.runUntilOutput w (allowance + 1) after := by
    rw [runUntilOutput_passed stepped halts outputs,
      runUntilOutput_mono enough (Nat.le_succ allowance)]
  obtain ⟨values, delivered, row⟩ := onward
  refine ⟨values, ?_, ?_⟩
  · rw [delivered, (later_of_passed lawful present stepped outputs).delivered, List.append_nil]
  · have same := repeated_congr (fun s : Cpu × σ => s.1.runUntilOutput w (allowance + 1) s.2)
      (s := (cpu, ports)) (t := (next, after)) called values.length
    exact same.trans row

/-- A run that ends is told in turn, with any allowance for a call that is no less than its own. -/
theorem tells_of_runFor (lawful : w.Shows view) (tells : ∀ value, w.tells value = true)
    (present : view.present ports) (going : cpu.halted = false) (ran : runFor w limit count cpu ports = (answer, last, left))
    (halts : ∀ n, answer = .ok n → last.halted = true) (ended : answer ≠ .error .unfinished)
    (more : limit ≤ allowance) : Tells w view allowance answer last left cpu ports := by
  induction limit generalizing count cpu ports allowance with
  | zero =>
    cases ran
    cases going.symm.trans (halts count rfl)
  | succ limit ih =>
    obtain ⟨allowance, rfl⟩ := Nat.exists_eq_add_of_le' (Nat.le_trans (Nat.succ_pos limit) more)
    rcases stepped : cpu.step w ports with ⟨outcome, next, after⟩
    cases outcome with
    | stopped stop =>
      have called : cpu.runUntilOutput w (allowance + 1) ports = (.error stop, next, after) := by
        rw [runUntilOutput, stepped]
      rw [runFor, if_neg (by simp [going]), stepped] at ran
      cases ran
      exact tells_end (later_of_stopped lawful tells present stepped) called
    | ran op =>
      rw [runFor_succ stepped] at ran
      obtain ⟨action, acts, answered⟩ := step_ran_iff.1 stepped
      have there := (answered.later lawful present).present
      by_cases atHalt : op = .halt
      · subst atHalt
        have called : cpu.runUntilOutput w (allowance + 1) ports = (.ok none, next, after) := by
          rw [runUntilOutput, stepped]
        rw [runFor_of_halted acts.halts] at ran
        cases ran
        exact tells_end (later_of_passed lawful present stepped (by decide)) called
      · have still := (acts.goes_on atHalt).trans going
        have onward := ih there still ran (Nat.le_of_succ_le more)
        by_cases atOutput : op = .output
        · subst atOutput
          exact onward.output lawful present stepped
        · have less := ih there still ran (Nat.le_of_succ_le_succ more)
          exact less.passed lawful present stepped atHalt atOutput ended onward

theorem toldInTurn (lawful : w.Shows view) (tells : ∀ value, w.tells value = true)
    (allowance : Nat) {s : Cpu × σ} (present : view.present s.2) (going : s.1.halted = false) :
    ToldInTurn (fun s => s.1.run w allowance s.2) (fun s => s.1.runUntilOutput w allowance s.2)
      (fun s => view.delivered s.2) s := by
  intro answer last ran ended
  obtain ⟨reached, halts⟩ := runFor_of_run ran ended
  exact tells_of_runFor lawful tells present going reached halts ended (Nat.le_refl allowance)

end Cpu

namespace Machine

theorem toldInTurn (allowance : Nat) {m : Machine} (going : m.cpu.halted = false) :
    ToldInTurn (run allowance none) (runUntilOutput allowance) (fun m => m.output.delivered) m := by
  intro answer last ran ended
  obtain ⟨values, delivered, row⟩ := Cpu.toldInTurn wiring_shows (fun _ => rfl) allowance
    (s := (m.cpu, m.input, m.output)) trivial going answer _ (run_eq_iff.1 ran) ended
  have moved := repeated_map (fun s : Cpu × Ports => s.1.runUntilOutput wiring allowance s.2)
    (runUntilOutput allowance) (f := fun s => ⟨s.1, s.2.1, s.2.2⟩) (fun _ => rfl)
    (values.length + 1) (m.cpu, m.input, m.output)
  rw [row] at moved
  exact ⟨values, delivered, moved⟩

/-- A run that ends is told output by output, for a machine that has not halted, at any ports that show
what is delivered and tell it: calls to the next output answer in order the values that the run
delivers, and the call after the last value ends as the run does, with no value at a halt and with the
same fault otherwise, and leaves the same machine and ports. -/
theorem outputs_told_in_turn :
    (∀ {σ : Type} (w : Wiring σ) (view : PortView σ), w.Shows view →
      (∀ value, w.tells value = true) → ∀ (allowance : Nat) (s : Cpu × σ), view.present s.2 →
      s.1.halted = false →
      ToldInTurn (fun s => s.1.run w allowance s.2) (fun s => s.1.runUntilOutput w allowance s.2)
        (fun s => view.delivered s.2) s) ∧
    ∀ (allowance : Nat) (m : Machine), m.cpu.halted = false →
      ToldInTurn (run allowance none) (runUntilOutput allowance) (fun m => m.output.delivered) m :=
  ⟨fun _ _ lawful tells allowance _ present going =>
      Cpu.toldInTurn lawful tells allowance present going,
    fun allowance _ going => toldInTurn allowance going⟩

/-- A machine that sends the same value twice and faults for want of an input. -/
theorem outputs_told_in_turn_starved :
    let m : Machine :=
      ⟨{ memory := .ofWords [104, 7, 104, 7, 3, 0, 99] 0 }, .ofList [], .collector {}⟩
    let fault : Fault := ⟨.sourceTerminated "", some 4⟩
    m.cpu.halted = false ∧
      ToldInTurn (fun s => s.1.run wiring 9 s.2) (fun s => s.1.runUntilOutput wiring 9 s.2)
        (fun s => portView.delivered s.2) (m.cpu, m.input, m.output) ∧
      ToldInTurn (run 9 none) (runUntilOutput 9) (fun m => m.output.delivered) m ∧
      (m.run 9 none).1 = .error (.fault fault) ∧
      (repeated (runUntilOutput 9) 3 m).1 = [.ok (some 7), .ok (some 7), .error (.fault fault)] := by
  intro m fault
  have going : m.cpu.halted = false := rfl
  refine ⟨going, ?_, outputs_told_in_turn.2 9 m going, ?_, ?_⟩
  · exact outputs_told_in_turn.1 wiring portView wiring_shows (fun _ => rfl) 9
      (m.cpu, m.input, m.output) trivial going
  · decide +kernel
  · decide +kernel

end Machine

end IntcodeVM
