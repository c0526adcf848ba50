import IntcodeVM.Proofs.Machine.PortView
import IntcodeVM.Proofs.Machine.Walk

/-! The life of a machine. Its owner steps it, runs it, and runs it to its next output, in any order, and
may go on after a call that failed. Main statement: over all such calls memory keeps its size, the records
tell the steps that ran and the value that was delivered last, a phase that is gone stays gone, and a
machine that has ended has closed its ports, refuses to go on and changes no more. -/
namespace IntcodeVM

variable {σ : Type} {w : Wiring σ} {view : PortView σ} {cpu mid next : Cpu} {ports between after : σ}
  {log more : List Outcome}

inductive Call where
  | step
  | run (allowance : Nat) (limit : Option Int)
  | runUntilOutput (allowance : Nat)

def Outcome.hasRun : Outcome → Bool
  | ran _ => true
  | stopped _ => false

/-- A machine has ended in at most one of two ways, and has closed its ports then. -/
structure Shut (view : PortView σ) (cpu : Cpu) (ports : σ) : Prop where
  apart : cpu.halted = true → cpu.fault = none
  output : cpu.halted = true ∨ cpu.fault ≠ none → view.outputClosed ports = true
  input : cpu.fault ≠ none → view.inputClosed ports = true

/-- What a row of steps has made of a machine and its ports, and that it has kept them shut. -/
structure Progress (view : PortView σ) (cpu : Cpu) (ports : σ) (log : List Outcome) (next : Cpu)
    (after : σ) : Prop where
  size : next.memory.size = cpu.memory.size
  programSize : next.memory.programSize = cpu.memory.programSize
  steps : next.steps = cpu.steps + log.countP Outcome.hasRun
  phase : next.phase = cpu.phase ∨ next.phase = none
  delivered : ∃ sent, view.Later ports sent after ∧
    next.lastOutput = sent.getLast?.or cpu.lastOutput
  shut : Shut view cpu ports → Shut view next after

theorem Progress.refl (present : view.present ports) : Progress view cpu ports [] cpu ports where
  size := rfl
  programSize := rfl
  steps := rfl
  phase := .inl rfl
  delivered := ⟨[], .refl present, rfl⟩
  shut := id

theorem Progress.trans (first : Progress view cpu ports log mid between)
    (second : Progress view mid between more next after) :
    Progress view cpu ports (log ++ more) next after where
  size := second.size.trans first.size
  programSize := second.programSize.trans first.programSize
  steps := by rw [second.steps, first.steps, List.countP_append, Nat.add_assoc]
  phase := by
    rcases second.phase with same | gone
    · rw [same]
      exact first.phase
    · exact .inr gone
  delivered := by
    obtain ⟨sent, later, last⟩ := first.delivered
    obtain ⟨further, later', last'⟩ := second.delivered
    refine ⟨sent ++ further, later.trans later', ?_⟩
    rw [last', last, List.getLast?_append, Option.or_assoc]
  shut := second.shut ∘ first.shut

theorem Progress.present (progress : Progress view cpu ports log next after) :
    view.present after := by
  obtain ⟨_, later, _⟩ := progress.delivered
  exact later.present

theorem PortAction.Answered.later {action : PortAction} (lawful : w.Shows view)
    (present : view.present ports) (answered : action.Answered w ports after) :
    view.Later ports action.output?.toList after := by
  cases action with
  | quiet =>
    cases answered
    exact .refl present
  | took value => exact lawful.pull present answered
  | sent value => exact lawful.push present answered.1
  | ended =>
    cases answered
    exact (lawful.closeOutput present).1

/-- A value that was delivered before the step broke off. -/
def Snag.sent? : Snag → Option Int
  | cause _ => none
  | untold value => some value

namespace Cpu

variable {op : Opcode} {action : PortAction} {snag : Snag} {wordRead : Bool} {met : Cpu}
  {outcome : Outcome} {n : Nat}

theorem Acts.shut (lawful : w.Shows view) (present : view.present ports)
    (acts : cpu.Acts op action next) (answered : action.Answered w ports after) :
    Shut view next after := by
  have sound := acts.fault_eq.trans (live_iff.1 acts.live).2
  refine ⟨fun _ => sound, ?_, fun faulted => absurd sound faulted⟩
  rintro (halted | faulted)
  · cases acts.halted_iff.1 halted
    cases answered
    exact (lawful.closeOutput present).2
  · exact absurd sound faulted

theorem Acts.progress (lawful : w.Shows view) (present : view.present ports)
    (acts : cpu.Acts op action next) (answered : action.Answered w ports after) :
    Progress view cpu ports [.ran op] next after := by
  have later := answered.later lawful present
  have shut := acts.shut lawful present answered
  cases acts with
  | store | take => exact ⟨Memory.size_put _ _ _, rfl, rfl, .inl rfl, ⟨_, later, rfl⟩, fun _ => shut⟩
  | jump | fallThrough | shift | emit | halt =>
    exact ⟨rfl, rfl, rfl, .inl rfl, ⟨_, later, rfl⟩, fun _ => shut⟩
  | phase => exact ⟨Memory.size_put _ _ _, rfl, rfl, .inr rfl, ⟨_, later, rfl⟩, fun _ => shut⟩

theorem Fails.later (lawful : w.Shows view) (present : view.present ports)
    (fails : Fails w cpu ports snag wordRead met after) :
    view.Later ports snag.sent?.toList after := by
  cases fails with
  | fetch | prepare | lostPhase => exact .refl present
  | lostInput _ _ _ pulled => exact lawful.pull present pulled
  | noInput _ _ refused => exact lawful.pull present refused
  | noOutput _ refused => exact lawful.push present refused
  | untold _ pushed => exact lawful.push present pushed

theorem Fails.records (fails : Fails w cpu ports snag wordRead met after) :
    met.memory = cpu.memory ∧ met.steps = cpu.steps ∧ met.halted = false ∧ met.fault = none ∧
      (met.phase = cpu.phase ∨ met.phase = none) ∧
      met.lastOutput = snag.sent?.or cpu.lastOutput := by
  obtain ⟨going, sound⟩ := live_iff.1 fails.live
  cases fails with
  | lostPhase => exact ⟨rfl, rfl, going, sound, .inr rfl, rfl⟩
  | fetch | prepare | lostInput | noInput | noOutput | untold =>
    exact ⟨rfl, rfl, going, sound, .inl rfl, rfl⟩

theorem Fails.closed (lawful : w.Shows view) (present : view.present ports)
    (fails : Fails w cpu ports snag wordRead met after) :
    view.Later ports snag.sent?.toList (w.left snag after) ∧
      (snag.isWorded = true → view.outputClosed (w.left snag after) = true ∧
        view.inputClosed (w.left snag after) = true) := by
  have later := fails.later lawful present
  cases worded : snag.isWorded with
  | false =>
    rw [Wiring.left, worded]
    exact ⟨later, fun shut => absurd shut Bool.false_ne_true⟩
  | true =>
    have shutInput := lawful.closeInput later.present
    have shutBoth := lawful.closeOutput shutInput.1.present
    have both := (later.trans shutInput.1).trans shutBoth.1
    rw [List.append_nil, List.append_nil] at both
    rw [Wiring.left, worded]
    exact ⟨both, fun _ => ⟨shutBoth.2, shutBoth.1.inputClosed shutInput.2⟩⟩

theorem isWorded_of_faulted (met : Cpu) (snag : Snag) (wordRead : Bool)
    (faulted : (met.faulted snag wordRead).fault ≠ none) : snag.isWorded = true := by
  rcases snag.cases (some met.ip) with ⟨_, rfl, -, worded, -, -⟩ | ⟨-, absent, -⟩
  · exact worded
  · exact absurd absent faulted

theorem Fails.shut (lawful : w.Shows view) (present : view.present ports)
    (fails : Fails w cpu ports snag wordRead met after) :
    Shut view (met.faulted snag wordRead) (w.left snag after) := by
  obtain ⟨-, -, going, -, -, -⟩ := fails.records
  have closed := (fails.closed lawful present).2
  refine ⟨fun halted => ?_, ?_, fun faulted => (closed (isWorded_of_faulted _ _ _ faulted)).2⟩
  · cases going.symm.trans halted
  · rintro (halted | faulted)
    · cases going.symm.trans halted
    · exact (closed (isWorded_of_faulted _ _ _ faulted)).1

theorem Fails.progress (lawful : w.Shows view) (present : view.present ports)
    (fails : Fails w cpu ports snag wordRead met after) (stop : Stop) :
    Progress view cpu ports [.stopped stop] (met.faulted snag wordRead) (w.left snag after) := by
  obtain ⟨memory, steps, -, -, phase, lastOutput⟩ := fails.records
  have later := (fails.closed lawful present).1
  have shut := fails.shut lawful present
  refine ⟨congrArg Memory.size memory, congrArg Memory.programSize memory, steps, phase,
    ⟨_, later, lastOutput.trans ?_⟩, fun _ => shut⟩
  cases snag <;> rfl

theorem progress_of_step (lawful : w.Shows view) (present : view.present ports)
    (stepped : cpu.step w ports = (outcome, next, after)) :
    Progress view cpu ports [outcome] next after := by
  cases stepped_of_step stepped with
  | refused => exact ⟨rfl, rfl, rfl, .inl rfl, ⟨_, .refl present, rfl⟩, id⟩
  | waits waits =>
    obtain ⟨_, _, _, _, pulled⟩ := waits
    have later := lawful.pull present pulled
    exact ⟨rfl, rfl, rfl, .inl rfl, ⟨_, later, rfl⟩, fun shut =>
      ⟨shut.apart, later.outputClosed ∘ shut.output, later.inputClosed ∘ shut.input⟩⟩
  | acts acts answered => exact acts.progress lawful present answered
  | fails fails => exact fails.progress lawful present _

theorem progress_of_walk (lawful : w.Shows view) (present : view.present ports)
    (walked : walk w n cpu ports = (log, next, after)) : Progress view cpu ports log next after := by
  induction n generalizing cpu ports log with
  | zero =>
    cases walked
    exact .refl present
  | succ n ih =>
    rcases stepped : cpu.step w ports with ⟨outcome, mid, between⟩
    rw [walk_succ stepped] at walked
    obtain ⟨rfl, rest⟩ := Prod.mk.inj walked
    have first := progress_of_step lawful present stepped
    exact first.trans (ih first.present (Prod.ext rfl rest))

/-- What the steps come to, up to the one that is the last or that fails. -/
def stepsUntil (w : Wiring σ) (last : Opcode → Cpu → Bool) : Nat → Cpu → σ → List Outcome
  | 0, _, _ => []
  | n + 1, cpu, ports =>
    match cpu.step w ports with
    | (.stopped stop, _, _) => [.stopped stop]
    | (.ran op, next, after) =>
      .ran op :: if last op next then [] else stepsUntil w last n next after

theorem stepsUntil_stopped {last : Opcode → Cpu → Bool} {stop : Stop}
    (stepped : cpu.step w ports = (.stopped stop, next, after)) (n : Nat) :
    stepsUntil w last (n + 1) cpu ports = [.stopped stop] := by
  rw [stepsUntil, stepped]

theorem stepsUntil_ran {last : Opcode → Cpu → Bool}
    (stepped : cpu.step w ports = (.ran op, next, after)) (n : Nat) :
    stepsUntil w last (n + 1) cpu ports =
      .ran op :: if last op next then [] else stepsUntil w last n next after := by
  rw [stepsUntil, stepped]

theorem walk_of_runFor (limit count : Nat) (going : cpu.halted = false) :
    let outcomes := stepsUntil w (fun _ next => next.halted) limit cpu ports
    walk w outcomes.length cpu ports = (outcomes, (runFor w limit count cpu ports).2) := by
  induction limit generalizing count cpu ports with
  | zero => rfl
  | succ limit ih =>
    rcases stepped : cpu.step w ports with ⟨outcome, next, after⟩
    rw [runFor, if_neg (by simp [going]), stepped]
    cases outcome with
    | stopped stop =>
      rw [stepsUntil_stopped stepped]
      exact walk_succ stepped 0
    | ran op =>
      rw [stepsUntil_ran stepped]
      cases halts : next.halted with
      | true =>
        dsimp only
        rw [if_pos rfl, runFor_of_halted halts]
        exact walk_succ stepped 0
      | false =>
        dsimp only
        rw [if_neg (by simp), List.length_cons, walk_succ stepped, ih (count + 1) halts]

theorem walk_of_runUntilOutput (allowance : Nat) :
    let outcomes := stepsUntil w (fun op _ => op = .halt ∨ op = .output) allowance cpu ports
    walk w outcomes.length cpu ports = (outcomes, (cpu.runUntilOutput w allowance ports).2) := by
  induction allowance generalizing cpu ports with
  | zero => rfl
  | succ allowance ih =>
    rcases stepped : cpu.step w ports with ⟨outcome, next, after⟩
    rw [runUntilOutput, stepped]
    cases outcome with
    | stopped stop =>
      rw [stepsUntil_stopped stepped]
      exact walk_succ stepped 0
    | ran op =>
      rw [stepsUntil_ran stepped]
      cases op with
      | halt | output => exact walk_succ stepped 0
      | add | mul | input | jumpIfTrue | jumpIfFalse | lessThan | equals | adjustBase =>
        dsimp only
        rw [if_neg (by simp), List.length_cons, walk_succ stepped, ih]

end Cpu

namespace Call

/-- Where a call leaves a machine and its ports. -/
def perform (w : Wiring σ) : Call → Cpu → σ → Cpu × σ
  | step, cpu, ports => (cpu.step w ports).2
  | run allowance limit, cpu, ports => (cpu.runLimited w allowance limit ports).2
  | runUntilOutput allowance, cpu, ports => (cpu.runUntilOutput w allowance ports).2

/-- What the steps that a call makes come to. -/
def outcomes (w : Wiring σ) : Call → Cpu → σ → List Outcome
  | step, cpu, ports => [(cpu.step w ports).1]
  | run allowance limit, cpu, ports =>
    if cpu.halted then []
    else Cpu.stepsUntil w (fun _ next => next.halted) (limit.elim allowance Int.toNat) cpu ports
  | runUntilOutput allowance, cpu, ports =>
    Cpu.stepsUntil w (fun op _ => op = .halt ∨ op = .output) allowance cpu ports

theorem perform_run (w : Wiring σ) (allowance : Nat) (limit : Option Int) (cpu : Cpu) (ports : σ) :
    (run allowance limit).perform w cpu ports =
      (Cpu.runFor w (limit.elim allowance Int.toNat) 0 cpu ports).2 := by
  cases limit with
  | none => exact Cpu.snd_run w allowance cpu ports
  | some limit => rfl

/-- A call is a row of steps. -/
theorem walk_outcomes (w : Wiring σ) (call : Call) (cpu : Cpu) (ports : σ) :
    Cpu.walk w (call.outcomes w cpu ports).length cpu ports =
      (call.outcomes w cpu ports, call.perform w cpu ports) := by
  cases call with
  | step => exact Cpu.walk_succ rfl 0
  | run allowance limit =>
    rw [perform_run]
    cases halts : cpu.halted with
    | true => simp [outcomes, halts, Cpu.runFor_of_halted, Cpu.walk]
    | false =>
      simp only [outcomes, halts, Bool.false_eq_true, if_false]
      exact Cpu.walk_of_runFor _ 0 halts
  | runUntilOutput allowance => exact Cpu.walk_of_runUntilOutput allowance

end Call

/-- A machine, its ports, and what all its steps came to so far. -/
structure Session (σ : Type) where
  cpu : Cpu
  ports : σ
  log : List Outcome

namespace Session

def call (w : Wiring σ) (s : Session σ) (call : Call) : Session σ :=
  let (cpu, ports) := call.perform w s.cpu s.ports
  ⟨cpu, ports, s.log ++ call.outcomes w s.cpu s.ports⟩

def calls (w : Wiring σ) (s : Session σ) (calls : List Call) : Session σ :=
  calls.foldl (call w) s

variable {s : Session σ}

theorem progress_of_call (lawful : w.Shows view) (present : view.present s.ports) (call : Call) :
    Progress view s.cpu s.ports (call.outcomes w s.cpu s.ports) (s.call w call).cpu
      (s.call w call).ports :=
  Cpu.progress_of_walk lawful present (call.walk_outcomes w s.cpu s.ports)

theorem call_of_refusal {r : Refusal} (w : Wiring σ) (ended : s.cpu.refusal? = some r)
    (call : Call) : (s.call w call).cpu = s.cpu ∧ (s.call w call).ports = s.ports := by
  have still := congrArg Prod.snd (call.walk_outcomes w s.cpu s.ports)
  rw [Cpu.walk_of_refusal ended] at still
  exact Prod.mk.inj still.symm

theorem progress_of_calls (lawful : w.Shows view) (present : view.present s.ports)
    (calls : List Call) :
    ∃ more, (s.calls w calls).log = s.log ++ more ∧
      Progress view s.cpu s.ports more (s.calls w calls).cpu (s.calls w calls).ports := by
  induction calls generalizing s with
  | nil => exact ⟨[], (List.append_nil _).symm, .refl present⟩
  | cons call calls ih =>
    have progress := progress_of_call lawful present call
    obtain ⟨rest, logged, onward⟩ := ih progress.present
    refine ⟨call.outcomes w s.cpu s.ports ++ rest, ?_, progress.trans onward⟩
    rw [← List.append_assoc]
    exact logged

theorem calls_of_refusal {r : Refusal} (ended : s.cpu.refusal? = some r) (calls : List Call) :
    (s.calls w calls).cpu = s.cpu ∧ (s.calls w calls).ports = s.ports := by
  induction calls generalizing s with
  | nil => exact ⟨rfl, rfl⟩
  | cons call calls ih =>
    obtain ⟨cpu, ports⟩ := call_of_refusal w ended call
    have onward := ih (cpu ▸ ended)
    exact ⟨onward.1.trans cpu, onward.2.trans ports⟩

end Session

/-- A machine that has ended refuses to go on and changes nothing. A run has nothing to refuse after a
halt, or if it is to make no step. -/
structure Over (w : Wiring σ) (cpu : Cpu) (ports : σ) (refusal : Refusal) : Prop where
  step : cpu.step w ports = (.stopped (.refused refusal), cpu, ports)
  runUntilOutput (allowance : Nat) :
    cpu.runUntilOutput w (allowance + 1) ports = (.error (.refused refusal), cpu, ports)
  halted : cpu.halted = true → ∀ allowance limit,
    cpu.runLimited w allowance limit ports = (.ok 0, cpu, ports)
  faulted : cpu.halted = false → ∀ allowance limit, (∀ n, limit = some n → 0 < n) →
    cpu.runLimited w (allowance + 1) limit ports = (.error (.refused refusal), cpu, ports)
  stepless : ∀ allowance limit, limit ≤ 0 →
    cpu.runLimited w allowance (some limit) ports = (.ok 0, cpu, ports)

theorem Cpu.over_of_refusal {refusal : Refusal} (ended : cpu.refusal? = some refusal)
    (w : Wiring σ) (ports : σ) : Over w cpu ports refusal := by
  have step := step_of_refusal (w := w) ended ports
  refine ⟨step, fun allowance => ?_, fun halted allowance limit => ?_,
    fun going allowance limit positive => ?_, fun allowance limit none => ?_⟩
  · rw [runUntilOutput, step]
  · cases limit with
    | none =>
      rw [runLimited, run, runFor_of_halted halted]
      exact if_pos halted
    | some limit => exact runFor_of_halted halted
  · cases limit with
    | none =>
      rw [runLimited, run, runFor, if_neg (by simp [going]), step]
    | some limit =>
      obtain ⟨less, same⟩ : ∃ less, limit.toNat = less + 1 :=
        Nat.exists_eq_add_one.2 (Int.pos_iff_toNat_pos.1 (positive limit rfl))
      rw [runLimited, same, runFor, if_neg (by simp [going]), step]
  · have same : limit.toNat = 0 := Int.toNat_eq_zero.2 none
    rw [runLimited, same, runFor]

/-- What holds of a machine with this memory and phase at these ports after some calls, and after all
that may follow. -/
structure Lifecycle (w : Wiring σ) (view : PortView σ) (memory : Memory) (phase : Option Int)
    (start : σ) (s : Session σ) : Prop where
  size : s.cpu.memory.size = memory.size
  programSize : s.cpu.memory.programSize = memory.programSize
  apart : ¬ (s.cpu.halted = true ∧ s.cpu.fault ≠ none)
  outputClosed : s.cpu.halted = true ∨ s.cpu.fault ≠ none → view.outputClosed s.ports = true
  inputClosed : s.cpu.fault ≠ none → view.inputClosed s.ports = true
  steps : s.cpu.steps = s.log.countP Outcome.hasRun
  lastOutput : ∃ sent, view.delivered s.ports = view.delivered start ++ sent ∧
    s.cpu.lastOutput = sent.getLast?
  phase : s.cpu.phase = phase ∨ s.cpu.phase = none
  phaseGone : s.cpu.phase = none → ∀ more, (s.calls w more).cpu.phase = none
  halted : s.cpu.halted = true → Over w s.cpu s.ports (.halted s.cpu.name)
  faulted : ∀ fault, s.cpu.fault = some fault →
    s.cpu.halted = false ∧ Over w s.cpu s.ports (.aborted s.cpu.name fault)
  frozen : s.cpu.halted = true ∨ s.cpu.fault ≠ none → ∀ more,
    (s.calls w more).cpu = s.cpu ∧ (s.calls w more).ports = s.ports

theorem Session.lifecycle_of_fresh (lawful : w.Shows view) (name : String) (memory : Memory)
    (phase : Option Int) {start : σ} (present : view.present start) (calls : List Call) :
    Lifecycle w view memory phase start
      (Session.calls w ⟨{ name, memory, phase }, start, []⟩ calls) := by
  let fresh : Session σ := ⟨{ name, memory, phase }, start, []⟩
  have unended : Shut view fresh.cpu fresh.ports :=
    ⟨fun _ => rfl, fun ended => absurd ended (by simp [fresh]), fun faulted => absurd rfl faulted⟩
  obtain ⟨log, logged, progress⟩ := progress_of_calls (s := fresh) lawful present calls
  rw [← show (fresh.calls w calls).log = log from logged] at progress
  have shut := progress.shut unended
  show Lifecycle w view memory phase start (fresh.calls w calls)
  generalize fresh.calls w calls = s at progress shut
  have going : ∀ fault, s.cpu.fault = some fault → s.cpu.halted = false := by
    intro fault faulted
    cases halted : s.cpu.halted with
    | false => rfl
    | true => cases (shut.apart halted).symm.trans faulted
  have refusalHalted : s.cpu.halted = true → s.cpu.refusal? = some (.halted s.cpu.name) :=
    fun halted => if_pos halted
  have refusalFaulted : ∀ fault, s.cpu.fault = some fault →
      s.cpu.refusal? = some (.aborted s.cpu.name fault) := by
    intro fault faulted
    simp [Cpu.refusal?, going fault faulted, faulted]
  refine ⟨progress.size, progress.programSize, fun both => both.2 (shut.apart both.1), shut.output,
    shut.input, progress.steps.trans (Nat.zero_add _), ?_, progress.phase, ?_, ?_, ?_, ?_⟩
  · obtain ⟨sent, later, last⟩ := progress.delivered
    exact ⟨sent, later.delivered, last.trans Option.or_none⟩
  · intro gone more
    obtain ⟨_, _, onward⟩ := progress_of_calls (s := s) lawful progress.present more
    rcases onward.phase with same | none
    · exact same.trans gone
    · exact none
  · intro halted
    exact Cpu.over_of_refusal (refusalHalted halted) w s.ports
  · intro fault faulted
    exact ⟨going fault faulted, Cpu.over_of_refusal (refusalFaulted fault faulted) w s.ports⟩
  · rintro (halted | faulted) more
    · exact calls_of_refusal (refusalHalted halted) more
    · obtain ⟨fault, faulted⟩ := Option.ne_none_iff_exists'.1 faulted
      exact calls_of_refusal (refusalFaulted fault faulted) more

def Machine.called (m : Machine) : Call → Machine
  | .step => m.step.2
  | .run allowance limit => (m.run allowance limit).2
  | .runUntilOutput allowance => (m.runUntilOutput allowance).2

theorem Machine.called_eq (m : Machine) (log : List Outcome) (call : Call) :
    let s := Session.call wiring ⟨m.cpu, (m.input, m.output), log⟩ call
    m.called call = ⟨s.cpu, s.ports.1, s.ports.2⟩ := by
  cases call with
  | step | run | runUntilOutput => rfl

/-- The life of a machine, whatever its owner asks of it in whatever order: at all ports that show what
is sent and closed, among them those of a machine on its own, of a stage, and of a robot. -/
theorem lifecycle :
    (∀ {σ : Type} (w : Wiring σ) (view : PortView σ), w.Shows view →
      ∀ (name : String) (memory : Memory) (phase : Option Int) (start : σ), view.present start →
      ∀ calls : List Call, Lifecycle w view memory phase start
        (Session.calls w ⟨{ name, memory, phase }, start, []⟩ calls)) ∧
    Machine.wiring.Shows Machine.portView ∧
    (∀ input output : Nat, (Amplifier.Circuit.link input output).Shows
      (Amplifier.Circuit.linkView input output)) ∧
    Hull.Rig.wiring.Shows Hull.Rig.portView ∧
    ∀ (m : Machine) (calls : List Call),
      let s := Session.calls Machine.wiring ⟨m.cpu, (m.input, m.output), []⟩ calls
      calls.foldl Machine.called m = ⟨s.cpu, s.ports.1, s.ports.2⟩ := by
  refine ⟨fun w view lawful name memory phase start present calls =>
    Session.lifecycle_of_fresh lawful name memory phase present calls, Machine.wiring_shows,
    Amplifier.Circuit.link_shows, Hull.Rig.wiring_shows, ?_⟩
  intro m calls
  generalize [] = log
  induction calls generalizing m log with
  | nil => rfl
  | cons call calls ih =>
    rw [List.foldl_cons, m.called_eq log call]
    exact ih _ _

/-- A machine that takes its phase and one input, sends both and faults at its empty input port. -/
theorem lifecycle_starved :
    let memory := Memory.ofWords [3, 9, 4, 9, 1105, 1, 0, 0, 0, 0] 0
    let start : Machine.Ports := (.ofList [6], .collector {})
    let calls : List Call := [.step, .runUntilOutput 5, .run 2 (some 2), .run 9 none, .step]
    let s := Session.calls Machine.wiring ⟨{ memory, phase := some 5 }, start, []⟩
      calls
    Lifecycle Machine.wiring Machine.portView memory (some 5) start s ∧
      s.cpu.fault = some ⟨.sourceTerminated "", some 0⟩ ∧ s.cpu.steps = 6 ∧
      s.cpu.lastOutput = some 6 ∧ s.cpu.phase = none ∧ s.ports.2.delivered = [5, 6] := by
  intro memory start calls s
  have runs := lifecycle.1 Machine.wiring Machine.portView Machine.wiring_shows "intcode" memory
    (some 5) start trivial calls
  refine ⟨runs, ?_, ?_, ?_, ?_, ?_⟩ <;> decide +kernel

end IntcodeVM
