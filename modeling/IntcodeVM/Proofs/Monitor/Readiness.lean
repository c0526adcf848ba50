import IntcodeVM.Proofs.Machine.FaultFrame
import IntcodeVM.Proofs.Machine.FiniteInput
import IntcodeVM.Proofs.Machine.PortView
import IntcodeVM.Proofs.Machine.Walk
import IntcodeVM.Proofs.Monitor.Attempts

/-! The monitor's look ahead. Before each step the monitor looks at two digits of a word, the phase and
the queue; the step itself decodes the whole word and finds its operand first. Main statement: whatever
the commands, a step that the monitor makes asks nothing of an empty queue and hands nothing to a closed
output, so that it never waits and never fails on account of a port. -/
namespace IntcodeVM

theorem Instruction.code_of_decode {word : Int} {i : Instruction Mode}
    (decoded : Instruction.decode word = .ok i) : word % 100 = i.opcode.code := by
  cases word with
  | negSucc n => cases decoded
  | ofNat n =>
    rw [Instruction.decode] at decoded
    cases coded : Opcode.ofCode? (n % 100) with
    | none =>
      rw [coded] at decoded
      cases decoded
    | some op =>
      rw [coded] at decoded
      have same : i.opcode = op := (opcode_of_mapM decoded).trans (opcode_ofOpcode op)
      rw [same, ← Opcode.ofCode?_eq_some_iff.1 coded]
      rfl

theorem Channel.closed_feed {α : Type} (values : List α) (ch : Channel α) :
    (ch.feed values).2.closed = ch.closed := by
  cases closed : ch.closed with
  | false =>
    obtain ⟨after, fed, moved⟩ := feed_of_open values closed
    simp only [fed, moved.closed, closed, Bool.or_false]
  | true =>
    cases values with
    | nil => exact closed
    | cons value rest =>
      rw [feed, push_eq_of_closed closed]
      exact closed

/-- A snag that no port is the reason for. -/
def Snag.Inner (snag : Snag) : Prop := ∀ cause, snag = .cause cause → cause.family ≠ .port

/-- What a step has handed out that is not carried to its end. -/
def Snag.sent : Snag → List Int
  | cause _ => []
  | untold value => [value]

namespace Monitor

open Machine

variable {m last : Machine} {machines : List Machine} {ports after : Ports} {value : Int}
  {snag : Snag} {wordRead : Bool} {met : Cpu} {action : PortAction}

/-- The ports of a machine with a mark: whether a value was ever asked of an empty queue or handed to a
closed output. -/
def observed : Wiring (Ports × Bool) where
  pull ports :=
    let (answer, after) := wiring.pull ports.1
    (answer, after, ports.2 || ports.1.1.pending = 0)
  push value ports :=
    let (refused, after) := wiring.push value ports.1
    (refused, after, ports.2 || ports.1.2.closed)
  closeInput ports := (wiring.closeInput ports.1, ports.2)
  closeOutput ports := (wiring.closeOutput ports.1, ports.2)
  tells := wiring.tells

theorem observed_pull (pulled : wiring.pull ports = (.value value, after)) :
    observed.pull (ports, false) = (.value value, after, false) := by
  obtain ⟨left, taken, rfl⟩ := wiring_pull_iff.1 pulled
  have queue := (Channel.pull_value_iff.1 taken).queue
  have some : ports.1.pending ≠ 0 := by
    rw [← Channel.length_queue, queue]
    exact Nat.succ_ne_zero _
  simp [observed, pulled, some]

theorem observed_push (pushed : wiring.push value ports = (none, after)) :
    observed.push value (ports, false) = (none, after, false) := by
  obtain ⟨left, accepted, rfl⟩ := wiring_push_iff.1 pushed
  have opened : ports.2.closed = false := by
    rcases ports with ⟨input, c | ch⟩
    · cases closed : c.closed with
      | false => exact closed
      | true => simp [Sink.push, Collector.push, closed] at accepted
    · cases closed : ch.closed with
      | false => exact closed
      | true => simp [Sink.push, Channel.push_eq_of_closed closed] at accepted
  simp [observed, pushed, opened]

theorem observed_answered (answered : action.Answered wiring ports after) :
    action.Answered observed (ports, false) (after, false) := by
  cases action with
  | quiet | ended =>
    cases answered
    rfl
  | took value => exact observed_pull answered
  | sent value => exact ⟨observed_push answered.1, answered.2⟩

theorem observed_fails {cpu : Cpu} (fails : Cpu.Fails wiring cpu ports snag wordRead met after)
    (inner : snag.Inner) : Cpu.Fails observed cpu (ports, false) snag wordRead met (after, false) := by
  cases fails with
  | fetch live unread => exact .fetch live unread
  | prepare live fetched unprepared => exact .prepare live fetched unprepared
  | lostPhase intends primed outside => exact .lostPhase intends primed outside
  | lostInput intends unprimed outside pulled =>
    exact .lostInput intends unprimed outside (observed_pull pulled)
  | noInput intends unprimed refused =>
    exact absurd (wiring_refusesCleanly.pull refused).1 (inner _ rfl)
  | noOutput intends shut => exact absurd (wiring_refusesCleanly.push shut).1 (inner _ rfl)
  | untold intends pushed untold => exact .untold intends (observed_push pushed) untold

theorem observed_left (snag : Snag) (ports : Ports) :
    observed.left snag (ports, false) = (wiring.left snag ports, false) := by
  unfold Wiring.left
  split <;> rfl

theorem stepOnce_of_cpu {outcome : Outcome} {cpu : Cpu}
    (stepped : m.cpu.step wiring (m.input, m.output) = (outcome, cpu, after)) :
    stepOnce m = (outcome, ⟨cpu, after.1, after.2⟩) := by
  rw [stepOnce, stepped]
  rfl

theorem answered_silently (answered : action.Answered wiring ports after) :
    action.Answered Machine.wiring ports after := by
  cases action with
  | quiet | took value | ended => exact answered
  | sent value => exact ⟨answered.1, rfl⟩

/-- What a step has had from its ports that failed for an inner reason. -/
theorem had_of_fails {cpu : Cpu} (fails : Cpu.Fails wiring cpu ports snag wordRead met after)
    (inner : snag.Inner) :
    ∃ action, action.Answered Machine.wiring ports after ∧ .ended ∉ [action] ∧
      PortAction.outputs [action] = snag.sent := by
  cases fails with
  | fetch | prepare | lostPhase => exact ⟨.quiet, rfl, by simp, rfl⟩
  | @lostInput _ _ value _ _ _ _ _ pulled => exact ⟨.took value, pulled, by simp, rfl⟩
  | noInput _ _ refused => exact absurd (wiring_refusesCleanly.pull refused).1 (inner _ rfl)
  | noOutput _ shut => exact absurd (wiring_refusesCleanly.push shut).1 (inner _ rfl)
  | @untold _ value _ _ pushed => exact ⟨.sent value, ⟨pushed, rfl⟩, by simp, rfl⟩

/-- A machine that wants a value which is not there looks starved, whatever else its instruction says. -/
theorem starved_of_intends {op : Opcode} {dst : Int} (intends : m.cpu.Intends op (.take dst))
    (unprimed : m.cpu.phase = none) (empty : m.input.pending = 0) : starved m = true := by
  obtain ⟨-, word, fetched, prepared⟩ := intends
  obtain ⟨mode, decoded, -⟩ := Cpu.prepare_eq_take prepared
  have code : word % 100 = Opcode.input.code := Instruction.code_of_decode decoded
  simp [starved, fetched, lacksInput, code, unprimed, empty]

/-- What the monitor keeps to: both ports stay open as long as the machine goes on, and no fault came
from one of them. -/
structure Attended (m : Machine) : Prop where
  listening : m.input.closed = m.cpu.fault.isSome
  collecting : ∃ c, m.output = .collector c ∧ (m.cpu.refusal? = none → c.closed = false)
  inner : ∀ fault, m.cpu.fault = some fault → fault.isPort = false

theorem live_of_canStep (able : canStep m = true) : m.cpu.refusal? = none := by
  obtain ⟨going, sound, -⟩ := canStep_iff.1 able
  exact Cpu.live_iff.2 ⟨going, sound⟩

theorem not_waits_of_canStep (able : canStep m = true) :
    ¬ Cpu.Waits wiring m.cpu (m.input, m.output) after := by
  rintro ⟨op, dst, intends, unprimed, answer⟩
  obtain ⟨left, waiting, -⟩ := wiring_pull_iff.1 answer
  have queue : m.input.queue = [] := by
    rw [← List.head?_eq_none_iff, Channel.head?_queue]
    exact (Channel.pull_waiting_iff.1 waiting).1
  have empty : m.input.pending = 0 := by rw [← Channel.length_queue, queue, List.length_nil]
  cases (canStep_iff.1 able).2.2.symm.trans (starved_of_intends intends unprimed empty)

theorem Attended.fails_inward (attended : Attended m)
    (fails : Cpu.Fails wiring m.cpu (m.input, m.output) snag wordRead met after) : snag.Inner := by
  rintro cause rfl
  cases fails with
  | fetch live unread => exact Inward.read _ _ _ unread
  | prepare live fetched unprepared => exact Inward.prepare _ _ _ unprepared
  | lostPhase intends primed outside => exact Inward.index _ _ _ outside
  | lostInput intends unprimed outside pulled => exact Inward.index _ _ _ outside
  | noInput intends unprimed answer =>
    obtain ⟨left, refused, -⟩ := wiring_pull_iff.1 answer
    have closed := (Channel.pull_refused_iff.1 refused).2.1
    rw [attended.listening, (Cpu.live_iff.1 intends.1).2] at closed
    cases closed
  | noOutput intends answer =>
    obtain ⟨left, refused, -⟩ := wiring_push_iff.1 answer
    obtain ⟨c, same, opened⟩ := attended.collecting
    have closed := (Sink.push_refused refused).1
    rw [same] at closed
    cases closed.symm.trans (opened intends.1)

/-- A step that the monitor makes runs, or it fails for a reason of its own. -/
theorem Attended.cases_of_step (attended : Attended m) (able : canStep m = true) :
    (∃ op action next left kept, m.cpu.Acts op action next ∧
      action.Answered wiring (m.input, m.output) (left, .collector kept) ∧
      stepOnce m = (.ran op, ⟨next, left, .collector kept⟩)) ∨
    ∃ snag wordRead met left kept,
      Cpu.Fails wiring m.cpu (m.input, m.output) snag wordRead met (left, .collector kept) ∧
      snag.Inner ∧ stepOnce m = (.stopped (snag.stop (some m.cpu.ip)), ⟨met.faulted snag wordRead,
        (wiring.left snag (left, .collector kept)).1, (wiring.left snag (left, .collector kept)).2⟩) := by
  obtain ⟨c, same, -⟩ := attended.collecting
  rcases Cpu.cases_of_live wiring (m.input, m.output) (live_of_canStep able) with
    ⟨after, waits⟩ | ⟨op, action, next, after, acts, answered⟩ |
    ⟨snag, wordRead, met, after, fails⟩
  · exact absurd waits (not_waits_of_canStep able)
  · obtain ⟨left, kept, rfl, -⟩ := drawn_of_answered (same ▸ answered_silently answered)
    exact .inl ⟨op, action, next, left, kept, acts, answered,
      stepOnce_of_cpu (Cpu.step_of_acts acts answered)⟩
  · have inner := attended.fails_inward fails
    obtain ⟨action, answered, -, -⟩ := had_of_fails fails inner
    obtain ⟨left, kept, rfl, -⟩ := drawn_of_answered (same ▸ answered)
    exact .inr ⟨snag, wordRead, met, left, kept, fails, inner,
      stepOnce_of_cpu (Cpu.step_of_fails fails)⟩

/-- The step of a machine is answered at once: it neither waits nor asks its ports in vain. -/
def StepsFreely (m : Machine) : Prop :=
  ∃ outcome next, stepOnce m = (outcome, next) ∧ outcome ≠ .stopped .waiting ∧
    m.cpu.step observed ((m.input, m.output), false) =
      (outcome, next.cpu, (next.input, next.output), false)

theorem Attended.stepsFreely (attended : Attended m) (able : canStep m = true) : StepsFreely m := by
  rcases attended.cases_of_step able with ⟨op, action, next, left, kept, acts, answered, stepped⟩ |
    ⟨snag, wordRead, met, left, kept, fails, inner, stepped⟩
  · exact ⟨_, _, stepped, by simp, Cpu.step_of_acts acts (observed_answered answered)⟩
  · refine ⟨_, _, stepped, fun waiting => ?_, ?_⟩
    · exact snag.stop_ne_waiting _ (Outcome.stopped.inj waiting)
    · rw [Cpu.step_of_fails (observed_fails fails inner), observed_left]

theorem Attended.step (attended : Attended m) (able : canStep m = true) :
    Attended (stepOnce m).2 := by
  obtain ⟨c, output, opened⟩ := attended.collecting
  have live := live_of_canStep able
  have sound := (Cpu.live_iff.1 live).2
  rcases attended.cases_of_step able with ⟨op, action, next, left, kept, acts, answered, stepped⟩ |
    ⟨snag, wordRead, met, left, kept, fails, inner, stepped⟩
  · obtain ⟨rest, held, same, drawn⟩ := drawn_of_answered (output ▸ answered_silently answered)
    cases same
    rw [stepped]
    refine ⟨?_, ⟨kept, rfl, fun going => ?_⟩, fun fault faulted => ?_⟩
    · rw [drawn.input.closed, attended.listening, acts.fault_eq, Bool.or_false]
    · have ongoing : .ended ∉ [action] := by
        intro ended
        have halted := acts.halted_iff.2 (List.mem_singleton.1 ended).symm
        cases halted.symm.trans (Cpu.live_iff.1 going).1
      rw [drawn.stays_open ongoing, opened live]
    · cases (acts.fault_eq.trans sound).symm.trans faulted
  · obtain ⟨action, answered, ongoing, -⟩ := had_of_fails fails inner
    obtain ⟨rest, held, same, drawn⟩ := drawn_of_answered (output ▸ answered)
    cases same
    rw [stepped]
    rcases snag.cases (some m.cpu.ip) with ⟨cause, rfl, legible, worded, recorded, -⟩ |
      ⟨bare, unrecorded, -⟩
    · rw [Wiring.left, if_pos worded]
      refine ⟨?_, ⟨kept.close, rfl, fun going => ?_⟩, fun fault faulted => ?_⟩
      · rw [fails.fault_eq, recorded]
        exact Bool.or_true _
      · obtain ⟨r, refused⟩ := Cpu.refusal?_faulted met legible wordRead
        cases refused.symm.trans going
      · cases recorded.symm.trans (fails.fault_eq.symm.trans faulted)
        simp [Fault.isPort, inner cause rfl]
    · rw [Wiring.left, if_neg (by simp [bare])]
      refine ⟨?_, ⟨kept, rfl, fun _ => ?_⟩, fun fault faulted => ?_⟩
      · rw [drawn.input.closed, attended.listening, fails.fault_eq, unrecorded, sound]
        rfl
      · rw [drawn.stays_open ongoing, opened live]
      · cases unrecorded.symm.trans (fails.fault_eq.symm.trans faulted)

theorem Attended.feed (attended : Attended m) (values : List Int) :
    Attended { m with input := (m.input.feed values).2 } := by
  refine ⟨?_, attended.collecting, attended.inner⟩
  rw [← attended.listening]
  exact Channel.closed_feed values m.input

theorem attended_boot (image : Memory) (inputs : List Int) (phase : Option Int) :
    Attended (Console.boot image inputs phase) := by
  refine ⟨?_, ⟨{}, rfl, fun _ => rfl⟩, fun fault faulted => by cases faulted⟩
  exact Channel.closed_feed inputs { name := "monitor-in" }

theorem Console.attended_execute {c : Console} (attended : Attended c.machine) (command : Command) :
    (∀ m ∈ c.stepped command, Attended m ∧ canStep m = true) ∧
      Attended (c.execute command).2.machine := by
  obtain ⟨each, ending⟩ := (c.row_of_tried command).keeps attended fun _ => Attended.step
  refine ⟨each, ?_⟩
  rw [(c.turned_execute command).machine]
  unfold machineAfter
  split
  · exact attended.feed _
  · exact attended_boot _ _ _
  · exact ending

theorem Session.attended_follow (image : Memory) (inputs : List Int) (phase : Option Int)
    (commands : List Command) :
    Attended ((Session.opened image inputs phase).follow commands).console.machine :=
  follow_keeps (P := fun s => Attended s.console.machine) (attended_boot image inputs phase)
    fun _ attended command _ => (Console.attended_execute attended command).2

/-- The monitor never blocks: after any commands, each step that the next one makes is answered at once,
and no fault that the machine records came from a port. The steps named are all that it makes. -/
theorem steps_answered_at_once (image : Memory) (inputs : List Int) (phase : Option Int)
    (commands : List Command) (command : Command) :
    let c := ((Session.opened image inputs phase).follow commands).console
    (∀ m ∈ c.stepped command, StepsFreely m) ∧
      ((∀ argument, command ≠ .act .send argument) → (∀ argument, command ≠ .act .reset argument) →
        Row c.machine (c.stepped command) (c.execute command).2.machine) ∧
      ∀ fault, c.machine.cpu.fault = some fault → fault.isPort = false := by
  intro c
  have attended : Attended c.machine := Session.attended_follow image inputs phase commands
  refine ⟨fun m made => ?_, Console.row_of_execute, attended.inner⟩
  obtain ⟨then_attended, able⟩ := (Console.attended_execute attended command).1 m made
  exact then_attended.stepsFreely able

/-- A run that stops for want of a value, the value, and the rest of the run. -/
theorem steps_answered_at_once_resumed :
    let commands := [.act .run [], .act .send ['7']]
    let c := ((Session.opened (.ofWords [3, 5, 4, 5, 99, 0] 0) [] none).follow commands).console
    (∀ m ∈ c.stepped (.act .run []), StepsFreely m) ∧
      Row c.machine (c.stepped (.act .run [])) (c.execute (.act .run [])).2.machine ∧
      (c.stepped (.act .run [])).map (fun m => m.cpu.ip) = [0, 2, 4] ∧
      c.machine.input.queue = [7] := by
  obtain ⟨freely, row, -⟩ := steps_answered_at_once (.ofWords [3, 5, 4, 5, 99, 0] 0) [] none
    [.act .run [], .act .send ['7']] (.act .run [])
  have silent : ∀ argument, Command.act .run [] ≠ .act .send argument := nofun
  have lasting : ∀ argument, Command.act .run [] ≠ .act .reset argument := nofun
  exact ⟨freely, row silent lasting, by decide +kernel, by decide +kernel⟩

end Monitor

end IntcodeVM
