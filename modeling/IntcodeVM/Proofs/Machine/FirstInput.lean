import IntcodeVM.Proofs.Machine.FiniteInput
import IntcodeVM.Proofs.Machine.PortView
import IntcodeVM.Proofs.Machine.Walk

/-! The phase as a first input. A machine with a phase is matched by one without that finds the phase
at the front of its queue: as long as the phase is there, it is the value that the other machine is
going to take next, and when it is gone, the two queues are the same. Main statement: the two machines
go through the same steps, whatever these come to, and their runs answer alike. -/
namespace IntcodeVM

namespace Channel

/-- The second channel has these values before those of the first, and nothing else to tell it from
the first by. -/
structure Behind (values : List Int) (ch other : Channel Int) : Prop where
  name : other.name = ch.name
  queue : other.queue = values ++ ch.queue
  senderClosed : other.senderClosed = ch.senderClosed
  receiverClosed : other.receiverClosed = ch.receiverClosed

variable {values : List Int} {value : Int} {ch other rest : Channel Int} {cause : Cause}

theorem Behind.closed (behind : Behind values ch other) : other.closed = ch.closed := by
  simp only [Channel.closed, behind.senderClosed, behind.receiverClosed]

theorem Behind.closeReceiver (behind : Behind values ch other) :
    Behind values ch.closeReceiver other.closeReceiver where
  name := behind.name
  queue := behind.queue
  senderClosed := behind.senderClosed
  receiverClosed := rfl

theorem Behind.pull_front (behind : Behind [value] ch other) :
    ∃ left, other.pull = (.value value, left) ∧ Behind [] ch left := by
  obtain ⟨left, pulled⟩ := pull_of_queue_cons behind.queue
  have taken := pull_value_iff.1 pulled
  refine ⟨left, pulled, taken.name.trans behind.name, ?_,
    taken.senderClosed.trans behind.senderClosed, taken.receiverClosed.trans behind.receiverClosed⟩
  exact (List.cons.inj (taken.queue.symm.trans behind.queue)).2

theorem Behind.pull_value (behind : Behind [] ch other) (pulled : ch.pull = (.value value, rest)) :
    ∃ left, other.pull = (.value value, left) ∧ Behind [] rest left := by
  have taken := pull_value_iff.1 pulled
  have front : Behind [value] rest other :=
    ⟨behind.name.trans taken.name.symm, behind.queue.trans taken.queue,
      behind.senderClosed.trans taken.senderClosed.symm,
      behind.receiverClosed.trans taken.receiverClosed.symm⟩
  exact front.pull_front

theorem Behind.no_front (behind : Behind [] ch other) (front : ch.history[ch.taken]? = none) :
    other.history[other.taken]? = none := by
  rw [← head?_queue, behind.queue, List.nil_append, head?_queue, front]

theorem Behind.pull_refused (behind : Behind [] ch other)
    (pulled : ch.pull = (.refused cause, rest)) : other.pull = (.refused cause, other) := by
  obtain ⟨front, closed, rfl, -⟩ := pull_refused_iff.1 pulled
  exact pull_refused_iff.2
    ⟨behind.no_front front, behind.closed.trans closed, by rw [behind.name], rfl⟩

theorem Behind.pull_waiting (behind : Behind [] ch other) (pulled : ch.pull = (.waiting, rest)) :
    other.pull = (.waiting, other) := by
  obtain ⟨front, opened, -⟩ := pull_waiting_iff.1 pulled
  exact pull_waiting_iff.2 ⟨behind.no_front front, behind.closed.trans opened, rfl⟩

theorem behind_ofList (value : Int) (values : List Int) :
    Behind [value] (ofList values) (ofList (value :: values)) where
  name := (name_ofList _ _).trans (name_ofList _ _).symm
  queue := by rw [queue_ofList, queue_ofList, List.singleton_append]
  senderClosed := rfl
  receiverClosed :=
    (moved_ofList (value :: values) "").receiverClosed.trans
      (moved_ofList values "").receiverClosed.symm

end Channel

namespace Cpu

variable {cpu next met : Cpu} {op : Opcode} {effect : Effect} {action : PortAction}
  {snag : Snag} {wordRead : Bool}

def unprimed (cpu : Cpu) : Cpu := { cpu with phase := none }

theorem Intends.unprimed (intends : cpu.Intends op effect) : cpu.unprimed.Intends op effect :=
  ⟨intends.1, intends.2⟩

end Cpu

namespace Machine

open Cpu

/-- The second machine has its phase in the queue. -/
structure Enqueued (cpu : Cpu) (ports : Ports) (peer : Cpu) (there : Ports) : Prop where
  peer : peer = cpu.unprimed
  input : Channel.Behind cpu.phase.toList ports.1 there.1
  output : there.2 = ports.2

variable {cpu next met peer : Cpu} {ports after there : Ports} {op : Opcode} {action : PortAction}
  {cause : Cause} {wordRead : Bool}

theorem Enqueued.acts (enqueued : Enqueued cpu ports peer there) (acts : cpu.Acts op action next)
    (answered : action.Answered wiring ports after) :
    ∃ last left, peer.step wiring there = (.ran op, last, left) ∧ Enqueued next after last left := by
  obtain ⟨rfl, input, output⟩ := enqueued
  cases acts with
  | store h =>
    cases answered
    exact ⟨_, _, step_of_acts (.store h.unprimed) rfl, rfl, input, output⟩
  | jump h =>
    cases answered
    exact ⟨_, _, step_of_acts (.jump h.unprimed) rfl, rfl, input, output⟩
  | fallThrough h =>
    cases answered
    exact ⟨_, _, step_of_acts (.fallThrough h.unprimed) rfl, rfl, input, output⟩
  | shift h =>
    cases answered
    exact ⟨_, _, step_of_acts (.shift h.unprimed) rfl, rfl, input, output⟩
  | halt h =>
    cases answered
    exact ⟨_, _, step_of_acts (.halt h.unprimed) rfl, rfl, input, congrArg Sink.close output⟩
  | emit h =>
    obtain ⟨left, pushed, rfl⟩ := wiring_push_iff.1 answered.1
    have answered' := And.intro (wiring_push_iff.2 ⟨left, output ▸ pushed, rfl⟩) answered.2
    exact ⟨_, _, step_of_acts (.emit h.unprimed) answered', rfl, input, rfl⟩
  | phase h primed inside =>
    -- the other machine takes from its queue what this one has as its phase
    cases answered
    rw [primed] at input
    obtain ⟨left, pulled, behind⟩ := input.pull_front
    have taken := wiring_pull_iff.2 ⟨left, pulled, rfl⟩
    exact ⟨_, _, step_of_acts (.take _ h.unprimed rfl inside) taken, rfl, behind, output⟩
  | take value h unprimed inside =>
    obtain ⟨rest, pulled, rfl⟩ := wiring_pull_iff.1 answered
    have phase : cpu.phase.toList = [] := congrArg Option.toList unprimed
    rw [phase] at input
    obtain ⟨left, pulled', behind⟩ := input.pull_value pulled
    have taken := wiring_pull_iff.2 ⟨left, pulled', rfl⟩
    exact ⟨_, _, step_of_acts (.take value h.unprimed rfl inside) taken, rfl, phase ▸ behind, output⟩

theorem Enqueued.left (enqueued : Enqueued cpu ports peer there) (snag : Snag) :
    Enqueued cpu (wiring.left snag ports) peer (wiring.left snag there) := by
  unfold Wiring.left
  split
  · exact ⟨enqueued.peer, enqueued.input.closeReceiver, congrArg Sink.close enqueued.output⟩
  · exact enqueued

theorem Enqueued.faulted (enqueued : Enqueued cpu ports peer there) (snag : Snag)
    (wordRead : Bool) : Enqueued (cpu.faulted snag wordRead) ports (peer.faulted snag wordRead)
      there where
  peer := by
    rw [enqueued.peer]
    rfl
  input := enqueued.input
  output := enqueued.output

/-- Where one machine fails, the other does, and neither keeps a value that the other loses. -/
theorem Enqueued.fails (enqueued : Enqueued cpu ports peer there)
    (fails : Fails wiring cpu ports snag wordRead met after) :
    ∃ last left, Fails wiring peer there snag wordRead last left ∧ Enqueued met after last left := by
  obtain ⟨rfl, input, output⟩ := enqueued
  cases fails with
  | fetch live unread => exact ⟨_, _, .fetch live unread, rfl, input, output⟩
  | prepare live fetched unprepared =>
    exact ⟨_, _, .prepare live fetched unprepared, rfl, input, output⟩
  | lostPhase h primed outside =>
    rw [primed] at input
    obtain ⟨left, pulled, behind⟩ := input.pull_front
    have taken := wiring_pull_iff.2 ⟨left, pulled, rfl⟩
    exact ⟨_, _, .lostInput h.unprimed rfl outside taken, rfl, behind, output⟩
  | lostInput h unprimed outside answer =>
    obtain ⟨rest, pulled, rfl⟩ := wiring_pull_iff.1 answer
    have phase : cpu.phase.toList = [] := congrArg Option.toList unprimed
    rw [phase] at input
    obtain ⟨left, pulled', behind⟩ := input.pull_value pulled
    have taken := wiring_pull_iff.2 ⟨left, pulled', rfl⟩
    exact ⟨_, _, .lostInput h.unprimed rfl outside taken, rfl, phase ▸ behind, output⟩
  | noInput h unprimed answer =>
    obtain ⟨rest, refused, rfl⟩ := wiring_pull_iff.1 answer
    have phase : cpu.phase.toList = [] := congrArg Option.toList unprimed
    obtain ⟨-, -, -, rfl⟩ := Channel.pull_refused_iff.1 refused
    have dry := wiring_pull_iff.2 ⟨_, (phase ▸ input).pull_refused refused, rfl⟩
    exact ⟨_, _, .noInput h.unprimed rfl dry, rfl, input, output⟩
  | noOutput h answer =>
    obtain ⟨left, refused, rfl⟩ := wiring_push_iff.1 answer
    have shut := wiring_push_iff.2 ⟨left, output ▸ refused, rfl⟩
    exact ⟨_, _, .noOutput h.unprimed shut, rfl, input, rfl⟩
  | untold h answer untold =>
    obtain ⟨left, pushed, rfl⟩ := wiring_push_iff.1 answer
    have answer' := wiring_push_iff.2 ⟨left, output ▸ pushed, rfl⟩
    exact ⟨_, _, .untold h.unprimed answer' untold, rfl, input, rfl⟩

theorem Enqueued.waits (enqueued : Enqueued cpu ports peer there)
    (waits : Waits wiring cpu ports after) :
    ∃ left, Waits wiring peer there left ∧ Enqueued cpu after peer left := by
  obtain ⟨rfl, input, output⟩ := enqueued
  obtain ⟨op, dst, h, unprimed, answer⟩ := waits
  obtain ⟨rest, waiting, rfl⟩ := wiring_pull_iff.1 answer
  have phase : cpu.phase.toList = [] := congrArg Option.toList unprimed
  obtain ⟨-, -, rfl⟩ := Channel.pull_waiting_iff.1 waiting
  have waiting' := wiring_pull_iff.2 ⟨_, (phase ▸ input).pull_waiting waiting, rfl⟩
  exact ⟨_, ⟨op, dst, h.unprimed, rfl, waiting'⟩, rfl, input, output⟩

theorem matched_enqueued : Matched wiring wiring Enqueued fun _ => False where
  halted enqueued := by
    rw [enqueued.peer]
    rfl
  step := by
    intro cpu next peer ports after there outcome enqueued stepped _
    cases stepped_of_step stepped with
    | @refused r refused =>
      have refused' : peer.refusal? = some r := by
        rw [enqueued.peer]
        exact refused
      exact ⟨_, _, step_of_refusal refused' there, enqueued⟩
    | waits waits =>
      obtain ⟨left, waits', still⟩ := enqueued.waits waits
      exact ⟨_, _, step_of_waits waits', still⟩
    | acts acts answered => exact enqueued.acts acts answered
    | @fails snag wordRead _ _ fails =>
      obtain ⟨last, left, fails', still⟩ := enqueued.fails fails
      have place : peer.ip = cpu.ip := by
        rw [enqueued.peer]
        rfl
      refine ⟨_, _, ?_, (still.faulted snag wordRead).left snag⟩
      rw [← place]
      exact step_of_fails fails'

/-- A machine with a phase and one with the phase as its first input, before they start. -/
theorem enqueued_start (name : String) (memory : Memory) (value : Int) (values : List Int)
    (output : Sink) :
    Enqueued { name, memory, phase := some value } (.ofList values, output)
      { name, memory, phase := none } (.ofList (value :: values), output) where
  peer := rfl
  input := Channel.behind_ofList value values
  output := rfl

/-- The phase is a first input: with the value as its phase or at the front of its inputs, a machine
makes the same steps, through the same states and to the same outputs. What is left of the phase and
the inputs is the same after every one of them, and single runs answer alike. -/
theorem phase_is_first_input (memory : Memory) (value : Int) (values : List Int) :
    (∀ (name : String) (output : Sink) (n : Nat),
      ∃ outcomes cpu input rest sink,
        Cpu.walk wiring n { name, memory, phase := some value } (.ofList values, output) =
          (outcomes, cpu, input, sink) ∧
        Cpu.walk wiring n { name, memory, phase := none } (.ofList (value :: values), output) =
          (outcomes, { cpu with phase := none }, rest, sink) ∧
        cpu.phase.toList ++ input.queue = rest.queue ∧
        input.receiverClosed = rest.receiverClosed) ∧
    ∀ allowance, Batch.outputs allowance memory values (some value) =
      Batch.outputs allowance memory (value :: values) none := by
  constructor
  · intro name output n
    have start := enqueued_start name memory value values output
    rcases walked : Cpu.walk wiring n { name, memory, phase := some value } (.ofList values, output)
      with ⟨outcomes, cpu, input, sink⟩
    obtain ⟨last, ⟨rest, other⟩, same, rfl, behind, rfl⟩ :=
      matched_enqueued.walk start walked fun _ _ => id
    exact ⟨outcomes, cpu, input, rest, _, rfl, same, behind.queue.symm,
      behind.receiverClosed.symm⟩
  · intro allowance
    have start := enqueued_start "intcode" memory value values (.collector {})
    rw [Batch.outputs_eq, Batch.outputs_eq]
    rcases ran : Cpu.run wiring allowance { memory, phase := some value }
      (.ofList values, .collector {}) with ⟨answer, cpu, input, sink⟩
    obtain ⟨last, ⟨rest, other⟩, same, -, -, rfl⟩ :=
      matched_enqueued.run start ran fun _ _ => id
    rw [same]
    cases answer with
    | error stop => rfl
    | ok count => rfl

end Machine

end IntcodeVM
