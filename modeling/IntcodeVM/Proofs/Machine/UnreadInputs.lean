import IntcodeVM.Proofs.Machine.FiniteInput
import IntcodeVM.Proofs.Machine.Lifecycle

/-! Inputs that are not read. Values behind all that a machine takes can be left out: nothing but a pull
that finds nothing else tells that they are there. Main statement: a machine that does not ask for a
value in vain goes through the same states with more values behind its inputs, and has these values left
in the end. -/
namespace IntcodeVM

namespace Channel

variable {α : Type} {value : α} {values : List α} {ch rest : Channel α}

/-- A channel with more values behind the others, whether it is open or not. -/
def supplied (values : List α) (ch : Channel α) : Channel α :=
  values.foldl (fun ch value => ch.extend value) ch

theorem Taken.supplied (taken : Taken value ch rest) (values : List α) :
    Taken value (ch.supplied values) (rest.supplied values) := by
  induction values generalizing ch rest with
  | nil => exact taken
  | cons more values ih => exact ih (taken.extend more)

theorem feed_eq_supplied (opened : ch.closed = false) (values : List α) :
    ch.feed values = (none, ch.supplied values) := by
  induction values generalizing ch with
  | nil => rfl
  | cons value rest ih =>
    rw [feed, push_eq_of_open opened]
    exact ih opened

theorem preloaded_append (name : String) (values more : List α) :
    preloaded name (values ++ more) = (preloaded name values).supplied more := by
  have opened : ({ name } : Channel α).closed = false := rfl
  simp only [preloaded, feed_eq_supplied opened, supplied, List.foldl_append]

theorem supplied_eq (values : List α) (ch : Channel α) :
    ch.supplied values =
      { ch with
        history := ch.history ++ values.toArray
        taken_le := by simpa using Nat.le_add_right_of_le ch.taken_le } := by
  induction values generalizing ch with
  | nil => exact eq_of_fields rfl (by simp [supplied]) rfl rfl rfl
  | cons value values ih =>
    have onward : ch.supplied (value :: values) = (ch.extend value).supplied values := rfl
    rw [onward, ih]
    exact eq_of_fields rfl (by simp [extend]) rfl rfl rfl

theorem queue_supplied (values : List α) (ch : Channel α) :
    (ch.supplied values).queue = ch.queue ++ values := by
  rw [supplied_eq]
  simp [queue, List.drop_append_of_le_length, ch.taken_le]

theorem ofList_append (values more : List α) :
    ofList (values ++ more) = (ofList values).supplied more := by
  rw [ofList, ofList, preloaded_append, supplied_eq, supplied_eq]
  rfl

end Channel

/-- A stop of a machine that has asked for a value where none is left. -/
def Stop.InVain : Stop → Prop
  | .waiting => True
  | .fault ⟨.sourceTerminated _, _⟩ => True
  | _ => False

namespace Machine

open Cpu

variable {cpu next met : Cpu} {ports after : Ports} {outcome : Outcome} {snag : Snag}
  {wordRead : Bool} {values : List Int} {value : Int} {answer : Pulled Int} {tells : Int → Bool}

/-- The second machine has more values queued, and is the first one otherwise. -/
def Supplied (values : List Int) (cpu : Cpu) (ports : Ports) (peer : Cpu) (there : Ports) : Prop :=
  peer = cpu ∧ there = (ports.1.supplied values, ports.2)

theorem pull_supplied (pulled : wiring.pull ports = (.value value, after)) (values : List Int) :
    wiring.pull (ports.1.supplied values, ports.2) =
      (.value value, after.1.supplied values, after.2) := by
  obtain ⟨left, taken, rfl⟩ := wiring_pull_iff.1 pulled
  have further := (Channel.pull_value_iff.1 taken).supplied values
  exact wiring_pull_iff.2 ⟨_, Channel.pull_value_iff.2 further, rfl⟩

theorem push_supplied {refused : Option Cause} (pushed : wiring.push value ports = (refused, after))
    (values : List Int) : wiring.push value (ports.1.supplied values, ports.2) =
      (refused, after.1.supplied values, after.2) := by
  obtain ⟨left, asked, rfl⟩ := wiring_push_iff.1 pushed
  exact wiring_push_iff.2 ⟨left, asked, rfl⟩

theorem answered_supplied {action : PortAction} (answered : action.Answered (telling tells) ports after)
    (values : List Int) :
    action.Answered (telling tells) (ports.1.supplied values, ports.2) (after.1.supplied values, after.2) := by
  cases action with
  | quiet | ended =>
    cases answered
    rfl
  | took value => exact pull_supplied answered values
  | sent value => exact ⟨push_supplied answered.1 values, answered.2⟩

theorem fails_supplied (fails : Fails (telling tells) cpu ports snag wordRead met after)
    (spared : ¬ (snag.stop (some cpu.ip)).InVain) (values : List Int) :
    Fails (telling tells) cpu (ports.1.supplied values, ports.2) snag wordRead met
      (after.1.supplied values, after.2) := by
  cases fails with
  | fetch live unread => exact .fetch live unread
  | prepare live fetched unprepared => exact .prepare live fetched unprepared
  | lostPhase h primed outside => exact .lostPhase h primed outside
  | lostInput h unprimed outside pulled =>
    exact .lostInput h unprimed outside (pull_supplied pulled values)
  | noInput h unprimed refused =>
    obtain ⟨left, none, rfl⟩ := wiring_pull_iff.1 refused
    obtain ⟨-, -, rfl, -⟩ := Channel.pull_refused_iff.1 none
    exact absurd trivial spared
  | noOutput h refused => exact .noOutput h (push_supplied refused values)
  | untold h pushed untold => exact .untold h (push_supplied pushed values) untold

theorem left_supplied (tells : Int → Bool) (snag : Snag) (ports : Ports) (values : List Int) :
    (telling tells).left snag (ports.1.supplied values, ports.2) =
      (((telling tells).left snag ports).1.supplied values, ((telling tells).left snag ports).2) := by
  unfold Wiring.left
  split
  · have input : (ports.1.supplied values).closeReceiver =
        ports.1.closeReceiver.supplied values := by
      rw [Channel.supplied_eq, Channel.supplied_eq]
      rfl
    exact congrArg (·, ports.2.close) input
  · rfl

theorem senderClosed_left (snag : Snag) (ports : Ports) :
    (wiring.left snag ports).1.senderClosed = ports.1.senderClosed := by
  unfold Wiring.left
  split
  · rfl
  · rfl

/-- As long as a machine finds what it asks for, more values make no difference to it. -/
theorem matched_supplied_telling (tells : Int → Bool) (values : List Int) :
    Matched (telling tells) (telling tells) (Supplied values) Stop.InVain where
  halted := by
    rintro cpu peer ports there ⟨rfl, -⟩
    rfl
  step := by
    rintro cpu next peer ports after there outcome ⟨rfl, rfl⟩ stepped spared
    cases stepped_of_step stepped with
    | refused refused => exact ⟨_, _, step_of_refusal refused _, rfl, rfl⟩
    | waits => exact absurd trivial (spared _ rfl)
    | acts acts answered =>
      exact ⟨_, _, step_of_acts acts (answered_supplied answered values), rfl, rfl⟩
    | @fails _ _ _ left fails =>
      have again := fails_supplied fails (spared _ rfl) values
      exact ⟨_, _, step_of_fails again, rfl, left_supplied tells _ left values⟩

theorem matched_supplied (values : List Int) :
    Matched wiring wiring (Supplied values) Stop.InVain := matched_supplied_telling wiring.tells values

theorem senderClosed_of_pull (pulled : wiring.pull ports = (answer, after))
    (closed : ports.1.senderClosed = true) : after.1.senderClosed = true := by
  obtain ⟨left, asked, rfl⟩ := wiring_pull_iff.1 pulled
  exact (Channel.kept_of_pull asked).senderClosed closed

theorem senderClosed_of_push {refused : Option Cause}
    (pushed : wiring.push value ports = (refused, after)) (closed : ports.1.senderClosed = true) :
    after.1.senderClosed = true := by
  obtain ⟨left, -, rfl⟩ := wiring_push_iff.1 pushed
  exact closed

theorem senderClosed_of_step (stepped : cpu.step wiring ports = (outcome, next, after))
    (closed : ports.1.senderClosed = true) : after.1.senderClosed = true := by
  cases stepped_of_step stepped with
  | refused => exact closed
  | waits waits =>
    obtain ⟨_, _, _, _, waiting⟩ := waits
    exact senderClosed_of_pull waiting closed
  | @acts _ action _ _ _ answered =>
    cases action with
    | quiet | ended =>
      cases answered
      exact closed
    | took value => exact senderClosed_of_pull answered closed
    | sent value => exact senderClosed_of_push answered.1 closed
  | @fails _ _ _ left fails =>
    rw [senderClosed_left]
    cases fails with
    | fetch | prepare | lostPhase => exact closed
    | lostInput _ _ _ pulled => exact senderClosed_of_pull pulled closed
    | noInput _ _ refused => exact senderClosed_of_pull refused closed
    | noOutput _ refused => exact senderClosed_of_push refused closed
    | untold _ pushed => exact senderClosed_of_push pushed closed

theorem not_waiting_of_closed (closed : ports.1.senderClosed = true) :
    cpu.step wiring ports ≠ (.stopped .waiting, next, after) := by
  intro stepped
  have kinds := stepped_of_step stepped
  generalize asked : Outcome.stopped .waiting = outcome at kinds
  cases kinds with
  | refused | acts => cases asked
  | fails => exact Snag.stop_ne_waiting _ _ (Outcome.stopped.inj asked).symm
  | waits waits =>
    obtain ⟨_, _, _, _, waiting⟩ := waits
    obtain ⟨_, none, rfl⟩ := wiring_pull_iff.1 waiting
    obtain ⟨-, opened, -⟩ := Channel.pull_waiting_iff.1 none
    simp [Channel.closed, closed] at opened

end Machine

namespace Session

open Machine

variable {s : Session Ports} {values : List Int}

/-- The same session with more values behind its inputs. -/
def supplied (values : List Int) (s : Session Ports) : Session Ports :=
  ⟨s.cpu, (s.ports.1.supplied values, s.ports.2), s.log⟩

/-- One step of a session whose input has no more senders, if it is not a pull in vain. -/
theorem call_supplied (values : List Int) (closed : s.ports.1.senderClosed = true)
    (spared : ∀ source ip,
      (s.call wiring .step).cpu.fault ≠ some ⟨.sourceTerminated source, ip⟩) :
    (s.supplied values).call wiring .step =
        (s.call wiring .step).supplied values ∧
      (s.call wiring .step).ports.1.senderClosed = true := by
  rcases stepped : s.cpu.step wiring s.ports with ⟨outcome, next, after⟩
  have unshaken : ∀ stop, outcome = .stopped stop → ¬ stop.InVain := by
    rintro stop rfl vain
    unfold Stop.InVain at vain
    split at vain
    · exact not_waiting_of_closed closed stepped
    · rename_i source ip
      obtain ⟨cause, wordRead, met, left, fails, legible, same, rfl, -⟩ :=
        Cpu.step_fault_iff.1 stepped
      cases same
      have recorded := fails.recorded legible
      simp only [call, Call.perform, stepped] at spared
      exact spared source _ recorded
    · exact vain
  have start : Supplied values s.cpu s.ports s.cpu (s.ports.1.supplied values, s.ports.2) :=
    ⟨rfl, rfl⟩
  obtain ⟨last, left, again, rfl, rfl⟩ := (matched_supplied values).step start stepped unshaken
  have shut := senderClosed_of_step stepped closed
  simp only [call, Call.perform, Call.outcomes, supplied, stepped, again]
  exact ⟨trivial, shut⟩

theorem fault_lasts {fault : Fault} (faulted : s.cpu.fault = some fault) (calls : List Call) :
    (s.calls wiring calls).cpu.fault = some fault := by
  have ended : s.cpu.refusal? ≠ none := by
    intro live
    cases faulted.symm.trans (Cpu.live_iff.1 live).2
  obtain ⟨r, refused⟩ := Option.ne_none_iff_exists'.1 ended
  rw [(calls_of_refusal refused calls).1, faulted]

theorem steps_supplied (closed : s.ports.1.senderClosed = true) (n : Nat)
    (spared : ∀ source ip, (s.calls wiring (List.replicate n .step)).cpu.fault ≠
      some ⟨.sourceTerminated source, ip⟩) :
    (s.supplied values).calls wiring (List.replicate n .step) =
      (s.calls wiring (List.replicate n .step)).supplied values := by
  induction n generalizing s with
  | zero => rfl
  | succ n ih =>
    have now : ∀ source ip,
        (s.call wiring .step).cpu.fault ≠ some ⟨.sourceTerminated source, ip⟩ :=
      fun source ip faulted => spared source ip (fault_lasts faulted (List.replicate n .step))
    obtain ⟨same, shut⟩ := call_supplied values closed now
    show ((s.supplied values).call wiring .step).calls wiring _ = _
    rw [same]
    exact ih shut spared

end Session

namespace Machine

theorem outputs_supplied {memory : Memory} {phase : Option Int} {allowance : Nat} {xs : List Int}
    (ys : List Int) (spared : ∀ source ip, Batch.outputs allowance memory xs phase ≠
      .error (.fault ⟨.sourceTerminated source, ip⟩)) :
    Batch.outputs allowance memory (xs ++ ys) phase = Batch.outputs allowance memory xs phase := by
  obtain ⟨actions, reached, rest, -, -, came⟩ := Batch.outputs_came allowance memory xs phase
  rcases ran : Cpu.run wiring allowance { memory, phase } (.ofList xs, .collector {})
    with ⟨answer, next, after⟩
  rw [Batch.outputs_eq, ran] at spared came
  have unshaken : ∀ stop, answer = .error stop → ¬ stop.InVain := by
    rintro stop rfl vain
    unfold Stop.InVain at vain
    split at vain
    · cases came with
      | failed _ _ _ _ same => exact Snag.stop_ne_waiting _ _ same.symm
    · exact spared _ _ rfl
    · exact vain
  have start : Supplied ys { memory, phase } (.ofList xs, .collector {}) { memory, phase }
      (.ofList (xs ++ ys), .collector {}) := ⟨rfl, by rw [Channel.ofList_append]⟩
  obtain ⟨last, left, again, rfl, rfl⟩ := (matched_supplied ys).run start ran unshaken
  rw [Batch.outputs_eq, Batch.outputs_eq, ran, again]
  cases answer <;> rfl

/-- Unread inputs are invisible. If so many steps of a machine on the inputs `xs` do not come to a pull
from an input that has no more values, then the steps on `xs` and `ys` come to the same, one by one, and
leave the same machine and output, and the same input but for `ys` behind what is queued. A program that
does not end in such a pull has the same answer with `ys` behind its inputs. -/
theorem unread_inputs_invisible (memory : Memory) (phase : Option Int) (xs ys : List Int) :
    (∀ (name : String) (output : Sink) (n : Nat) (s : Session Ports),
      Session.calls wiring ⟨{ name, memory, phase }, (.ofList xs, output), []⟩
        (List.replicate n .step) = s →
      (∀ source ip, s.cpu.fault ≠ some ⟨.sourceTerminated source, ip⟩) →
      ∃ input, Session.calls wiring
          ⟨{ name, memory, phase }, (.ofList (xs ++ ys), output), []⟩ (List.replicate n .step) =
            ⟨s.cpu, (input, s.ports.2), s.log⟩ ∧
        input.queue = s.ports.1.queue ++ ys ∧ input.taken = s.ports.1.taken ∧
        input.senderClosed = s.ports.1.senderClosed ∧
        input.receiverClosed = s.ports.1.receiverClosed) ∧
    ∀ allowance, (∀ source ip, Batch.outputs allowance memory xs phase ≠
        .error (.fault ⟨.sourceTerminated source, ip⟩)) →
      Batch.outputs allowance memory (xs ++ ys) phase = Batch.outputs allowance memory xs phase := by
  refine ⟨?_, fun allowance spared => outputs_supplied ys spared⟩
  rintro name output n s rfl spared
  let fresh : Session Ports := ⟨{ name, memory, phase }, (.ofList xs, output), []⟩
  have start : (⟨{ name, memory, phase }, (.ofList (xs ++ ys), output), []⟩ : Session Ports) =
      fresh.supplied ys := by
    simp only [fresh, Session.supplied, Channel.ofList_append]
  rw [start, Session.steps_supplied rfl n spared]
  refine ⟨_, rfl, Channel.queue_supplied ys _, ?_⟩
  rw [Channel.supplied_eq]
  exact ⟨rfl, rfl, rfl⟩

/-- A machine that sends what it reads and then runs out of memory: a second value is left. -/
theorem unread_inputs_invisible_left :
    let memory := Memory.ofWords [3, 0, 4, 0] 0
    let fresh (values : List Int) : Session Ports :=
      ⟨{ memory, phase := none }, (.ofList values, .collector {}), []⟩
    let s := (fresh [5]).calls wiring (List.replicate 3 .step)
    s.cpu.fault = some ⟨.outOfBounds 4 4, some 4⟩ ∧ s.ports.2.delivered = [5] ∧
      (∃ input, (fresh [5, 6]).calls wiring (List.replicate 3 .step) =
          ⟨s.cpu, (input, s.ports.2), s.log⟩ ∧ input.queue = [6]) ∧
      Batch.outputs 9 memory [5, 6] none = Batch.outputs 9 memory [5] none := by
  intro memory fresh s
  have fault : s.cpu.fault = some ⟨.outOfBounds 4 4, some 4⟩ := by decide +kernel
  have answer : Batch.outputs 9 memory [5] none = .error (.fault ⟨.outOfBounds 4 4, some 4⟩) := by
    decide +kernel
  have other (source : String) (ip : Option Int) :
      (⟨.outOfBounds 4 4, some 4⟩ : Fault) ≠ ⟨.sourceTerminated source, ip⟩ := nofun
  have spared (source : String) (ip : Option Int) :
      s.cpu.fault ≠ some ⟨.sourceTerminated source, ip⟩ := by
    rw [fault]
    exact fun vain => other source ip (Option.some.inj vain)
  obtain ⟨steps, runs⟩ := unread_inputs_invisible memory none [5] [6]
  obtain ⟨input, same, queue, -⟩ := steps "intcode" (.collector {}) 3 s rfl spared
  have queued : s.ports.1.queue = [] := by decide +kernel
  refine ⟨fault, by decide +kernel, ⟨input, same, ?_⟩, runs 9 fun source ip vain => ?_⟩
  · rw [queue, queued, List.nil_append]
  · exact other source ip (Stop.fault.inj (Except.error.inj (answer.symm.trans vain)))

end Machine

end IntcodeVM
