import IntcodeVM.Batch
import IntcodeVM.Proofs.Channel.Traffic
import IntcodeVM.Proofs.Machine.PortFaults

/-! Runs with a finite list of inputs. Such a run never waits: it halts, fails, or uses up its
allowance. Main statement: the values it has taken are the first of the list, its outputs are the
values it has sent, and what it comes to can be told from its transcript and the values that are
left. -/
namespace IntcodeVM

open Settling PortAction

/-- Ports that have just these values left to hand out, and take and tell every output. -/
structure Wiring.Offers {σ : Type} (w : Wiring σ) (ports : σ) (values : List Int)
    (source : String) : Prop where
  next {value : Int} {rest : List Int} : values = value :: rest →
    ∃ left, w.pull ports = (.value value, left)
  dry : values = [] → ∃ left, w.pull ports = (.refused (.sourceTerminated source), left)
  accepts (value : Int) : ∃ left, w.push value ports = (none, left)
  tells (value : Int) : w.tells value = true

variable {σ τ : Type} {w : Wiring σ} {other : Wiring τ} {ports : σ} {there : τ}
  {values rest outs : List Int} {source name : String} {actions : List PortAction}
  {allowance larger taken : Nat}

namespace Wiring.Offers

variable {value : Int} {left : σ} {cause : Cause}

theorem pulled (offers : w.Offers ports values source)
    (h : w.pull ports = (.value value, left)) : ∃ rest, values = value :: rest := by
  cases values with
  | nil =>
    obtain ⟨_, dry⟩ := offers.dry rfl
    cases dry.symm.trans h
  | cons first rest =>
    obtain ⟨_, next⟩ := offers.next rfl
    cases next.symm.trans h
    exact ⟨rest, rfl⟩

theorem refused (offers : w.Offers ports values source)
    (h : w.pull ports = (.refused cause, left)) :
    values = [] ∧ cause = .sourceTerminated source := by
  cases values with
  | nil =>
    obtain ⟨_, dry⟩ := offers.dry rfl
    cases dry.symm.trans h
    exact ⟨rfl, rfl⟩
  | cons first rest =>
    obtain ⟨_, next⟩ := offers.next rfl
    cases next.symm.trans h

theorem not_waiting (offers : w.Offers ports values source) :
    w.pull ports ≠ (.waiting, left) := by
  intro h
  cases values with
  | nil =>
    obtain ⟨_, dry⟩ := offers.dry rfl
    cases dry.symm.trans h
  | cons first rest =>
    obtain ⟨_, next⟩ := offers.next rfl
    cases next.symm.trans h

theorem not_shut (offers : w.Offers ports values source) :
    w.push value ports ≠ (some cause, left) := by
  intro h
  obtain ⟨_, accepted⟩ := offers.accepts value
  cases accepted.symm.trans h

theorem alike (here : w.Offers ports values source) (offers : other.Offers there values name)
    (sink : String) : w.Alike ports other there name sink where
  pulled := by
    intro value left pulled
    obtain ⟨rest, rfl⟩ := here.pulled pulled
    exact offers.next rfl
  dry := by
    intro cause left refused
    obtain ⟨rfl, rfl⟩ := here.refused refused
    exact offers.dry rfl
  shut := by
    intro value cause left shut
    exact absurd shut here.not_shut

end Wiring.Offers

namespace Cpu

variable {cpu met last : Cpu} {cause : Cause} {stop : Stop} {wordRead : Bool} {left : σ}

theorem fails_of_stopped (offers : w.Offers ports values source) (live : cpu.refusal? = none)
    (stepped : cpu.step w ports = (.stopped stop, last, left)) :
    ∃ cause wordRead met after, Fails w cpu ports (.cause cause) wordRead met after ∧
      stop = (Snag.cause cause).stop (some cpu.ip) := by
  rcases cases_of_live w ports live with ⟨_, waits⟩ | ⟨_, _, _, _, acts, answered⟩ |
    ⟨snag, wordRead, met, after, fails⟩
  · obtain ⟨_, _, _, _, waiting⟩ := waits
    exact absurd waiting offers.not_waiting
  · cases (step_of_acts acts answered).symm.trans stepped
  · cases (step_of_fails fails).symm.trans stepped
    cases snag with
    | cause cause => exact ⟨cause, wordRead, met, after, fails, rfl⟩
    | untold value =>
      cases fails with
      | untold _ _ untold => cases (offers.tells value).symm.trans untold

/-- The only fault that such ports can tell is that nothing is left. -/
theorem Fails.cause_of_offers (fails : Fails w cpu ports (.cause cause) wordRead met left)
    (offers : w.Offers ports values source) :
    cause.family ≠ .port ∨ cause = .sourceTerminated source := by
  cases fails with
  | fetch live unread => exact .inl (Inward.read _ _ _ unread)
  | prepare live fetched unprepared => exact .inl (Inward.prepare _ _ _ unprepared)
  | lostPhase intends primed outside => exact .inl (Inward.index _ _ _ outside)
  | lostInput intends unprimed outside pulled => exact .inl (Inward.index _ _ _ outside)
  | noInput intends unprimed refused => exact .inr (offers.refused refused).2
  | noOutput intends shut => exact absurd shut offers.not_shut

end Cpu

namespace Machine

/-- An input and a collector before and after these actions. -/
structure Drawn (actions : List PortAction) (input left : Channel Int) (c kept : Collector) :
    Prop where
  input : Channel.Moved [] (inputs actions) false input left
  values : kept.values.toList = c.values.toList ++ outputs actions
  stays_open : .ended ∉ actions → kept.closed = c.closed

variable {input : Channel Int} {c : Collector}

theorem offers_of_open (closed : input.closed = true) (opened : c.closed = false) :
    wiring.Offers (input, .collector c) input.queue input.name where
  next queued := by
    obtain ⟨left, pulled⟩ := Channel.pull_of_queue_cons queued
    exact ⟨(left, .collector c), by simp only [wiring, pulled]⟩
  dry queued :=
    ⟨(input, .collector c), by simp only [wiring, Channel.pull_of_queue_nil queued closed]⟩
  accepts value :=
    ⟨(input, .collector { c with values := c.values.push value }),
      by simp [wiring, Sink.push, Collector.push, opened]⟩
  tells _ := rfl

theorem drawn_of_answered {action : PortAction} {after : Ports}
    (answered : action.Answered wiring (input, .collector c) after) :
    ∃ left kept, after = (left, .collector kept) ∧ Drawn [action] input left c kept := by
  cases action with
  | quiet =>
    cases answered
    exact ⟨input, c, rfl, .refl input, (List.append_nil _).symm, fun _ => rfl⟩
  | took value =>
    rcases pulled : input.pull with ⟨answer, left⟩
    simp only [Answered, wiring, pulled] at answered
    cases answered
    have taken := Channel.pull_value_iff.1 pulled
    exact ⟨left, c, rfl, taken.moved, (List.append_nil _).symm, fun _ => rfl⟩
  | sent value =>
    cases closed : c.closed with
    | true => simp [Answered, wiring, Sink.push, Collector.push, closed] at answered
    | false =>
      simp only [Answered, wiring, Sink.push, Collector.push, closed, Bool.false_eq_true,
        if_false, and_true] at answered
      cases answered
      exact ⟨input, _, rfl, .refl input, Array.toList_push, fun _ => closed.symm⟩
  | ended =>
    cases answered
    exact ⟨input, c.close, rfl, .refl input, (List.append_nil _).symm, fun other => by simp at other⟩

theorem drawn_of_allAnswered {after : Ports}
    (answered : AllAnswered wiring actions (input, .collector c) after) :
    ∃ left kept, after = (left, .collector kept) ∧ Drawn actions input left c kept := by
  induction actions generalizing input c with
  | nil =>
    cases answered
    exact ⟨input, c, rfl, .refl input, (List.append_nil _).symm, fun _ => rfl⟩
  | cons action actions ih =>
    cases answered with
    | cons first later =>
      obtain ⟨mid, held, rfl, drawn⟩ := drawn_of_answered first
      obtain ⟨left, kept, same, onward⟩ := ih later
      refine ⟨left, kept, same, ?_, ?_, ?_⟩
      · rw [inputs_cons action actions]
        exact drawn.input.trans onward.input
      · rw [onward.values, drawn.values, outputs_cons action actions, List.append_assoc]
      · intro going
        rw [onward.stays_open fun mem => going (List.mem_cons_of_mem _ mem),
          drawn.stays_open fun mem => going (List.mem_cons.2 (.inl (List.mem_singleton.1 mem)))]

end Machine

namespace Batch

/-- What a run comes to that has taken so many steps up to `next`, has sent these outputs and has
these inputs left. -/
inductive Came (allowance taken : Nat) (outs rest : List Int) (next : Cpu) :
    Except Stop (List Int) → Prop
  | halted : taken ≤ allowance → next.halted = true → Came allowance taken outs rest next (.ok outs)
  | spent : taken = allowance → next.halted = false →
      Came allowance taken outs rest next (.error .unfinished)
  | failed {cause : Cause} {stop : Stop} {wordRead : Bool} {met : Cpu}
      {ports after : Machine.Ports} :
      taken < allowance → next.halted = false → Machine.wiring.Offers ports rest "" →
      Cpu.Fails Machine.wiring next ports (.cause cause) wordRead met after →
      stop = (Snag.cause cause).stop (some next.ip) →
      Came allowance taken outs rest next (.error stop)

theorem outputs_eq (allowance : Nat) (memory : Memory) (values : List Int) (phase : Option Int) :
    outputs allowance memory values phase =
      match Cpu.run Machine.wiring allowance { memory, phase } (.ofList values, .collector {}) with
      | (.error stop, _) => .error stop
      | (.ok _, _, _, output) => .ok output.visible := by
  rcases ran : Cpu.run Machine.wiring allowance { memory, phase } (.ofList values, .collector {})
    with ⟨answer, cpu, input, output⟩
  simp only [outputs, machine, Machine.run, Cpu.runLimited, ran, Machine.assembled]
  cases answer <;> rfl

theorem outputs_came (allowance : Nat) (memory : Memory) (values : List Int)
    (phase : Option Int) :
    ∃ actions next rest, Cpu.Transcript actions { memory, phase } next ∧
      values = inputs actions ++ rest ∧
      Came allowance actions.length (PortAction.outputs actions) rest next
        (outputs allowance memory values phase) := by
  obtain ⟨actions, next, after, transcript, answered, ending⟩ :=
    Cpu.exists_ending Machine.wiring allowance { memory, phase } (.ofList values, .collector {})
  obtain ⟨left, kept, rfl, drawn⟩ := Machine.drawn_of_allAnswered answered
  have queue : values = inputs actions ++ left.queue := by
    simpa [Channel.queue_ofList] using drawn.input.queue
  refine ⟨actions, next, left.queue, transcript, queue, ?_⟩
  rw [outputs_eq]
  rcases ran : Cpu.run Machine.wiring allowance { memory, phase } (.ofList values, .collector {})
    with ⟨answer, last, ports⟩
  rw [ran] at ending
  cases ending with
  | halted within halted =>
    have visible : (Sink.collector kept).visible = PortAction.outputs actions := drawn.values
    simp only [visible]
    exact .halted within halted
  | spent same going => exact .spent same going
  | stopped within going stepped =>
    have opened : kept.closed = false := by
      apply drawn.stays_open
      intro mem
      cases going.symm.trans ((transcript.halted_iff rfl).2 mem)
    have closed : left.closed = true := by simp [drawn.input.closed, Channel.closed_ofList]
    have offers := Machine.offers_of_open closed opened
    rw [drawn.input.name, Channel.name_ofList] at offers
    have live : next.refusal? = none := by simp [Cpu.refusal?, going, transcript.fault_eq]
    obtain ⟨cause, wordRead, met, after, fails, rfl⟩ := Cpu.fails_of_stopped offers live stepped
    exact .failed within going offers fails rfl

theorem outputs_mono {memory : Memory} {phase : Option Int}
    (ended : outputs allowance memory values phase ≠ .error .unfinished)
    (more : allowance ≤ larger) :
    outputs larger memory values phase = outputs allowance memory values phase := by
  rw [outputs_eq] at ended
  rw [outputs_eq, outputs_eq, Cpu.run_mono _ more]
  intro unfinished
  rcases ran : Cpu.run Machine.wiring allowance { memory, phase } (.ofList values, .collector {})
    with ⟨answer, last, ports⟩
  rw [ran] at unfinished ended
  cases unfinished
  exact ended rfl

end Batch

end IntcodeVM
