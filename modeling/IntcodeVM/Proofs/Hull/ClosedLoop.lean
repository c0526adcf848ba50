import IntcodeVM.Proofs.Hull.Deeds
import IntcodeVM.Proofs.Machine.FiniteInput
import IntcodeVM.Proofs.Machine.OutputByOutput

/-! The robot's run as a closed loop. What the machine is shown hangs on all that it has sent before; but
once the readings are known, they are a finite input like any other. Main statement: no reading of a run
is stale, each value is told once and in order, and the program run on the readings alone sends the same
values. -/
namespace IntcodeVM

open Settling PortAction

namespace Machine

variable {cpu next : Cpu} {action : PortAction} {actions : List PortAction} {rest : List Int}
  {input : Channel Int} {c : Collector}

theorem exists_answered (queued : input.queue = inputs [action] ++ rest)
    (opened : c.closed = false) : ∃ after, action.Answered wiring (input, .collector c) after := by
  cases action with
  | quiet => exact ⟨_, rfl⟩
  | took value =>
    obtain ⟨left, pulled⟩ := Channel.pull_of_queue_cons (show _ = value :: rest from queued)
    exact ⟨(left, .collector c), by simp [Answered, wiring, pulled]⟩
  | sent value =>
    exact ⟨(input, .collector { c with values := c.values.push value }),
      by simp [Answered, wiring, Sink.push, Collector.push, opened]⟩
  | ended => exact ⟨_, rfl⟩

theorem exists_allAnswered (transcript : Cpu.Transcript actions cpu next)
    (queued : input.queue = inputs actions ++ rest) (opened : c.closed = false) :
    ∃ after, AllAnswered wiring actions (input, .collector c) after := by
  induction transcript generalizing input c rest with
  | nil => exact ⟨_, .nil _⟩
  | @cons action actions cpu between next acts later ih =>
    rw [inputs_cons, List.append_assoc] at queued
    obtain ⟨mid, answered⟩ := exists_answered queued opened
    obtain ⟨left, kept, rfl, drawn⟩ := drawn_of_answered answered
    have whole : Cpu.Transcript (action :: actions) cpu next := .cons acts later
    by_cases ends : action = .ended
    · -- the output is closed now, but nothing is left to be sent
      subst ends
      obtain ⟨rfl, -⟩ := whole.of_ended
      exact ⟨_, .cons answered (.nil _)⟩
    · have queue := drawn.input.queue
      rw [queued, List.append_nil, List.append_cancel_left_eq] at queue
      have ongoing : PortAction.ended ∉ [action] := by simpa using Ne.symm ends
      obtain ⟨after, onward⟩ := ih queue.symm ((drawn.stays_open ongoing).trans opened)
      exact ⟨after, .cons answered onward⟩

end Machine

theorem Batch.outputs_of_transcript {actions : List PortAction} {memory : Memory}
    {phase : Option Int} {next : Cpu} {allowance : Nat}
    (transcript : Cpu.Transcript actions { memory, phase } next) (halted : next.halted = true)
    (within : actions.length ≤ allowance) :
    outputs allowance memory (inputs actions) phase = .ok (PortAction.outputs actions) := by
  have queued : (Channel.ofList (inputs actions) : Channel Int).queue = inputs actions ++ [] := by
    rw [Channel.queue_ofList, List.append_nil]
  obtain ⟨after, answered⟩ := Machine.exists_allAnswered transcript queued (c := {}) rfl
  obtain ⟨left, kept, rfl, drawn⟩ := Machine.drawn_of_allAnswered answered
  rw [outputs_eq, Cpu.run_of_ending transcript answered (.halted within halted)]
  exact congrArg Except.ok drawn.values

namespace Hull.Robot

open Deed

variable {memory : Memory} {color : Int} {deeds : List Deed} {r last : Robot} {allowance larger : Nat}

def Deed.action? : Deed → Option PortAction
  | .acted action => some action
  | _ => none

def Deed.actions (deeds : List Deed) : List PortAction := deeds.filterMap action?

/-- Deeds without a failure are a transcript of the machine, with what was shown and sent as its inputs
and outputs. -/
theorem transcript_of_path (path : Path Does deeds r last) (unfailed : Unfailed deeds) :
    Cpu.Transcript (Deed.actions deeds) r.cpu last.cpu ∧
      inputs (Deed.actions deeds) = readings deeds ∧
      outputs (Deed.actions deeds) = emitted deeds := by
  induction path with
  | nil => exact ⟨.nil _, rfl, rfl⟩
  | cons does _ ih =>
    obtain ⟨transcript, taken, sent⟩ := ih fun lost mem => unfailed lost (List.mem_cons_of_mem _ mem)
    cases does with
    | @acted _ op action cpu rig acts answered =>
      refine ⟨.cons ⟨op, acts⟩ transcript, ?_, ?_⟩
      · rw [inputs, readings] at taken ⊢
        simp only [Deed.actions, action?, reading?, List.filterMap_cons] at taken ⊢
        rw [taken]
      · rw [outputs, emitted] at sent ⊢
        simp only [Deed.actions, action?, emitted?, List.filterMap_cons] at sent ⊢
        rw [sent]
    | failed | lost => exact absurd List.mem_cons_self (unfailed _)
    | told => exact ⟨transcript, taken, sent⟩

theorem expectsColor_foldl (p : Painter) (values : List Int) :
    (values.foldl Painter.consume p).expectsColor = (p.expectsColor != (values.length % 2 = 1 : Bool)) := by
  induction values generalizing p with
  | nil => simp
  | cons value rest ih =>
    have turned : (p.consume value).expectsColor = !p.expectsColor := by
      unfold Painter.consume
      cases p.expectsColor <;> rfl
    rw [List.foldl_cons, ih, turned, List.length_cons]
    rcases Nat.mod_two_eq_zero_or_one rest.length with even | odd
    · simp [Nat.add_mod, even]
    · simp [Nat.add_mod, odd]

theorem expectsColor_painted (color : Int) (values : List Int) :
    (painted color values).expectsColor = false ↔ values.length % 2 = 1 := by
  rw [painted, expectsColor_foldl]
  simp [Painter.start]

theorem untilOutput_mono (ended : (r.untilOutput allowance).1 ≠ .error .unfinished)
    (more : allowance ≤ larger) : r.untilOutput larger = r.untilOutput allowance := by
  obtain ⟨cpu, rig⟩ := r
  simp only [untilOutput] at ended ⊢
  rw [Cpu.runUntilOutput_mono ended more]

theorem runRounds_mono {rounds more : Nat}
    (ended : (r.runRounds allowance rounds).1 ≠ .error .unfinished) (room : allowance ≤ larger)
    (turns : rounds ≤ more) : r.runRounds larger more = r.runRounds allowance rounds := by
  induction rounds generalizing r more with
  | zero => exact absurd rfl ended
  | succ rounds ih =>
    obtain ⟨more, rfl⟩ := Nat.exists_eq_add_of_le' (Nat.le_trans (Nat.succ_pos rounds) turns)
    rcases ran : r.untilOutput allowance with ⟨answer, next⟩
    rw [runRounds, ran] at ended
    have paused : (r.untilOutput allowance).1 ≠ .error .unfinished := by
      rw [ran]
      rintro rfl
      exact ended rfl
    rw [runRounds, runRounds, untilOutput_mono paused room, ran]
    cases answer with
    | error stop => rfl
    | ok value =>
      cases value with
      | none => rfl
      | some value => exact ih ended (Nat.le_of_succ_le_succ turns)

/-- A run of the robot, against the values that its machine has sent and its camera has shown. -/
structure ClosedLoop (memory : Memory) (color : Int) (deeds : List Deed) (answer : Except Stop Unit)
    (last : Robot) : Prop where
  path : Path Does deeds (start memory color) last
  reads : last.rig.reads = (readings deeds).length
  collected : last.rig.sink.values.toList = emitted deeds
  fresh {before : List Deed} {deed : Deed} {value : Int} : before ++ [deed] <+: deeds →
    deed.reading? = some value →
    value = ((emitted before).foldl Painter.consume (.start color)).view
  order {before : List Deed} : before <+: deeds → consumed before <+: emitted before
  consumed : consumed deeds = emitted deeds
  painter : last.rig.painter = (emitted deeds).foldl Painter.consume (.start color)
  replayed : answer = .ok () → ∀ allowance, last.cpu.steps ≤ allowance →
    Batch.outputs allowance memory (readings deeds) none = .ok (emitted deeds)
  unturned : answer = .error last.missingTurn ↔
    last.cpu.halted = true ∧ (emitted deeds).length % 2 = 1
  /-- The missing turn is a fault only if there are words for it. -/
  worded : (∃ color ip, answer = .error (.fault ⟨.missingTurn color, ip⟩)) ↔
    last.cpu.halted = true ∧ (emitted deeds).length % 2 = 1 ∧
      Text.isLegible last.rig.painter.view = true

/-- Steps and tellings in turn make a closed loop: every reading shows what the values sent so far have
made of the hull, every value is told once and in order, the program sends the same values when it is
given the readings as a finite input, and a turn is missing exactly if the machine halts after an odd
number of values; that is a fault unless the color is too long to be written. A run that has come to
an end comes to it with every larger allowance. -/
theorem run_closes_loop (memory : Memory) (color : Int) (allowance : Nat) :
    (∃ deeds, ClosedLoop memory color deeds ((start memory color).run allowance).1
      ((start memory color).run allowance).2) ∧
    (((start memory color).run allowance).1 ≠ .error .unfinished → ∀ larger, allowance ≤ larger →
      (start memory color).run larger = (start memory color).run allowance) := by
  refine ⟨?_, fun ended larger more => runRounds_mono ended more more⟩
  have working : Working (start memory color) := ⟨rfl, rfl, rfl⟩
  obtain ⟨deeds, answer, last, ran, recorded, ended⟩ :=
    ended_runRounds (recorded_start memory color) rfl nofun working allowance allowance
  rw [List.nil_append] at recorded ended
  rw [run, ran]
  show ∃ deeds, ClosedLoop memory color deeds answer last
  have level : consumed deeds = emitted deeds := by
    cases ended with
    | done level | unturned level | failed level | spent level => exact level
  have painter : last.rig.painter = painted color (emitted deeds) := by rw [recorded.painter, level]
  have turn : last.rig.painter.expectsColor = false ↔ (emitted deeds).length % 2 = 1 := by
    rw [painter, expectsColor_painted]
  refine ⟨deeds, recorded.path, recorded.reads, recorded.collected, recorded.fresh, recorded.order,
    level, painter, ?_, ?_, ?_⟩
  · rintro rfl larger within
    cases ended with
    | done _ unfailed halted expects =>
      obtain ⟨transcript, taken, sent⟩ := transcript_of_path recorded.path unfailed
      have counted : last.cpu.steps = (Deed.actions deeds).length :=
        transcript.counted.trans (Nat.zero_add _)
      rw [← taken, ← sent]
      exact Batch.outputs_of_transcript (transcript.renamed "intcode") halted (counted ▸ within)
  · cases ended with
    | done _ _ halted expects => simp [← turn, expects]
    | unturned _ halted expects => simp [← turn, halted, expects]
    | failed _ going inner =>
      constructor
      · intro same
        cases Snag.cause.inj (Snag.stop_inj (Except.error.inj same))
        exact absurd rfl inner
      · rintro ⟨halted, -⟩
        cases going.symm.trans halted
    | spent _ going => simp [(Snag.stop_ne_unfinished _ _).symm, missingTurn, going]
  · rw [← and_assoc, ← turn]
    cases ended with
    | done _ _ halted expects => simp [expects]
    | unturned _ halted expects =>
      simp [halted, expects, missingTurn, Snag.stop_cause_eq_fault_iff, Cause.isLegible]
    | failed _ going inner =>
      constructor
      · rintro ⟨color, ip, same⟩
        cases (Snag.stop_cause_eq_fault_iff.1 (Except.error.inj same)).2
        exact absurd rfl inner
      · rintro ⟨⟨halted, -⟩, -⟩
        cases going.symm.trans halted
    | spent _ going => simp [going]

/-- A program that looks at the hull before it paints, after it has painted and after it has moved. -/
theorem run_closes_loop_looking :
    let memory := Memory.ofWords [3, 0, 104, 5, 3, 0, 104, 0, 3, 0, 104, 6, 104, 1, 99] 0
    let ran := (start memory 1).run 10
    (∃ deeds, ClosedLoop memory 1 deeds ran.1 ran.2) ∧ (start memory 1).run 20 = ran ∧
      ran.1 = .ok () ∧ ran.2.rig.reads = 3 ∧ ran.2.rig.sink.values = #[5, 0, 6, 1] ∧
      Batch.outputs 10 memory [1, 5, 0] none = .ok [5, 0, 6, 1] := by
  intro memory ran
  have done : ran.1 = .ok () := by decide +kernel
  obtain ⟨closed, lasting⟩ := run_closes_loop memory 1 10
  refine ⟨closed, lasting (fun unfinished => ?_) 20 (by decide), done, ?_, ?_, ?_⟩
  · cases done.symm.trans unfinished
  all_goals decide +kernel

/-- A program that paints a color too long to be written, and halts: there is no fault for the turn that
is missing. -/
theorem run_of_long_color :
    let ran := (start (.ofWords [104, Text.illegible, 99] 0) 1).run 3
    ran.2.cpu.halted = true ∧ ran.2.rig.sink.values = #[Text.illegible] ∧
      ran.1 = .error (.unworded (.cause (.missingTurn Text.illegible))) ∧
      ¬ ∀ (memory : Memory) (color : Int) (allowance : Nat),
        let ran := (start memory color).run allowance
        ran.2.cpu.halted = true → ran.2.rig.sink.values.size % 2 = 1 →
          ∃ color ip, ran.1 = .error (.fault ⟨.missingTurn color, ip⟩) := by
  intro ran
  have halted : ran.2.cpu.halted = true := by decide +kernel
  have sent : ran.2.rig.sink.values = #[Text.illegible] := by decide +kernel
  have answer : ran.1 = .error (.unworded (.cause (.missingTurn Text.illegible))) := by
    decide +kernel
  refine ⟨halted, sent, answer, fun always => ?_⟩
  obtain ⟨color, ip, fault⟩ := always _ 1 3 halted (sent ▸ rfl)
  cases answer.symm.trans fault

end Hull.Robot

end IntcodeVM
