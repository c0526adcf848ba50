import IntcodeVM.Proofs.Machine.UnreadInputs
import IntcodeVM.Proofs.Monitor.Printed

/-! Where the monitor's steps bring its machine. A step runs, fails with a fault, or breaks off at a number
too long to be written, and in this case the machine goes on from where it was left. Main statement: each
step brings a machine that plain steps can reach to the next such machine, and what is printed of it tells
the value that it sends and the fault that it meets. -/
namespace IntcodeVM

theorem Cpu.walk_snoc {σ : Type} {w : Wiring σ} {cpu next last : Cpu} {ports after left : σ} {n : Nat}
    {outcomes : List Outcome} {outcome : Outcome}
    (walked : walk w n cpu ports = (outcomes, next, after))
    (stepped : next.step w after = (outcome, last, left)) :
    walk w (n + 1) cpu ports = (outcomes ++ [outcome], last, left) := by
  rw [walk_add, walked]
  simp [walk, stepped]

namespace Monitor

open Machine

variable {m last : Machine} {machines : List Machine} {image : Memory} {inputs values : List Int}
  {phase : Option Int} {outcomes : List Outcome} {steps broken : Nat} {snag : Snag}
  {wordRead : Bool} {met : Cpu} {ports after : Ports} {next : Machine}

def isBroken : Outcome → Bool
  | .stopped (.unworded _) => true
  | _ => false

@[simp] theorem isBroken_ran (op : Opcode) : isBroken (.ran op) = false := rfl

@[simp] theorem isBroken_fault (fault : Fault) : isBroken (.stopped (.fault fault)) = false := rfl

@[simp] theorem isBroken_unworded (snag : Snag) : isBroken (.stopped (.unworded snag)) = true := rfl

/-- What steps in a row come to, so many of which ran and so many of which broke off. -/
structure Progress (steps broken : Nat) (outcomes : List Outcome) : Prop where
  each : ∀ outcome ∈ outcomes, outcome.hasRun = true ∨ isBroken outcome = true
  ran : outcomes.countP Outcome.hasRun = steps
  broken : outcomes.countP isBroken = broken

theorem progress_nil : Progress 0 0 [] := ⟨by simp, rfl, rfl⟩

theorem Progress.ran_one (progress : Progress steps broken outcomes) (op : Opcode) :
    Progress (steps + 1) broken (outcomes ++ [.ran op]) where
  each := by simpa [Outcome.hasRun, or_imp, forall_and] using progress.each
  ran := by simp [progress.ran, Outcome.hasRun]
  broken := by simp [progress.broken, isBroken]

theorem Progress.broken_one (progress : Progress steps broken outcomes) (snag : Snag) :
    Progress steps (broken + 1) (outcomes ++ [.stopped (.unworded snag)]) where
  each := by simpa [isBroken, or_imp, forall_and] using progress.each
  ran := by simp [progress.ran, Outcome.hasRun]
  broken := by simp [progress.broken, isBroken]

theorem Progress.not_inVain (progress : Progress steps broken outcomes) {stop : Stop}
    (stopped : .stopped stop ∈ outcomes) : ¬ stop.InVain := by
  rcases progress.each _ stopped with ran | broke
  · cases ran
  · cases stop with
    | unworded => exact id
    | fault | refused | waiting | unfinished => cases broke

theorem Progress.all_ran (progress : Progress steps 0 outcomes) :
    ∃ ops : List Opcode, ops.length = steps ∧ outcomes = ops.map .ran := by
  obtain ⟨each, ran, broken⟩ := progress
  induction outcomes generalizing steps with
  | nil => exact ⟨[], ran, rfl⟩
  | cons outcome rest ih =>
    have whole := (List.countP_eq_zero.1 broken) outcome List.mem_cons_self
    have others : rest.countP isBroken = 0 :=
      List.countP_eq_zero.2 fun o mem => List.countP_eq_zero.1 broken o (List.mem_cons_of_mem _ mem)
    cases outcome with
    | stopped stop =>
      rcases each _ List.mem_cons_self with ran | broke
      · cases ran
      · exact absurd broke whole
    | ran op =>
      obtain ⟨ops, counted, rfl⟩ := ih (fun o mem => each o (List.mem_cons_of_mem _ mem)) rfl others
      refine ⟨op :: ops, ?_, rfl⟩
      rw [← ran, List.countP_cons_of_pos rfl, List.length_cons, counted]

/-- What steps alone come to: a machine on this image, with these values queued before it starts, has
stepped as often as it counts, has broken off so many steps, and has stepped once more if it has a
fault. -/
structure Reached (image : Memory) (phase : Option Int) (values : List Int) (broken : Nat)
    (m : Machine) : Prop where
  walked : ∃ outcomes, Progress m.cpu.steps broken outcomes ∧
    Cpu.walk wiring (m.cpu.steps + broken + m.cpu.fault.toList.length)
        { name := "monitor", memory := image, phase } (.preloaded "monitor-in" values, .collector {}) =
      (outcomes ++ m.cpu.fault.toList.map fun fault => .stopped (.fault fault),
        m.cpu, m.input, m.output)
  untold : m.output.visible.countP (!Text.isLegible ·) ≤ broken

theorem reached_boot (image : Memory) (values : List Int) (phase : Option Int) :
    Reached image phase values 0 (Console.boot image values phase) :=
  ⟨⟨[], progress_nil, rfl⟩, Nat.le_refl 0⟩

theorem Reached.supplied (reached : Reached image phase values broken m)
    (sound : m.cpu.fault = none) (more : List Int) :
    Reached image phase (values ++ more) broken { m with input := m.input.supplied more } := by
  obtain ⟨⟨outcomes, progress, walked⟩, untold⟩ := reached
  have start : Supplied more { name := "monitor", memory := image, phase }
      (.preloaded "monitor-in" values, .collector {}) { name := "monitor", memory := image, phase }
      (.preloaded "monitor-in" (values ++ more), .collector {}) :=
    ⟨rfl, by rw [Channel.preloaded_append]⟩
  have spared : ∀ stop, .stopped stop ∈ outcomes ++ m.cpu.fault.toList.map (fun fault =>
      Outcome.stopped (.fault fault)) → ¬ stop.InVain := by
    simpa [sound] using fun stop => progress.not_inVain
  obtain ⟨last, left, same, rfl, rfl⟩ :=
    (matched_supplied_telling Text.isLegible more).walk start walked spared
  exact ⟨⟨outcomes, progress, same⟩, untold⟩

theorem told_outputs {action : PortAction} (answered : action.Answered wiring ports after) :
    (PortAction.outputs [action]).filter Text.isLegible = PortAction.outputs [action] := by
  cases action with
  | sent value =>
    have legible : Text.isLegible value = true := answered.2
    simp [PortAction.outputs, PortAction.output?, legible]
  | quiet | took value | ended => rfl

theorem untold_sent {cpu : Cpu} (fails : Cpu.Fails wiring cpu ports snag wordRead met after) :
    snag.sent.filter Text.isLegible = [] := by
  cases fails with
  | untold intends pushed untold =>
    have illegible : Text.isLegible _ = false := untold
    simp [Snag.sent, illegible]
  | fetch | prepare | lostPhase | lostInput | noInput | noOutput => rfl

theorem breaks_eq (able : canStep m = true) : breaks m = isBroken (stepOnce m).1 := by
  rw [breaks, brokenBy, advance_of_canStep able]
  cases (stepOnce m).1 with
  | ran op => cases op <;> rfl
  | stopped stop => cases stop <;> rfl

theorem filter_ran {cpu next : Cpu} {op : Opcode} {action : PortAction}
    (acts : cpu.Acts op action next) :
    (linesOf (Advance.ofOutcome next (.ran op))).filter isOut =
        (PortAction.outputs [action]).map outLine ∧
      (linesOf (Advance.ofOutcome next (.ran op))).filter isFault = [] := by
  by_cases sends : op = .output
  · subst sends
    obtain ⟨value, rfl, recorded⟩ := acts.output_sent
    have shown : linesOf (Advance.ofOutcome next (.ran .output)) = [outLine value] := by
      simp only [Advance.ofOutcome, recorded]
      rfl
    rw [shown]
    simp [isOut_outLine, isFault_outLine, PortAction.outputs, PortAction.output?]
  · have quiet : PortAction.outputs [action] = [] := by
      cases action with
      | sent value => exact absurd acts.eq_output_of_sent sends
      | quiet | took | ended => rfl
    have others : ∀ line ∈ linesOf (Advance.ofOutcome next (.ran op)), plain line = true := by
      cases op with
      | output => exact absurd rfl sends
      | halt => simp [Advance.ofOutcome, linesOf, plain, toString]
      | add | mul | input | jumpIfTrue | jumpIfFalse | lessThan | equals | adjustBase =>
        simp [Advance.ofOutcome, linesOf]
    rw [quiet]
    exact ⟨Console.filter_of_plain (fun _ => isOut_of_plain) others,
      Console.filter_of_plain (fun _ => isFault_of_plain) others⟩

/-- What one step does to the values that were handed out, and what is printed of it. -/
structure Shown (m next : Machine) (sent : List Int) : Prop where
  values : next.output.visible = m.output.visible ++ sent
  out : (printedBy m).filter isOut = (sent.filter Text.isLegible).map outLine
  fault : next.cpu.fault.toList.map faultLine =
    m.cpu.fault.toList.map faultLine ++ (printedBy m).filter isFault
  untold : sent.countP (!Text.isLegible ·) ≤ if breaks m then 1 else 0

theorem Shown.of_ran {op : Opcode} {action : PortAction} (able : canStep m = true)
    (stepped : stepOnce m = (.ran op, next)) (acts : m.cpu.Acts op action next.cpu)
    (answered : action.Answered wiring ports after)
    (values : next.output.visible = m.output.visible ++ PortAction.outputs [action]) :
    Shown m next (PortAction.outputs [action]) := by
  obtain ⟨out, fault⟩ := filter_ran acts
  have printed : printedBy m = linesOf (Advance.ofOutcome next.cpu (.ran op)) := by
    rw [printedBy, advance_of_canStep able, stepped]
  have told := told_outputs answered
  refine ⟨values, ?_, ?_, ?_⟩
  · rw [printed, out, told]
  · rw [printed, fault, acts.fault_eq, List.append_nil]
  · rw [← told, List.countP_filter]
    simp

theorem Shown.of_failed (able : canStep m = true)
    (stepped : stepOnce m = (.stopped (snag.stop (some m.cpu.ip)), next))
    (fails : Cpu.Fails wiring m.cpu ports snag wordRead met after)
    (cpu : next.cpu = met.faulted snag wordRead)
    (values : next.output.visible = m.output.visible ++ snag.sent) : Shown m next snag.sent := by
  have sound := (Cpu.live_iff.1 (live_of_canStep able)).2
  have printed : printedBy m =
      linesOf (Advance.ofOutcome next.cpu (.stopped (snag.stop (some m.cpu.ip)))) := by
    rw [printedBy, advance_of_canStep able, stepped]
  have broke : breaks m = isBroken (.stopped (snag.stop (some m.cpu.ip))) := by
    rw [breaks_eq able, stepped]
  rcases snag.cases (some m.cpu.ip) with ⟨cause, rfl, legible, worded, recorded, stop⟩ |
    ⟨bare, recorded, stop⟩
  · rw [stop] at printed broke
    have line : printedBy m = [faultLine ⟨cause, some m.cpu.ip⟩] := printed
    refine ⟨values, ?_, ?_, ?_⟩
    · simp [line, isOut_faultLine, Snag.sent]
    · rw [cpu, fails.fault_eq, recorded, sound]
      simp [line, isFault_faultLine]
    · exact Nat.zero_le _
  · rw [stop] at printed broke
    have nothing : printedBy m = [] := printed
    refine ⟨values, ?_, ?_, ?_⟩
    · rw [nothing, untold_sent fails]
      rfl
    · rw [cpu, fails.fault_eq, recorded, sound, nothing]
      rfl
    · have most : snag.sent.length ≤ 1 := by cases snag <;> simp [Snag.sent]
      rw [broke]
      exact Nat.le_trans List.countP_le_length most

theorem visible_left (snag : Snag) (left : Channel Int) (kept : Collector) :
    (wiring.left snag (left, .collector kept)).2.visible = kept.values.toList := by
  unfold Wiring.left
  split <;> rfl

/-- Each step prints what it tells. -/
theorem Attended.shown (attended : Attended m) (able : canStep m = true) :
    ∃ sent, Shown m (stepOnce m).2 sent := by
  obtain ⟨c, output, -⟩ := attended.collecting
  rcases attended.cases_of_step able with ⟨op, action, next, left, kept, acts, answered, stepped⟩ |
    ⟨snag, wordRead, met, left, kept, fails, inner, stepped⟩
  · obtain ⟨rest, held, same, drawn⟩ := drawn_of_answered (output ▸ answered_silently answered)
    cases same
    refine ⟨PortAction.outputs [action], ?_⟩
    rw [stepped]
    refine .of_ran able stepped acts answered ?_
    rw [output]
    exact drawn.values
  · obtain ⟨action, answered, -, sent⟩ := had_of_fails fails inner
    obtain ⟨rest, held, same, drawn⟩ := drawn_of_answered (output ▸ answered)
    cases same
    refine ⟨snag.sent, ?_⟩
    rw [stepped]
    refine .of_failed able stepped fails rfl ?_
    rw [visible_left, output, ← sent]
    exact drawn.values

theorem Reached.step (reached : Reached image phase values broken m) (attended : Attended m)
    (able : canStep m = true) :
    Reached image phase values (broken + if breaks m then 1 else 0) (stepOnce m).2 := by
  obtain ⟨⟨outcomes, progress, walked⟩, untold⟩ := reached
  have sound := (Cpu.live_iff.1 (live_of_canStep able)).2
  simp only [sound, Option.toList_none, List.map_nil, List.append_nil, List.length_nil,
    Nat.add_zero] at walked
  obtain ⟨sent, shown⟩ := attended.shown able
  refine ⟨?_, ?_⟩
  · rw [breaks_eq able]
    rcases attended.cases_of_step able with ⟨op, action, next, left, kept, acts, answered, stepped⟩ |
      ⟨snag, wordRead, met, left, kept, fails, inner, stepped⟩
    · have onward := Cpu.walk_snoc walked (Cpu.step_of_acts acts answered)
      rw [stepped]
      refine ⟨outcomes ++ [.ran op], ?_, ?_⟩
      · simpa [acts.counted] using progress.ran_one op
      · simpa [acts.fault_eq, sound, acts.counted, Nat.add_right_comm] using onward
    · have onward := Cpu.walk_snoc walked (Cpu.step_of_fails fails)
      rw [stepped]
      rcases snag.cases (some m.cpu.ip) with ⟨cause, rfl, legible, worded, recorded, stop⟩ |
        ⟨bare, recorded, stop⟩
      · rw [stop] at onward
        refine ⟨outcomes, ?_, ?_⟩
        · simpa [stop, fails.steps_eq] using progress
        · simpa [stop, fails.steps_eq, fails.fault_eq, recorded] using onward
      · rw [stop] at onward
        refine ⟨outcomes ++ [.stopped (.unworded snag)], ?_, ?_⟩
        · simpa [stop, fails.steps_eq] using progress.broken_one snag
        · simpa [stop, fails.steps_eq, fails.fault_eq, recorded, Nat.add_assoc] using onward
  · rw [shown.values, List.countP_append]
    exact Nat.add_le_add untold shown.untold

theorem Attended.row_shown (attended : Attended m) (row : Row m machines last) :
    (last.output.visible.filter Text.isLegible).map outLine =
        (m.output.visible.filter Text.isLegible).map outLine ++
          machines.flatMap (fun m => (printedBy m).filter isOut) ∧
      last.cpu.fault.toList.map faultLine = m.cpu.fault.toList.map faultLine ++
        machines.flatMap fun m => (printedBy m).filter isFault := by
  induction row with
  | nil => simp
  | cons able _ ih =>
    obtain ⟨sent, shown⟩ := attended.shown able
    obtain ⟨laterOut, laterFault⟩ := ih (attended.step able)
    rw [laterOut, laterFault, shown.values, shown.fault]
    simp [shown.out]

theorem Reached.row (reached : Reached image phase values broken m) (attended : Attended m)
    (row : Row m machines last) :
    Reached image phase values (broken + machines.countP breaks) last := by
  induction row generalizing broken with
  | nil => exact reached
  | cons able _ ih =>
    have onward := ih (reached.step attended able) (attended.step able)
    rwa [Nat.add_assoc, Nat.add_comm (ite _ _ _), ← List.countP_cons] at onward

/-- Between two words on a failure that is told: the monitor's onlooker makes no difference. -/
theorem fails_silently {cause : Cause} {cpu : Cpu}
    (fails : Cpu.Fails wiring cpu ports (.cause cause) wordRead met after) :
    Cpu.Fails Machine.wiring cpu ports (.cause cause) wordRead met after := by
  cases fails with
  | fetch live unread => exact .fetch live unread
  | prepare live fetched unprepared => exact .prepare live fetched unprepared
  | lostPhase intends primed outside => exact .lostPhase intends primed outside
  | lostInput intends unprimed outside pulled =>
    exact .lostInput intends unprimed outside pulled
  | noInput intends unprimed refused => exact .noInput intends unprimed refused
  | noOutput intends shut => exact .noOutput intends shut

/-- As long as no step breaks off, it makes no difference that outputs are told. -/
theorem matched_silently : Cpu.Matched wiring Machine.wiring
    (fun cpu ports peer there => peer = cpu ∧ there = ports)
    fun stop => isBroken (.stopped stop) = true where
  halted := by
    rintro cpu peer ports there ⟨rfl, -⟩
    rfl
  step := by
    rintro cpu next peer ports after there outcome ⟨rfl, rfl⟩ stepped spared
    cases Cpu.stepped_of_step stepped with
    | refused refused => exact ⟨_, _, Cpu.step_of_refusal refused _, rfl, rfl⟩
    | waits waits => exact ⟨_, _, Cpu.step_of_waits waits, rfl, rfl⟩
    | acts acts answered =>
      exact ⟨_, _, Cpu.step_of_acts acts (answered_silently answered), rfl, rfl⟩
    | @fails snag _ _ _ fails =>
      rcases snag.cases (some peer.ip) with ⟨cause, rfl, -⟩ | ⟨-, -, stop⟩
      · exact ⟨_, _, Cpu.step_of_fails (fails_silently fails), rfl, rfl⟩
      · exact absurd (stop ▸ isBroken_unworded snag) (spared _ rfl)

/-- Without broken steps, a machine on its own comes to the same. -/
theorem Reached.plain (reached : Reached image phase values 0 m) :
    m.output.visible.all Text.isLegible = true ∧
      ∃ ops : List Opcode, ops.length = m.cpu.steps ∧
        Cpu.walk Machine.wiring (m.cpu.steps + m.cpu.fault.toList.length)
            { name := "monitor", memory := image, phase }
            (.preloaded "monitor-in" values, .collector {}) =
          (ops.map .ran ++ m.cpu.fault.toList.map fun fault => .stopped (.fault fault),
            m.cpu, m.input, m.output) := by
  obtain ⟨⟨outcomes, progress, walked⟩, untold⟩ := reached
  constructor
  · have each := List.countP_eq_zero.1 (Nat.le_zero.1 untold)
    simpa using each
  · obtain ⟨ops, counted, rfl⟩ := progress.all_ran
    have spared : ∀ stop, .stopped stop ∈ ops.map Outcome.ran ++ m.cpu.fault.toList.map (fun fault =>
        .stopped (.fault fault)) → ¬ isBroken (.stopped stop) = true := by
      simp only [List.mem_append, List.mem_map]
      rintro stop (⟨op, -, same⟩ | ⟨fault, -, same⟩) broke
      · cases same
      · cases same
        cases broke
    obtain ⟨last, left, same, rfl, rfl⟩ := matched_silently.walk ⟨rfl, rfl⟩ walked spared
    exact ⟨ops, counted, same⟩

theorem Reached.unique {other : Machine} (here : Reached image phase values broken m)
    (there : Reached image phase values broken other) (steps : m.cpu.steps = other.cpu.steps)
    (faults : m.cpu.fault.isSome = other.cpu.fault.isSome) : m = other := by
  obtain ⟨_, -, walked⟩ := here.walked
  obtain ⟨_, -, again⟩ := there.walked
  have same : m.cpu.fault.toList.length = other.cpu.fault.toList.length := by
    cases here : m.cpu.fault <;> cases there : other.cpu.fault <;> simp_all
  rw [steps, same] at walked
  have equal := congrArg Prod.snd (walked.symm.trans again)
  rcases m with ⟨cpu, input, output⟩
  cases equal
  rfl

end Monitor

end IntcodeVM
