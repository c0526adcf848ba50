import IntcodeVM.Hull.Robot
import IntcodeVM.Proofs.Machine.OpcodeEffect
import IntcodeVM.Proofs.Machine.PortFaults
import IntcodeVM.Proofs.Machine.Walk

/-! What happens in a run of the robot, one deed after the other: the machine steps, and the robot is told
values. Main statement: a run tells the robot each value as soon as it is sent, so that the camera
always shows what all the values so far have made of the hull. -/
namespace IntcodeVM.Hull

open Settling

namespace Robot

inductive Deed where
  /-- A step of the machine that runs, with what its ports answer. -/
  | acted (action : PortAction)
  /-- A step of the machine that fails, with the reading that it loses. -/
  | failed (lost : Option Int)
  | told (value : Int)
  deriving DecidableEq, Repr

namespace Deed

def reading? : Deed → Option Int
  | acted action => action.input?
  | failed lost => lost
  | told _ => none

def emitted? : Deed → Option Int
  | acted action => action.output?
  | _ => none

def consumed? : Deed → Option Int
  | told value => some value
  | _ => none

def readings (deeds : List Deed) : List Int := deeds.filterMap reading?

def emitted (deeds : List Deed) : List Int := deeds.filterMap emitted?

def consumed (deeds : List Deed) : List Int := deeds.filterMap consumed?

variable (deeds : List Deed) (deed : Deed)

theorem filterMap_snoc {β : Type} (f : Deed → Option β) :
    (deeds ++ [deed]).filterMap f = deeds.filterMap f ++ (f deed).toList := by
  rw [List.filterMap_append]
  cases found : f deed with
  | none => simp [found]
  | some b => simp [found]

theorem readings_snoc : readings (deeds ++ [deed]) = readings deeds ++ deed.reading?.toList :=
  filterMap_snoc deeds deed _

theorem emitted_snoc : emitted (deeds ++ [deed]) = emitted deeds ++ deed.emitted?.toList :=
  filterMap_snoc deeds deed _

theorem consumed_snoc : consumed (deeds ++ [deed]) = consumed deeds ++ deed.consumed?.toList :=
  filterMap_snoc deeds deed _

variable {deeds deed}

theorem level_snoc (level : consumed deeds = emitted deeds) (silent : deed.emitted? = none)
    (untold : deed.consumed? = none) :
    consumed (deeds ++ [deed]) = emitted (deeds ++ [deed]) := by
  rw [consumed_snoc, emitted_snoc, level, silent, untold]

def Unfailed (deeds : List Deed) : Prop := ∀ lost, .failed lost ∉ deeds

theorem unfailed_snoc (unfailed : Unfailed deeds) (other : ∀ lost, deed ≠ .failed lost) :
    Unfailed (deeds ++ [deed]) := by
  intro lost mem
  rcases List.mem_append.1 mem with before | last
  · exact unfailed lost before
  · exact other lost (List.mem_singleton.1 last).symm

end Deed

open Deed

/-- What a deed makes of the robot and its machine. -/
inductive Does : Deed → Robot → Robot → Prop
  | acted {r : Robot} {op : Opcode} {action : PortAction} {cpu : Cpu} {rig : Rig} :
      r.cpu.Acts op action cpu → action.Answered Rig.wiring r.rig rig →
      Does (.acted action) r ⟨cpu, rig⟩
  | failed {r : Robot} {cause : Cause} {wordRead : Bool} {met : Cpu} :
      Cpu.Fails Rig.wiring r.cpu r.rig (.cause cause) wordRead met r.rig →
      Does (.failed none) r
        ⟨met.faulted (.cause cause) wordRead, Rig.wiring.left (.cause cause) r.rig⟩
  | lost {r : Robot} {cause : Cause} {wordRead : Bool} {met : Cpu} {rig : Rig} {value : Int} :
      Cpu.Fails Rig.wiring r.cpu r.rig (.cause cause) wordRead met rig →
      r.rig.look = (.value value, rig) →
      Does (.failed (some value)) r
        ⟨met.faulted (.cause cause) wordRead, Rig.wiring.left (.cause cause) rig⟩
  | told (r : Robot) (value : Int) : Does (.told value) r (r.consume value)

/-- The robot after these values, and nothing else. -/
def painted (color : Int) (values : List Int) : Painter :=
  values.foldl Painter.consume (.start color)

/-- The deeds so far, against what has become of the robot and its machine. -/
structure Recorded (memory : Memory) (color : Int) (deeds : List Deed) (r : Robot) : Prop where
  path : Path Does deeds (start memory color) r
  reads : r.rig.reads = (readings deeds).length
  collected : r.rig.sink.values.toList = emitted deeds
  painter : r.rig.painter = painted color (consumed deeds)
  order {before : List Deed} : before <+: deeds → consumed before <+: emitted before
  /-- No reading is stale. -/
  fresh {before : List Deed} {deed : Deed} {value : Int} : before ++ [deed] <+: deeds →
    deed.reading? = some value → value = (painted color (emitted before)).view

variable {memory : Memory} {color : Int} {deeds : List Deed} {deed : Deed} {r next : Robot}
  {value : Int}

theorem recorded_start (memory : Memory) (color : Int) :
    Recorded memory color [] (start memory color) where
  path := .nil _
  reads := rfl
  collected := rfl
  painter := rfl
  order none := by rw [List.prefix_nil.1 none]; exact List.prefix_rfl
  fresh some _ := by simp at some

theorem Recorded.snoc (recorded : Recorded memory color deeds r) (does : Does deed r next)
    (reads : next.rig.reads = r.rig.reads + deed.reading?.toList.length)
    (collected : next.rig.sink.values.toList = r.rig.sink.values.toList ++ deed.emitted?.toList)
    (painter : next.rig.painter = deed.consumed?.toList.foldl Painter.consume r.rig.painter)
    (order : consumed (deeds ++ [deed]) <+: emitted (deeds ++ [deed]))
    (fresh : deed.reading? = none ∨ deed.reading? = some (painted color (emitted deeds)).view) :
    Recorded memory color (deeds ++ [deed]) next where
  path := recorded.path.append (.cons does (.nil next))
  reads := by
    rw [reads, recorded.reads, readings_snoc, List.length_append]
  collected := by
    rw [collected, recorded.collected, emitted_snoc]
  painter := by
    rw [painter, recorded.painter, consumed_snoc, painted, painted, List.foldl_append]
  order := by
    intro before shorter
    rcases List.prefix_concat_iff.1 shorter with rfl | shorter
    · exact order
    · exact recorded.order shorter
  fresh := by
    intro before last value shorter reading
    rcases List.prefix_concat_iff.1 shorter with same | shorter
    · have front : before = deeds := List.append_inj_left' same rfl
      have back : [last] = [deed] := List.append_inj_right' same rfl
      cases front
      cases back
      rcases fresh with none | shown
      · cases none.symm.trans reading
      · exact Option.some.inj (reading.symm.trans shown)
    · exact recorded.fresh shorter reading

/-- The machine can go on, and its camera and its output are open. -/
structure Working (r : Robot) : Prop where
  live : r.cpu.refusal? = none
  camera : r.rig.cameraClosed = false
  sink : r.rig.sink.closed = false

/-- What a machine's ports make of the robot: they show it, but they tell it nothing. -/
structure Served (action : PortAction) (rig after : Rig) : Prop where
  reads : after.reads = rig.reads + action.input?.toList.length
  collected : after.sink.values.toList = rig.sink.values.toList ++ action.output?.toList
  painter : after.painter = rig.painter
  reading : action.input? = none ∨ action.input? = some rig.painter.view
  camera : after.cameraClosed = rig.cameraClosed
  sink : action ≠ .ended → after.sink.closed = rig.sink.closed

theorem look_eq_value_iff {rig after : Rig} : rig.look = (.value value, after) ↔
    rig.cameraClosed = false ∧ value = rig.painter.view ∧
      after = { rig with reads := rig.reads + 1 } := by
  unfold Rig.look
  cases rig.cameraClosed with
  | true => simp
  | false => simp [eq_comm]

theorem served_of_answered {action : PortAction} {rig after : Rig}
    (answered : action.Answered Rig.wiring rig after) : Served action rig after := by
  cases action with
  | quiet =>
    cases answered
    exact ⟨rfl, (List.append_nil _).symm, rfl, .inl rfl, rfl, fun _ => rfl⟩
  | took value =>
    obtain ⟨-, shown, rfl⟩ := look_eq_value_iff.1 answered
    exact ⟨rfl, (List.append_nil _).symm, rfl, .inr (congrArg some shown), rfl, fun _ => rfl⟩
  | sent value =>
    cases closed : rig.sink.closed with
    | true => simp [PortAction.Answered, Rig.wiring, Collector.push, closed] at answered
    | false =>
      simp only [PortAction.Answered, Rig.wiring, Collector.push, closed, Bool.false_eq_true,
        if_false, and_true] at answered
      cases answered
      exact ⟨rfl, Array.toList_push, rfl, .inl rfl, rfl, fun _ => closed.symm⟩
  | ended =>
    cases answered
    exact ⟨rfl, (List.append_nil _).symm, rfl, .inl rfl, rfl,
      fun other => absurd rfl other⟩

theorem Recorded.acted {op : Opcode} {action : PortAction} {cpu : Cpu} {rig : Rig}
    (recorded : Recorded memory color deeds r) (level : consumed deeds = emitted deeds)
    (acts : r.cpu.Acts op action cpu) (answered : action.Answered Rig.wiring r.rig rig) :
    Recorded memory color (deeds ++ [.acted action]) ⟨cpu, rig⟩ := by
  have served := served_of_answered answered
  refine recorded.snoc (.acted acts answered) served.reads served.collected served.painter ?_ ?_
  · rw [consumed_snoc, emitted_snoc, level]
    exact List.prefix_append_right_inj _ |>.2 (List.nil_prefix)
  · rw [← level, ← recorded.painter]
    exact served.reading

theorem Recorded.told (recorded : Recorded memory color deeds r)
    (behind : emitted deeds = consumed deeds ++ [value]) :
    Recorded memory color (deeds ++ [.told value]) (r.consume value) := by
  refine recorded.snoc (.told r value) rfl (List.append_nil _).symm rfl ?_ ?_
  · rw [consumed_snoc, emitted_snoc, behind]
    simp [Deed.consumed?, Deed.emitted?]
  · exact .inl rfl

/-- A working machine acts, or it fails for a reason of its own; it may lose one reading then. -/
theorem Working.cases_of_step (working : Working r) :
    (∃ op action cpu rig, r.cpu.Acts op action cpu ∧ action.Answered Rig.wiring r.rig rig ∧
      r.cpu.step Rig.wiring r.rig = (.ran op, cpu, rig)) ∨
    ∃ lost cause next, Does (.failed lost) r next ∧ cause.family ≠ .port ∧
      r.cpu.step Rig.wiring r.rig =
        (.stopped ((Snag.cause cause).stop (some r.cpu.ip)), next.cpu, next.rig) := by
  rcases Cpu.cases_of_live Rig.wiring r.rig working.live with ⟨after, waits⟩ |
    ⟨op, action, cpu, rig, acts, answered⟩ | ⟨snag, wordRead, met, rig, fails⟩
  · obtain ⟨op, dst, intends, unprimed, waiting⟩ := waits
    simp [Rig.wiring, Rig.look, working.camera] at waiting
  · exact .inl ⟨op, action, cpu, rig, acts, answered, Cpu.step_of_acts acts answered⟩
  · have stepped := Cpu.step_of_fails fails
    right
    cases fails with
    | fetch live unread =>
      exact ⟨none, _, _, .failed (.fetch live unread), Inward.read _ _ _ unread, stepped⟩
    | prepare live fetched unprepared =>
      exact ⟨none, _, _, .failed (.prepare live fetched unprepared),
        Inward.prepare _ _ _ unprepared, stepped⟩
    | lostPhase intends primed outside =>
      exact ⟨none, _, _, .failed (.lostPhase intends primed outside),
        Inward.index _ _ _ outside, stepped⟩
    | lostInput intends unprimed outside looked =>
      exact ⟨some _, _, _, .lost (.lostInput intends unprimed outside looked) looked,
        Inward.index _ _ _ outside, stepped⟩
    | noInput intends unprimed refused =>
      simp [Rig.wiring, Rig.look, working.camera] at refused
    | noOutput intends refused =>
      simp [Rig.wiring, Collector.push, working.sink] at refused
    | untold _ _ untold => cases untold

theorem painter_left (snag : Snag) (rig : Rig) : (Rig.wiring.left snag rig).painter = rig.painter ∧
    (Rig.wiring.left snag rig).reads = rig.reads ∧
    (Rig.wiring.left snag rig).sink.values = rig.sink.values := by
  unfold Wiring.left
  split
  · exact ⟨rfl, rfl, rfl⟩
  · exact ⟨rfl, rfl, rfl⟩

theorem Recorded.failed {lost : Option Int} (recorded : Recorded memory color deeds r)
    (level : consumed deeds = emitted deeds) (does : Does (.failed lost) r next) :
    Recorded memory color (deeds ++ [.failed lost]) next := by
  have level' : consumed (deeds ++ [.failed lost]) = emitted (deeds ++ [.failed lost]) :=
    level_snoc level rfl rfl
  have order : consumed (deeds ++ [.failed lost]) <+: emitted (deeds ++ [.failed lost]) :=
    level' ▸ List.prefix_rfl
  cases does with
  | @failed _ cause _ _ fails =>
    obtain ⟨painter, reads, values⟩ := painter_left (.cause cause) r.rig
    refine recorded.snoc (.failed fails) reads ?_ painter order (.inl rfl)
    exact (congrArg Array.toList values).trans (List.append_nil _).symm
  | @lost _ cause _ _ rig _ fails looked =>
    obtain ⟨painter, reads, values⟩ := painter_left (.cause cause) rig
    obtain ⟨-, shown, rfl⟩ := look_eq_value_iff.1 looked
    refine recorded.snoc (.lost fails looked) reads ?_ painter order (.inr ?_)
    · exact (congrArg Array.toList values).trans (List.append_nil _).symm
    · rw [← level, ← recorded.painter]
      exact congrArg some shown

theorem Working.acted {op : Opcode} {action : PortAction} {cpu : Cpu} {rig : Rig}
    (working : Working r) (acts : r.cpu.Acts op action cpu)
    (answered : action.Answered Rig.wiring r.rig rig) (onward : op ≠ .halt) :
    Working ⟨cpu, rig⟩ := by
  have served := served_of_answered answered
  obtain ⟨going, sound⟩ := Cpu.live_iff.1 working.live
  have going' : cpu.halted = false := (acts.goes_on onward).trans going
  refine ⟨Cpu.live_iff.2 ⟨going', acts.fault_eq.trans sound⟩, served.camera.trans working.camera, ?_⟩
  have other : action ≠ .ended := by
    intro ended
    cases going'.symm.trans (acts.halted_iff.2 ended)
  exact (served.sink other).trans working.sink

/-- How a run to the next output ends: with a value that the robot has not been told, with a halt, with a
step that fails, or for want of allowance. -/
inductive Paused (deeds : List Deed) (next : Robot) : Except Stop (Option Int) → Prop
  | sent {value : Int} : emitted deeds = consumed deeds ++ [value] → Unfailed deeds →
      Working next → Paused deeds next (.ok (some value))
  | halted : consumed deeds = emitted deeds → Unfailed deeds → next.cpu.halted = true →
      Paused deeds next (.ok none)
  | failed {cause : Cause} {ip : Option Int} : consumed deeds = emitted deeds →
      next.cpu.halted = false → cause.family ≠ .port →
      Paused deeds next (.error ((Snag.cause cause).stop ip))
  | spent : consumed deeds = emitted deeds → Working next →
      Paused deeds next (.error .unfinished)

theorem Does.halted_failed {lost : Option Int} (does : Does (.failed lost) r next) :
    next.cpu.halted = r.cpu.halted := by
  cases does with
  | failed fails | lost fails =>
    rw [fails.met_cause.1]
    rfl

theorem untilOutput_succ {op : Opcode} {cpu later : Cpu} {rig after : Rig} (allowance : Nat)
    (stepped : cpu.step Rig.wiring rig = (.ran op, later, after)) (goes : op ≠ .halt)
    (silent : op ≠ .output) :
    untilOutput (allowance + 1) ⟨cpu, rig⟩ = untilOutput allowance ⟨later, after⟩ := by
  simp only [untilOutput, Cpu.runUntilOutput, stepped]

theorem paused_untilOutput (recorded : Recorded memory color deeds r)
    (level : consumed deeds = emitted deeds) (unfailed : Unfailed deeds) (working : Working r)
    (allowance : Nat) :
    ∃ more answer next, r.untilOutput allowance = (answer, next) ∧
      Recorded memory color (deeds ++ more) next ∧ Paused (deeds ++ more) next answer := by
  induction allowance generalizing r deeds with
  | zero =>
    refine ⟨[], .error .unfinished, r, rfl, ?_, ?_⟩
    · rwa [List.append_nil]
    · rw [List.append_nil]
      exact .spent level working
  | succ allowance ih =>
    obtain ⟨cpu, rig⟩ := r
    rcases working.cases_of_step with ⟨op, action, cpu', rig', acts, answered, stepped⟩ |
      ⟨lost, cause, next, does, inner, stepped⟩
    · have recorded' := recorded.acted level acts answered
      have unfailed' : Unfailed (deeds ++ [.acted action]) := unfailed_snoc unfailed nofun
      by_cases halts : op = .halt
      · subst halts
        have halted := acts.halts
        cases acts.halted_iff.1 halted
        refine ⟨[.acted .ended], .ok none, ⟨cpu', rig'⟩, ?_, recorded',
          .halted (level_snoc level rfl rfl) unfailed' halted⟩
        simp only [untilOutput, Cpu.runUntilOutput, stepped]
      · have working' := working.acted acts answered halts
        by_cases sends : op = .output
        · subst sends
          obtain ⟨value, rfl, kept⟩ := acts.output_sent
          refine ⟨[.acted (.sent value)], .ok (some value), ⟨cpu', rig'⟩, ?_, recorded',
            .sent ?_ unfailed' working'⟩
          · simp only [untilOutput, Cpu.runUntilOutput, stepped, kept]
          · rw [emitted_snoc, consumed_snoc, level]
            simp [Deed.emitted?, Deed.consumed?, PortAction.output?]
        · have silent : action.output? = none := by
            cases action with
            | sent value => exact absurd acts.eq_output_of_sent sends
            | quiet | took | ended => rfl
          have level' : consumed (deeds ++ [.acted action]) = emitted (deeds ++ [.acted action]) :=
            level_snoc level silent rfl
          rw [untilOutput_succ allowance stepped halts sends]
          obtain ⟨more, answer, next, ran, after, paused⟩ := ih recorded' level' unfailed' working'
          rw [List.append_assoc] at after paused
          exact ⟨_, answer, next, ran, after, paused⟩
    · refine ⟨[.failed lost], .error ((Snag.cause cause).stop (some cpu.ip)), next, ?_, recorded.failed level does, ?_⟩
      · simp only [untilOutput, Cpu.runUntilOutput, stepped]
      · exact .failed (level_snoc level rfl rfl)
          (does.halted_failed.trans (Cpu.live_iff.1 working.live).1) inner

inductive Ended (deeds : List Deed) (last : Robot) : Except Stop Unit → Prop
  | done : consumed deeds = emitted deeds → Unfailed deeds → last.cpu.halted = true →
      last.rig.painter.expectsColor = true → Ended deeds last (.ok ())
  | unturned : consumed deeds = emitted deeds → last.cpu.halted = true →
      last.rig.painter.expectsColor = false → Ended deeds last (.error last.missingTurn)
  | failed {cause : Cause} {ip : Option Int} : consumed deeds = emitted deeds →
      last.cpu.halted = false → cause.family ≠ .port →
      Ended deeds last (.error ((Snag.cause cause).stop ip))
  | spent : consumed deeds = emitted deeds → last.cpu.halted = false →
      Ended deeds last (.error .unfinished)

theorem ended_runRounds (recorded : Recorded memory color deeds r)
    (level : consumed deeds = emitted deeds) (unfailed : Unfailed deeds) (working : Working r)
    (allowance rounds : Nat) :
    ∃ more answer last, r.runRounds allowance rounds = (answer, last) ∧
      Recorded memory color (deeds ++ more) last ∧ Ended (deeds ++ more) last answer := by
  induction rounds generalizing r deeds with
  | zero =>
    refine ⟨[], .error .unfinished, r, rfl, ?_, ?_⟩
    · rwa [List.append_nil]
    · rw [List.append_nil]
      exact .spent level (Cpu.live_iff.1 working.live).1
  | succ rounds ih =>
    obtain ⟨more, answer, next, ran, recorded', paused⟩ :=
      paused_untilOutput recorded level unfailed working allowance
    rw [runRounds, ran]
    cases paused with
    | @sent value behind unfailed' working' =>
      have told := recorded'.told behind
      have level' : consumed (deeds ++ more ++ [.told value]) =
          emitted (deeds ++ more ++ [.told value]) := by
        rw [consumed_snoc, emitted_snoc, behind]
        exact (List.append_nil _).symm
      have still : Working (next.consume value) := ⟨working'.live, working'.camera, working'.sink⟩
      obtain ⟨rest, answer, last, ran, after, ended⟩ :=
        ih told level' (unfailed_snoc unfailed' nofun) still
      rw [List.append_assoc, List.append_assoc] at after ended
      exact ⟨_, answer, last, ran, after, ended⟩
    | halted level' unfailed' halted =>
      cases expects : next.rig.painter.expectsColor with
      | true =>
        exact ⟨more, _, next, by simp [expects], recorded', .done level' unfailed' halted expects⟩
      | false =>
        exact ⟨more, _, next, by simp [expects], recorded', .unturned level' halted expects⟩
    | failed level' going inner => exact ⟨more, _, next, rfl, recorded', .failed level' going inner⟩
    | spent level' working' =>
      exact ⟨more, _, next, rfl, recorded', .spent level' (Cpu.live_iff.1 working'.live).1⟩

end Robot

end IntcodeVM.Hull
