import IntcodeVM.Proofs.Circuit.Composition
import IntcodeVM.Proofs.Circuit.Records
import IntcodeVM.Proofs.Circuit.Starvation

/-! The fault behind the others. Until a stage fails for a reason of its own, no live stage has had its
output closed, so the stages go on or starve. Main statement: if just one stage can meet a fault that does
not come from a port, it ends with this fault in whatever order the stages come to their ends. -/
namespace IntcodeVM

namespace Amplifier.Circuit

open Settling

variable {stage i k : Nat} {order : List Nat} {c start mid next last : Circuit} {cpu : Cpu}
  {fault : Fault} {stop : Stop}

theorem closed_of_answered {input output j : Nat} {before after : Array (Channel Int)}
    {action : PortAction} (answered : action.Answered (link input output) before after)
    (closed : (channelAt after j).closed = true) :
    (channelAt before j).closed = true ∨ action = .ended ∧ output = j := by
  by_cases ends : action = .ended
  · subst ends
    by_cases here : output = j
    · exact .inr ⟨rfl, here⟩
    · exact .inl (answered.channelAt_ne here ▸ closed)
  · have kept : (channelAt after j).closed = (channelAt before j).closed :=
      answered.channelAt_induction (P := fun ch => ch.closed = (channelAt before j).closed) rfl
        fun _ on => on.closed_eq ends
    exact .inl (kept ▸ closed)

/-- A stage whose output is closed has ended. -/
def Uninterrupted (c : Circuit) : Prop :=
  ∀ i cpu, c.stages[i]? = some cpu → (channelAt c.channels (c.outputOf i)).closed = true →
    cpu.refusal? ≠ none

theorem Uninterrupted.runs (h : c.Uninterrupted) (runs : Runs stage c next) :
    next.Uninterrupted := by
  obtain ⟨cpu, op, action, after, channels, found, acts, answered, rfl⟩ := runs_iff.1 runs
  intro i peer there closed
  rw [withStage_outputOf] at closed
  by_cases mover : stage = i
  · subst mover
    rw [withStage_stages_self (lt_size_of_getElem? found)] at there
    cases there
    rcases closed_of_answered answered closed with before | ⟨ended, -⟩
    · exact absurd acts.live (h stage cpu found before)
    · simp [Cpu.refusal?, acts.halted_iff.2 ended]
  · rw [withStage_stages_ne mover] at there
    rcases closed_of_answered answered closed with before | ⟨-, same⟩
    · exact h i peer there before
    · exact absurd same
        (outputOf_ne (lt_size_of_getElem? found) (lt_size_of_getElem? there) mover)

theorem Uninterrupted.starves {cause : Cause} (h : c.Uninterrupted)
    (starving : Starving stage c cpu cause) : (c.bereft stage cpu cause).Uninterrupted := by
  intro i peer there closed
  rw [bereft, withStage_outputOf] at closed
  rw [bereft] at there
  by_cases mover : stage = i
  · subst mover
    rw [withStage_stages_self (lt_size_of_getElem? starving.found)] at there
    cases there
    exact refusal?_of_fault (Snag.fault?_cause starving.legible _)
  · rw [withStage_stages_ne mover] at there
    have outputs :=
      outputOf_ne (lt_size_of_getElem? starving.found) (lt_size_of_getElem? there) mover
    by_cases sends : stage = c.outputOf i
    · exact starving.orphaned i peer there sends.symm
    · have untouched : channelAt (abandoned stage (c.outputOf stage) c.channels) (c.outputOf i) =
          channelAt c.channels (c.outputOf i) := channelAt_abandoned_ne sends outputs
      exact h i peer there (untouched ▸ closed)

theorem Uninterrupted.path (h : c.Uninterrupted) (path : Path Calm order c last) :
    last.Uninterrupted := by
  induction path with
  | nil => exact h
  | cons calm _ ih =>
    cases calm with
    | runs runs => exact ih (h.runs runs)
    | starves starving same =>
      cases same
      exact ih (h.starves starving)

/-- Without an interruption a stage goes on, starves, or meets a fault of its own. -/
theorem Uninterrupted.step (h : c.Uninterrupted) (step : Runs stage c next ∨ Faults stage c next) :
    Calm stage c next ∨ ∃ fault, fault.isPort = false ∧
      c.onStage stage Cpu.step = (some (.stopped (.fault fault)), next) := by
  rcases step with runs | ⟨fault, faults⟩
  · exact .inl (.runs runs)
  · obtain ⟨cpu, after, channels, found, stepped, rfl⟩ := onStage_step_iff.1 faults
    obtain ⟨cause, wordRead, met, left, fails, -, rfl, rfl, rfl⟩ := Cpu.step_fault_iff.1 stepped
    cases fails with
    | fetch _ unread =>
      exact .inr ⟨_, by simpa [Fault.isPort] using Inward.read _ _ _ unread, faults⟩
    | prepare _ _ unprepared =>
      exact .inr ⟨_, by simpa [Fault.isPort] using Inward.prepare _ _ _ unprepared, faults⟩
    | lostPhase _ _ outside | lostInput _ _ outside =>
      exact .inr ⟨_, by simpa [Fault.isPort] using Inward.index _ _ _ outside, faults⟩
    | noOutput intends refused =>
      obtain ⟨closed, -⟩ := link_push_refused_iff.1 refused
      exact absurd intends.1 (h stage cpu found closed)
    | noInput intends unprimed refused =>
      obtain ⟨_, closed, _, rfl⟩ := link_pull_refused_iff.1 refused
      refine .inl (.starves ⟨?_, found, ⟨_, _, intends⟩, unprimed, refused⟩ rfl)
      intro i peer there same
      exact h i peer there (by rwa [same])

/-- Either all steps are calm, or one of them is the first that is not. -/
theorem Uninterrupted.calm_or_breaks (h : c.Uninterrupted) (steps : Interleaving order c last) :
    Path Calm order c last ∨ ∃ done rest stage mid next fault, Path Calm done c mid ∧
      fault.isPort = false ∧ mid.onStage stage Cpu.step = (some (.stopped (.fault fault)), next) ∧
      Interleaving rest next last := by
  induction steps with
  | nil => exact .inl (.nil _)
  | @cons stage order c mid last step rest ih =>
    rcases h.step step with calm | ⟨fault, inner, failed⟩
    · rcases ih (h.path (.cons calm (.nil _))) with path | ⟨done, rest, i, u, v, fault, path, breaks⟩
      · exact .inl (.cons calm path)
      · exact .inr ⟨stage :: done, rest, i, u, v, fault, .cons calm path, breaks⟩
    · exact .inr ⟨[], order, stage, c, mid, fault, .nil c, inner, failed, rest⟩

theorem Calm.runs_or_faults (calm : Calm stage c next) : Runs stage c next ∨ Faults stage c next := by
  cases calm with
  | runs runs => exact .inl runs
  | starves starving same => exact .inr ⟨_, same ▸ starving.step⟩

theorem interleaving_of_calm (path : Path Calm order c last) : Interleaving order c last := by
  induction path with
  | nil => exact .nil _
  | cons calm _ ih => exact .cons calm.runs_or_faults ih

theorem stage_of_raised (failed : c.onStage stage Cpu.step = (some (.stopped (.fault fault)), next)) :
    ∃ cpu, next.stages[stage]? = some cpu ∧ cpu.fault = some fault := by
  obtain ⟨cpu, after, channels, found, stepped, rfl⟩ := onStage_step_iff.1 failed
  obtain ⟨cause, wordRead, met, left, fails, legible, rfl, rfl, rfl⟩ := Cpu.step_fault_iff.1 stepped
  exact ⟨_, withStage_stages_self (lt_size_of_getElem? found), fails.recorded legible⟩

theorem Raises.live (raises : Raises stage stop c) : Live stage c := by
  obtain ⟨cpu, _, _, _, _, found, fails, -⟩ := raises_iff.1 raises
  exact ⟨cpu, found, fails.live⟩

theorem Raises.unique {other : Stop} (raises : Raises stage stop c)
    (again : Raises stage other c) : stop = other := by
  obtain ⟨-, _, first⟩ := raises
  obtain ⟨-, _, second⟩ := again
  cases congrArg Prod.fst (first.symm.trans second)
  rfl

/-- Whatever any order of steps leads to, the failures of all stages but this one are faults of ports. -/
def OnlyRoot (k : Nat) (start : Circuit) : Prop :=
  ∀ order mid i stop, Interleaving order start mid → i ≠ k → Raises i stop mid →
    stop.isPortFault = true

theorem OnlyRoot.calm (only : OnlyRoot k start) (h : start.Uninterrupted)
    (steps : Interleaving order start mid) (raises : Raises k stop mid) :
    Path Calm order start mid := by
  rcases h.calm_or_breaks steps with path | ⟨done, rest, i, u, v, other, path, inner, failed, onward⟩
  · exact path
  · by_cases root : i = k
    · -- it has ended with an earlier fault, so it cannot raise another one
      subst root
      obtain ⟨cpu, found, recorded⟩ := stage_of_raised failed
      have kept := onward.stays_ended found (refusal?_of_fault recorded)
      obtain ⟨cpu', found', live⟩ := raises.live
      cases kept.symm.trans found'
      exact absurd live (refusal?_of_fault recorded)
    · have port := only done u i (.fault other) (interleaving_of_calm path) root ⟨rfl, v, failed⟩
      cases inner.symm.trans port

/-- No stage breaks off: the root's fault is what it fails for in every order of steps. -/
theorem OnlyRoot.unbroken (only : OnlyRoot k start) (h : start.Uninterrupted)
    (steps : Interleaving order start mid) (raises : Raises k (.fault fault) mid)
    (inner : fault.isPort = false) : start.Unbroken := by
  intro other last begun i snag broken
  by_cases root : i = k
  · subst root
    -- the break comes after calm steps, and so it is still there where the root's fault is met
    obtain ⟨rest, w, ahead, still⟩ := (calm_commuting (.fault fault) inner).ahead
      (only.calm h steps raises) raises (only.calm h begun broken)
    have again := (calm_commuting (.unworded snag) rfl).still_fails ahead broken
    cases again.unique still
  · cases only other last i _ begun root broken

theorem exists_raise (steps : Interleaving order c last)
    (clean : ∀ peer, c.stages[i]? = some peer → peer.fault = none)
    (found : last.stages[i]? = some cpu) (recorded : cpu.fault = some fault) :
    ∃ done mid, Interleaving done c mid ∧ Raises i (.fault fault) mid := by
  induction steps with
  | nil => cases (clean cpu found).symm.trans recorded
  | @cons stage _ c next _ step rest ih =>
    have onward : (∀ peer, next.stages[i]? = some peer → peer.fault = none) →
        ∃ done mid, Interleaving done c mid ∧ Raises i (.fault fault) mid := by
      intro clean
      obtain ⟨done, mid, steps, raises⟩ := ih clean found
      exact ⟨stage :: done, mid, .cons step steps, raises⟩
    by_cases mover : stage = i
    · subst mover
      rcases step with runs | ⟨other, failed⟩
      · apply onward
        obtain ⟨actor, op, action, after, channels, same, acts, -, rfl⟩ := runs_iff.1 runs
        intro peer there
        rw [withStage_stages_self (lt_size_of_getElem? same)] at there
        cases there
        exact acts.fault_eq.trans (clean actor same)
      · -- what is recorded in this step stays on record
        obtain ⟨after, now, met⟩ := stage_of_raised failed
        cases found.symm.trans (rest.stays_ended now (refusal?_of_fault met))
        cases recorded.symm.trans met
        exact ⟨[], c, .nil c, rfl, next, failed⟩
    · apply onward
      have apart : i ∉ [stage] := by simpa using Ne.symm mover
      rw [(Interleaving.cons step (.nil next)).others apart]
      exact clean

theorem rootFailure?_eq {records : List (Nat × Stop)} (told : (k, .fault fault) ∈ records)
    (inner : fault.isPort = false)
    (only : ∀ i stop, (i, stop) ∈ records → stop.isPortFault = false →
      i = k ∧ stop = .fault fault) :
    rootFailure? Stop.isPortFault records = some (k, .fault fault) := by
  cases found : records.find? fun (_, stop) => !stop.isPortFault with
  | none =>
    have absent := List.find?_eq_none.1 found _ told
    simp [Stop.isPortFault, inner] at absent
  | some root =>
    obtain ⟨i, stop⟩ := root
    have first := List.find?_some found
    obtain ⟨rfl, rfl⟩ := only i stop (List.mem_of_find?_eq_some found) (by simpa using first)
    rw [rootFailure?, found, Option.some_or]

theorem OnlyRoot.verdict (only : OnlyRoot k start)
    (clean : ∀ (i : Nat) (cpu : Cpu), start.stages[i]? = some cpu → cpu.fault = none)
    (steps : Interleaving order start last) (inner : fault.isPort = false)
    (found : last.stages[k]? = some cpu) (recorded : cpu.fault = some fault)
    {records : List (Nat × Stop)} (listed : Listed records last) :
    last.verdict records = .error (.stageFaulted true k (.fault fault)) := by
  have told : (k, .fault fault) ∈ records := (listed k _).2 ⟨cpu, fault, found, recorded, rfl⟩
  have blamed : rootFailure? Stop.isPortFault records = some (k, .fault fault) := by
    apply rootFailure?_eq told inner
    intro i stop mem own
    obtain ⟨peer, met, there, recorded', rfl⟩ := (listed i stop).1 mem
    by_cases root : i = k
    · subst root
      cases found.symm.trans there
      cases recorded.symm.trans recorded'
      exact ⟨rfl, rfl⟩
    · obtain ⟨done, mid, steps, raises⟩ := exists_raise steps (clean i) there recorded'
      have port := only done mid i (.fault met) steps root raises
      cases own.symm.trans port
  rw [Circuit.verdict, blamed]

theorem fresh_inject {memory : Memory} {phases : List (Option Int)} {built : Circuit}
    (fresh : Fresh memory phases built) (seed : Int) : ∃ start, built.inject seed = (none, start) ∧
      start.faults = [] ∧
      (∀ (i : Nat) (cpu : Cpu), start.stages[i]? = some cpu → cpu.refusal? = none) ∧
      start.Uninterrupted := by
  have opened : ∀ i, (channelAt built.channels i).closed = false := by
    intro i
    by_cases inside : i < built.channels.size
    · rw [fresh.channel inside]
      rfl
    · rw [channelAt_beyond (Nat.le_of_not_lt inside)]
      rfl
  refine ⟨_, inject_of_open (opened 0) seed, fresh.faults, ?_, ?_⟩
  · intro i cpu found
    obtain ⟨phase, -, rfl⟩ := Option.map_eq_some_iff.1 ((fresh.stages i).symm.trans found)
    rfl
  · intro i cpu _ closed
    have pushed : (PortAction.sent seed).Answered (link 0 0) built.channels
        (built.channels.setIfInBounds 0 ((channelAt built.channels 0).extend seed)) :=
      ⟨link_push_accepted_iff.2 ⟨opened 0, rfl⟩, rfl⟩
    rcases closed_of_answered pushed closed with before | ⟨ends, -⟩
    · cases (opened _).symm.trans before
    · cases ends

end Amplifier.Circuit

end IntcodeVM
