import IntcodeVM.Proofs.Circuit.Turns
import IntcodeVM.Proofs.Machine.Walk

/-! Rounds of turns in which stages may fail, but do not break off. Main statement: if a ring's own rounds
bring all stages to their ends, these are steps in some order, and what is on record after them is the fault
of every stage that has one. -/
namespace IntcodeVM.Amplifier.Circuit

variable {stage i allowance : Nat} {order more left rest : List Nat} {c mid next last : Circuit}
  {cpu after : Cpu} {kind : Turn Stop} {records : List (Nat × Stop)}

/-- No order of steps leads to a stage that breaks off. -/
def Unbroken (c : Circuit) : Prop :=
  ∀ order mid, Interleaving order c mid → ∀ stage snag, ¬ Raises stage (.unworded snag) mid

theorem Unbroken.interleaving (unbroken : c.Unbroken) (steps : Interleaving order c next) :
    next.Unbroken :=
  fun _ mid onward => unbroken _ mid (steps.append onward)

theorem Unbroken.step (unbroken : c.Unbroken) (step : Runs stage c next ∨ Faults stage c next) :
    next.Unbroken :=
  unbroken.interleaving (.cons step (.nil next))

/-- Where no stage breaks off, one that fails ends with a fault. -/
theorem Unbroken.fault_of_fails {snag : Snag} {wordRead : Bool} {met : Cpu}
    {channels : Array (Channel Int)} (unbroken : c.Unbroken) (found : c.stages[stage]? = some cpu)
    (fails : Cpu.Fails (c.wiring stage) cpu c.channels snag wordRead met channels) :
    ∃ fault after left, cpu.step (c.wiring stage) c.channels = (.stopped (.fault fault), after, left) ∧
      after.fault = some fault := by
  have stepped := Cpu.step_of_fails fails
  rcases snag.cases (some cpu.ip) with ⟨cause, rfl, legible, -, -, same⟩ | ⟨-, -, same⟩
  · rw [same] at stepped
    exact ⟨_, _, _, stepped, fails.recorded legible⟩
  · have raises := raises_iff.2 ⟨cpu, snag, wordRead, met, channels, found, fails, same.symm⟩
    exact absurd raises (unbroken [] c (.nil c) stage snag)

/-- What a stage is like after a turn that came to this. -/
inductive TurnEnd (cpu : Cpu) : Turn Stop → Prop
  | halted : cpu.halted = true → cpu.fault = none → TurnEnd cpu .halted
  | sent : cpu.refusal? = none → TurnEnd cpu .sent
  | waiting : cpu.refusal? = none → TurnEnd cpu .waiting
  | failed {fault : Fault} : cpu.fault = some fault → TurnEnd cpu (.failed (.fault fault))
  | unfinished : TurnEnd cpu .unfinished

/-- A turn is some steps of its stage. -/
structure Took (stage : Nat) (c : Circuit) (kind : Turn Stop) (next : Circuit) : Prop where
  steps : ∃ count, Interleaving (List.replicate count stage) c next
  ending : ∃ after, next.stages[stage]? = some after ∧ TurnEnd after kind

theorem Took.later (step : Runs stage c mid ∨ Faults stage c mid) (took : Took stage mid kind next) :
    Took stage c kind next := by
  obtain ⟨⟨count, steps⟩, ending⟩ := took
  exact ⟨⟨count + 1, .cons step steps⟩, ending⟩

theorem Took.of_step (step : Runs stage c next ∨ Faults stage c next)
    (found : next.stages[stage]? = some after) (ending : TurnEnd after kind) :
    Took stage c kind next :=
  ⟨⟨1, .cons step (.nil next)⟩, after, found, ending⟩

theorem untilOutput_took (unbroken : c.Unbroken) (found : c.stages[stage]? = some cpu)
    (live : cpu.refusal? = none) :
    Took stage c (.ofRun (c.untilOutput stage allowance).1) (c.untilOutput stage allowance).2 := by
  induction allowance generalizing c cpu with
  | zero =>
    rw [untilOutput_eq found, Cpu.runUntilOutput, withStage_self found]
    exact ⟨⟨0, .nil c⟩, cpu, found, .unfinished⟩
  | succ allowance ih =>
    have inside := lt_size_of_getElem? found
    rcases Cpu.cases_of_live (c.wiring stage) c.channels live with
      ⟨channels, waits⟩ | ⟨op, action, after, channels, acts, answered⟩ |
      ⟨snag, wordRead, met, channels, fails⟩
    · have stepped := Cpu.step_of_waits waits
      obtain ⟨_, _, _, _, pulled⟩ := waits
      cases eq_of_link_pull_waiting pulled
      rw [untilOutput_eq found, Cpu.runUntilOutput, stepped, withStage_self found]
      exact ⟨⟨0, .nil c⟩, cpu, found, .waiting live⟩
    · have stepped := Cpu.step_of_acts acts answered
      have runs : Runs stage c (c.withStage stage after channels) :=
        runs_iff.2 ⟨cpu, op, action, after, channels, found, acts, answered, rfl⟩
      have sound := acts.fault_eq.trans (Cpu.live_iff.1 live).2
      have there : (c.withStage stage after channels).stages[stage]? = some after :=
        withStage_stages_self inside
      by_cases halts : op = .halt
      · subst halts
        rw [untilOutput_eq found, Cpu.runUntilOutput, stepped]
        exact .of_step (.inl runs) there (.halted acts.halts sound)
      · have goes := Cpu.live_iff.2 ⟨(acts.goes_on halts).trans (Cpu.live_iff.1 live).1, sound⟩
        by_cases sends : op = .output
        · subst sends
          obtain ⟨value, recorded⟩ := acts.output_recorded
          rw [untilOutput_eq found, Cpu.runUntilOutput, stepped]
          dsimp only
          rw [recorded]
          exact .of_step (.inl runs) there (.sent goes)
        · rw [untilOutput_ran found stepped halts sends]
          exact (ih (unbroken.step (.inl runs)) there goes).later (.inl runs)
    · obtain ⟨fault, after, channels, stepped, recorded⟩ := unbroken.fault_of_fails found fails
      rw [untilOutput_eq found, Cpu.runUntilOutput, stepped]
      exact .of_step (.inr ⟨fault, onStage_step_iff.2 ⟨cpu, _, _, found, stepped, rfl⟩⟩)
        (withStage_stages_self inside) (.failed recorded)

theorem turn_took (allowance : Nat) (unbroken : c.Unbroken) (found : c.stages[stage]? = some cpu)
    (live : cpu.refusal? = none) :
    Took stage c (turn allowance stage c).1 (turn allowance stage c).2 := by
  have going : c.stageHalted stage = false := by
    simp [stageHalted, stage?, found, (Cpu.live_iff.1 live).1]
  rw [turn, if_neg (by simp [going])]
  exact untilOutput_took unbroken found live

/-- A stage that has not come to its end. -/
def Live (i : Nat) (c : Circuit) : Prop := ∃ cpu, c.stages[i]? = some cpu ∧ cpu.refusal? = none

def Failed (i : Nat) (stop : Stop) (c : Circuit) : Prop :=
  ∃ cpu fault, c.stages[i]? = some cpu ∧ cpu.fault = some fault ∧ stop = .fault fault

/-- On record are the faults of all stages that have one. -/
def Listed (records : List (Nat × Stop)) (c : Circuit) : Prop :=
  ∀ i stop, (i, stop) ∈ records ↔ Failed i stop c

def Ended (c : Circuit) : Prop := ∀ (i : Nat) (cpu : Cpu), c.stages[i]? = some cpu → cpu.refusal? ≠ none

theorem Live.congr (live : Live i c) (same : next.stages[i]? = c.stages[i]?) : Live i next := by
  obtain ⟨cpu, found, going⟩ := live
  exact ⟨cpu, same.trans found, going⟩

theorem failed_congr {stop : Stop} (same : next.stages[i]? = c.stages[i]?) :
    Failed i stop next ↔ Failed i stop c := by
  rw [Failed, Failed, same]

theorem Live.not_failed {stop : Stop} (live : Live i c) : ¬ Failed i stop c := by
  rintro ⟨cpu, fault, found, recorded, -⟩
  obtain ⟨_, there, going⟩ := live
  cases found.symm.trans there
  exact refusal?_of_fault recorded going

/-- A round of turns of live stages, unless the allowance ran out in it. -/
structure Rounded (stages left : List Nat) (failures : List (Nat × Stop)) (next : Circuit) : Prop where
  sublist : left.Sublist stages
  live : ∀ i ∈ left, Live i next
  ended : ∀ i ∈ stages, i ∉ left → ∀ cpu, next.stages[i]? = some cpu → cpu.refusal? ≠ none
  failures : ∀ i stop, (i, stop) ∈ failures ↔ i ∈ stages ∧ Failed i stop next

theorem Rounded.cons {stages kept : List Nat} {failures own : List (Nat × Stop)}
    (rounded : Rounded stages left failures next) (keeps : kept.Sublist [stage])
    (live : stage ∈ kept → Live stage next)
    (ended : stage ∉ kept → ∀ cpu, next.stages[stage]? = some cpu → cpu.refusal? ≠ none)
    (told : ∀ i stop, (i, stop) ∈ own ↔ i = stage ∧ Failed i stop next) :
    Rounded (stage :: stages) (kept ++ left) (own ++ failures) next where
  sublist := keeps.append rounded.sublist
  live := by
    intro i mem
    rcases List.mem_append.1 mem with here | mem
    · cases List.mem_singleton.1 (keeps.subset here)
      exact live here
    · exact rounded.live i mem
  ended := by
    intro i mem gone
    rw [List.mem_append, not_or] at gone
    rcases List.mem_cons.1 mem with rfl | mem
    · exact ended gone.1
    · exact rounded.ended i mem gone.2
  failures := by
    intro i stop
    rw [List.mem_append, told, rounded.failures, List.mem_cons, or_and_right]

theorem Rounded.dropped {stages : List Nat} {failures own : List (Nat × Stop)}
    (rounded : Rounded stages left failures next) (found : next.stages[stage]? = some after)
    (ended : after.refusal? ≠ none)
    (told : ∀ i stop, (i, stop) ∈ own ↔ i = stage ∧ Failed i stop next) :
    Rounded (stage :: stages) left (own ++ failures) next := by
  refine rounded.cons (List.nil_sublist _) (fun absent => absurd absent List.not_mem_nil) ?_ told
  intro _ cpu there
  cases found.symm.trans there
  exact ended

theorem failed_iff {stop : Stop} (found : next.stages[stage]? = some after) :
    Failed stage stop next ↔ ∃ fault, after.fault = some fault ∧ stop = .fault fault := by
  constructor
  · rintro ⟨_, fault, there, recorded, rfl⟩
    cases found.symm.trans there
    exact ⟨fault, recorded, rfl⟩
  · rintro ⟨fault, recorded, rfl⟩
    exact ⟨after, fault, found, recorded, rfl⟩

theorem told_nothing (found : next.stages[stage]? = some after) (sound : after.fault = none) (i : Nat)
    (stop : Stop) : (i, stop) ∈ ([] : List (Nat × Stop)) ↔ i = stage ∧ Failed i stop next := by
  constructor
  · intro absent
    cases absent
  · rintro ⟨rfl, failed⟩
    obtain ⟨_, recorded, -⟩ := (failed_iff found).1 failed
    cases sound.symm.trans recorded

theorem told_fault {fault : Fault} (found : next.stages[stage]? = some after)
    (recorded : after.fault = some fault) (i : Nat) (stop : Stop) :
    (i, stop) ∈ [(stage, Stop.fault fault)] ↔ i = stage ∧ Failed i stop next := by
  rw [List.mem_singleton, Prod.mk.injEq]
  constructor
  · rintro ⟨rfl, rfl⟩
    exact ⟨rfl, after, fault, found, recorded, rfl⟩
  · rintro ⟨rfl, failed⟩
    obtain ⟨_, recorded', rfl⟩ := (failed_iff found).1 failed
    cases recorded.symm.trans recorded'
    exact ⟨rfl, rfl⟩

theorem round_rounded (allowance : Nat) (stages : List Nat) (nodup : stages.Nodup)
    (live : ∀ i ∈ stages, Live i c) (unbroken : c.Unbroken) :
    ∃ order, Interleaving order c ((schedule allowance).round stages c).2.2 ∧
      (∀ i ∈ order, i ∈ stages) ∧
      ∀ left, ((schedule allowance).round stages c).1 = some left →
        Rounded stages left ((schedule allowance).round stages c).2.1
          ((schedule allowance).round stages c).2.2 := by
  induction stages generalizing c with
  | nil =>
    refine ⟨[], .nil c, by simp, ?_⟩
    rintro left ⟨⟩
    exact ⟨.refl [], by simp, by simp, by simp [Schedule.round]⟩
  | cons stage stages ih =>
    obtain ⟨apart, nodup⟩ := List.nodup_cons.1 nodup
    obtain ⟨cpu, found, going⟩ := live stage List.mem_cons_self
    obtain ⟨⟨count, steps⟩, after, there, ending⟩ := turn_took allowance unbroken found going
    rcases turned : turn allowance stage c with ⟨kind, mid⟩
    rw [turned] at steps there ending
    have turn : (schedule allowance).turn stage c = (kind, mid) := turned
    have others : ∀ i ∈ stages, Live i mid := by
      intro i mem
      have other : i ∉ List.replicate count stage := fun member =>
        apart (List.eq_of_mem_replicate member ▸ mem)
      exact (live i (List.mem_cons_of_mem _ mem)).congr (steps.others other)
    obtain ⟨order, onward, within, rounded⟩ := ih nodup others (unbroken.interleaving steps)
    rcases round : (schedule allowance).round stages mid with ⟨left?, failures, next⟩
    rw [round] at onward rounded
    -- the other stages have left this one as it was after its turn
    have found' := (onward.others fun mem => apart (within stage mem)).trans there
    have whole := steps.append onward
    have within' : ∀ i ∈ List.replicate count stage ++ order, i ∈ stage :: stages := by
      intro i mem
      rcases List.mem_append.1 mem with mem | mem
      · exact List.eq_of_mem_replicate mem ▸ List.mem_cons_self
      · exact List.mem_cons_of_mem _ (within i mem)
    cases ending with
    | unfinished =>
      have same : (schedule allowance).round (stage :: stages) c = (none, [], mid) := by
        rw [Schedule.round, turn]
      rw [same]
      refine ⟨List.replicate count stage, steps, ?_, by simp⟩
      intro i mem
      exact List.eq_of_mem_replicate mem ▸ List.mem_cons_self
    | halted halted sound =>
      have same : (schedule allowance).round (stage :: stages) c = (left?, failures, next) := by
        rw [Schedule.round, turn]
        exact round
      rw [same]
      refine ⟨_, whole, within', fun left some => ?_⟩
      have ended : after.refusal? ≠ none := by simp [Cpu.refusal?, halted]
      exact (rounded left some).dropped found' ended (told_nothing found' sound)
    | @failed fault recorded =>
      have same : (schedule allowance).round (stage :: stages) c =
          (left?, (stage, .fault fault) :: failures, next) := by
        rw [Schedule.round, turn]
        dsimp only
        rw [round]
      rw [same]
      refine ⟨_, whole, within', fun left some => ?_⟩
      exact (rounded left some).dropped found' (refusal?_of_fault recorded)
        (told_fault found' recorded)
    | sent goes | waiting goes =>
      have same : (schedule allowance).round (stage :: stages) c =
          (left?.map (stage :: ·), failures, next) := by
        rw [Schedule.round, turn]
        dsimp only
        rw [round]
      rw [same]
      refine ⟨_, whole, within', fun left mapped => ?_⟩
      obtain ⟨others, some, rfl⟩ := Option.map_eq_some_iff.1 mapped
      exact (rounded others some).cons (.refl [stage]) (fun _ => ⟨after, found', goes⟩)
        (fun gone => absurd List.mem_cons_self gone)
        (told_nothing found' (Cpu.live_iff.1 goes).2)

/-- Rounds are steps in some order; and if they bring all stages to their ends, the records that were
true before them are so after them. -/
theorem run_recorded (rounds : Nat) (nodup : left.Nodup) (live : ∀ i ∈ left, Live i c)
    (others : ∀ i, i ∉ left → ∀ cpu, c.stages[i]? = some cpu → cpu.refusal? ≠ none)
    (listed : Listed records c) (unbroken : c.Unbroken) :
    ∃ order, Interleaving order c ((schedule allowance).run rounds left records c).2.2 ∧
      (((schedule allowance).run rounds left records c).1 = .ended →
        Ended ((schedule allowance).run rounds left records c).2.2 ∧
        Listed ((schedule allowance).run rounds left records c).2.1
          ((schedule allowance).run rounds left records c).2.2) := by
  induction rounds generalizing c left records with
  | zero =>
    cases left with
    | nil => exact ⟨[], .nil c, fun _ => ⟨fun i => others i List.not_mem_nil, listed⟩⟩
    | cons stage stages => exact ⟨[], .nil c, by simp [Schedule.run]⟩
  | succ rounds ih =>
    cases left with
    | nil => exact ⟨[], .nil c, fun _ => ⟨fun i => others i List.not_mem_nil, listed⟩⟩
    | cons stage stages =>
      obtain ⟨order, steps, within, rounded⟩ :=
        round_rounded allowance (stage :: stages) nodup live unbroken
      rcases round : (schedule allowance).round (stage :: stages) c with ⟨left?, failures, next⟩
      rw [round] at steps rounded
      rw [Schedule.run, round]
      cases left? with
      | none => exact ⟨order, steps, by simp⟩
      | some left =>
        dsimp only
        split
        · exact ⟨order, steps, by simp⟩
        · obtain ⟨sublist, live', ended, failed⟩ := rounded left rfl
          have untouched : ∀ i, i ∉ stage :: stages → next.stages[i]? = c.stages[i]? :=
            fun i gone => steps.others fun mem => gone (within i mem)
          have others' : ∀ i, i ∉ left → ∀ cpu, next.stages[i]? = some cpu →
              cpu.refusal? ≠ none := by
            intro i gone cpu found
            by_cases mem : i ∈ stage :: stages
            · exact ended i mem gone cpu found
            · exact others i mem cpu (untouched i mem ▸ found)
          have listed' : Listed (records ++ failures) next := by
            intro i stop
            rw [List.mem_append, listed, failed]
            by_cases mem : i ∈ stage :: stages
            · have none : ¬ Failed i stop c := (live i mem).not_failed
              simp only [none, mem, true_and, false_or]
            · rw [failed_congr (untouched i mem)]
              simp only [mem, false_and, or_false]
          obtain ⟨more, onward, final⟩ := ih (nodup.sublist sublist) live' others' listed'
            (unbroken.interleaving steps)
          exact ⟨order ++ more, steps.append onward, final⟩

theorem ended_iff : c.Ended ↔ (c.stages.all fun cpu => cpu.refusal?.isSome) = true := by
  simp only [Array.all_eq_true_iff_forall_mem, Option.isSome_iff_ne_none]
  constructor
  · intro ended cpu mem
    obtain ⟨i, inside, rfl⟩ := Array.mem_iff_getElem.1 mem
    exact ended i _ (Array.getElem?_eq_getElem inside)
  · intro all i cpu found
    exact all cpu (Array.mem_of_getElem? found)

instance (c : Circuit) : Decidable c.Ended := decidable_of_iff _ ended_iff.symm

def faultsOf (c : Circuit) : List (Nat × Stop) :=
  c.stages.toList.zipIdx.filterMap fun (cpu, i) => cpu.fault.map fun fault => (i, .fault fault)

theorem listed_faultsOf (c : Circuit) : Listed c.faultsOf c := by
  intro i stop
  rw [faultsOf, List.mem_filterMap]
  constructor
  · rintro ⟨⟨cpu, j⟩, mem, told⟩
    obtain ⟨fault, recorded, same⟩ := Option.map_eq_some_iff.1 told
    cases same
    exact ⟨cpu, fault, by simpa using List.mem_zipIdx_iff_getElem?.1 mem, recorded, rfl⟩
  · rintro ⟨cpu, fault, found, recorded, rfl⟩
    exact ⟨(cpu, i), List.mem_zipIdx_iff_getElem?.2 (by simpa using found), by simp [recorded]⟩

theorem Listed.perm {records others : List (Nat × Stop)} (listed : Listed records c)
    (perm : others.Perm records) : Listed others c :=
  fun i stop => perm.mem_iff.trans (listed i stop)

/-- What a ring whose stages have all ended answers, with these faults on record. -/
def verdict (c : Circuit) (records : List (Nat × Stop)) : Except CircuitError Int :=
  match rootFailure? Stop.isPortFault records with
  | some (stage, stop) => .error (.stageFaulted true stage stop)
  | none => c.loopResult

/-- A ring that runs to its end has made steps in some order, and answers what is on record then. -/
theorem runRing_interleaves {start : Circuit} {seed : Int} (seeded : c.inject seed = (none, start))
    (unfaulted : start.faults = []) (live : ∀ i < start.stages.size, Live i start)
    (unbroken : start.Unbroken) (allowance : Nat) :
    (∃ order last records, Interleaving order start last ∧ last.Ended ∧ Listed records last ∧
      c.runRing allowance seed = (last.verdict records, { last with faults := records })) ∨
    (c.runRing allowance seed).1 = .error (.stageStopped .waiting) ∨
    (c.runRing allowance seed).1 = .error (.stageStopped .unfinished) := by
  have none : Listed [] start := by
    intro i stop
    constructor
    · intro absent
      cases absent
    · intro failed
      obtain ⟨cpu, _, found, _⟩ := id failed
      exact absurd failed (live i (lt_size_of_getElem? found)).not_failed
  have outside : ∀ i, i ∉ List.range start.stages.size → ∀ cpu, start.stages[i]? = some cpu →
      cpu.refusal? ≠ Option.none := by
    intro i beyond cpu found
    exact absurd (List.mem_range.2 (lt_size_of_getElem? found)) beyond
  obtain ⟨order, steps, final⟩ := run_recorded allowance List.nodup_range
    (fun i mem => live i (List.mem_range.1 mem)) outside none unbroken
  rw [← unfaulted] at steps final
  rcases ran : (schedule allowance).run allowance (List.range start.stages.size) start.faults start
    with ⟨settlement, records, last⟩
  rw [ran] at steps final
  simp only [runRing, seeded, ran]
  cases settlement with
  | stuck => exact .inr (.inl rfl)
  | unfinished => exact .inr (.inr rfl)
  | ended =>
    obtain ⟨ended, listed⟩ := final rfl
    refine .inl ⟨order, last, records, steps, ended, listed, ?_⟩
    dsimp only [verdict]
    cases rootFailure? Stop.isPortFault records with
    | none => rfl
    | some failure => rfl

end IntcodeVM.Amplifier.Circuit
