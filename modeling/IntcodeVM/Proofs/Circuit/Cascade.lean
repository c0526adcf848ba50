import IntcodeVM.Proofs.Circuit.Threads

/-! Faults that are handed on. If all faults of a ring come from ports, a stage has starved behind
another that halted, the next one behind this one, and so on. Main statement: such a ring reports the
stage that is first on record. This can be any stage with a fault, not just one behind a stage that
halted, as the records of a cascade may come in any order. -/
namespace IntcodeVM.Amplifier.Circuit

open Settling

/-- A stage that has given up behind one that has halted. -/
structure Root (i : Nat) (c : Circuit) : Prop where
  failed : ∃ stop, Failed i stop c
  behind : ∃ j cpu, c.stages[j]? = some cpu ∧ c.outputOf j = i ∧ cpu.halted = true ∧
    cpu.fault = none

def rootsOf (c : Circuit) : List Nat :=
  (List.range c.stages.size).filter fun i => c.stages[i]?.any (·.fault.isSome) &&
    (List.range c.stages.size).any fun j => c.outputOf j = i &&
      c.stages[j]?.any fun cpu => cpu.halted && cpu.fault.isNone

/-- A stage has given up behind others that have, down from the root where this began. -/
inductive Cascade (origin : Nat) (c : Circuit) : Nat → Prop
  | root : Root origin c → Cascade origin c origin
  | passed {i j : Nat} : Cascade origin c j → c.outputOf j = i → (∃ stop, Failed i stop c) →
      Cascade origin c i

structure Keeps (c next : Circuit) : Prop where
  outputOf (i : Nat) : next.outputOf i = c.outputOf i
  ended {i : Nat} {cpu : Cpu} : c.stages[i]? = some cpu → cpu.refusal? ≠ none →
    next.stages[i]? = some cpu

variable {stage i j origin : Nat} {order : List Nat} {c start mid next last final : Circuit}
  {cpu : Cpu} {cause : Cause} {stop : Stop} {records : List (Nat × Stop)}

theorem mem_rootsOf : i ∈ c.rootsOf ↔ Root i c := by
  simp only [rootsOf, List.mem_filter, List.mem_range, Bool.and_eq_true, Option.any_eq_true,
    List.any_eq_true, decide_eq_true_eq, Option.isSome_iff_exists, Option.isNone_iff_eq_none]
  constructor
  · rintro ⟨-, ⟨cpu, found, fault, recorded⟩, j, -, sends, peer, there, halted, sound⟩
    exact ⟨⟨_, cpu, fault, found, recorded, rfl⟩, j, peer, there, sends, halted, sound⟩
  · rintro ⟨⟨_, cpu, fault, found, recorded, -⟩, j, peer, there, sends, halted, sound⟩
    exact ⟨lt_size_of_getElem? found, ⟨cpu, found, fault, recorded⟩, j, lt_size_of_getElem? there,
      sends, peer, there, halted, sound⟩

theorem rootsOf_withRecords (c : Circuit) (records : List (Nat × Stop)) :
    (c.withRecords records).rootsOf = c.rootsOf := rfl

theorem Keeps.failed (keeps : c.Keeps next) (failed : Failed i stop c) : Failed i stop next := by
  obtain ⟨cpu, fault, found, recorded, same⟩ := failed
  exact ⟨cpu, fault, keeps.ended found (refusal?_of_fault recorded), recorded, same⟩

theorem Keeps.root (keeps : c.Keeps next) (root : Root i c) : Root i next := by
  obtain ⟨stop, failed⟩ := root.failed
  obtain ⟨j, cpu, found, sends, halted, sound⟩ := root.behind
  have ended : cpu.refusal? ≠ none := fun live => by simp [(Cpu.live_iff.1 live).1] at halted
  exact ⟨⟨stop, keeps.failed failed⟩, j, cpu, keeps.ended found ended,
    (keeps.outputOf j).trans sends, halted, sound⟩

theorem Keeps.cascade (keeps : c.Keeps next) (cascade : Cascade origin c i) :
    Cascade origin next i := by
  induction cascade with
  | root root => exact .root (keeps.root root)
  | @passed i j _ sends failed ih =>
    obtain ⟨stop, failed⟩ := failed
    exact .passed ih ((keeps.outputOf j).trans sends) ⟨stop, keeps.failed failed⟩

theorem keeps_withRecords (c : Circuit) (records : List (Nat × Stop)) :
    c.Keeps (c.withRecords records) :=
  ⟨fun _ => rfl, fun found _ => found⟩

theorem keeps_of_withRecords (c : Circuit) (records : List (Nat × Stop)) :
    (c.withRecords records).Keeps c :=
  ⟨fun _ => rfl, fun found _ => found⟩

theorem keeps_of_step (step : Runs stage c next ∨ Faults stage c next) : c.Keeps next := by
  refine ⟨?_, fun found ended => stays_ended step found ended⟩
  rcases step with ⟨_, h⟩ | ⟨_, h⟩
  all_goals
    obtain ⟨_, _, _, -, -, rfl⟩ := onStage_step_iff.1 h
    exact withStage_outputOf

theorem keeps_of_goes (goes : Goes stage c next) : c.Keeps next := by
  cases goes with
  | steps step => exact keeps_of_step step
  | records _ _ same => exact same ▸ keeps_withRecords c _

theorem keeps_of_path (path : Path Goes order c last) : c.Keeps last := by
  induction path with
  | nil => exact ⟨fun _ => rfl, fun found _ => found⟩
  | cons goes _ ih =>
    have first := keeps_of_goes goes
    exact ⟨fun i => (ih.outputOf i).trans (first.outputOf i),
      fun found ended => ih.ended (first.ended found ended) ended⟩

theorem Cascade.isRoot (cascade : Cascade origin c i) : Root origin c := by
  induction cascade with
  | root root => exact root
  | passed _ _ _ ih => exact ih

theorem exists_sender (ring : c.feedback = true) (inside : i < c.stages.size) :
    ∃ j cpu, c.stages[j]? = some cpu ∧ c.outputOf j = i := by
  have sends : ∀ j, c.outputOf j = (j + 1) % c.stages.size := fun j => if_pos ring
  have placed (j : Nat) (there : j < c.stages.size) (next : (j + 1) % c.stages.size = i) :
      ∃ j cpu, c.stages[j]? = some cpu ∧ c.outputOf j = i :=
    ⟨j, _, Array.getElem?_eq_getElem there, (sends j).trans next⟩
  by_cases first : i = 0
  · apply placed (c.stages.size - 1) (by omega)
    rw [succ_mod_eq (by omega), if_pos (by omega), first]
  · apply placed (i - 1) (by omega)
    rw [succ_mod_eq (by omega), if_neg (by omega)]
    omega

theorem name_update {f : Channel Int → Channel Int} (kept : ∀ ch, (f ch).name = ch.name)
    (i j : Nat) (channels : Array (Channel Int)) :
    (channelAt (update i f channels) j).name = (channelAt channels j).name := by
  by_cases same : i = j
  · subst same
    by_cases inside : i < channels.size
    · rw [update, channelAt_setIfInBounds_self inside, kept]
    · have beyond := Nat.le_of_not_lt inside
      rw [update, Array.setIfInBounds_eq_of_size_le beyond]
  · rw [channelAt_update_ne same]

theorem name_abandoned (input output j : Nat) (channels : Array (Channel Int)) :
    (channelAt (abandoned input output channels) j).name = (channelAt channels j).name := by
  rw [abandoned_eq]
  exact (name_update (f := Channel.closeSender) (fun _ => rfl) ..).trans
    (name_update (f := Channel.closeReceiver) (fun _ => rfl) ..)

theorem name_answered {input output j : Nat} {before after : Array (Channel Int)}
    {action : PortAction} (answered : action.Answered (link input output) before after) :
    (channelAt after j).name = (channelAt before j).name := by
  apply answered.channelAt_induction (P := fun ch => ch.name = (channelAt before j).name) rfl
  intro ch on
  cases action with
  | quiet | ended =>
    cases on
    rfl
  | took value => exact Channel.Taken.name on
  | sent value =>
    obtain ⟨-, rfl⟩ := on
    rfl

/-- Every fault of the ring goes back to a root. -/
structure Traced (c : Circuit) : Prop where
  ring : c.feedback = true
  named : ∀ i < c.stages.size, (channelAt c.channels i).name = s!"link-{i}"
  starved {i : Nat} {stop : Stop} : Failed i stop c →
    ∃ ip, stop = .fault ⟨.sourceTerminated s!"link-{i}", some ip⟩
  cascade {i : Nat} {stop : Stop} : Failed i stop c → ∃ origin, Cascade origin c i

theorem Runs.failed_iff (runs : Runs stage c next) : Failed i stop next ↔ Failed i stop c := by
  obtain ⟨cpu, op, action, after, channels, found, acts, -, rfl⟩ := runs_iff.1 runs
  by_cases mover : stage = i
  · subst mover
    have sound := (Cpu.live_iff.1 acts.live).2
    have sound' := acts.fault_eq.trans sound
    simp [Failed, withStage_stages_self (lt_size_of_getElem? found), found, sound, sound']
  · exact failed_congr (withStage_stages_ne mover)

theorem Traced.runs (h : c.Traced) (runs : Runs stage c next) : next.Traced := by
  have keeps := keeps_of_step (.inl runs)
  obtain ⟨cpu, op, action, after, channels, found, acts, answered, rfl⟩ := id runs_iff.1 runs
  refine ⟨h.ring, ?_, fun failed => h.starved (runs.failed_iff.1 failed), ?_⟩
  · intro i inside
    exact (name_answered answered).trans (h.named i (by simpa [withStage] using inside))
  · intro i stop failed
    obtain ⟨root, cascade⟩ := h.cascade (runs.failed_iff.1 failed)
    exact ⟨root, keeps.cascade cascade⟩

theorem Starving.failed (starving : Starving stage c cpu cause) :
    Failed stage (.fault ⟨cause, some cpu.ip⟩) (c.bereft stage cpu cause) :=
  ⟨_, _, withStage_stages_self (lt_size_of_getElem? starving.found),
    Snag.fault?_cause starving.legible _, rfl⟩

theorem Starving.failed_cases (starving : Starving stage c cpu cause)
    (failed : Failed i stop (c.bereft stage cpu cause)) :
    (i = stage ∧ stop = .fault ⟨cause, some cpu.ip⟩) ∨ Failed i stop c := by
  by_cases mover : stage = i
  · subst mover
    obtain ⟨_, _, found, recorded, rfl⟩ := failed
    obtain ⟨_, _, found', recorded', same⟩ := starving.failed
    cases found.symm.trans found'
    cases recorded.symm.trans recorded'
    exact .inl ⟨rfl, same.symm⟩
  · exact .inr ((failed_congr (withStage_stages_ne mover)).1 failed)

/-- What starves is a root, or has a fault handed on to it. -/
theorem Traced.cascade_starving (h : c.Traced) (starving : Starving stage c cpu cause) :
    ∃ origin, Cascade origin (c.bereft stage cpu cause) stage := by
  have keeps := keeps_of_step (.inr ⟨_, starving.step⟩)
  obtain ⟨j, peer, found, sends⟩ := exists_sender h.ring (lt_size_of_getElem? starving.found)
  have ended := starving.orphaned j peer found sends
  have sends' := (keeps.outputOf j).trans sends
  cases recorded : peer.fault with
  | none =>
    have halted : peer.halted = true := by
      cases going : peer.halted with
      | true => rfl
      | false => exact absurd (Cpu.live_iff.2 ⟨going, recorded⟩) ended
    exact ⟨stage, .root ⟨⟨_, starving.failed⟩, j, peer, keeps.ended found ended, sends', halted,
      recorded⟩⟩
  | some fault =>
    obtain ⟨root, cascade⟩ := h.cascade ⟨peer, fault, found, recorded, rfl⟩
    exact ⟨root, .passed (keeps.cascade cascade) sends' ⟨_, starving.failed⟩⟩

theorem Traced.starves (h : c.Traced) (starving : Starving stage c cpu cause) :
    (c.bereft stage cpu cause).Traced := by
  have inside := lt_size_of_getElem? starving.found
  refine ⟨h.ring, ?_, ?_, ?_⟩
  · intro i there
    exact (name_abandoned ..).trans (h.named i (by simpa [bereft, withStage] using there))
  · intro i stop failed
    rcases starving.failed_cases failed with ⟨rfl, rfl⟩ | before
    · obtain ⟨_, _, rfl, _⟩ := link_pull_refused_iff.1 starving.refused
      exact ⟨cpu.ip, by rw [h.named _ inside]⟩
    · exact h.starved before
  · intro i stop failed
    rcases starving.failed_cases failed with ⟨rfl, -⟩ | before
    · exact h.cascade_starving starving
    · obtain ⟨root, cascade⟩ := h.cascade before
      exact ⟨root, (keeps_of_step (.inr ⟨_, starving.step⟩)).cascade cascade⟩

theorem Traced.path (h : c.Traced) (path : Path Calm order c last) : last.Traced := by
  induction path with
  | nil => exact h
  | cons calm _ ih =>
    cases calm with
    | runs runs => exact ih (h.runs runs)
    | starves starving same =>
      cases same
      exact ih (h.starves starving)

theorem Traced.root_of_alone (h : c.Traced) (failed : Failed i stop c)
    (alone : ∀ j other, Failed j other c → j = i) : Root i c := by
  obtain ⟨root, cascade⟩ := h.cascade failed
  have isRoot := cascade.isRoot
  obtain ⟨other, rooted⟩ := isRoot.failed
  cases alone root other rooted
  exact isRoot

theorem verdict_of_ports (ports : ∀ i stop, (i, stop) ∈ records → stop.isPortFault = true)
    (first : records.head? = some (i, stop)) :
    c.verdict records = .error (.stageFaulted true i stop) := by
  have none : records.find? (fun (_, stop) => !stop.isPortFault) = none := by
    apply List.find?_eq_none.2
    rintro ⟨i, stop⟩ mem
    simp [ports i stop mem]
  rw [verdict, rootFailure?, none, first, Option.none_or]

/-- Whatever has the same entries reports one of them. -/
theorem exists_reported (c : Circuit) {others : List (Nat × Stop)}
    (same : ∀ record, record ∈ others ↔ record ∈ records) (told : records ≠ [])
    (ports : ∀ i stop, (i, stop) ∈ records → stop.isPortFault = true) :
    ∃ i stop, (i, stop) ∈ records ∧ c.verdict others = .error (.stageFaulted true i stop) := by
  obtain ⟨record, mem⟩ := List.exists_mem_of_ne_nil records told
  have told' : others ≠ [] := List.ne_nil_of_mem ((same record).2 mem)
  obtain ⟨⟨i, stop⟩, rest, rfl⟩ := List.exists_cons_of_ne_nil told'
  exact ⟨i, stop, (same _).1 List.mem_cons_self,
    verdict_of_ports (fun j other mem => ports j other ((same _).1 mem)) rfl⟩

/-- With a fault on record before another stage gives up, a root is reported. -/
theorem Uninterrupted.root_reported (h : start.Uninterrupted) (unfaulted : start.faults = [])
    (traced : start.Traced) {before after : List Nat} (path : Path Goes before start mid)
    (onward : Path Goes after mid last) (joined : last.Joined)
    (ports : ∀ i stop, (i, stop) ∈ last.faults → stop.isPortFault = true)
    (recorded : mid.faults = [(i, stop)]) (alone : ∀ j other, Failed j other mid → j = i) :
    Root i last ∧ last.verdict last.faults = .error (.stageFaulted true i stop) := by
  have keeps := keeps_of_path onward
  obtain ⟨stages, calm⟩ := h.calm_path unfaulted path fun j other failed =>
    ports j other (joined.told (keeps.failed failed))
  have truthful := (truthful_of_unfaulted unfaulted).path path
  have failed : Failed i stop mid := truthful.failed (by simp [recorded])
  have root : Root i (mid.withRecords []) := (traced.path calm).root_of_alone failed alone
  obtain ⟨more, added⟩ := faults_of_threads onward
  have first : last.faults.head? = some (i, stop) := by simp [added, recorded]
  exact ⟨keeps.root ((keeps_of_withRecords mid _).root root), verdict_of_ports ports first⟩

theorem traced_inject {memory : Memory} {phases : List (Option Int)} {built : Circuit} {seed : Int}
    (fresh : Fresh memory phases built) (ring : built.feedback = true)
    (seeded : built.inject seed = (none, start))
    (live : ∀ (i : Nat) (cpu : Cpu), start.stages[i]? = some cpu → cpu.refusal? = none) :
    start.Traced := by
  obtain ⟨accepted, rfl⟩ := Prod.mk.inj seeded
  have pushed : (PortAction.sent seed).Answered (link 0 0) built.channels
      (onChannel 0 (Channel.push seed) built.channels).2 := ⟨Prod.ext accepted rfl, rfl⟩
  refine ⟨ring, ?_, fun failed => ?_, fun failed => ?_⟩
  · intro i inside
    have there : i < built.channels.size := by
      rw [fresh.channels_size, ← fresh.stages_size]
      exact Nat.lt_add_right _ inside
    refine (name_answered pushed).trans ?_
    rw [fresh.channel there]
    rfl
  all_goals
    obtain ⟨cpu, fault, found, recorded, -⟩ := failed
    exact absurd (live _ cpu found) (refusal?_of_fault recorded)

/-- The phase of a stage is its second instruction. The first stage halts there; the second asks it
for a value, and the third asks the second. -/
theorem exists_cascade {stop : Nat → Stop} (built : build (.ofWords [3, 2, 0, 0, 99] 0)
      [some 99, some 3, some 3] true = .ok c) (seeded : c.inject 0 = (none, start))
    (same : stop = fun i => .fault ⟨.sourceTerminated s!"link-{i}", some 2⟩) :
    start.faults = [] ∧ ∃ mid last, Interleaving [0, 0, 1, 1] start mid ∧
      Interleaving [2, 2] mid last ∧ Listed [(1, stop 1)] mid ∧ last.Ended ∧
      Listed [(1, stop 1), (2, stop 2)] last ∧ last.rootsOf = [1] := by
  subst same
  have unfaulted : start.faults = [] := by
    cases built
    cases seeded
    rfl
  let stop (i : Nat) : Stop := .fault ⟨.sourceTerminated s!"link-{i}", some 2⟩
  have reached : (start.follow? [0, 0, 1, 1]).any (fun mid =>
      decide (mid.faultsOf = [(1, stop 1)]) && (mid.follow? [2, 2]).any fun last => decide (last.Ended ∧
        last.faultsOf = [(1, stop 1), (2, stop 2)] ∧ last.rootsOf = [1])) = true := by
    cases built
    cases seeded
    decide +kernel
  obtain ⟨mid, followed, onward⟩ := (Option.any_eq_true ..).1 reached
  obtain ⟨told, more⟩ := Bool.and_eq_true_iff.1 onward
  obtain ⟨last, followed', atEnd⟩ := (Option.any_eq_true ..).1 more
  obtain ⟨ended, told', roots⟩ := of_decide_eq_true atEnd
  exact ⟨unfaulted, mid, last, interleaving_iff.2 followed, interleaving_iff.2 followed',
    of_decide_eq_true told ▸ listed_faultsOf mid, ended, told' ▸ listed_faultsOf last, roots⟩

/-- If all faults of a ring come from ports, the ring reports the stage that is first on record. Each
stage with a fault has found its channel closed by another stage that halted, or by one that had such a
fault itself, and so on up to one that halted. All schedules end with the same faults, but these can
come on record in any order, so that each of these stages is reported by some schedule, and no other
stage by any; and the ring's own rounds report one of them. A stage that is on record before another one
gives up is a root. No schedule leads to a stage that breaks off. -/
theorem reported_first_on_record (memory : Memory) (phases : List (Option Int))
    (stages : phases ≠ []) (seed : Int) :
    ∃ c start, build memory phases true = .ok c ∧ c.inject seed = (none, start) ∧
      ∀ order last, Path Goes order start last → last.Joined → last.faults ≠ [] →
        (∀ i stop, (i, stop) ∈ last.faults → stop.isPortFault = true) →
        (∀ i stop, last.faults.head? = some (i, stop) →
          last.verdict last.faults = .error (.stageFaulted true i stop)) ∧
        (∀ i stop, (i, stop) ∈ last.faults →
          (∃ ip, stop = .fault ⟨.sourceTerminated s!"link-{i}", some ip⟩) ∧
            ∃ origin, Cascade origin last i) ∧
        (∀ final, ((∃ other, Path Goes other start final) ∧ final.Joined) ↔
          ∃ records, records.Perm last.faults ∧ final = last.withRecords records) ∧
        (∀ answer, (∃ other final, Path Goes other start final ∧ final.Joined ∧
            final.verdict final.faults = answer) ↔
          ∃ i stop, (i, stop) ∈ last.faults ∧ answer = .error (.stageFaulted true i stop)) ∧
        (∀ before mid after i stop, Path Goes before start mid → Path Goes after mid last →
          mid.faults = [(i, stop)] → (∀ j other, Failed j other mid → j = i) →
          Root i last ∧ last.verdict last.faults = .error (.stageFaulted true i stop)) ∧
        (∀ other mid, Path Goes other start mid → ∀ i snag, ¬ Raises i (.unworded snag) mid) ∧
        (∀ allowance,
          (∃ i stop, (i, stop) ∈ last.faults ∧
            (c.run allowance seed).1 = .error (.stageFaulted true i stop)) ∨
          (c.run allowance seed).1 = .error (.stageStopped .waiting) ∨
          (c.run allowance seed).1 = .error (.stageStopped .unfinished)) := by
  obtain ⟨c, built, fresh, feedback⟩ := exists_build memory stages true
  obtain ⟨start, seeded, unfaulted, live, uninterrupted⟩ := fresh_inject fresh seed
  refine ⟨c, start, built, seeded, ?_⟩
  intro order last path joined faulted ports
  have traced := traced_inject fresh feedback seeded live
  have listed := joined.listed ((truthful_of_unfaulted unfaulted).path path)
  have ends := uninterrupted.joined_iff unfaulted path joined ports
  obtain ⟨_, calm⟩ := uninterrupted.calm_path unfaulted path fun i stop failed =>
    ports i stop (joined.told failed)
  have unbroken := uninterrupted.unbroken_of_ended calm joined.ended
  refine ⟨fun i stop => verdict_of_ports ports, ?_, ends, ?_, ?_,
    fun _ _ path => unbroken.path unfaulted path, ?_⟩
  · intro i stop told
    have failed := (listed i stop).1 told
    have traced := traced.path calm
    obtain ⟨origin, cascade⟩ := traced.cascade failed
    exact ⟨traced.starved failed, origin, (keeps_of_withRecords last _).cascade cascade⟩
  · intro answer
    constructor
    · rintro ⟨other, final, path', joined', rfl⟩
      obtain ⟨records, perm, rfl⟩ := (ends final).1 ⟨⟨other, path'⟩, joined'⟩
      exact exists_reported _ (fun record => perm.mem_iff) faulted ports
    · rintro ⟨i, stop, told, rfl⟩
      obtain ⟨earlier, later, split⟩ := List.append_of_mem told
      have perm : ((i, stop) :: (earlier ++ later)).Perm last.faults :=
        split ▸ List.perm_middle.symm
      obtain ⟨⟨other, path'⟩, joined'⟩ := (ends _).2 ⟨_, perm, rfl⟩
      exact ⟨other, _, path', joined', verdict_of_ports
        (fun j other mem => ports j other (perm.mem_iff.1 mem)) rfl⟩
  · intro before mid after i stop path' onward recorded alone
    exact uninterrupted.root_reported unfaulted traced path' onward joined ports recorded alone
  · intro allowance
    have going : ∀ i < start.stages.size, Live i start := fun i inside =>
      ⟨_, Array.getElem?_eq_getElem inside, live i _ (Array.getElem?_eq_getElem inside)⟩
    rw [run, if_pos feedback]
    rcases runRing_interleaves seeded unfaulted going unbroken allowance with
      ⟨stages, final, records, steps, ended, listed', ran⟩ | stopped
    · cases uninterrupted.same_end calm joined.ended steps ended
      rw [ran]
      exact .inl (exists_reported _ (fun record => (listed' _ _).trans (listed _ record.2).symm)
        faulted ports)
    · exact .inr stopped

/-- The first stage halts, and either of the two behind it can be the one that is reported. -/
theorem reported_first_on_record_either :
    let phases : List (Option Int) := [some 99, some 3, some 3]
    let stop (i : Nat) : Stop := .fault ⟨.sourceTerminated s!"link-{i}", some 2⟩
    phases ≠ [] ∧ ∃ c start mid last, build (.ofWords [3, 2, 0, 0, 99] 0) phases true = .ok c ∧
      c.inject 0 = (none, start) ∧
      Path Goes [0, 0, 1, 1, 1] start mid ∧ Path Goes [2, 2, 2] mid last ∧
      mid.faults = [(1, stop 1)] ∧ (∀ j other, Failed j other mid → j = 1) ∧
      last.Joined ∧ last.faults = [(1, stop 1), (2, stop 2)] ∧
      Root 1 last ∧ last.verdict last.faults = .error (.stageFaulted true 1 (stop 1)) ∧
      ∃ other final, Path Goes other start final ∧ final.Joined ∧
        final.verdict final.faults = .error (.stageFaulted true 2 (stop 2)) := by
  intro phases stop
  obtain ⟨c, start, built, seeded, reported⟩ :=
    reported_first_on_record (.ofWords [3, 2, 0, 0, 99] 0) phases (by decide) 0
  obtain ⟨unfaulted, mid, last, steps, steps', listed, ended, listed', -⟩ :=
    exists_cascade built seeded rfl
  have clean : mid.faults = [] := (faults_of_interleaving steps).trans unfaulted
  have first := (path_of_interleaving steps).append (path_of_records [(1, stop 1)]
    (fun i stop => (listed i stop).1) (by simp [clean]))
  rw [clean] at first
  have second := (path_of_interleaving (steps'.withRecords [(1, stop 1)])).append
    (path_of_records (c := last.withRecords [(1, stop 1)]) [(2, stop 2)]
      (fun i stop mem => (listed' i stop).1 (List.mem_cons_of_mem _ mem))
      (show [(1, stop 1), (2, stop 2)].Nodup by decide))
  have joined : (last.withRecords [(1, stop 1), (2, stop 2)]).Joined :=
    ⟨ended, fun failed => (listed' _ _).2 failed⟩
  have alone (j : Nat) (other : Stop) (failed : Failed j other mid) : j = 1 :=
    congrArg Prod.fst (List.mem_singleton.1 ((listed j other).2 failed))
  have ports : ∀ record ∈ [(1, stop 1), (2, stop 2)], record.2.isPortFault = true := by decide
  obtain ⟨-, -, -, answers, rooted, -⟩ := reported _ _ (first.append second) joined
    (List.cons_ne_nil _ _) fun i stop => ports (i, stop)
  obtain ⟨root, verdict⟩ := rooted _ _ _ 1 (stop 1) first second rfl alone
  exact ⟨by decide, c, start, _, _, built, seeded, first, second, rfl, alone, joined, rfl, root,
    verdict, (answers _).2 ⟨2, stop 2, List.mem_cons_of_mem _ List.mem_cons_self, rfl⟩⟩

/-- A root need not be reported. The third stage gives up after the second and comes on record before
it, or else behind it. And where the second channel has been closed beforehand, the first stage cannot
send, and is on record before the third, which starves because the second halted. -/
theorem handed_on_fault_reported :
    let memory : Memory := .ofWords [3, 2, 0, 0, 99] 0
    let stop (i : Nat) : Stop := .fault ⟨.sourceTerminated s!"link-{i}", some 2⟩
    (∃ c start, build memory [some 99, some 3, some 3] true = .ok c ∧ c.inject 0 = (none, start) ∧
      ∃ last, Path Goes [0, 0, 1, 1, 2, 2, 2, 1] start last ∧ last.Joined ∧
        last.faults = [(2, stop 2), (1, stop 1)] ∧
        (∀ i stop, (i, stop) ∈ last.faults → stop.isPortFault = true) ∧
        (∀ i, Root i last ↔ i = 1) ∧
        last.verdict last.faults = .error (.stageFaulted true 2 (stop 2)) ∧
        ∃ other, Path Goes [0, 0, 1, 1, 2, 2, 1, 2] start other ∧ other.Joined ∧
          other.verdict other.faults = .error (.stageFaulted true 1 (stop 1))) ∧
    ∃ c, build memory [some 4, some 99, some 3] true = .ok c ∧
      let ring := { c with channels := update 1 Channel.closeSender c.channels }
      let refused : Stop := .fault ⟨.sinkTerminated "link-1", some 2⟩
      (ring.run 10 0).1 = .error (.stageFaulted true 0 refused) ∧
        (ring.run 10 0).2.faults = [(0, refused), (2, stop 2)] ∧
        (∀ i, Root i (ring.run 10 0).2 ↔ i = 2) := by
  intro memory stop
  constructor
  · obtain ⟨c, built, -⟩ := exists_build memory (List.cons_ne_nil (some 99) [some 3, some 3]) true
    obtain ⟨start, seeded⟩ : ∃ start, c.inject 0 = (none, start) := by
      cases built
      exact ⟨_, rfl⟩
    obtain ⟨unfaulted, mid, last, begun, onward, -, ended, listed, roots⟩ :=
      exists_cascade built seeded rfl
    have steps := begun.append onward
    obtain ⟨late, lateJoined⟩ := path_of_listed steps unfaulted ended
      (listed.perm (.swap _ _ _)) (by decide)
    obtain ⟨early, earlyJoined⟩ := path_of_listed steps unfaulted ended listed (by decide)
    have isRoot (i : Nat) : Root i (last.withRecords [(2, stop 2), (1, stop 1)]) ↔ i = 1 := by
      rw [← mem_rootsOf, rootsOf_withRecords, roots, List.mem_singleton]
    have ports : ∀ record ∈ [(2, stop 2), (1, stop 1)], record.2.isPortFault = true := by decide
    exact ⟨c, start, built, seeded, _, late, lateJoined, rfl, fun i stop => ports (i, stop),
      isRoot, rfl, _, early, earlyJoined, rfl⟩
  · obtain ⟨c, built, -⟩ := exists_build memory (List.cons_ne_nil (some 4) [some 99, some 3]) true
    refine ⟨c, built, ?_⟩
    intro ring refused
    have ran : (ring.run 10 0).1 = .error (.stageFaulted true 0 refused) ∧
        (ring.run 10 0).2.faults = [(0, refused), (2, stop 2)] ∧
        (ring.run 10 0).2.rootsOf = [2] := by
      cases built
      decide +kernel
    exact ⟨ran.1, ran.2.1, fun i => by rw [← mem_rootsOf, ran.2.2, List.mem_singleton]⟩

end IntcodeVM.Amplifier.Circuit
