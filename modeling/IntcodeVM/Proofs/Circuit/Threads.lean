import IntcodeVM.Proofs.Circuit.RootFault

/-! Stages on threads of their own. A stage that gives up closes its channels at once and puts its
fault on record later, so that others get in between. Main statement: if all faults come from ports,
schedules differ at their ends in the order of the records only, and this order can be any. -/
namespace IntcodeVM.Amplifier.Circuit

open Settling

/-- The same stages and channels, with these faults on record. -/
def withRecords (c : Circuit) (records : List (Nat × Stop)) : Circuit := { c with faults := records }

/-- The thread of a stage goes on: its stage steps, or the fault that ended it goes on record. -/
inductive Goes (stage : Nat) (c next : Circuit) : Prop
  | steps : Runs stage c next ∨ Faults stage c next → Goes stage c next
  | records {stop : Stop} : Failed stage stop c → (stage, stop) ∉ c.faults →
      next = c.withRecords (c.faults ++ [(stage, stop)]) → Goes stage c next

/-- All stages have come to an end, and their threads have, too. -/
structure Joined (c : Circuit) : Prop where
  ended : c.Ended
  told {i : Nat} {stop : Stop} : Failed i stop c → (i, stop) ∈ c.faults

/-- On record are faults that there are, once each. -/
structure Truthful (c : Circuit) : Prop where
  failed {i : Nat} {stop : Stop} : (i, stop) ∈ c.faults → Failed i stop c
  nodup : c.faults.Nodup

variable {stage i : Nat} {order : List Nat} {c start next last final : Circuit} {stop : Stop}
  {records : List (Nat × Stop)}

@[simp]
theorem withRecords_withRecords (c : Circuit) (records others : List (Nat × Stop)) :
    (c.withRecords records).withRecords others = c.withRecords others := rfl

theorem withRecords_eq_self (same : c.faults = records) : c.withRecords records = c := by
  subst same
  rfl

theorem onStage_step_withRecords {outcome : Outcome}
    (h : c.onStage stage Cpu.step = (some outcome, next)) (records : List (Nat × Stop)) :
    (c.withRecords records).onStage stage Cpu.step = (some outcome, next.withRecords records) := by
  obtain ⟨cpu, after, channels, found, stepped, rfl⟩ := onStage_step_iff.1 h
  exact onStage_step_iff.2 ⟨cpu, after, channels, found, stepped, rfl⟩

theorem step_withRecords (step : Runs stage c next ∨ Faults stage c next)
    (records : List (Nat × Stop)) :
    Runs stage (c.withRecords records) (next.withRecords records) ∨
      Faults stage (c.withRecords records) (next.withRecords records) := by
  rcases step with ⟨op, ran⟩ | ⟨fault, failed⟩
  · exact .inl ⟨op, onStage_step_withRecords ran records⟩
  · exact .inr ⟨fault, onStage_step_withRecords failed records⟩

theorem faults_of_step (step : Runs stage c next ∨ Faults stage c next) :
    next.faults = c.faults := by
  rcases step with ⟨_, h⟩ | ⟨_, h⟩
  all_goals
    obtain ⟨_, _, _, -, -, rfl⟩ := onStage_step_iff.1 h
    rfl

theorem faults_of_interleaving (steps : Interleaving order c last) : last.faults = c.faults := by
  induction steps with
  | nil => rfl
  | cons step _ ih => exact ih.trans (faults_of_step step)

theorem Interleaving.withRecords (steps : Interleaving order c last)
    (records : List (Nat × Stop)) :
    Interleaving order (c.withRecords records) (last.withRecords records) := by
  induction steps with
  | nil => exact .nil _
  | cons step _ ih => exact .cons (step_withRecords step records) ih

theorem Failed.of_step (failed : Failed i stop c) (step : Runs stage c next ∨ Faults stage c next) :
    Failed i stop next := by
  obtain ⟨cpu, fault, found, recorded, same⟩ := failed
  exact ⟨cpu, fault, stays_ended step found (refusal?_of_fault recorded), recorded, same⟩

theorem steps_of_path (path : Path Goes order c last) (records : List (Nat × Stop)) :
    ∃ stages, Interleaving stages (c.withRecords records) (last.withRecords records) := by
  induction path with
  | nil => exact ⟨[], .nil _⟩
  | @cons stage _ _ _ _ goes _ ih =>
    obtain ⟨stages, rest⟩ := ih
    cases goes with
    | steps step => exact ⟨stage :: stages, .cons (step_withRecords step records) rest⟩
    | records _ _ same =>
      subst same
      exact ⟨stages, rest⟩

theorem path_of_interleaving (steps : Interleaving order c last) : Path Goes order c last := by
  induction steps with
  | nil => exact .nil _
  | cons step _ ih => exact .cons (.steps step) ih

/-- Faults come on record in any order. -/
theorem path_of_records (records : List (Nat × Stop))
    (failed : ∀ i stop, (i, stop) ∈ records → Failed i stop c)
    (nodup : (c.faults ++ records).Nodup) :
    Path Goes (records.map Prod.fst) c (c.withRecords (c.faults ++ records)) := by
  induction records generalizing c with
  | nil =>
    rw [withRecords_eq_self (by simp)]
    exact .nil c
  | cons record records ih =>
    obtain ⟨i, stop⟩ := record
    have fresh : (i, stop) ∉ c.faults := fun known =>
      (List.nodup_append.1 nodup).2.2 _ known _ List.mem_cons_self rfl
    have rest := ih (c := c.withRecords (c.faults ++ [(i, stop)]))
      (fun j other mem => failed j other (List.mem_cons_of_mem _ mem))
      (by simpa [withRecords] using nodup)
    refine .cons (.records (failed i stop List.mem_cons_self) fresh rfl) ?_
    simpa [withRecords] using rest

theorem Truthful.goes (h : c.Truthful) (goes : Goes stage c next) : next.Truthful := by
  cases goes with
  | steps step =>
    constructor
    · intro i stop known
      rw [faults_of_step step] at known
      exact (h.failed known).of_step step
    · rw [faults_of_step step]
      exact h.nodup
  | records failed fresh same =>
    subst same
    constructor
    · intro i stop known
      rcases List.mem_append.1 known with before | now
      · exact h.failed before
      · cases List.mem_singleton.1 now
        exact failed
    · refine List.nodup_append.2 ⟨h.nodup, List.nodup_cons.2 ⟨List.not_mem_nil, .nil⟩, ?_⟩
      rintro record known _ now rfl
      cases List.mem_singleton.1 now
      exact fresh known

theorem Truthful.path (h : c.Truthful) (path : Path Goes order c last) : last.Truthful := by
  induction path with
  | nil => exact h
  | cons goes _ ih => exact ih (h.goes goes)

theorem truthful_of_unfaulted (unfaulted : c.faults = []) : c.Truthful :=
  ⟨by simp [unfaulted], by simp [unfaulted]⟩

theorem faults_of_threads (path : Path Goes order c last) :
    ∃ more, last.faults = c.faults ++ more := by
  induction path with
  | nil => exact ⟨[], by simp⟩
  | cons goes _ ih =>
    obtain ⟨more, added⟩ := ih
    cases goes with
    | steps step => exact ⟨more, by rw [added, faults_of_step step]⟩
    | records _ _ same =>
      subst same
      exact ⟨_, by rw [added, withRecords, List.append_assoc]⟩

theorem Joined.listed (joined : c.Joined) (truthful : c.Truthful) : Listed c.faults c :=
  fun _ _ => ⟨truthful.failed, joined.told⟩

theorem perm_of_listed {others : List (Nat × Stop)} (listed : Listed records c)
    (listed' : Listed others c) (nodup : records.Nodup) (nodup' : others.Nodup) :
    others.Perm records :=
  (List.perm_ext_iff_of_nodup nodup' nodup).2 fun (i, stop) =>
    (listed' i stop).trans (listed i stop).symm

theorem path_of_listed (steps : Interleaving order start last) (unfaulted : start.faults = [])
    (ended : last.Ended) (listed : Listed records last) (nodup : records.Nodup) :
    Path Goes (order ++ records.map Prod.fst) start (last.withRecords records) ∧
      (last.withRecords records).Joined := by
  have none : last.faults = [] := (faults_of_interleaving steps).trans unfaulted
  have recorded := path_of_records records (fun i stop => (listed i stop).1)
    (by rwa [none, List.nil_append])
  rw [none, List.nil_append] at recorded
  exact ⟨(path_of_interleaving steps).append recorded, ended, fun failed => (listed _ _).2 failed⟩

/-- If all faults come from ports, nothing has been closed before the time. -/
theorem Uninterrupted.calm_of_ports (h : c.Uninterrupted) (steps : Interleaving order c last)
    (ports : ∀ i stop, Failed i stop last → stop.isPortFault = true) : Path Calm order c last := by
  rcases h.calm_or_breaks steps with path | ⟨_, _, i, _, _, fault, _, inner, failed, onward⟩
  · exact path
  · obtain ⟨cpu, found, recorded⟩ := stage_of_raised failed
    have kept := onward.stays_ended found (refusal?_of_fault recorded)
    have port := ports i (.fault fault) ⟨cpu, fault, kept, recorded, rfl⟩
    cases inner.symm.trans port

theorem not_calm_of_ended (ended : c.Ended) (i : Nat) (next : Circuit) : ¬ Calm i c next := by
  intro calm
  obtain ⟨cpu, _, _, found, live, -⟩ := calm.place
  exact ended i cpu found live

theorem not_raises_of_ended (ended : c.Ended) (i : Nat) (stop : Stop) : ¬ Raises i stop c := by
  intro raises
  obtain ⟨cpu, found, live⟩ := raises.live
  exact ended i cpu found live

theorem not_raises_of_calm (path : Path Calm order start last) (ended : last.Ended)
    {other : List Nat} (path' : Path Calm other start final) (i : Nat) (stop : Stop)
    (inner : stop.isPortFault = false) : ¬ Raises i stop final := by
  intro raises
  obtain ⟨rest, w, ahead, still⟩ := (calm_commuting stop inner).ahead path' raises path
  cases ahead with
  | nil => exact not_raises_of_ended ended i stop still
  | cons calm _ => exact not_calm_of_ended ended _ _ calm

/-- Where calm steps have brought all stages to an end, all other orders of steps are calm. -/
theorem Uninterrupted.calm_of_ended (h : start.Uninterrupted) (path : Path Calm order start last)
    (ended : last.Ended) {other : List Nat} (steps : Interleaving other start final) :
    Path Calm other start final := by
  rcases h.calm_or_breaks steps with path' | ⟨_, _, i, _, _, fault, path', inner, failed, -⟩
  · exact path'
  · exact absurd ⟨rfl, _, failed⟩
      (not_raises_of_calm path ended path' i (.fault fault) inner)

theorem Uninterrupted.unbroken_of_ended (h : start.Uninterrupted)
    (path : Path Calm order start last) (ended : last.Ended) : start.Unbroken :=
  fun _ _ steps i snag =>
    not_raises_of_calm path ended (h.calm_of_ended path ended steps) i (.unworded snag) rfl

theorem Uninterrupted.same_end (h : start.Uninterrupted) (path : Path Calm order start last)
    (ended : last.Ended) {other : List Nat} (steps : Interleaving other start final)
    (ended' : final.Ended) : final = last := by
  have laws := calm_commuting .unfinished rfl
  exact (laws.same_end path (fun i => ⟨not_calm_of_ended ended i, not_raises_of_ended ended i _⟩)
    (h.calm_of_ended path ended steps) (not_calm_of_ended ended')).1

theorem Unbroken.path (unbroken : start.Unbroken) (unfaulted : start.faults = [])
    (path : Path Goes order start last) (i : Nat) (snag : Snag) :
    ¬ Raises i (.unworded snag) last := by
  rintro ⟨failure, next, failed⟩
  obtain ⟨stages, steps⟩ := steps_of_path path []
  rw [withRecords_eq_self unfaulted] at steps
  exact unbroken _ _ steps i snag ⟨failure, _, onStage_step_withRecords failed []⟩

theorem Uninterrupted.calm_path (h : start.Uninterrupted) (unfaulted : start.faults = [])
    (path : Path Goes order start last)
    (ports : ∀ i stop, Failed i stop last → stop.isPortFault = true) :
    ∃ stages, Path Calm stages start (last.withRecords []) := by
  obtain ⟨stages, steps⟩ := steps_of_path path []
  rw [withRecords_eq_self unfaulted] at steps
  exact ⟨stages, h.calm_of_ports steps ports⟩

/-- Where one schedule ends with faults of ports only, all others end with these faults, and the order of
the records can be any. -/
theorem Uninterrupted.joined_iff (h : start.Uninterrupted) (unfaulted : start.faults = [])
    (path : Path Goes order start last) (joined : last.Joined)
    (ports : ∀ i stop, (i, stop) ∈ last.faults → stop.isPortFault = true) (final : Circuit) :
    ((∃ other, Path Goes other start final) ∧ final.Joined) ↔
      ∃ records, records.Perm last.faults ∧ final = last.withRecords records := by
  have truthful := truthful_of_unfaulted unfaulted
  have listed := joined.listed (truthful.path path)
  obtain ⟨stages, calm⟩ := h.calm_path unfaulted path fun i stop failed =>
    ports i stop (joined.told failed)
  constructor
  · rintro ⟨⟨other, path'⟩, joined'⟩
    obtain ⟨stages', steps⟩ := steps_of_path path' []
    rw [withRecords_eq_self unfaulted] at steps
    have same := h.same_end calm joined.ended steps joined'.ended
    have reordered : final = last.withRecords final.faults := by
      have again := congrArg (withRecords · final.faults) same
      rwa [withRecords_withRecords, withRecords_eq_self rfl] at again
    have listed' : Listed final.faults final := joined'.listed (truthful.path path')
    rw [reordered] at listed'
    exact ⟨final.faults, perm_of_listed listed listed' (truthful.path path).nodup
      (truthful.path path').nodup, reordered⟩
  · rintro ⟨records, perm, rfl⟩
    have nodup : records.Nodup := perm.nodup_iff.2 (truthful.path path).nodup
    obtain ⟨path', joined'⟩ := path_of_listed (interleaving_of_calm calm) unfaulted joined.ended
      (listed.perm perm) nodup
    exact ⟨⟨_, path'⟩, joined'⟩

end IntcodeVM.Amplifier.Circuit
