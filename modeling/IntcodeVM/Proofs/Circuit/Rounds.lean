import IntcodeVM.Proofs.Circuit.Turns

/-! Rounds of turns. Main statement: if a closed loop can come to its end without a fault, then it
does under every order of steps, in the same state, and running it answers what is left on the loop
there. -/
namespace IntcodeVM.Amplifier.Circuit

open Settling

variable {stage i allowance rounds : Nat} {order left : List Nat} {c start next last : Circuit}
  {cpu : Cpu}

theorem total_set {α : Type} {f : α → Nat} {list : List α} {i : Nat} {a b : α}
    (found : list[i]? = some a) (more : f b = f a + 1) :
    (list.set i b).foldr (fun a total => f a + total) 0 =
      list.foldr (fun a total => f a + total) 0 + 1 := by
  induction list generalizing i with
  | nil => simp at found
  | cons head tail ih =>
    cases i with
    | zero =>
      simp only [List.getElem?_cons_zero, Option.some.injEq] at found
      subst found
      simp only [List.set_cons_zero, List.foldr_cons, more]
      omega
    | succ i =>
      simp only [List.getElem?_cons_succ] at found
      simp only [List.set_cons_succ, List.foldr_cons, ih found]
      omega

theorem Runs.totalSteps (h : Runs stage c next) : next.totalSteps = c.totalSteps + 1 := by
  obtain ⟨cpu, op, action, after, channels, found, acts, -, rfl⟩ := runs_iff.1 h
  have listed : c.stages.toList[stage]? = some cpu := by simpa using found
  simp only [Circuit.totalSteps, withStage, Array.toList_setIfInBounds]
  exact total_set listed acts.counted

theorem totalSteps_of_path (path : Path Runs order c last) :
    last.totalSteps = c.totalSteps + order.length := by
  induction path with
  | nil => rfl
  | cons runs _ ih =>
    rw [ih, runs.totalSteps, List.length_cons]
    omega

theorem Runs.faults_eq (h : Runs stage c next) : next.faults = c.faults := by
  obtain ⟨_, _, _, _, _, -, -, -, rfl⟩ := runs_iff.1 h
  rfl

theorem faults_of_path (path : Path Runs order c last) : last.faults = c.faults := by
  induction path with
  | nil => rfl
  | cons runs _ ih => exact ih.trans runs.faults_eq

theorem Runs.size_stages (h : Runs stage c next) : next.stages.size = c.stages.size := by
  obtain ⟨_, _, _, _, _, -, -, -, rfl⟩ := runs_iff.1 h
  simp [withStage]

theorem size_stages_of_path (path : Path Runs order c last) :
    last.stages.size = c.stages.size := by
  induction path with
  | nil => rfl
  | cons runs _ ih => exact ih.trans runs.size_stages

theorem stageHalted_of_path (path : Path Runs order c last) (h : c.stageHalted i = true) :
    last.stageHalted i = true := by
  cases found : c.stages[i]? with
  | none =>
    have outside : last.stages[i]? = none := by
      rw [Array.getElem?_eq_none_iff] at found ⊢
      rwa [size_stages_of_path path]
    simp [stageHalted, stage?, outside]
  | some cpu =>
    have halted : cpu.halted = true := by simpa [stageHalted, stage?, found] using h
    have kept := (interleaving_of_path path).stays_ended found (by simp [Cpu.refusal?, halted])
    simp [stageHalted, stage?, kept, halted]

theorem Settled.stageHalted (settled : last.Settled) (stage : Nat) :
    last.stageHalted stage = true := by
  cases found : last.stages[stage]? with
  | none => simp [Circuit.stageHalted, stage?, found]
  | some cpu =>
    simp [Circuit.stageHalted, stage?, found, halted_of_allHalted settled.halted found]

/-- A round on the way to a settled circuit. Stages that are asked no more have halted. -/
theorem round_spec (path : Path Runs order c last) (settled : last.Settled)
    (enough : order.length < allowance) (stages : List Nat) :
    ∃ left next done, (schedule allowance).round stages c = (some left, [], next) ∧
      Path Runs done c next ∧ (∀ i ∈ stages, i ∈ left ∨ next.stageHalted i = true) ∧
      (done = [] → ∀ i ∈ stages, ∀ other, ¬ Runs i c other) := by
  induction stages generalizing c order with
  | nil => exact ⟨[], c, [], rfl, .nil c, by simp, by simp⟩
  | cons stage stages ih =>
    obtain ⟨kind, mid, taken, same, turned⟩ := turn_turned path settled enough stage
    obtain ⟨rest, onward, perm⟩ := commuting.remaining path settled.still turned.path
    have shorter : rest.length < allowance := by
      have := perm.length_eq
      simp only [List.length_append] at this
      omega
    obtain ⟨left, next, done, round, later, asked, idle⟩ := ih onward shorter
    have answered : (schedule allowance).turn stage c = (kind, mid) := same
    have whole := turned.path.append later
    have idle' : List.replicate taken stage ++ done = [] →
        ∀ i ∈ stage :: stages, ∀ other, ¬ Runs i c other := by
      intro none i mem
      obtain ⟨noTurn, noRest⟩ := List.append_eq_nil_iff.1 none
      have taken0 : taken = 0 := by simpa using noTurn
      subst taken0
      cases turned.path
      rcases List.mem_cons.1 mem with rfl | mem
      · exact turned.idle rfl
      · exact idle noRest i mem
    rcases turned.clean with rfl | rfl | rfl
    · refine ⟨left, next, _, ?_, whole, ?_, idle'⟩
      · simp only [Schedule.round, answered, round]
      · intro i mem
        rcases List.mem_cons.1 mem with rfl | mem
        · exact .inr (stageHalted_of_path later (turned.halted rfl))
        · exact asked i mem
    all_goals
      refine ⟨stage :: left, next, _, ?_, whole, ?_, idle'⟩
      · simp only [Schedule.round, answered, round, Option.map_some]
      · intro i mem
        rcases List.mem_cons.1 mem with rfl | mem
        · exact .inl List.mem_cons_self
        · exact (asked i mem).imp_left (List.mem_cons_of_mem _)

theorem round_settled (settled : last.Settled) (stages : List Nat) :
    (schedule allowance).round stages last = (some [], [], last) := by
  induction stages with
  | nil => rfl
  | cons stage stages ih =>
    have answered : (schedule allowance).turn stage last = (.halted, last) := by
      show turn allowance stage last = _
      rw [turn, if_pos (settled.stageHalted stage)]
    simp only [Schedule.round, answered, ih]

/-- Rounds come to the settled circuit: each of them makes a step until it is reached. -/
theorem run_settles (path : Path Runs order c last) (settled : last.Settled)
    (enough : order.length < allowance) (more : order.length < rounds)
    (others : ∀ i, i ∉ left → c.stageHalted i = true) :
    (schedule allowance).run rounds left [] c = (.ended, [], last) := by
  induction rounds generalizing c order left with
  | zero => simp at more
  | succ rounds ih =>
    cases left with
    | nil =>
      cases path with
      | nil => rfl
      | cons runs _ => exact absurd runs (not_runs_of_stageHalted (others _ List.not_mem_nil) _)
    | cons stage stages =>
      cases path with
      | nil =>
        -- every stage has halted, and one more round says so
        simp [Schedule.run, round_settled settled]
      | @cons first tail _ mid _ runs rest =>
        have path : Path Runs (first :: tail) c last := .cons runs rest
        obtain ⟨left, next, done, round, later, asked, idle⟩ :=
          round_spec path settled enough (stage :: stages)
        -- the first stage of the path can run, so the round cannot have been idle
        have worked : done ≠ [] := by
          intro none
          by_cases mem : first ∈ stage :: stages
          · exact idle none first mem mid runs
          · exact not_runs_of_stageHalted (others first mem) mid runs
        have grown : (schedule allowance).work next ≠ (schedule allowance).work c := by
          show next.totalSteps ≠ c.totalSteps
          have total := totalSteps_of_path later
          have some := List.length_pos_iff.2 worked
          omega
        obtain ⟨onward, remaining, perm⟩ := commuting.remaining path settled.still later
        have shorter : done.length + onward.length = (first :: tail).length := by
          simpa using perm.length_eq
        have some := List.length_pos_iff.2 worked
        have halted : ∀ i, i ∉ left → next.stageHalted i = true := by
          intro i gone
          by_cases mem : i ∈ stage :: stages
          · exact (asked i mem).resolve_left gone
          · exact stageHalted_of_path later (others i mem)
        have settles := ih remaining (by omega) (by omega) halted
        simp only [Schedule.run, round, grown, and_false, if_false, List.append_nil, settles]

theorem runRing_settles {seed : Int} (seeded : c.inject seed = (none, start))
    (unfaulted : start.faults = []) (path : Path Runs order start last) (settled : last.Settled)
    (enough : order.length < allowance) : c.runRing allowance seed = (last.loopResult, last) := by
  have outside : ∀ i, i ∉ List.range start.stages.size → start.stageHalted i = true := by
    intro i beyond
    have missing : start.stages[i]? = none := by simpa using beyond
    simp [stageHalted, stage?, missing]
  have ended : (schedule allowance).run allowance (List.range start.stages.size) start.faults
      start = (.ended, [], last) := by
    rw [unfaulted]
    exact run_settles path settled enough enough outside
  have clean : last.faults = [] := (faults_of_path path).trans unfaulted
  have same : ({ last with faults := [] } : Circuit) = last := by rw [← clean]
  simp only [runRing, seeded, ended, same, rootFailure?, List.find?_nil, List.head?_nil,
    Option.or_none]

theorem inject_of_open (opened : (channelAt c.channels 0).closed = false) (seed : Int) :
    c.inject seed = (none, { c with
      channels := c.channels.setIfInBounds 0 ((channelAt c.channels 0).extend seed) }) := by
  have accepted := Channel.push_eq_of_open opened seed
  simp only [channelAt] at accepted ⊢
  simp only [inject, onChannel_eq, accepted]

theorem freshChannels_open (count i : Nat) :
    (channelAt (freshChannels count).toArray i).closed = false := by
  cases found : (List.range count)[i]? with
  | none =>
    have missing : channelAt (freshChannels count).toArray i = default := by
      simp [channelAt, freshChannels, found]
    rw [missing]
    rfl
  | some number => simp [channelAt, freshChannels, found, Channel.closed]

theorem inject_build {memory : Memory} {phases : List (Option Int)} (stages : phases ≠ [])
    (seed : Int) : ∃ c start, build memory phases true = .ok c ∧ c.inject seed = (none, start) ∧
      c.feedback = true ∧ start.faults = [] := by
  obtain ⟨first, rest, rfl⟩ := List.exists_cons_of_ne_nil stages
  exact ⟨_, _, rfl, inject_of_open (freshChannels_open _ 0) seed, rfl, rfl⟩

/-- If one order of steps settles the ring, every order does so, without a fault and in the same
state; and the ring's own rounds answer what is left on the loop in this state. -/
theorem ring_confluent (memory : Memory) (phases : List (Option Int)) (stages : phases ≠ [])
    (seed : Int) :
    ∃ c start, build memory phases true = .ok c ∧ c.inject seed = (none, start) ∧
      ∀ order final, Interleaving order start final → final.Settled →
        Confluent start final order ∧
          ∀ allowance, order.length < allowance →
            c.run allowance seed = (final.loopResult, final) := by
  obtain ⟨c, start, built, seeded, feedback, unfaulted⟩ := inject_build stages seed
  refine ⟨c, start, built, seeded, ?_⟩
  intro order final steps settled
  refine ⟨steps.confluent settled, ?_⟩
  intro allowance enough
  have path := steps.path_of_settled settled
  rw [run, if_pos feedback, runRing_settles seeded unfaulted path settled enough]

/-- Two stages that add their phase to the signal, one after the other. -/
theorem ring_confluent_adders :
    let memory : Memory := .ofWords [3, 11, 3, 12, 1, 11, 12, 11, 4, 11, 99, 0, 0] 0
    ∃ c start final, build memory [some 1, some 2] true = .ok c ∧
      c.inject 5 = (none, start) ∧
      Interleaving [1, 0, 0, 0, 0, 0, 1, 1, 1, 1] start final ∧ final.Settled ∧
      Confluent start final [1, 0, 0, 0, 0, 0, 1, 1, 1, 1] ∧
      c.run 11 5 = (final.loopResult, final) ∧ final.loopResult.toOption = some 8 := by
  intro memory
  obtain ⟨c, start, built, seeded, settles⟩ :=
    ring_confluent memory [some 1, some 2] (by decide) 5
  have reached : (start.follow? [1, 0, 0, 0, 0, 0, 1, 1, 1, 1]).any
      (fun c => decide (c.Settled ∧ c.loopResult.toOption = some 8)) = true := by
    cases built
    cases seeded
    decide +kernel
  obtain ⟨final, followed, ended⟩ := (Option.any_eq_true ..).1 reached
  obtain ⟨settled, answer⟩ := of_decide_eq_true ended
  have steps := interleaving_iff.2 followed
  obtain ⟨confluent, answered⟩ := settles _ final steps settled
  exact ⟨c, start, final, built, seeded, steps, settled, confluent, answered 11 (by decide), answer⟩

end IntcodeVM.Amplifier.Circuit
