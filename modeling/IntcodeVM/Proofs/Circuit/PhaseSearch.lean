import IntcodeVM.Proofs.Circuit.Composition
import IntcodeVM.Proofs.Circuit.Orderings

/-! The search for the best order of phases. It keeps the best setting of those tried so far, and
the first failure ends it. Main statement: for a chain the search finds the greatest result of all
orders and the first order with this result, and the greatest result does not hang on the order in
which the phases are given. -/
namespace IntcodeVM.Amplifier

/-- A result of one setting that earlier settings stay below and later ones do not exceed. -/
structure FirstBest (trial : List (Option Int) → Except CircuitError Int)
    (settings : List (List (Option Int))) (best : Setting) : Prop where
  reached : trial best.2 = .ok best.1
  first : ∃ before after, settings = before ++ best.2 :: after ∧
    (∀ phases ∈ before, ∀ value, trial phases = .ok value → value < best.1) ∧
    ∀ phases ∈ after, ∀ value, trial phases = .ok value → value ≤ best.1

/-- A setting that fails with this error, behind settings that do not fail. -/
def FirstFailure (trial : List (Option Int) → Except CircuitError Int)
    (settings : List (List (Option Int))) (e : CircuitError) : Prop :=
  ∃ before phases after, settings = before ++ phases :: after ∧
    (∀ earlier ∈ before, ∃ value, trial earlier = .ok value) ∧ trial phases = .error e

variable {trial : List (Option Int) → Except CircuitError Int}
  {settings tried rest : List (List (Option Int))} {best : Setting}
  {phases others : List (Option Int)} {value : Int} {e : CircuitError}

theorem FirstBest.mem (h : FirstBest trial settings best) : best.2 ∈ settings := by
  obtain ⟨before, after, same, -⟩ := h.first
  rw [same]
  simp

theorem FirstBest.bound (h : FirstBest trial settings best) (mem : phases ∈ settings)
    (tried : trial phases = .ok value) : value ≤ best.1 := by
  obtain ⟨before, after, rfl, less, least⟩ := h.first
  rcases List.mem_append.1 mem with mem | mem
  · exact Int.le_of_lt (less phases mem value tried)
  · rcases List.mem_cons.1 mem with rfl | mem
    · cases h.reached.symm.trans tried
      exact Int.le_refl _
    · exact least phases mem value tried

theorem firstBest_single (answered : trial phases = .ok value) :
    FirstBest trial [phases] (value, phases) :=
  ⟨answered, [], [], rfl, by simp, by simp⟩

/-- The better of the best setting and the next one is the best up to there. -/
theorem FirstBest.better (h : FirstBest trial tried best) (answered : trial phases = .ok value) :
    FirstBest trial (tried ++ [phases]) (better (some best) (value, phases)) := by
  unfold Amplifier.better
  dsimp only
  split
  · rename_i less
    refine ⟨answered, tried, [], by simp, ?_, by simp⟩
    intro earlier mem result reached
    exact Int.lt_of_le_of_lt (h.bound mem reached) less
  · rename_i least
    obtain ⟨before, after, same, less, most⟩ := h.first
    refine ⟨h.reached, before, after ++ [phases], by simp [same], less, ?_⟩
    intro later mem result reached
    rcases List.mem_append.1 mem with mem | mem
    · exact most later mem result reached
    · cases List.mem_singleton.1 mem
      cases answered.symm.trans reached
      exact Int.not_lt.1 least

theorem bestOf_of_best (h : FirstBest trial tried best)
    (answered : ∀ phases ∈ rest, ∃ value, trial phases = .ok value) :
    ∃ final, bestOf trial rest (some best) = .ok (some final) ∧
      FirstBest trial (tried ++ rest) final := by
  induction rest generalizing tried best with
  | nil => exact ⟨best, rfl, by rwa [List.append_nil]⟩
  | cons phases rest ih =>
    obtain ⟨value, reached⟩ := answered phases List.mem_cons_self
    obtain ⟨final, found, firstBest⟩ :=
      ih (h.better reached) fun later mem => answered later (List.mem_cons_of_mem _ mem)
    refine ⟨final, ?_, ?_⟩
    · rw [bestOf, reached, ok_bind, found]
    · rwa [List.append_assoc, List.singleton_append] at firstBest

theorem bestOf_of_answered (nonempty : settings ≠ [])
    (answered : ∀ phases ∈ settings, ∃ value, trial phases = .ok value) :
    ∃ best, bestOf trial settings none = .ok (some best) ∧ FirstBest trial settings best := by
  obtain ⟨phases, rest, rfl⟩ := List.exists_cons_of_ne_nil nonempty
  obtain ⟨value, reached⟩ := answered phases List.mem_cons_self
  obtain ⟨best, found, firstBest⟩ :=
    bestOf_of_best (firstBest_single reached) fun later mem =>
      answered later (List.mem_cons_of_mem _ mem)
  exact ⟨best, by rw [bestOf, reached, ok_bind, Amplifier.better, found], firstBest⟩

theorem bestOf_of_failure (failure : FirstFailure trial settings e) (start : Option Setting) :
    bestOf trial settings start = .error e := by
  obtain ⟨before, phases, after, rfl, answered, failed⟩ := failure
  induction before generalizing start with
  | nil => rw [List.nil_append, bestOf, failed, error_bind]
  | cons first before ih =>
    obtain ⟨value, reached⟩ := answered first List.mem_cons_self
    rw [List.cons_append, bestOf, reached, ok_bind]
    exact ih _ fun earlier mem => answered earlier (List.mem_cons_of_mem _ mem)

theorem exists_firstFailure (mem : phases ∈ settings) (failed : trial phases = .error e) :
    ∃ e, FirstFailure trial settings e := by
  induction settings with
  | nil => cases mem
  | cons first rest ih =>
    cases tried : trial first with
    | error e => exact ⟨e, [], first, rest, rfl, by simp, tried⟩
    | ok value =>
      have later : phases ∈ rest := by
        refine (List.mem_cons.1 mem).resolve_left ?_
        rintro rfl
        cases tried.symm.trans failed
      obtain ⟨e, before, failing, after, rfl, answered, failed⟩ := ih later
      refine ⟨e, first :: before, failing, after, rfl, ?_, failed⟩
      intro earlier mem
      rcases List.mem_cons.1 mem with rfl | mem
      · exact ⟨value, tried⟩
      · exact answered earlier mem

theorem bestOf_congr {other : List (Option Int) → Except CircuitError Int}
    (same : ∀ phases ∈ settings, trial phases = other phases) (start : Option Setting) :
    bestOf trial settings start = bestOf other settings start := by
  induction settings generalizing start with
  | nil => rfl
  | cons phases rest ih =>
    rw [bestOf, bestOf, same phases List.mem_cons_self]
    congr 1
    funext value
    exact ih (fun later mem => same later (List.mem_cons_of_mem _ mem)) _

namespace Circuit

theorem Composes.answer_unique {built : Circuit} {relayed : Except (Nat × Stop) (List Int)}
    {one other : Except CircuitError Int × Circuit} (h : Composes built relayed one)
    (h' : Composes built relayed other) : one.1 = other.1 := by
  cases h with
  | delivered last =>
    cases h' with
    | delivered last' =>
      cases last.symm.trans last'
      rfl
    | silent => cases last
  | silent _ same =>
    cases h' with
    | delivered last => cases last
    | silent _ same' => rw [same, same']
  | faulted _ _ same =>
    cases h' with
    | faulted _ _ same' => rw [same, same']
  | unworded _ _ same =>
    cases h' with
    | unworded _ _ same' => rw [same, same']
  | unfinished =>
    cases h' with
    | unfinished => rfl

end Circuit

variable {allowance larger : Nat} {memory : Memory} {seed : Int}

theorem amplify_mono
    (ended : amplify allowance memory phases false seed ≠ .error (.stageStopped .unfinished))
    (more : allowance ≤ larger) :
    amplify larger memory phases false seed = amplify allowance memory phases false seed := by
  by_cases nonempty : phases = []
  · subst nonempty
    rfl
  · obtain ⟨c, built, fresh, chain⟩ := Circuit.exists_build memory nonempty false
    have answer : ∀ limit, amplify limit memory phases false seed = (c.runChain limit seed).1 := by
      intro limit
      rw [amplify, built, ok_bind, Circuit.run, chain]
      rfl
    have follows := Circuit.runChain_composes fresh chain allowance seed
    have settled : ∀ stage,
        Circuit.relay allowance memory 0 phases [seed] ≠ .error (stage, .unfinished) := by
      intro stage unfinished
      rcases ran : c.runChain allowance seed with ⟨result, final⟩
      rw [unfinished, ran] at follows
      rw [answer, ran] at ended
      cases follows
      exact ended rfl
    have later := Circuit.runChain_composes fresh chain larger seed
    rw [Circuit.relay_mono settled more] at later
    rw [answer, answer]
    exact later.answer_unique follows

/-- The search over a chain, where every order of the phases comes to an end. If no order fails, it
answers the first order with the greatest result, and the same result for the same phases given in
another order; if one fails, it fails with the first failure, whatever order the phases are given
in. -/
theorem search_finds_first_best (allowance : Nat) (memory : Memory) (phases : List (Option Int))
    (seed : Int) (ends : ∀ order, order.Perm phases →
      amplify allowance memory order false seed ≠ .error (.stageStopped .unfinished)) :
    let trial := fun order => amplify allowance memory order false seed
    (∀ others, others.Perm phases → ByPosition others (orderings others)) ∧
      ((∀ order, order.Perm phases → ∃ value, trial order = .ok value) →
        ∃ best, searchPhases allowance memory phases false seed = .ok (some best) ∧
          best.2.Perm phases ∧ FirstBest trial (orderings phases) best ∧
          (∀ order, order.Perm phases → ∀ value, trial order = .ok value → value ≤ best.1) ∧
          ∀ others, others.Perm phases → ∃ order,
            searchPhases allowance memory others false seed = .ok (some (best.1, order))) ∧
      ((∃ order, order.Perm phases ∧ ∃ e, trial order = .error e) →
        ∀ others, others.Perm phases → ∃ e,
          searchPhases allowance memory others false seed = .error e ∧
            FirstFailure trial (orderings others) e) ∧
      ∀ others, others.Perm phases → ∀ larger, allowance ≤ larger →
        searchPhases larger memory others false seed =
          searchPhases allowance memory others false seed := by
  intro trial
  refine ⟨fun others _ => byPosition_orderings others, ?_, ?_, ?_⟩
  · intro answered
    -- each order of the same phases is one of the orders tried
    have search : ∀ others, others.Perm phases → ∃ best,
        searchPhases allowance memory others false seed = .ok (some best) ∧
          FirstBest trial (orderings others) best := by
      intro others perm
      have nonempty : orderings others ≠ [] :=
        List.ne_nil_of_mem (mem_orderings_iff.2 (List.Perm.refl others))
      exact bestOf_of_answered nonempty fun order mem =>
        answered order ((mem_orderings_iff.1 mem).trans perm)
    obtain ⟨best, found, firstBest⟩ := search phases (.refl _)
    have greatest : ∀ order, order.Perm phases → ∀ value, trial order = .ok value →
        value ≤ best.1 :=
      fun order perm value reached => firstBest.bound (mem_orderings_iff.2 perm) reached
    refine ⟨best, found, mem_orderings_iff.1 firstBest.mem, firstBest, greatest, ?_⟩
    intro others perm
    obtain ⟨other, foundOther, firstOther⟩ := search others perm
    have above : other.1 ≤ best.1 :=
      greatest other.2 ((mem_orderings_iff.1 firstOther.mem).trans perm) other.1 firstOther.reached
    have below : best.1 ≤ other.1 :=
      firstOther.bound
        (mem_orderings_iff.2 ((mem_orderings_iff.1 firstBest.mem).trans perm.symm))
        firstBest.reached
    exact ⟨other.2, by rw [foundOther, ← Int.le_antisymm above below]⟩
  · rintro ⟨order, perm, e, failed⟩ others permOthers
    obtain ⟨first, failure⟩ :=
      exists_firstFailure (mem_orderings_iff.2 (perm.trans permOthers.symm)) failed
    exact ⟨first, bestOf_of_failure failure none, failure⟩
  · intro others perm larger more
    refine bestOf_congr ?_ none
    intro order mem
    exact amplify_mono (ends order ((mem_orderings_iff.1 mem).trans perm)) more

/-- Two stages that each multiply their input by ten and add their phase, with the phases given in
their better order. -/
theorem search_finds_first_best_pair :
    let memory : Memory :=
      .ofWords [3, 15, 3, 16, 1002, 16, 10, 16, 1, 16, 15, 15, 4, 15, 99, 0, 0] 0
    let trial := fun order => amplify 20 memory order false 0
    (∀ order, order.Perm [some 1, some 0] → trial order ≠ .error (.stageStopped .unfinished)) ∧
      (∀ order, order.Perm [some 1, some 0] → ∃ value, trial order = .ok value) ∧
      ∃ best, searchPhases 20 memory [some 1, some 0] false 0 = .ok (some best) ∧
        FirstBest trial (orderings [some 1, some 0]) best ∧
        ∃ order, searchPhases 20 memory [some 0, some 1] false 0 = .ok (some (best.1, order)) := by
  intro memory trial
  have values : ∀ order ∈ orderings [some 1, some 0],
      trial order = .ok 10 ∨ trial order = .ok 1 := by decide +kernel
  have ends : ∀ order, order.Perm [some 1, some 0] →
      trial order ≠ .error (.stageStopped .unfinished) := by
    intro order perm
    rcases values order (mem_orderings_iff.2 perm) with same | same <;> simp [same]
  have answered : ∀ order, order.Perm [some 1, some 0] → ∃ value, trial order = .ok value := by
    intro order perm
    rcases values order (mem_orderings_iff.2 perm) with same | same
    · exact ⟨10, same⟩
    · exact ⟨1, same⟩
  obtain ⟨-, succeeds, -⟩ := search_finds_first_best 20 memory [some 1, some 0] 0 ends
  obtain ⟨best, found, -, firstBest, -, invariant⟩ := succeeds answered
  exact ⟨ends, answered, best, found, firstBest,
    invariant [some 0, some 1] (List.Perm.swap _ _ _)⟩

end IntcodeVM.Amplifier
