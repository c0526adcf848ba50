import IntcodeVM.Proofs.Batch.Trial
import Mathlib.Data.Finset.Lattice.Fold
import Mathlib.Data.Finset.Prod
import Mathlib.Order.RelClasses

/-! The search for a noun and a verb. The two numbers are counted up, the noun slower, and each pair is
tried on the memory as it was given; the first pair that is a hit or fails ends the search. Main
statement: if all trials come to an end, the search answers the first pair in lexicographic order that
leaves the target, unless a pair before it fails, and nothing is found exactly if every pair leaves
another value; that is told with the limit and the target, unless they are too long to be written. -/
namespace IntcodeVM.Batch

section FirstAnswer

variable {ε α : Type} {question : Nat → Except ε (Option α)} {left n i : Nat}

theorem firstAnswer_of_passed (passed : ∀ k, n ≤ k → k < n + left → question k = .ok none) :
    firstAnswer question left n = .ok none := by
  induction left generalizing n with
  | zero => rfl
  | succ left ih =>
    rw [firstAnswer, passed n (Nat.le_refl n) (by omega)]
    exact ih fun k after within => passed k (by omega) (by omega)

theorem firstAnswer_of_first (after : n ≤ i) (within : i < n + left)
    (passed : ∀ k, n ≤ k → k < i → question k = .ok none) (settled : question i ≠ .ok none) :
    firstAnswer question left n = question i := by
  induction left generalizing n with
  | zero => omega
  | succ left ih =>
    rcases Nat.eq_or_lt_of_le after with rfl | later
    · rw [firstAnswer]
      cases answered : question n with
      | error e => rfl
      | ok answer =>
        cases answer with
        | some found => rfl
        | none => exact absurd answered settled
    · rw [firstAnswer, passed n (Nat.le_refl n) later]
      exact ih later (by omega) fun k behind => passed k (by omega)

end FirstAnswer

/-- Pairs of numbers from zero up to a limit. -/
structure Below (limit : Int) (pair : Nat × Nat) : Prop where
  noun : (pair.1 : Int) < limit
  verb : (pair.2 : Int) < limit

/-- The lexicographic order of pairs. -/
abbrev Earlier : Nat × Nat → Nat × Nat → Prop := Prod.Lex (· < ·) (· < ·)

theorem earlier_wf : WellFounded Earlier := Nat.lt_wfRel.wf.prod_lex Nat.lt_wfRel.wf

/-- The trial of a pair leaves another value than the target. -/
def Misses (memory : Memory) (target : Int) (pair : Nat × Nat) : Prop :=
  ∃ value, Trial memory pair.1 pair.2 (.ok value) ∧ value ≠ target

/-- The limit and the target of a search can be written. -/
def Named (target limit : Int) : Prop :=
  Text.isLegible limit = true ∧ Text.isLegible target = true

/-- What a search of the pairs below a limit is to answer, or to report. All trials are of the memory
that was given. -/
inductive Finds (memory : Memory) (target limit : Int) : Except Diagnostic (Nat × Nat) → Prop
  | hit {pair : Nat × Nat} : Below limit pair → Trial memory pair.1 pair.2 (.ok target) →
      (∀ other, Below limit other → Earlier other pair → Misses memory target other) →
      Finds memory target limit (.ok pair)
  | failed {pair : Nat × Nat} {stop : Stop} : Below limit pair →
      Trial memory pair.1 pair.2 (.error stop) →
      (∀ other, Below limit other → Earlier other pair → Misses memory target other) →
      Finds memory target limit (.error stop.diagnostic)
  | missed : (∀ pair, Below limit pair → Misses memory target pair) → Named target limit →
      Finds memory target limit (.error (.notFound s!"No noun/verb below {limit} produces {target}"))
  | unnamed : (∀ pair, Below limit pair → Misses memory target pair) → ¬ Named target limit →
      Finds memory target limit (.error (.badValue Text.illegibleMessage))

variable {memory : Memory} {target limit : Int} {allowance : Nat} {pair : Nat × Nat}
  {answer : Except Diagnostic (Nat × Nat)}

theorem exists_finds (target : Int)
    (ends : ∀ pair, Below limit pair → ∃ outcome, Trial memory pair.1 pair.2 outcome) :
    ∃ answer, Finds memory target limit answer := by
  by_cases all : ∀ pair, Below limit pair → Misses memory target pair
  · by_cases named : Named target limit
    · exact ⟨_, .missed all named⟩
    · exact ⟨_, .unnamed all named⟩
  · -- the order is well-founded, so among the pairs that do not miss one is the first
    have some : {pair | Below limit pair ∧ ¬ Misses memory target pair}.Nonempty := by
      simpa [Set.Nonempty] using all
    obtain ⟨first, ⟨below, kept⟩, least⟩ := earlier_wf.has_min _ some
    have passed : ∀ other, Below limit other → Earlier other first → Misses memory target other := by
      intro other below earlier
      by_contra kept
      exact least other ⟨below, kept⟩ earlier
    obtain ⟨outcome, trial⟩ := ends first below
    cases outcome with
    | error stop => exact ⟨_, .failed below trial passed⟩
    | ok value =>
      have hit : value = target := by
        by_contra other
        exact kept ⟨value, trial, other⟩
      subst hit
      exact ⟨_, .hit below trial passed⟩

theorem below_iff : Below limit pair ↔ pair.1 < limit.toNat ∧ pair.2 < limit.toNat :=
  ⟨fun below => ⟨Int.lt_toNat.2 below.noun, Int.lt_toNat.2 below.verb⟩,
    fun ⟨noun, verb⟩ => ⟨Int.lt_toNat.1 noun, Int.lt_toNat.1 verb⟩⟩

theorem trial_eq_error {stop : Stop} {noun verb : Nat}
    (failed : patched allowance memory noun verb = .error stop) :
    trial allowance memory target noun verb = .error stop := by
  rw [trial, failed]
  rfl

theorem trial_eq_ok {value : Int} {noun verb : Nat}
    (left : patched allowance memory noun verb = .ok value) :
    trial allowance memory target noun verb =
      .ok (if value = target then some (noun, verb) else none) := by
  rw [trial, left]
  rfl

theorem search_of_passed
    (passed : ∀ pair, Below limit pair → trial allowance memory target pair.1 pair.2 = .ok none) :
    search allowance memory target limit = .error (.noPair limit target) := by
  have rows : ∀ noun, 0 ≤ noun → noun < 0 + limit.toNat →
      firstAnswer (trial allowance memory target noun) limit.toNat 0 = .ok none := by
    intro noun _ inside
    refine firstAnswer_of_passed fun verb _ within => passed (noun, verb) ?_
    exact below_iff.2 ⟨by omega, by omega⟩
  rw [search, firstAnswer_of_passed rows]

theorem firstAnswer_rows (below : Below limit pair)
    (passed : ∀ other, Below limit other → Earlier other pair →
      trial allowance memory target other.1 other.2 = .ok none)
    (settled : trial allowance memory target pair.1 pair.2 ≠ .ok none) :
    firstAnswer (fun noun => firstAnswer (trial allowance memory target noun) limit.toNat 0)
      limit.toNat 0 = trial allowance memory target pair.1 pair.2 := by
  obtain ⟨noun, verb⟩ := below_iff.1 below
  have row : firstAnswer (trial allowance memory target pair.1) limit.toNat 0 =
      trial allowance memory target pair.1 pair.2 := by
    refine firstAnswer_of_first (Nat.zero_le _) (by omega) (fun k _ before => ?_) settled
    exact passed (pair.1, k) (below_iff.2 ⟨noun, Nat.lt_trans before verb⟩) (.right _ before)
  have rows : ∀ k, 0 ≤ k → k < pair.1 →
      firstAnswer (trial allowance memory target k) limit.toNat 0 = .ok none := by
    intro k _ before
    refine firstAnswer_of_passed fun j _ within => ?_
    exact passed (k, j) (below_iff.2 ⟨Nat.lt_trans before noun, by omega⟩) (.left _ _ before)
  rw [firstAnswer_of_first (Nat.zero_le _) (by omega) rows (row ▸ settled), row]

/-- An allowance that is large enough for each trial is large enough for the search. -/
theorem search_of_finds
    (told : ∀ pair, Below limit pair → ∀ outcome, Trial memory pair.1 pair.2 outcome →
      patched allowance memory pair.1 pair.2 = outcome)
    (finds : Finds memory target limit answer) :
    (search allowance memory target limit).mapError SearchError.diagnostic = answer := by
  have passes {pair : Nat × Nat} (below : Below limit pair) (misses : Misses memory target pair) :
      trial allowance memory target pair.1 pair.2 = .ok none := by
    obtain ⟨value, tried, other⟩ := misses
    rw [trial_eq_ok (told pair below _ tried), if_neg other]
  cases finds with
  | @hit pair below tried passed =>
    have here : trial allowance memory target pair.1 pair.2 = .ok (some pair) := by
      rw [trial_eq_ok (told pair below _ tried), if_pos rfl]
    have before := fun other inside earlier => passes inside (passed other inside earlier)
    rw [search, firstAnswer_rows below before (by simp [here]), here]
    rfl
  | @failed pair stop below tried passed =>
    have here : trial allowance memory target pair.1 pair.2 = .error stop :=
      trial_eq_error (told pair below _ tried)
    have before := fun other inside earlier => passes inside (passed other inside earlier)
    rw [search, firstAnswer_rows below before (by simp [here]), here]
    rfl
  | missed missed named =>
    rw [search_of_passed fun pair below => passes below (missed pair below), mapError_error,
      SearchError.diagnostic, if_pos (by simpa [Named] using named)]
  | unnamed missed long =>
    rw [search_of_passed fun pair below => passes below (missed pair below), mapError_error,
      SearchError.diagnostic, if_neg (by simpa [Named] using long)]

/-- There are finitely many pairs, so some allowance is large enough for all their trials. -/
theorem exists_told
    (ends : ∀ pair, Below limit pair → ∃ outcome, Trial memory pair.1 pair.2 outcome) :
    ∃ enough, ∀ allowance, enough ≤ allowance → ∀ pair, Below limit pair → ∀ outcome,
      Trial memory pair.1 pair.2 outcome →
        patched allowance memory pair.1 pair.2 = outcome := by
  have each : ∀ pair, Below limit pair → ∃ enough, ∀ allowance, enough ≤ allowance → ∀ outcome,
      Trial memory pair.1 pair.2 outcome →
        patched allowance memory pair.1 pair.2 = outcome := by
    intro pair below
    obtain ⟨outcome, tried⟩ := ends pair below
    obtain ⟨enough, answered⟩ := tried.patched
    refine ⟨enough, fun allowance more other again => ?_⟩
    rw [again.unique tried, answered allowance more]
  choose! bound large using each
  let numbers := Finset.range limit.toNat
  refine ⟨(numbers ×ˢ numbers).sup bound, fun allowance more pair below => ?_⟩
  have mem : pair ∈ numbers ×ˢ numbers := by simpa [numbers] using below_iff.1 below
  exact large pair below allowance (Nat.le_trans (Finset.le_sup mem) more)

/-- The search is exhaustive, and the first hit or failure decides it. If the trial of every pair below
the limit comes to an end, then with every allowance that is large enough each trial comes to what a
fresh machine does on a patched copy of the given memory, and the search answers the first pair that
leaves the target, or reports the first failure; it reports the want of a pair exactly if all pairs leave
other values, so always with a limit that is not above zero. A target or a limit that is too long to be
written is reported in its place. -/
theorem search_finds_first_hit (memory : Memory) (target limit : Int)
    (ends : ∀ pair, Below limit pair →
      ∃ allowance, patched allowance memory pair.1 pair.2 ≠ .error .unfinished) :
    ∃ enough, ∀ allowance, enough ≤ allowance →
      (∀ pair, Below limit pair → ∀ outcome,
        Trial memory pair.1 pair.2 outcome ↔ patched allowance memory pair.1 pair.2 = outcome) ∧
      (∀ answer, (search allowance memory target limit).mapError SearchError.diagnostic = answer ↔
        Finds memory target limit answer) ∧
      (limit ≤ 0 → search allowance memory target limit = .error (.noPair limit target)) := by
  have tried : ∀ pair, Below limit pair → ∃ outcome, Trial memory pair.1 pair.2 outcome := by
    intro pair below
    obtain ⟨allowance, ended⟩ := ends pair below
    exact ⟨_, trial_of_patched ended⟩
  obtain ⟨enough, told⟩ := exists_told tried
  refine ⟨enough, fun allowance more => ⟨?_, ?_, ?_⟩⟩
  · intro pair below outcome
    obtain ⟨found, trial⟩ := tried pair below
    have answered := told allowance more pair below found trial
    rw [answered]
    constructor
    · exact trial.unique
    · rintro rfl
      exact trial
  · intro answer
    constructor
    · rintro rfl
      obtain ⟨found, finds⟩ := exists_finds target tried
      rwa [search_of_finds (told allowance more) finds]
    · exact search_of_finds (told allowance more)
  · intro empty
    refine search_of_passed fun pair below => ?_
    have inside := below.noun
    omega

/-- A machine that adds the words at the noun and at the verb: a target that is met before a pair leads
out of memory is found, and one that is met only behind such a pair is not. -/
theorem search_finds_first_hit_before_fault :
    let memory : Memory := .ofWords [1, 0, 0, 0, 99] 0
    (∀ pair, Below 6 pair →
      ∃ allowance, patched allowance memory pair.1 pair.2 ≠ .error .unfinished) ∧
    ∃ enough, ∀ allowance, enough ≤ allowance →
      (search allowance memory 3 6).mapError SearchError.diagnostic = .ok (0, 2) ∧
      (search allowance memory 4 6).mapError SearchError.diagnostic =
        .error (Fault.mk (.outOfBounds 5 5) (some 0)).diagnostic := by
  intro memory
  have ended : ∀ noun < 6, ∀ verb < 6,
      patched 9 memory (noun : Nat) (verb : Nat) ≠ .error .unfinished := by decide +kernel
  have ends : ∀ pair, Below 6 pair →
      ∃ allowance, patched allowance memory pair.1 pair.2 ≠ .error .unfinished :=
    fun pair below => ⟨9, ended _ (Int.ofNat_lt.1 below.noun) _ (Int.ofNat_lt.1 below.verb)⟩
  let sums : List Int := [2, 1, 3, 1, 100]
  have values : ∀ verb < 5, patched 9 memory 0 (verb : Nat) = .ok (sums[verb]?.getD 0) := by
    decide +kernel
  have trial_of_answer {pair : Nat × Nat} {outcome : Except Stop Int}
      (answered : patched 9 memory pair.1 pair.2 = outcome) (ended : outcome ≠ .error .unfinished) :
      Trial memory pair.1 pair.2 outcome := by
    subst answered
    exact trial_of_patched ended
  have passed : ∀ (target : Int) (k : Nat), k ≤ 5 → (∀ verb < k, sums[verb]?.getD 0 ≠ target) →
      ∀ other, Below 6 other → Earlier other (0, k) → Misses memory target other := by
    intro target k small unlike other below earlier
    cases earlier with
    | left _ _ before => exact absurd before (Nat.not_lt_zero _)
    | right _ before => exact ⟨_, trial_of_answer (values _ (by omega)) nofun, unlike _ before⟩
  have hit : Finds memory 3 6 (.ok (0, 2)) :=
    .hit ⟨by decide, by decide⟩ (trial_of_answer (values 2 (by decide)) nofun)
      (passed 3 2 (by decide) (by decide))
  have failed : patched 9 memory (0 : Nat) (5 : Nat) =
      .error (.fault ⟨.outOfBounds 5 5, some 0⟩) := by decide +kernel
  have last : Below 6 (0, 5) := ⟨by decide, by decide⟩
  have fault : Finds memory 4 6 (.error (Fault.mk (.outOfBounds 5 5) (some 0)).diagnostic) :=
    .failed last (trial_of_answer failed nofun) (passed 4 5 (by decide) (by decide))
  obtain ⟨enough, found⟩ := search_finds_first_hit memory 3 6 ends
  obtain ⟨enough', found'⟩ := search_finds_first_hit memory 4 6 ends
  refine ⟨ends, max enough enough', fun allowance more => ⟨?_, ?_⟩⟩
  · exact ((found allowance (by omega)).2.1 _).2 hit
  · exact ((found' allowance (by omega)).2.1 _).2 fault

/-- No pair is below zero, so all of them miss, but a target that is too long to be written is not
reported as missing. -/
theorem search_of_long_target :
    let memory : Memory := .ofWords [99] 0
    (∀ pair, Below 0 pair → Misses memory Text.illegible pair) ∧
      (∀ allowance, (search allowance memory Text.illegible 0).mapError SearchError.diagnostic =
        .error (.badValue Text.illegibleMessage)) ∧
      ¬ ∀ (allowance : Nat) (memory : Memory) (target limit : Int),
        (∀ pair, Below limit pair → Misses memory target pair) →
          ∃ text, (search allowance memory target limit).mapError SearchError.diagnostic =
            .error (.notFound text) := by
  intro memory
  have missed : ∀ pair, Below 0 pair → Misses memory Text.illegible pair := by
    rintro pair ⟨noun, -⟩
    omega
  have long : ¬ Named Text.illegible 0 := by simp [Named, Text.isLegible]
  have reported (allowance : Nat) :
      (search allowance memory Text.illegible 0).mapError SearchError.diagnostic =
        .error (.badValue Text.illegibleMessage) := by
    refine search_of_finds ?_ (.unnamed missed long)
    rintro pair ⟨noun, -⟩
    omega
  refine ⟨missed, reported, fun always => ?_⟩
  obtain ⟨text, found⟩ := always 0 memory Text.illegible 0 missed
  cases (reported 0).symm.trans found

end IntcodeVM.Batch
