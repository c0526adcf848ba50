import IntcodeVM.Proofs.Monitor.Course

/-! Runs with breakpoints and runs without. A breakpoint cuts a run, and the next one goes on from there.
Main statement: a run stops exactly where it should, and runs that are cut at breakpoints come to the same
machine as one run without them. -/
namespace IntcodeVM.Monitor

variable {m mid last : Machine} {breakpoints : List Int} {budget larger n : Nat} {first : Bool}
  {ip : Int} {how : Except Escape RunEnd}

/-- A run is over for good unless a breakpoint or the budget ended it. -/
def isFinal : Except Escape RunEnd → Bool
  | .ok .stopped | .error _ => true
  | .ok .budget | .ok (.breakpoint _) => false

theorem isFinal_endedBy (m : Machine) : isFinal (endedBy m) = true := by
  rw [endedBy]
  cases (advance m).1 <;> rfl

theorem course_nil_succ (budget : Nat) (first : Bool) (m : Machine) :
    course [] (budget + 1) first m =
      if goesOn m then course [] budget true (advance m).2 else (endedBy m, (advance m).2) := by
  cases budget <;> simp [course]

theorem course_of_final (final : isFinal how = true)
    (ended : course breakpoints budget first m = (how, last)) (more : budget ≤ larger) :
    course [] larger true m = (how, last) := by
  induction budget generalizing first m larger with
  | zero =>
    cases ended
    cases final
  | succ budget ih =>
    obtain ⟨larger, rfl⟩ := Nat.exists_eq_add_of_le' (Nat.le_trans (Nat.succ_pos budget) more)
    rw [course] at ended
    rw [course_nil_succ]
    split at ended
    · cases ended
      cases final
    · split at ended
      · rename_i onward
        rw [if_pos onward]
        exact ih ended (Nat.le_of_succ_le_succ more)
      · rename_i ends
        rw [if_neg ends, ended]

/-- A run without breakpoints passes every place at which one with breakpoints is cut. -/
theorem course_of_breakpoint (cut : course breakpoints budget first m = (.ok (.breakpoint ip), mid)) :
    ∃ done, ∀ more, course [] (done + more) true m = course [] more true mid := by
  induction budget generalizing first m with
  | zero => cases cut
  | succ budget ih =>
    rw [course] at cut
    split at cut
    · cases cut
      exact ⟨0, fun more => by rw [Nat.zero_add]⟩
    · split at cut
      · rename_i onward
        obtain ⟨done, same⟩ := ih cut
        refine ⟨done + 1, fun more => ?_⟩
        rw [Nat.add_right_comm, course_nil_succ, if_pos onward, same]
      · have ends : endedBy m = .ok (.breakpoint ip) := congrArg Prod.fst cut
        have final := isFinal_endedBy m
        rw [ends] at final
        cases final

/-- With the budget of a run that is over for good, a run with breakpoints comes to the same end, or is
cut nearer to it. -/
theorem course_cut (breakpoints : List Int) (first : Bool) (final : isFinal how = true)
    (free : course [] n true m = (how, last)) (enough : n ≤ budget) :
    course breakpoints budget first m = (how, last) ∨
      ∃ ip mid rest, course breakpoints budget first m = (.ok (.breakpoint ip), mid) ∧
        course [] rest true mid = (how, last) ∧ rest + first.toNat ≤ n := by
  induction n generalizing budget first m with
  | zero =>
    cases free
    cases final
  | succ n ih =>
    obtain ⟨budget, rfl⟩ := Nat.exists_eq_add_of_le' (Nat.le_trans (Nat.succ_pos n) enough)
    rw [course]
    by_cases paused : (!first && breakpoints.contains m.cpu.ip) = true
    · rw [if_pos paused]
      obtain ⟨rfl, -⟩ : first = false ∧ m.cpu.ip ∈ breakpoints := by simpa using paused
      exact .inr ⟨_, m, n + 1, rfl, free, Nat.le_refl _⟩
    · rw [course_nil_succ] at free
      rw [if_neg paused]
      by_cases onward : goesOn m = true
      · rw [if_pos onward] at free ⊢
        rcases ih false free (Nat.le_of_succ_le_succ enough) with
          same | ⟨ip, mid, rest, cut, onto, nearer⟩
        · exact .inl same
        · exact .inr ⟨ip, mid, rest, cut, onto, Nat.add_le_add nearer first.toNat_le⟩
      · rw [if_neg onward] at free ⊢
        exact .inl free

namespace Console

variable {c ending : Console} {argument : List Char} {arguments : List (List Char)} {budget : Int}

/-- How a run command ends; none if its argument is no number. -/
def runEnd? (c : Console) (argument : List Char) : Option (Except Escape RunEnd) :=
  match numberOr defaultBudget (given? argument) with
  | .error _ => none
  | .ok budget => some (stepper.runMany c.breakpoints budget.toNat true c.machine #[]).1

theorem runEnd?_eq (asked : numberOr defaultBudget (given? argument) = .ok budget) :
    c.runEnd? argument = some (course c.breakpoints budget.toNat true c.machine).1 := by
  rw [runEnd?, asked, ← runMany_eq_course _ _ _ _ #[]]

theorem execute_run (asked : numberOr defaultBudget (given? argument) = .ok budget) :
    (c.execute (.act .run argument)).2 =
      { c with machine := (course c.breakpoints budget.toNat true c.machine).2 } := by
  rw [← runMany_eq_course _ _ _ _ #[]]
  simp only [execute, act, run, asked]

/-- Run commands one after the other: breakpoints end all but the last. -/
inductive Resumed : List (List Char) → Console → Except Escape RunEnd → Console → Prop
  | last {argument : List Char} {c : Console} {how : Except Escape RunEnd} :
      c.runEnd? argument = some how → isFinal how = true →
      Resumed [argument] c how (c.execute (.act .run argument)).2
  | again {argument : List Char} {arguments : List (List Char)} {c last : Console}
      {how : Except Escape RunEnd} {ip : Int} : c.runEnd? argument = some (.ok (.breakpoint ip)) →
      Resumed arguments (c.execute (.act .run argument)).2 how last →
      Resumed (argument :: arguments) c how last

theorem asked_of_runEnd? (ends : c.runEnd? argument = some how) :
    ∃ budget, numberOr defaultBudget (given? argument) = .ok budget := by
  unfold runEnd? at ends
  split at ends
  · cases ends
  · exact ⟨_, ‹_›⟩

theorem Resumed.free (resumed : Resumed arguments c how ending) :
    ∃ enough, ∀ larger, enough ≤ larger →
      course [] larger true c.machine = (how, ending.machine) := by
  induction resumed with
  | @last argument c how ends final =>
    obtain ⟨budget, asked⟩ := asked_of_runEnd? ends
    rw [runEnd?_eq asked] at ends
    rw [execute_run asked]
    exact ⟨budget.toNat, fun larger => course_of_final final (Prod.ext (Option.some.inj ends) rfl)⟩
  | @again argument arguments c last how ip ends _ ih =>
    obtain ⟨budget, asked⟩ := asked_of_runEnd? ends
    rw [runEnd?_eq asked] at ends
    rw [execute_run asked] at ih
    obtain ⟨done, onward⟩ := course_of_breakpoint (Prod.ext (Option.some.inj ends) rfl)
    obtain ⟨enough, same⟩ := ih
    refine ⟨done + enough, fun larger more => ?_⟩
    obtain ⟨extra, rfl⟩ := Nat.exists_eq_add_of_le more
    rw [Nat.add_assoc, onward]
    exact same _ (Nat.le_add_right enough extra)

theorem exists_resumed (asked : numberOr defaultBudget (given? argument) = .ok budget)
    (final : isFinal how = true) (free : course [] n true c.machine = (how, last))
    (enough : n ≤ budget.toNat) :
    ∃ count ending, Resumed (List.replicate count argument) c how ending ∧ ending.machine = last := by
  -- on the budget that is needed: every cut leaves less of it
  induction n using Nat.strongRecOn generalizing c with
  | ind n ih =>
    have ends := runEnd?_eq (c := c) asked
    rcases course_cut c.breakpoints true final free enough with
      same | ⟨ip, mid, rest, cut, onto, nearer⟩
    · rw [same] at ends
      refine ⟨1, _, .last ends final, ?_⟩
      rw [execute_run asked, same]
    · rw [cut] at ends
      have next := execute_run (c := c) asked
      rw [cut] at next
      have onward : course [] rest true (c.execute (.act .run argument)).2.machine =
          (how, last) := by
        rw [next]
        exact onto
      have room : rest ≤ budget.toNat := Nat.le_trans (Nat.le_of_lt nearer) enough
      obtain ⟨count, ending, resumed, same⟩ := ih rest nearer onward room
      exact ⟨count + 1, ending, .again ends resumed, same⟩

def withoutBreakpoints (c : Console) : Console := { c with breakpoints := [] }

/-- A run command that carries out so many instructions. -/
structure RunStops (c : Console) (budget done : Nat) (ending : Except Escape RunEnd)
    (last : Machine) : Prop
    extends EndsAfter c.breakpoints 1 budget c.machine done ending last where
  counted : last.cpu.steps = c.machine.cpu.steps + done
  /-- Only the first instruction can be that of a breakpoint. -/
  spared {j : Nat} {t : Machine} : 1 ≤ j → j < done → afterSteps j c.machine = some t →
    t.cpu.ip ∉ c.breakpoints
  progress {op : Opcode} {next : Machine} : 1 ≤ budget → starved c.machine = false →
    stepOnce c.machine = (.ran op, next) → 1 ≤ done

theorem runStops (asked : numberOr defaultBudget (given? argument) = .ok budget) :
    ∃ done how, c.runEnd? argument = some how ∧
      RunStops c budget.toNat done how (c.execute (.act .run argument)).2.machine := by
  obtain ⟨done, ends⟩ := endsAfter_course c.breakpoints budget.toNat true c.machine
  rw [execute_run asked]
  refine ⟨done, _, runEnd?_eq asked, ends, ends.counted, ?_, ?_⟩
  · intro j t late early reached stop
    have due : Due c.breakpoints 1 budget.toNat c.machine j := .inr ⟨t, reached, .breakpoint late stop⟩
    exact Nat.not_le_of_lt early (ends.least.2 due)
  · intro op next some fed ran
    have early : ¬ Due c.breakpoints 1 budget.toNat c.machine 0 := by
      obtain ⟨rest, same⟩ := Nat.exists_eq_add_of_le' some
      rw [same]
      exact not_due_zero (canStep_of_ran ran fed) ran fun now => absurd now (by decide)
    rcases Nat.eq_zero_or_pos done with rfl | positive
    · exact absurd ends.least.1 early
    · exact positive

/-- A run stops exactly where it should: when its budget is spent, when the machine has ended or is about
to fail, to break off or to wait, or, with an instruction behind it, at a breakpoint, whichever comes first.
Runs that are cut at breakpoints again and again come to where one run comes that heeds none. -/
theorem run_stops_where_due (c : Console) {argument : List Char} {budget : Int}
    (asked : numberOr defaultBudget (given? argument) = .ok budget) :
    (∃ done how, c.runEnd? argument = some how ∧
      RunStops c budget.toNat done how (c.execute (.act .run argument)).2.machine) ∧
    (∀ {arguments : List (List Char)} {how : Except Escape RunEnd} {ending : Console},
      Resumed arguments c how ending →
      ∃ enough : Nat, ∀ {argument : List Char} {budget : Int},
        numberOr defaultBudget (given? argument) = .ok budget → enough ≤ budget →
        c.withoutBreakpoints.runEnd? argument = some how ∧
          (c.withoutBreakpoints.execute (.act .run argument)).2.machine = ending.machine) ∧
    (∀ {how : Except Escape RunEnd}, c.withoutBreakpoints.runEnd? argument = some how →
      isFinal how = true →
      ∃ count ending, Resumed (List.replicate count argument) c how ending ∧
        ending.machine = (c.withoutBreakpoints.execute (.act .run argument)).2.machine) := by
  refine ⟨runStops asked, fun resumed => ?_, fun ends final => ?_⟩
  · obtain ⟨enough, same⟩ := resumed.free
    refine ⟨enough, fun {argument budget} asked more => ?_⟩
    have free : course c.withoutBreakpoints.breakpoints budget.toNat true
        c.withoutBreakpoints.machine = _ := same budget.toNat (by omega)
    rw [runEnd?_eq asked, execute_run asked, free]
    exact ⟨rfl, rfl⟩
  · rw [runEnd?_eq asked] at ends
    rw [execute_run asked]
    exact exists_resumed asked final (Prod.ext (Option.some.inj ends) rfl) (Nat.le_refl _)

/-- A loop that counts two down, with a breakpoint in it. -/
theorem run_stops_where_due_looping :
    let c := { Console.start (.ofWords [1001, 8, -1, 8, 1005, 8, 0, 99, 2] 0) [] none with
      breakpoints := [4] }
    let stopped := (c.withoutBreakpoints.execute (.act .run [])).2.machine
    (∃ done how, c.runEnd? [] = some how ∧
      RunStops c 10000000 done how (c.execute (.act .run [])).2.machine) ∧
    c.runEnd? [] = some (.ok (.breakpoint 4)) ∧ stopped.cpu.steps = 5 ∧
    ∃ count ending, Resumed (List.replicate count []) c (.ok .stopped) ending ∧
      ending.machine = stopped := by
  intro c stopped
  have asked : numberOr defaultBudget (given? []) = .ok 10000000 := rfl
  obtain ⟨runs, -, resumed⟩ := run_stops_where_due c asked
  exact ⟨runs, by decide +kernel, by decide +kernel, resumed (by decide +kernel) rfl⟩

/-- A value that is too long to be written ends a run that nothing else gives a reason to stop. -/
theorem run_of_long_output :
    let c := Console.start (.ofWords [104, Text.illegible, 99] 0) [] none
    let last := (c.execute (.act .run ['2'])).2.machine
    c.runEnd? ['2'] = some (.error .illegible) ∧ last.cpu.steps = 0 ∧ last.cpu.ip = 1 ∧
      ¬ ∀ (c : Console) (argument : List Char) (budget : Int),
        numberOr defaultBudget (given? argument) = .ok budget →
          let last := (c.execute (.act .run argument)).2.machine
          let done := last.cpu.steps - c.machine.cpu.steps
          done = budget.toNat ∨ last.cpu.halted = true ∨ last.cpu.fault.isSome = true ∨
            starved last = true ∨ 1 ≤ done ∧ last.cpu.ip ∈ c.breakpoints := by
  intro c last
  refine ⟨by decide +kernel, by decide +kernel, by decide +kernel, fun always => ?_⟩
  have reasons := always (.start (.ofWords [104, Text.illegible, 99] 0) [] none) ['2'] 2 rfl
  revert reasons
  decide +kernel

end Console

end IntcodeVM.Monitor
