import IntcodeVM.Proofs.Machine.FaultFrame
import IntcodeVM.Proofs.Machine.FiniteInput
import IntcodeVM.Proofs.Machine.LimitedRuns

/-! Trials of a noun and a verb. A trial is the run of a fresh machine on a memory that is the given one
but for the two cells that take the numbers; the result is what the machine leaves in a third cell. Main
statement: a trial that comes to an end leaves a value or fails, and which one hangs on nothing but the
memory and the two numbers. -/
namespace IntcodeVM

namespace Memory

variable {m n : Memory} {addr value : Int} {i : Nat}

theorem eq_of_read (size : n.size = m.size) (programSize : n.programSize = m.programSize)
    (reads : ∀ addr, n.read addr = m.read addr) : n = m := by
  refine Memory.ext (Array.ext size fun i here there => ?_) programSize
  have low : ¬ (i : Int) < 0 := by omega
  simpa [read, low, here, there] using reads i

theorem write_of_inside (inside : i < m.size) (value : Int) : m.write i value = .ok (m.put i value) := by
  rw [write, index_eq_ok_iff.2 ⟨rfl, inside⟩]

theorem write_of_beyond (beyond : m.size ≤ i) (value : Int) :
    m.write i value = .error (.outOfBounds i m.size) := by
  have outside : m.index i = .error (.outOfBounds i m.size) :=
    (index_eq_error_iff (Int.natCast_nonneg i)).2 ⟨Int.ofNat_le.2 beyond, rfl⟩
  rw [write, outside]

theorem inside_of_read (found : m.read i = .ok value) : i < m.size := by
  obtain ⟨-, cell⟩ := read_eq_ok_iff.1 found
  exact (Array.getElem?_eq_some_iff.1 cell).1

theorem exists_read (inside : i < m.size) : ∃ value, m.read i = .ok value :=
  ⟨m.cells[i], read_eq_ok_iff.2 ⟨Int.natCast_nonneg i, Array.getElem?_eq_getElem inside⟩⟩

end Memory

namespace Machine

variable {m last : Machine} {allowance larger : Nat} {limit : Option Int} {answer : Except Stop Nat}

theorem size_of_run (ran : m.run allowance limit = (answer, last)) :
    last.cpu.memory.size = m.cpu.memory.size := by
  have walked := Call.walk_outcomes wiring (.run allowance limit) m.cpu (m.input, m.output)
  rw [Call.perform, run_eq_iff.1 ran] at walked
  exact (Cpu.progress_of_walk wiring_shows trivial walked).size

theorem run_mono (ran : m.run allowance none = (answer, last)) (ended : answer ≠ .error .unfinished)
    (more : allowance ≤ larger) : m.run larger none = (answer, last) := by
  have short : m.cpu.run wiring allowance (m.input, m.output) =
      (answer, last.cpu, last.input, last.output) := run_eq_iff.1 ran
  refine run_eq_iff.2 ((Cpu.run_mono ?_ more).trans short)
  rwa [short]

end Machine

namespace Batch

/-- A memory with the noun and the verb in their cells, and like the given one everywhere else. -/
structure Patch (memory : Memory) (noun verb : Int) (start : Memory) : Prop where
  size : start.size = memory.size
  programSize : start.programSize = memory.programSize
  noun : start.read nounAddress = .ok noun
  verb : start.read verbAddress = .ok verb
  others {addr : Int} : addr ≠ nounAddress → addr ≠ verbAddress →
    start.read addr = memory.read addr

/-- What the trial of a noun and a verb comes to: memory has no cells for them, or a fresh machine
without inputs runs on the patched memory, and halts or fails, with a fault if there are words for it. -/
inductive Trial (memory : Memory) (noun verb : Int) : Except Stop Int → Prop
  | nounless : memory.size ≤ 1 →
      Trial memory noun verb (.error (.fault ⟨.outOfBounds nounAddress memory.size, none⟩))
  | verbless : memory.size = 2 →
      Trial memory noun verb (.error (.fault ⟨.outOfBounds verbAddress memory.size, none⟩))
  | halted {start : Memory} {allowance count : Nat} {last : Machine} {value : Int} :
      Patch memory noun verb start →
      (machine start [] none).run allowance none = (.ok count, last) →
      last.cpu.memory.read resultAddress = .ok value → Trial memory noun verb (.ok value)
  | failed {start : Memory} {allowance : Nat} {last : Machine} {cause : Cause} {ip : Option Int} :
      Patch memory noun verb start →
      (machine start [] none).run allowance none = (.error ((Snag.cause cause).stop ip), last) →
      Trial memory noun verb (.error ((Snag.cause cause).stop ip))

variable {memory start other : Memory} {noun verb : Int} {allowance larger : Nat} {stop : Stop}
  {last : Machine} {outcome : Except Stop Int}

theorem Patch.unique (one : Patch memory noun verb start) (two : Patch memory noun verb other) :
    start = other := by
  refine Memory.eq_of_read (one.size.trans two.size.symm)
    (one.programSize.trans two.programSize.symm) fun addr => ?_
  by_cases atNoun : addr = nounAddress
  · rw [atNoun, one.noun, two.noun]
  · by_cases atVerb : addr = verbAddress
    · rw [atVerb, one.verb, two.verb]
    · rw [one.others atNoun atVerb, two.others atNoun atVerb]

theorem Patch.inside (patch : Patch memory noun verb start) : 2 < memory.size :=
  patch.size ▸ Memory.inside_of_read patch.verb

theorem patch_put (inside : 2 < memory.size) (noun verb : Int) :
    Patch memory noun verb ((memory.put 1 noun).put 2 verb) where
  size := by simp
  programSize := rfl
  noun := by
    rw [Memory.read_put (by simpa using inside), Memory.read_put (by omega)]
    rfl
  verb := by
    rw [Memory.read_put (by simpa using inside)]
    rfl
  others atNoun atVerb := by
    rw [Memory.read_put (by simpa using inside), Memory.read_put (by omega)]
    exact (if_neg atVerb).trans (if_neg atNoun)

theorem patched_of_patch (patch : Patch memory noun verb start) (allowance : Nat) :
    patched allowance memory noun verb =
      match (machine start [] none).run allowance none with
      | (.error stop, _) => .error stop
      | (.ok _, last) => outside (last.cpu.memory.read resultAddress) := by
  have inside := patch.inside
  have first : memory.write nounAddress noun = .ok (memory.put 1 noun) :=
    Memory.write_of_inside (i := 1) (by omega) noun
  have second : (memory.put 1 noun).write verbAddress verb = .ok ((memory.put 1 noun).put 2 verb) :=
    Memory.write_of_inside (by simpa using inside) verb
  rw [patch.unique (patch_put inside noun verb), patched, first, outside, mapError_ok, ok_bind, second,
    outside, mapError_ok, ok_bind]
  rfl

theorem patched_nounless (small : memory.size ≤ 1) (allowance : Nat) :
    patched allowance memory noun verb =
      .error (.fault ⟨.outOfBounds nounAddress memory.size, none⟩) := by
  have refused : memory.write nounAddress noun = .error (.outOfBounds nounAddress memory.size) :=
    Memory.write_of_beyond small noun
  have legible : (Cause.outOfBounds nounAddress memory.size).isLegible = true := by
    rw [Cause.isLegible]
    decide +kernel
  rw [patched, refused, outside, mapError_error, error_bind, Snag.stop_cause legible]

theorem patched_verbless (small : memory.size = 2) (allowance : Nat) :
    patched allowance memory noun verb =
      .error (.fault ⟨.outOfBounds verbAddress memory.size, none⟩) := by
  have first : memory.write nounAddress noun = .ok (memory.put 1 noun) :=
    Memory.write_of_inside (i := 1) (by omega) noun
  have refused : (memory.put 1 noun).write verbAddress verb =
      .error (.outOfBounds verbAddress (memory.put 1 noun).size) :=
    Memory.write_of_beyond (by simp [small]) verb
  have legible : (Cause.outOfBounds verbAddress (memory.put 1 noun).size).isLegible = true := by
    rw [Cause.isLegible]
    decide +kernel
  rw [patched, first, outside, mapError_ok, ok_bind, refused, outside, mapError_error, error_bind,
    Snag.stop_cause legible, Memory.size_put]

theorem cause_of_run {values : List Int} {phase : Option Int}
    (ran : (machine memory values phase).run allowance none = (.error stop, last))
    (ended : stop ≠ .unfinished) : ∃ cause ip, stop = (Snag.cause cause).stop ip := by
  obtain ⟨actions, next, rest, -, -, came⟩ := outputs_came allowance memory values phase
  rw [outputs, ran] at came
  cases came with
  | spent => exact absurd rfl ended
  | failed _ _ _ _ same => exact ⟨_, _, same⟩

theorem trial_of_patched (ended : patched allowance memory noun verb ≠ .error .unfinished) :
    Trial memory noun verb (patched allowance memory noun verb) := by
  rcases Nat.lt_trichotomy memory.size 2 with small | small | inside
  · rw [patched_nounless (Nat.le_of_lt_succ small)]
    exact .nounless (Nat.le_of_lt_succ small)
  · rw [patched_verbless small]
    exact .verbless small
  · have patch := patch_put inside noun verb
    rw [patched_of_patch patch] at ended ⊢
    rcases ran : (machine ((memory.put 1 noun).put 2 verb) [] none).run allowance none
      with ⟨answer, last⟩
    rw [ran] at ended
    cases answer with
    | error stop =>
      obtain ⟨cause, ip, rfl⟩ := cause_of_run ran fun same => ended (congrArg Except.error same)
      exact .failed patch ran
    | ok count =>
      have size : last.cpu.memory.size = memory.size := (Machine.size_of_run ran).trans patch.size
      obtain ⟨value, left⟩ := Memory.exists_read (m := last.cpu.memory) (i := 0) (by omega)
      have trial := Trial.halted patch ran left
      rwa [← show outside (last.cpu.memory.read resultAddress) = .ok value from
        congrArg outside left] at trial

/-- What a trial comes to is answered with every allowance that is large enough. -/
theorem Trial.patched (trial : Trial memory noun verb outcome) :
    ∃ enough, ∀ allowance, enough ≤ allowance →
      Batch.patched allowance memory noun verb = outcome := by
  cases trial with
  | nounless small => exact ⟨0, fun allowance _ => patched_nounless small allowance⟩
  | verbless small => exact ⟨0, fun allowance _ => patched_verbless small allowance⟩
  | @halted _ enough _ _ _ patch ran left =>
    refine ⟨enough, fun allowance more => ?_⟩
    rw [patched_of_patch patch, Machine.run_mono ran nofun more]
    exact congrArg outside left
  | @failed _ enough _ cause ip patch ran =>
    refine ⟨enough, fun allowance more => ?_⟩
    have ended := (Snag.cause cause).stop_ne_unfinished ip
    rw [patched_of_patch patch, Machine.run_mono ran (fun same => ended (Except.error.inj same)) more]

theorem Trial.unique {one two : Except Stop Int} (first : Trial memory noun verb one)
    (second : Trial memory noun verb two) : one = two := by
  obtain ⟨enough, answered⟩ := first.patched
  obtain ⟨enough', answered'⟩ := second.patched
  rw [← answered (max enough enough') (Nat.le_max_left _ _), answered' _ (Nat.le_max_right _ _)]

end Batch

end IntcodeVM
