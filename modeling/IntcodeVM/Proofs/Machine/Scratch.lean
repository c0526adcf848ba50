import IntcodeVM.Machine
import IntcodeVM.Proofs.Instruction.Parameters
import IntcodeVM.Proofs.Machine.OpcodeEffect
import IntcodeVM.Proofs.Machine.Walk

namespace IntcodeVM

def Snag.isAddressing : Snag → Bool
  | cause c => c.family = .addressing
  | untold _ => false

/-- A bad address, whether there are words for it or not. -/
def Stop.isAddressing : Stop → Bool
  | fault f => f.cause.family = .addressing
  | unworded snag => snag.isAddressing
  | _ => false

theorem Snag.isAddressing_stop (snag : Snag) (ip : Option Int) :
    (snag.stop ip).isAddressing = snag.isAddressing := by
  rcases snag.cases ip with ⟨cause, rfl, -, -, -, stop⟩ | ⟨-, -, stop⟩
  · rw [stop]
    rfl
  · rw [stop]
    rfl

namespace Memory

variable {m : Memory} {addr value : Int} {i : Nat}

/-- More zero cells behind the others. -/
def padded (m : Memory) (more : Nat) : Memory where
  cells := m.cells ++ Array.replicate more 0
  programSize := m.programSize
  programSize_le := by
    have := m.programSize_le
    rw [Array.size_append]
    omega

theorem toList_padded (m : Memory) (more : Nat) :
    (m.padded more).toList = m.toList ++ List.replicate more 0 := by
  simp [toList, padded]

theorem size_padded (m : Memory) (more : Nat) : (m.padded more).size = m.size + more := by
  simp [size, padded]

theorem padded_ofWords (words : List Int) (scratch more : Nat) :
    (ofWords words scratch).padded more = ofWords words (scratch + more) := by
  apply ext
  · simp [padded, ofWords, Array.append_assoc]
  · rfl

theorem read_padded (more : Nat) (inside : m.read addr = .ok value) :
    (m.padded more).read addr = .ok value := by
  obtain ⟨low, found⟩ := read_eq_ok_iff.1 inside
  have lt := (Array.getElem?_eq_some_iff.1 found).1
  refine read_eq_ok_iff.2 ⟨low, ?_⟩
  rw [padded, Array.getElem?_append_left lt, found]

theorem family_of_read {cause : Cause} (h : m.read addr = .error cause) :
    cause.family = .addressing := by
  unfold read at h
  split at h
  · cases h
    rfl
  · split at h
    · cases h
    · cases h
      rfl

theorem family_of_index {cause : Cause} (h : m.index addr = .error cause) :
    cause.family = .addressing := by
  unfold index at h
  split at h
  · cases h
    rfl
  · split at h
    · cases h
      rfl
    · cases h

theorem index_padded (more : Nat) (inside : m.index addr = .ok i) :
    (m.padded more).index addr = .ok i := by
  obtain ⟨same, lt⟩ := index_eq_ok_iff.1 inside
  refine index_eq_ok_iff.2 ⟨same, ?_⟩
  rw [size_padded]
  exact Nat.lt_add_right more lt

theorem put_padded (more : Nat) (inside : i < m.size) (value : Int) :
    (m.padded more).put i value = (m.put i value).padded more := by
  have lt : i < m.cells.size := inside
  apply ext
  · simp [put, padded, Array.setIfInBounds_append_left, lt]
  · rfl

end Memory

/-- The second attempt answers as the first one does, unless the first goes wrong over an address. -/
def Firm {α : Type} (small large : Except Cause α) : Prop :=
  (∃ cause, small = .error cause ∧ cause.family = .addressing) ∨ large = small

namespace Firm

variable {α β : Type} {small large : Except Cause α} {f g : α → Except Cause β}

theorem refl (x : Except Cause α) : Firm x x := .inr rfl

theorem of_ok {a : α} (firm : Firm small large) (h : small = .ok a) : large = .ok a := by
  rcases firm with ⟨cause, failed, -⟩ | same
  · cases h.symm.trans failed
  · exact same.trans h

theorem of_error {cause : Cause} (firm : Firm small large) (h : small = .error cause)
    (inner : cause.family ≠ .addressing) : large = .error cause := by
  rcases firm with ⟨other, failed, outside⟩ | same
  · cases h.symm.trans failed
    exact absurd outside inner
  · exact same.trans h

theorem bind (first : Firm small large) (then' : ∀ a, Firm (f a) (g a)) :
    Firm (small >>= f) (large >>= g) := by
  rcases first with ⟨cause, rfl, outside⟩ | rfl
  · exact .inl ⟨cause, rfl, outside⟩
  · cases large with
    | error cause => exact .inr rfl
    | ok a => exact then' a

theorem map (first : Firm small large) (f : α → β) : Firm (f <$> small) (f <$> large) := by
  rcases first with ⟨cause, rfl, outside⟩ | rfl
  · exact .inl ⟨cause, rfl, outside⟩
  · exact .refl _

theorem mapM (each : ∀ a, Firm (f a) (g a)) (i : Instruction α) : Firm (i.mapM f) (i.mapM g) := by
  cases i with
  | halt => exact .refl _
  | input a | output a | adjustBase a => exact map (each a) _
  | jumpIfTrue a b | jumpIfFalse a b => exact bind (each a) fun _ => map (each b) _
  | add a b c | mul a b c | lessThan a b c | equals a b c =>
    exact bind (each a) fun _ => bind (each b) fun _ => map (each c) _

theorem read (m : Memory) (more : Nat) (addr : Int) :
    Firm (m.read addr) ((m.padded more).read addr) := by
  cases h : m.read addr with
  | ok value => exact .inr (Memory.read_padded more h)
  | error cause => exact .inl ⟨cause, rfl, Memory.family_of_read h⟩

theorem index (m : Memory) (more : Nat) (addr : Int) :
    Firm (m.index addr) ((m.padded more).index addr) := by
  cases h : m.index addr with
  | ok i => exact .inr (Memory.index_padded more h)
  | error cause => exact .inl ⟨cause, rfl, Memory.family_of_index h⟩

theorem operandAddress (m : Memory) (more : Nat) (base slot : Int) (place : Nat) (mode : Mode) :
    Firm (Cpu.operandAddress m base slot place mode)
      (Cpu.operandAddress (m.padded more) base slot place mode) := by
  cases mode with
  | position => exact bind (read m more slot) fun _ => .refl _
  | immediate => exact .refl _
  | relative => exact bind (map (read m more slot) _) fun _ => .refl _

theorem locate (m : Memory) (more : Nat) (base first : Int) (i : Instruction Mode) :
    Firm (Cpu.locate m base first i) (Cpu.locate (m.padded more) base first i) :=
  mapM (fun _ => operandAddress m more base _ _ _) i.numbered

theorem effect (m : Memory) (more : Nat) (i : Instruction Int) :
    Firm (i.effect m) (i.effect (m.padded more)) := by
  cases i with
  | halt | input _ => exact .refl _
  | output a | adjustBase a => exact map (read m more a) _
  | jumpIfTrue a b | jumpIfFalse a b =>
    apply bind (read m more a)
    intro cond
    split
    · exact map (read m more b) _
    · exact .refl _
  | add a b c | mul a b c | lessThan a b c | equals a b c =>
    exact bind (read m more a) fun _ => bind (read m more b) fun _ => map (index m more c) _

end Firm

namespace Cpu

variable {σ : Type} {w : Wiring σ} {cpu next met : Cpu} {op : Opcode} {effect : Effect}
  {action : PortAction} {ports after : σ} {snag : Snag} {wordRead : Bool}

/-- The same machine with more zero cells behind its memory. -/
def padded (cpu : Cpu) (more : Nat) : Cpu := { cpu with memory := cpu.memory.padded more }

theorem firm_prepare (cpu : Cpu) (more : Nat) (word : Int) :
    Firm (cpu.prepare word) ((cpu.padded more).prepare word) := by
  apply Firm.bind (.refl _)
  intro decoded
  apply Firm.bind (.locate cpu.memory more cpu.base (cpu.ip + 1) decoded)
  intro located
  exact .map (.effect cpu.memory more located) _

theorem Intends.padded (intends : cpu.Intends op effect) (more : Nat) :
    (cpu.padded more).Intends op effect := by
  obtain ⟨live, word, fetched, prepared⟩ := intends
  exact ⟨live, word, Memory.read_padded more fetched, (firm_prepare cpu more word).of_ok prepared⟩

theorem Intends.lt_size {cell : Nat} {value : Int} (intends : cpu.Intends op (.store cell value)) :
    cell < cpu.memory.size := by
  obtain ⟨_, word, _, prepared⟩ := intends
  obtain ⟨_, located, _, _, evaluated, _⟩ := prepare_eq_ok_iff.1 prepared
  obtain ⟨dst, -, index⟩ := Instruction.index_of_store evaluated
  exact (Memory.index_eq_ok_iff.1 index).2

theorem Acts.padded (acts : cpu.Acts op action next) (more : Nat) :
    (cpu.padded more).Acts op action (next.padded more) := by
  have put {cell : Nat} (inside : cell < cpu.memory.size) (value : Int) :=
    Memory.put_padded more inside value
  cases acts with
  | jump h => exact .jump (h.padded more)
  | fallThrough h => exact .fallThrough (h.padded more)
  | shift h => exact .shift (h.padded more)
  | emit h => exact .emit (h.padded more)
  | halt h => exact .halt (h.padded more)
  | @store op cell value h =>
    have acts := Acts.store (h.padded more)
    rwa [Cpu.padded, put h.lt_size] at acts
  | @phase op dst value cell h primed inside =>
    have acts := Acts.phase (h.padded more) primed (Memory.index_padded more inside)
    rwa [Cpu.padded, put (Memory.index_eq_ok_iff.1 inside).2] at acts
  | @take op dst cell value h unprimed inside =>
    have acts := Acts.take value (h.padded more) unprimed (Memory.index_padded more inside)
    rwa [Cpu.padded, put (Memory.index_eq_ok_iff.1 inside).2] at acts

theorem Fails.padded (fails : Fails w cpu ports snag wordRead met after)
    (inner : snag.isAddressing = false) (more : Nat) :
    Fails w (cpu.padded more) ports snag wordRead (met.padded more) after := by
  have inner {cause : Cause} (same : snag = .cause cause) : cause.family ≠ .addressing := by
    simpa [same, Snag.isAddressing] using inner
  cases fails with
  | fetch _ unread => exact absurd (Memory.family_of_read unread) (inner rfl)
  | lostPhase _ _ outside | lostInput _ _ outside =>
    exact absurd (Memory.family_of_index outside) (inner rfl)
  | prepare live fetched unprepared =>
    exact .prepare live (Memory.read_padded more fetched)
      ((firm_prepare cpu more _).of_error unprepared (inner rfl))
  | noInput h unprimed refused => exact .noInput (h.padded more) unprimed refused
  | noOutput h refused => exact .noOutput (h.padded more) refused
  | untold h pushed untold => exact .untold (h.padded more) pushed untold

/-- A step that meets no bad address is the same step with more scratch. -/
theorem matched_padded (w : Wiring σ) (more : Nat) :
    Matched w w (fun cpu ports peer there => peer = cpu.padded more ∧ there = ports)
      fun stop => stop.isAddressing where
  halted := by
    rintro cpu peer ports there ⟨rfl, rfl⟩
    rfl
  step := by
    rintro cpu next peer ports after there outcome ⟨rfl, rfl⟩ stepped spared
    cases stepped_of_step stepped with
    | @refused r refused =>
      have refused' : (cpu.padded more).refusal? = some r := refused
      exact ⟨_, _, step_of_refusal refused' _, rfl, rfl⟩
    | waits waits =>
      obtain ⟨op, dst, intends, unprimed, pulled⟩ := waits
      exact ⟨_, _, step_of_waits ⟨op, dst, intends.padded more, unprimed, pulled⟩, rfl, rfl⟩
    | acts acts answered => exact ⟨_, _, step_of_acts (acts.padded more) answered, rfl, rfl⟩
    | @fails snag _ _ _ fails =>
      have inner : snag.isAddressing = false := by
        simpa [snag.isAddressing_stop] using spared _ rfl
      exact ⟨_, _, step_of_fails (fails.padded inner more), rfl, rfl⟩

/-- With more scratch a machine goes through the same states, as long as it meets no bad address: what
it is and what its ports are is the same after each of so many steps, but for the zeros at the end of
memory. So a run that stops for anything else stops in the same way. -/
theorem scratch_unneeded (w : Wiring σ) (name : String) (words : List Int) (phase : Option Int)
    (ports : σ) {scratch larger : Nat} (more : scratch ≤ larger) :
    let small : Cpu := { name, memory := .ofWords words scratch, phase }
    let large : Cpu := { name, memory := .ofWords words larger, phase }
    (∀ n, (∀ stop, .stopped stop ∈ (walk w n small ports).1 → stop.isAddressing = false) →
      ∀ j ≤ n, ∃ outcomes cpu memory here, walk w j small ports = (outcomes, cpu, here) ∧
        walk w j large ports = (outcomes, { cpu with memory }, here) ∧
        memory.toList = cpu.memory.toList ++ List.replicate (larger - scratch) 0 ∧
        memory.programSize = cpu.memory.programSize) ∧
    ∀ allowance limit answer cpu here,
      small.runLimited w allowance limit ports = (answer, cpu, here) →
      (∀ stop, answer = .error stop → stop.isAddressing = false) →
      ∃ memory, large.runLimited w allowance limit ports = (answer, { cpu with memory }, here) ∧
        memory.toList = cpu.memory.toList ++ List.replicate (larger - scratch) 0 := by
  intro small large
  have enlarged : large = small.padded (larger - scratch) := by
    show large = { small with memory := small.memory.padded (larger - scratch) }
    rw [Memory.padded_ofWords, Nat.add_sub_cancel' more]
  have matched := matched_padded w (larger - scratch)
  constructor
  · intro n inside j within
    obtain ⟨rest, rfl⟩ := Nat.exists_eq_add_of_le within
    rcases walked : walk w j small ports with ⟨outcomes, cpu, here⟩
    have spared : ∀ stop, .stopped stop ∈ outcomes → ¬ stop.isAddressing := by
      intro stop occurred
      rw [walk_add, walked] at inside
      rw [inside stop (List.mem_append_left _ occurred)]
      exact Bool.false_ne_true
    obtain ⟨_, _, same, rfl, rfl⟩ := matched.walk ⟨enlarged, rfl⟩ walked spared
    exact ⟨outcomes, cpu, _, _, rfl, same, Memory.toList_padded _ _, rfl⟩
  · intro allowance limit answer cpu here ran inside
    have spared : ∀ stop, answer = .error stop → ¬ stop.isAddressing := fun stop stopped => by
      rw [inside stop stopped]
      exact Bool.false_ne_true
    cases limit with
    | none =>
      obtain ⟨_, _, same, rfl, rfl⟩ := matched.run ⟨enlarged, rfl⟩ ran spared
      exact ⟨_, same, Memory.toList_padded _ _⟩
    | some limit =>
      obtain ⟨_, _, same, rfl, rfl⟩ := matched.runFor ⟨enlarged, rfl⟩ ran spared
      exact ⟨_, same, Memory.toList_padded _ _⟩

/-- A program that reads a value, and then one that is not there: it faults at its input port, with two
more cells as without them. -/
theorem scratch_unneeded_starved :
    let small : Cpu := { memory := .ofWords [3, 5, 3, 4, 99, 0] 0 }
    let large : Cpu := { memory := .ofWords [3, 5, 3, 4, 99, 0] 2 }
    let ports : Machine.Ports := (.ofList [7], .collector {})
    (∃ outcomes cpu memory here, walk Machine.wiring 3 small ports = (outcomes, cpu, here) ∧
      walk Machine.wiring 3 large ports = (outcomes, { cpu with memory }, here) ∧
      memory.toList = cpu.memory.toList ++ [0, 0] ∧
      memory.programSize = cpu.memory.programSize) ∧
    (walk Machine.wiring 3 small ports).2.1.fault = some ⟨.sourceTerminated "", some 2⟩ ∧
    ∃ memory, large.runLimited Machine.wiring 3 none ports =
      ((small.runLimited Machine.wiring 3 none ports).1,
        { (small.runLimited Machine.wiring 3 none ports).2.1 with memory },
        (small.runLimited Machine.wiring 3 none ports).2.2) ∧
      memory.toList = (small.runLimited Machine.wiring 3 none ports).2.1.memory.toList ++ [0, 0] := by
  intro small large ports
  have starved : (walk Machine.wiring 3 small ports).2.1.fault =
      some ⟨.sourceTerminated "", some 2⟩ := by decide +kernel
  have stopped : (small.runLimited Machine.wiring 3 none ports).1 =
      .error (.fault ⟨.sourceTerminated "", some 2⟩) := by decide +kernel
  have unneeded := scratch_unneeded Machine.wiring "intcode" [3, 5, 3, 4, 99, 0] none ports
    (Nat.zero_le 2)
  refine ⟨unneeded.1 3 (fun stop met => ?_) 3 (Nat.le_refl 3), starved,
    unneeded.2 3 none _ _ _ rfl fun stop met => ?_⟩
  · have walked : (walk Machine.wiring 3 small ports).1 = [.ran .input,
      .stopped (.fault ⟨.sourceTerminated "", some 2⟩),
      .stopped (.refused (.aborted "intcode" ⟨.sourceTerminated "", some 2⟩))] := by
      decide +kernel
    rw [walked] at met
    simp only [List.mem_cons, List.not_mem_nil, Outcome.stopped.injEq, reduceCtorEq, or_false,
      false_or] at met
    rcases met with rfl | rfl
    · rfl
    · rfl
  · cases stopped.symm.trans met
    rfl

end Cpu

end IntcodeVM
