import IntcodeVM.Machine
import IntcodeVM.Proofs.Assembly.LongNumbers
import IntcodeVM.Proofs.Disassembly.Decoding
import IntcodeVM.Proofs.Machine.OpcodeEffect

/-! Two decoders. A listing splits a word into an operation and its modes apart from the machine. Main
statement: it shows an instruction just where a machine decodes one that is inside memory and leaves no
digit of the word unread; it shows that instruction then, and tells how far a step goes that does not
jump. It is given up only for a number that is too long to be written. -/
namespace IntcodeVM

open Text (isLegible)

/-- These values stand in memory one after the other. -/
def Memory.Holds (m : Memory) (addr : Int) (values : List Int) : Prop :=
  ∀ (k : Nat) (value : Int), values[k]? = some value → m.read (addr + k) = .ok value

theorem Memory.Holds.of_prefix {m : Memory} {addr : Int} {values shorter : List Int}
    (holds : m.Holds addr values) (short : shorter <+: values) : m.Holds addr shorter := by
  obtain ⟨rest, rfl⟩ := short
  intro k value found
  have inside := (List.getElem?_eq_some_iff.1 found).1
  exact holds k value (by rw [List.getElem?_append_left inside, found])

theorem Memory.holds_cells (m : Memory) (addr count : Nat) (inside : addr + count ≤ m.size) :
    m.Holds addr ((List.range count).map fun k => m.cells[addr + k]?.getD 0) := by
  intro k value found
  have within : k < count := by simpa using (List.getElem?_eq_some_iff.1 found).1
  rw [List.getElem?_map, List.getElem?_range within] at found
  have cell : addr + k < m.cells.size := Nat.lt_of_lt_of_le (Nat.add_lt_add_left within addr) inside
  have place : ((addr : Int) + k).toNat = addr + k := by omega
  rw [Memory.read_eq_ok_iff, place, ← found]
  exact ⟨by omega, by simp [cell]⟩

namespace Instruction

theorem modes_numbered (i : Instruction Mode) (f : Nat → Int) :
    (i.numbered.map fun (index, mode) => (⟨mode, f index⟩ : Operand)).toList.map Operand.mode =
      i.toList := by
  cases i <;> rfl

theorem values_numbered (i : Instruction Mode) (f : Nat → Int) :
    (i.numbered.map fun (index, mode) => (⟨mode, f index⟩ : Operand)).toList.map Operand.value =
      (List.range i.opcode.paramCount).map f := by
  cases i <;> rfl

end Instruction

namespace Cpu

variable {cpu next : Cpu} {op : Opcode} {action : PortAction} {word : Int}

/-- A step that runs goes on behind the parameters of its instruction, or jumps. -/
theorem Acts.goes (acts : cpu.Acts op action next) (fetched : cpu.memory.read cpu.ip = .ok word) :
    ∃ effect, cpu.prepare word = .ok (op, effect) ∧
      (next.ip = cpu.following op ∨ effect = .jump next.ip) := by
  have prepared {op : Opcode} {effect : Effect} (intends : cpu.Intends op effect) :
      cpu.prepare word = .ok (op, effect) := by
    obtain ⟨-, found, read, prepared⟩ := intends
    cases fetched.symm.trans read
    exact prepared
  cases acts with
  | store h | fallThrough h | shift h | emit h | halt h => exact ⟨_, prepared h, .inl rfl⟩
  | jump h => exact ⟨_, prepared h, .inr rfl⟩
  | phase h | take _ h =>
    cases Opcode.eq_input_of_allows h.allows
    exact ⟨_, prepared h, .inl rfl⟩

end Cpu

namespace Disassembly

/-- What is told of the chunk at an address: its text and its size, unless a number that is written for
it is too long. -/
def told? (m : Memory) (addr : Int) : Option (List Char × Nat) :=
  if isLegibleAt m addr then some ((chunkAt m addr).text, (chunkAt m addr).size) else none

/-- The machine stands at a word that it decodes to this instruction, with all parameters inside memory
and no digit beyond the last mode. -/
structure Whole (m : Machine) (word : Int) (i : Instruction Mode) : Prop where
  decoded : m.decodeNext.1 = .ok i
  inside : m.cpu.ip + i.opcode.paramCount < m.cpu.memory.size
  spent : word / 10 ^ (i.opcode.paramCount + 2) = 0

/-- A listing and a machine agree on the word at the machine's pointer. -/
structure Agreement (m : Machine) (word : Int) : Prop where
  /-- The mnemonic, the modes and the words behind are those that the machine finds. -/
  code {i : Instruction Mode} : Whole m word i → ∃ operands : List Operand,
    operands.map Operand.mode = i.toList ∧
    m.cpu.memory.Holds (m.cpu.ip + 1) (operands.map Operand.value) ∧
    told? m.cpu.memory m.cpu.ip =
      if operands.all fun o => isLegible o.value then
        some (i.opcode.mnemonic.toList ++
          Text.glue ',' (operands.map fun o => ' ' :: (o.mode.mark ++ Text.decimal o.value)),
          i.opcode.paramCount + 1)
      else none
  /-- Some of the words behind are written before a word turns out to be data. -/
  data : (∀ i, ¬ Whole m word i) →
    let tried := triedParameters m.cpu.memory m.cpu.ip.toNat word
    m.cpu.memory.Holds (m.cpu.ip + 1) tried ∧
    told? m.cpu.memory m.cpu.ip =
      if isLegible word && tried.all isLegible then
        some (".data ".toList ++ Text.decimal word, 1)
      else none
  data_iff {text : List Char} {size : Nat} : told? m.cpu.memory m.cpu.ip = some (text, size) →
    (".data ".toList <+: text ↔ ∀ i, ¬ Whole m word i)
  goes {i : Instruction Mode} {σ : Type} {w : Wiring σ} {ports after : σ} {op : Opcode} {next : Cpu} :
    Whole m word i → m.cpu.step w ports = (.ran op, next, after) → op = i.opcode ∧
      (next.ip = m.cpu.ip + (i.opcode.paramCount + 1) ∨
        m.cpu.prepare word = .ok (op, .jump next.ip))

variable {m : Machine} {memory : Memory} {a : Nat} {word : Int} {i : Instruction Mode}

/-- What makes a chunk code: the word decodes, its parameters are inside, and it has no other digits. -/
def Fits (memory : Memory) (a : Nat) (word : Int) (i : Instruction Mode) : Prop :=
  Instruction.decode word = .ok i ∧ a + i.opcode.paramCount < memory.size ∧
    hasExcessDigits word i.opcode.paramCount = false

theorem whole_iff (here : m.cpu.memory.read m.cpu.ip = .ok word) (place : m.cpu.ip = a) :
    Whole m word i ↔ Fits m.cpu.memory a word i := by
  have decoded : m.decodeNext.1 = Instruction.decode word := by
    rw [Machine.decodeNext, here]
  have excess : hasExcessDigits word i.opcode.paramCount = false ↔
      word / 10 ^ (i.opcode.paramCount + 2) = 0 := by
    simp only [hasExcessDigits, ne_eq, decide_not, Bool.not_eq_false', decide_eq_true_eq]
    exact Iff.rfl
  constructor
  · rintro ⟨whole, inside, spent⟩
    exact ⟨decoded.symm.trans whole, by omega, excess.2 spent⟩
  · rintro ⟨whole, inside, spent⟩
    exact ⟨decoded.trans whole, by omega, excess.1 spent⟩

theorem chunkOf_of_fits (fits : Fits memory a word i) : chunkOf memory a word =
    .code (i.numbered.map fun (index, mode) => ⟨mode, memory.cells[a + 1 + index]?.getD 0⟩) := by
  obtain ⟨decoded, inside, excess⟩ := fits
  rw [chunkOf, decoded]
  simp only [inside, excess, decide_true, Bool.not_false, Bool.and_self, if_true]

theorem chunkOf_of_not_fits (unfit : ∀ i, ¬ Fits memory a word i) :
    chunkOf memory a word = .data word := by
  rw [chunkOf]
  split
  · rfl
  · rename_i i decoded
    dsimp only
    split
    · rename_i shown
      simp only [Bool.and_eq_true, decide_eq_true_eq, Bool.not_eq_true'] at shown
      exact absurd ⟨decoded, shown.1, shown.2⟩ (unfit i)
    · rfl

theorem told?_eq (found : memory.cells[a]? = some word) : told? memory a =
    if (triedParameters memory a word).all isLegible && (chunkOf memory a word).isLegible then
      some ((chunkOf memory a word).text, (chunkOf memory a word).size)
    else none := by
  have low : ¬ (a : Int) < 0 := by omega
  simp only [told?, isLegibleAt, chunkAt, if_neg low, Int.toNat_natCast, found]

theorem holds_triedParameters : memory.Holds (a + 1) (triedParameters memory a word) := by
  have empty : memory.Holds (a + 1) [] := by
    intro k value found
    cases found
  unfold triedParameters
  split
  · exact empty
  · split
    · exact empty
    · rename_i op coded
      split
      · rename_i inside
        have all := memory.holds_cells (a + 1) op.paramCount (by omega)
        exact all.of_prefix ((List.takeWhile_prefix _).map _)
      · exact empty

theorem told?_of_code {shown : Instruction Operand} (found : memory.cells[a]? = some word)
    (chunk : chunkOf memory a word = .code shown)
    (tried : triedParameters memory a word = shown.toList.map Operand.value) :
    told? memory a =
      if shown.toList.all fun o => isLegible o.value then
        some (shown.text, shown.opcode.paramCount + 1) else none := by
  have written : (triedParameters memory a word).all isLegible =
      shown.toList.all fun o => isLegible o.value := by
    rw [tried, List.all_map]
    rfl
  have legible : (Chunk.code shown).isLegible = shown.toList.all fun o => isLegible o.value := rfl
  rw [told?_eq found, written, chunk, legible, Bool.and_self]
  rfl

theorem told?_of_fits (found : memory.cells[a]? = some word) (fits : Fits memory a word i) :
    ∃ operands : List Operand, operands.map Operand.mode = i.toList ∧
      memory.Holds (a + 1) (operands.map Operand.value) ∧
      told? memory a =
        if operands.all fun o => isLegible o.value then
          some (i.opcode.mnemonic.toList ++
            Text.glue ',' (operands.map fun o => ' ' :: (o.mode.mark ++ Text.decimal o.value)),
            i.opcode.paramCount + 1)
        else none := by
  let cell (index : Nat) : Int := memory.cells[a + 1 + index]?.getD 0
  let shown : Instruction Operand := i.numbered.map fun (index, mode) => ⟨mode, cell index⟩
  have chunk : chunkOf memory a word = .code shown := chunkOf_of_fits fits
  obtain ⟨decoded, inside, excess⟩ := fits
  have tried : triedParameters memory a word = shown.toList.map Operand.value := by
    rw [← headWord_of_decode decoded excess, triedParameters_headWord inside]
    exact (Instruction.values_numbered i cell).symm
  have operation : shown.opcode = i.opcode := by
    simp only [shown, Instruction.opcode_map, Instruction.opcode_numbered]
  refine ⟨shown.toList, Instruction.modes_numbered i cell, tried ▸ holds_triedParameters, ?_⟩
  rw [told?_of_code found chunk tried, Instruction.text, operation]
  rfl

theorem told?_of_not_fits (found : memory.cells[a]? = some word)
    (unfit : ∀ i, ¬ Fits memory a word i) :
    told? memory a = if isLegible word && (triedParameters memory a word).all isLegible then
      some (".data ".toList ++ Text.decimal word, 1) else none := by
  rw [told?_eq found, chunkOf_of_not_fits unfit, Bool.and_comm]
  rfl

theorem not_data_of_mnemonic (op : Opcode) (rest : List Char) :
    ¬ ".data ".toList <+: op.mnemonic.toList ++ rest := by
  cases op <;> simp [Opcode.mnemonic]

/-- A listing and a machine agree on every word of memory, whatever the machine is like otherwise. -/
theorem decoders_agree (m : Machine) (word : Int)
    (here : m.cpu.memory.read m.cpu.ip = .ok word) : Agreement m word := by
  obtain ⟨low, found⟩ := Memory.read_eq_ok_iff.1 here
  obtain ⟨a, place⟩ := Int.eq_ofNat_of_zero_le low
  rw [place, Int.toNat_natCast] at found
  have code {i : Instruction Mode} (whole : Whole m word i) :=
    told?_of_fits found ((whole_iff here place).1 whole)
  have data (unread : ∀ i, ¬ Whole m word i) :=
    told?_of_not_fits found fun i fits => unread i ((whole_iff here place).2 fits)
  rw [← place] at code data
  refine ⟨code, fun unread => ?_, ?_, ?_⟩
  · rw [place] at data ⊢
    exact ⟨holds_triedParameters, data unread⟩
  · intro text size shown
    by_cases whole : ∃ i, Whole m word i
    · obtain ⟨i, whole⟩ := whole
      obtain ⟨operands, -, -, told⟩ := code whole
      rw [told] at shown
      split at shown
      · cases shown
        have other := not_data_of_mnemonic i.opcode
        exact ⟨fun looks => absurd looks (other _), fun unread => absurd whole (unread i)⟩
      · cases shown
    · have unread : ∀ i, ¬ Whole m word i := not_exists.1 whole
      rw [data unread] at shown
      split at shown
      · cases shown
        exact ⟨fun _ => unread, fun _ => List.prefix_append _ _⟩
      · cases shown
  · intro i σ w ports after op next whole stepped
    obtain ⟨action, acts, -⟩ := Cpu.step_ran_iff.1 stepped
    obtain ⟨effect, prepared, ends⟩ := acts.goes here
    obtain ⟨decoded, -, head, -, -, rfl⟩ := Cpu.prepare_eq_ok_iff.1 prepared
    cases head.symm.trans ((whole_iff here place).1 whole).1
    refine ⟨rfl, ?_⟩
    rcases ends with behind | rfl
    · left
      rw [behind, Cpu.following]
      omega
    · exact .inr prepared

/-- A word with three modes, and one with a digit too many for its only one. -/
theorem decoders_agree_digits :
    let m : Machine :=
      ⟨{ memory := .ofWords [21002, 4, 3, 4, 1104] 0 }, .ofList [], .collector {}⟩
    let later : Machine := { m with cpu := { m.cpu with ip := 4 } }
    (m.cpu.memory.read m.cpu.ip = .ok 21002 ∧ Agreement m 21002 ∧
      told? m.cpu.memory 0 = some ("mul 4, #3, @4".toList, 4)) ∧
    later.cpu.memory.read later.cpu.ip = .ok 1104 ∧ Agreement later 1104 ∧
      told? later.cpu.memory 4 = some (".data 1104".toList, 1) := by
  intro m later
  have here : m.cpu.memory.read m.cpu.ip = .ok 21002 := by decide +kernel
  have there : later.cpu.memory.read later.cpu.ip = .ok 1104 := by decide +kernel
  refine ⟨⟨here, decoders_agree m 21002 here, ?_⟩, there, decoders_agree later 1104 there, ?_⟩
  · decide +kernel
  · decide +kernel

/-- A machine decodes an output whose parameter is too long to be written, and nothing is told of it. -/
theorem decoded_and_given_up :
    let m : Machine :=
      ⟨{ memory := .ofWords [4, 16 ^ 3600] 0 }, .ofList [], .collector {}⟩
    Whole m 4 (.output .position) ∧ told? m.cpu.memory m.cpu.ip = none := by
  intro m
  have here : m.cpu.memory.read m.cpu.ip = .ok 4 := rfl
  have fits : Fits m.cpu.memory 0 4 (.output .position) := ⟨rfl, Nat.lt_succ_self 1, rfl⟩
  refine ⟨(whole_iff here rfl).2 fits, ?_⟩
  have legible : isLegibleAt m.cpu.memory 0 = false := by
    have written := @isLegibleAt_around [] [] (.output ⟨.position, 16 ^ 3600⟩) 0
    simp only [Instruction.toList, List.all_cons, Assembly.not_isLegible_hexPower (Nat.le_refl 3600),
      Bool.false_and] at written
    exact written
  rw [told?, show m.cpu.ip = 0 from rfl, legible]
  rfl

end Disassembly

end IntcodeVM
