import IntcodeVM.Proofs.Disassembly.Overrun
import Mathlib.Data.List.Induction
import Mathlib.Data.List.TakeWhile
import Mathlib.Tactic.Ring

namespace IntcodeVM

open Text (isLegible)

theorem Mode.digit_le (mode : Mode) : mode.digit ≤ 2 := by
  cases mode <;> decide

theorem Opcode.code_lt (op : Opcode) : op.code < 100 := by
  cases op <;> decide

namespace Instruction

variable {ε α : Type} {op : Opcode} {modes : List Mode} {mode : Mode} {k : Nat}

theorem headWord_concat (op : Opcode) (modes : List Mode) (mode : Mode) :
    headWord op (modes ++ [mode]) = headWord op modes + mode.digit * 10 ^ (modes.length + 2) := by
  simp [headWord, List.zipIdx_append, List.foldl_append]

theorem headWord_lt (op : Opcode) (modes : List Mode) :
    headWord op modes < 10 ^ (modes.length + 2) := by
  induction modes using List.reverseRecOn with
  | nil => exact op.code_lt
  | append_singleton modes mode ih =>
    have digit := Nat.mul_le_mul_right (10 ^ (modes.length + 2)) mode.digit_le
    have tenfold : 10 ^ ((modes ++ [mode]).length + 2) = 10 ^ (modes.length + 2) * 10 := by
      rw [List.length_append, List.length_singleton, Nat.add_right_comm, Nat.pow_succ]
    rw [headWord_concat, tenfold]
    omega

theorem headWord_mod (op : Opcode) (modes : List Mode) : headWord op modes % 100 = op.code := by
  induction modes using List.reverseRecOn with
  | nil => exact Nat.mod_eq_of_lt op.code_lt
  | append_singleton modes mode ih =>
    have hundreds : mode.digit * 10 ^ (modes.length + 2) =
        100 * (mode.digit * 10 ^ modes.length) := by ring
    rw [headWord_concat, hundreds, Nat.add_mul_mod_self_left, ih]

theorem modeDigit_headWord (found : modes[k]? = some mode) :
    modeDigit (headWord op modes) k = mode.digit := by
  induction modes using List.reverseRecOn with
  | nil => cases found
  | append_singleton modes last ih =>
    rw [modeDigit, Nat.pow_eq, headWord_concat]
    by_cases inside : k < modes.length
    · -- the new digit is in front of the one that is looked at
      rw [List.getElem?_append_left inside] at found
      have digit := ih found
      rw [modeDigit, Nat.pow_eq] at digit
      obtain ⟨more, length⟩ := Nat.exists_eq_add_of_lt inside
      have shifted : last.digit * 10 ^ (modes.length + 2) =
          10 ^ (k + 2) * (10 * (last.digit * 10 ^ more)) := by
        rw [length, show k + more + 1 + 2 = k + 2 + 1 + more by omega, Nat.pow_add, Nat.pow_succ]
        ring
      rw [shifted, Nat.add_mul_div_left _ _ (Nat.pow_pos (by decide)), Nat.add_mul_mod_self_left,
        digit]
    · have here : k = modes.length := by
        have bound := (List.getElem?_eq_some_iff.1 found).1
        rw [List.length_append, List.length_singleton] at bound
        omega
      subst here
      have same : last = mode := by simpa using found
      have digit := mode.digit_le
      rw [same, Nat.add_mul_div_right _ _ (Nat.pow_pos (by decide)),
        Nat.div_eq_of_lt (headWord_lt op modes)]
      omega

theorem mapM_ofOpcode {f : Nat → Except ε α} {i : Instruction α}
    (each : ∀ k a, i.toList[k]? = some a → f k = .ok a) : (ofOpcode i.opcode).mapM f = .ok i := by
  cases i with
  | halt => rfl
  | input a | output a | adjustBase a => simp [opcode, ofOpcode, mapM, each 0 a rfl]
  | jumpIfTrue a b | jumpIfFalse a b =>
    simp [opcode, ofOpcode, mapM, each 0 a rfl, each 1 b rfl]
  | add a b c | mul a b c | lessThan a b c | equals a b c =>
    simp [opcode, ofOpcode, mapM, each 0 a rfl, each 1 b rfl, each 2 c rfl]

theorem map_numbered_value {i : Instruction Operand} {f : Nat → Int}
    (each : ∀ k o, i.toList[k]? = some o → f k = o.value) :
    (i.map Operand.mode).numbered.map (fun (index, mode) => (⟨mode, f index⟩ : Operand)) = i := by
  cases i with
  | halt => rfl
  | input a | output a | adjustBase a => simp [map, numbered, each 0 a rfl]
  | jumpIfTrue a b | jumpIfFalse a b => simp [map, numbered, each 0 a rfl, each 1 b rfl]
  | add a b c | mul a b c | lessThan a b c | equals a b c =>
    simp [map, numbered, each 0 a rfl, each 1 b rfl, each 2 c rfl]

theorem modeOf_headWord (found : modes[k]? = some mode) :
    modeOf (headWord op modes) k = .ok mode :=
  modeOf_eq_ok_iff.2 (modeDigit_headWord found)

theorem decode_headWord (i : Instruction Mode) :
    decode (headWord i.opcode i.toList : Nat) = .ok i := by
  rw [← Int.ofNat_eq_natCast, decode, Opcode.ofCode?_eq_some_iff.2 (headWord_mod i.opcode i.toList)]
  exact mapM_ofOpcode fun k mode found => modeOf_headWord found

theorem length_words (i : Instruction Operand) : i.words.length = i.opcode.paramCount + 1 := by
  simp [words]

end Instruction

namespace Disassembly

open Instruction

variable {before rest : List Int} {i : Instruction Operand} {scratch : Nat}

/-- Memory with the words of an instruction in it. -/
def around (before : List Int) (i : Instruction Operand) (rest : List Int) (scratch : Nat) :
    Memory :=
  .ofWords (before ++ (i.words ++ rest)) scratch

theorem size_around : (around before i rest scratch).size =
    before.length + (i.opcode.paramCount + 1 + rest.length) + scratch := by
  simp [around, length_words]

theorem cells_around {k : Nat} {o : Operand} (found : i.toList[k]? = some o) :
    (around before i rest scratch).cells[before.length + 1 + k]?.getD 0 = o.value := by
  obtain ⟨inside, rfl⟩ := List.getElem?_eq_some_iff.1 found
  have counted : k < i.opcode.paramCount := by simpa using inside
  have behind : before.length + 1 + k - before.length = k + 1 := by omega
  rw [around, cells_ofWords, List.getElem?_append_right (by omega), behind]
  simp [words, List.getElem?_append, counted]

theorem hasExcessDigits_headWord (i : Instruction Mode) :
    hasExcessDigits (headWord i.opcode i.toList : Nat) i.opcode.paramCount = false := by
  have small := headWord_lt i.opcode i.toList
  rw [length_toList] at small
  rw [hasExcessDigits, Text.pow_ten, Nat.pow_eq, ← Int.natCast_ediv, Nat.div_eq_of_lt small]
  rfl

theorem chunkOf_around : chunkOf (around before i rest scratch) before.length
    (headWord i.opcode (i.toList.map Operand.mode) : Nat) = .code i := by
  have decoded := decode_headWord (i.map Operand.mode)
  rw [opcode_map, toList_map] at decoded
  have excess := hasExcessDigits_headWord (i.map Operand.mode)
  rw [opcode_map, toList_map] at excess
  have fits : before.length + i.opcode.paramCount < (around before i rest scratch).size := by
    rw [size_around]
    omega
  rw [chunkOf, decoded]
  simp only [opcode_map, fits, excess, decide_true, Bool.not_false, Bool.and_self, if_true]
  exact congrArg Chunk.code (map_numbered_value fun k o found => cells_around found)

theorem triedParameters_headWord {m : Memory} {addr : Nat} {i : Instruction Mode}
    (fits : addr + i.opcode.paramCount < m.size) :
    triedParameters m addr (headWord i.opcode i.toList : Nat) =
      (List.range i.opcode.paramCount).map fun index => m.cells[addr + 1 + index]?.getD 0 := by
  have known : ∀ index ∈ List.range i.opcode.paramCount,
      (Mode.ofDigit? (modeDigit (headWord i.opcode i.toList) index)).isSome = true := by
    intro index mem
    have inside : index < i.toList.length := by simpa using List.mem_range.1 mem
    have found := List.getElem?_eq_getElem inside
    rw [Mode.ofDigit?_eq_some_iff.2 (modeDigit_headWord found)]
    rfl
  rw [← Int.ofNat_eq_natCast, triedParameters, Opcode.ofCode?_eq_some_iff.2 (headWord_mod _ _)]
  simp only [fits, if_true, List.takeWhile_eq_self_iff.2 known]

theorem triedParameters_around : triedParameters (around before i rest scratch) before.length
    (headWord i.opcode (i.toList.map Operand.mode) : Nat) = i.toList.map Operand.value := by
  have fits : before.length + (i.map Operand.mode).opcode.paramCount <
      (around before i rest scratch).size := by
    rw [opcode_map, size_around]
    omega
  have tried := triedParameters_headWord fits
  rw [opcode_map, toList_map] at tried
  rw [tried]
  apply List.ext_getElem
  · simp
  · intro k first second
    have inside : k < i.toList.length := by simpa using second
    have cell : (around before i rest scratch).cells[before.length + 1 + k]?.getD 0 =
        i.toList[k].value := cells_around (List.getElem?_eq_getElem inside)
    simpa using cell

theorem found_around : (around before i rest scratch).cells[before.length]? =
    some ((headWord i.opcode (i.toList.map Operand.mode) : Nat) : Int) := by
  simp [around, Memory.ofWords, Array.getElem?_append, words]

theorem chunkAt_around : chunkAt (around before i rest scratch) before.length = .code i := by
  have low : ¬ (before.length : Int) < 0 := by omega
  rw [chunkAt, if_neg low, Int.toNat_natCast, found_around]
  exact chunkOf_around

theorem isLegibleAt_around : isLegibleAt (around before i rest scratch) before.length =
    i.toList.all fun o => isLegible o.value := by
  have low : ¬ (before.length : Int) < 0 := by omega
  rw [isLegibleAt, if_neg low, Int.toNat_natCast, found_around]
  simp only [triedParameters_around, chunkOf_around, Chunk.isLegible, List.all_map]
  exact Bool.and_self _

/-- Instructions with the addresses that they have one after the other. -/
def entriesFrom (address : Nat) : List (Instruction Operand) → List (Nat × Instruction Operand)
  | [] => []
  | i :: rest => (address, i) :: entriesFrom (address + i.words.length) rest

/-- A sweep over instructions never loses its step, and is given up only for a number in them. -/
theorem sweep_code (scratch : Nat) (instructions : List (Instruction Operand)) (before : List Int) :
    let words := before ++ instructions.flatMap Instruction.words
    let entries := entriesFrom before.length instructions
    sweep (.ofWords words scratch) words.length none before.length =
        (entries.map fun (address, i) => ((address : Int), .code i)) ∧
      ∀ entry ∈ entries, isLegibleAt (.ofWords words scratch) entry.1 =
        entry.2.toList.all fun o => isLegible o.value := by
  induction instructions generalizing before with
  | nil =>
    intro words entries
    refine ⟨?_, by simp [entries, entriesFrom]⟩
    rw [sweep, if_neg (by simp [words])]
    rfl
  | cons i rest ih =>
    intro words entries
    have next : words = (before ++ i.words) ++ rest.flatMap Instruction.words := by
      simp [words]
    have length : (before ++ i.words).length = before.length + i.words.length :=
      List.length_append
    obtain ⟨swept, legible⟩ := ih (before ++ i.words)
    rw [← next, length] at swept legible
    have chunk : chunkAt (.ofWords words scratch) before.length = .code i := chunkAt_around
    have longer : before.length < words.length := by
      rw [next, List.length_append, length, i.length_words]
      omega
    have go : (before.length : Int) < words.length := Int.ofNat_lt.2 longer
    have size : ((before.length : Int) + (Chunk.code i).size) =
        ((before.length + i.words.length : Nat) : Int) := by
      rw [length_words]
      rfl
    constructor
    · rw [sweep, if_pos ⟨go, by simp⟩, chunk]
      dsimp only
      rw [size, Option.map_none, swept]
      rfl
    · intro entry mem
      rcases List.mem_cons.1 mem with rfl | mem
      · exact isLegibleAt_around
      · exact legible entry mem

end Disassembly

end IntcodeVM
