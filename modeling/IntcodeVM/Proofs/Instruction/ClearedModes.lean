import IntcodeVM.Proofs.Disassembly.Decoding
import IntcodeVM.Proofs.Instruction.Traversal

namespace IntcodeVM.Instruction

variable {α ε : Type} {f : Nat → Except ε α} {word : Int} {i : Instruction Mode} {op : Opcode}
  {n k : Nat} {mode : Mode}

/-- A word with the digit for one mode set to zero. -/
def clearMode (word : Int) (index : Nat) : Int :=
  word - (modeDigit word.toNat index * Nat.pow 10 (index + 2) : Nat)

def clearModes (word : Int) (chosen : List Nat) : Int := chosen.foldl clearMode word

/-- The same instruction with a position for each of the chosen parameters. -/
def anchored (chosen : List Nat) (i : Instruction Mode) : Instruction Mode :=
  i.numbered.map fun (index, mode) => if index ∈ chosen then .position else mode

@[simp] theorem opcode_anchored (chosen : List Nat) (i : Instruction Mode) :
    (i.anchored chosen).opcode = i.opcode := by
  simp [anchored]

theorem toList_numbered (i : Instruction α) :
    i.numbered.toList = i.toList.zipIdx.map fun (a, index) => (index, a) := by
  cases i <;> rfl

theorem getElem?_numbered (i : Instruction α) (k : Nat) :
    i.numbered.toList[k]? = i.toList[k]?.map fun a => (k, a) := by
  rw [toList_numbered, List.getElem?_map, List.getElem?_zipIdx, Option.map_map]
  simp [Function.comp_def]

def withoutDigit (n place : Nat) : Nat :=
  10 ^ (place + 1) * (n / 10 ^ (place + 1)) + n % 10 ^ place

theorem split_at_digit (n place : Nat) :
    n = withoutDigit n place + n / 10 ^ place % 10 * 10 ^ place := by
  have low := Nat.div_add_mod n (10 ^ place)
  have high := Nat.div_add_mod (n / 10 ^ place) 10
  rw [Nat.div_div_eq_div_mul, ← Nat.pow_succ] at high
  calc n = 10 ^ place * (10 * (n / 10 ^ (place + 1)) + n / 10 ^ place % 10) + n % 10 ^ place := by
        rw [high, low]
    _ = _ := by
        rw [withoutDigit]
        ring

theorem clearMode_natCast (n k : Nat) : clearMode n k = (withoutDigit n (k + 2) : Int) := by
  have whole := split_at_digit n (k + 2)
  have digit : modeDigit n k = n / 10 ^ (k + 2) % 10 := rfl
  rw [clearMode, Int.toNat_natCast, digit, Nat.pow_eq]
  omega

/-- Every digit but the one that is cleared stays. -/
theorem digit_withoutDigit (n place other : Nat) :
    withoutDigit n place / 10 ^ other % 10 = if other = place then 0 else n / 10 ^ other % 10 := by
  have low : n % 10 ^ place < 10 ^ place := Nat.mod_lt _ (Nat.pow_pos (by decide))
  have higher : 10 ^ (place + 1) = 10 ^ place * 10 := Nat.pow_succ ..
  rcases Nat.lt_trichotomy other place with behind | rfl | front
  · -- the difference is a multiple of ten at the other place
    obtain ⟨e, rfl⟩ := Nat.exists_eq_add_of_lt behind
    have whole := split_at_digit n (other + e + 1)
    generalize n / 10 ^ (other + e + 1) % 10 = d at whole
    have multiple : d * 10 ^ (other + e + 1) = 10 ^ other * (10 * (d * 10 ^ e)) := by ring
    rw [multiple] at whole
    rw [if_neg (Nat.ne_of_lt behind)]
    conv => rhs; rw [whole]
    rw [Nat.add_mul_div_left _ _ (Nat.pow_pos (by decide)), Nat.add_mul_mod_self_left]
  · rw [if_pos rfl, withoutDigit, higher, Nat.mul_assoc, Nat.mul_add_div (Nat.pow_pos (by decide)),
      Nat.div_eq_of_lt low, Nat.add_zero, Nat.mul_mod_right]
  · obtain ⟨e, rfl⟩ := Nat.exists_eq_add_of_lt front
    have beyond : 10 ^ (place + e + 1) = 10 ^ (place + 1) * 10 ^ e := by ring
    have small : n % 10 ^ place < 10 ^ (place + 1) := by omega
    rw [if_neg (Nat.ne_of_gt front), withoutDigit, beyond, ← Nat.div_div_eq_div_mul,
      ← Nat.div_div_eq_div_mul, Nat.mul_add_div (Nat.pow_pos (by decide)), Nat.div_eq_of_lt small,
      Nat.add_zero]

theorem withoutDigit_mod_hundred (n k : Nat) : withoutDigit n (k + 2) % 100 = n % 100 := by
  have whole := split_at_digit n (k + 2)
  generalize n / 10 ^ (k + 2) % 10 = d at whole
  have multiple : d * 10 ^ (k + 2) = 100 * (d * 10 ^ k) := by ring
  rw [multiple] at whole
  conv => rhs; rw [whole]
  rw [Nat.add_mul_mod_self_left]

theorem exists_clearModes (n : Nat) (chosen : List Nat) :
    ∃ cleared : Nat, clearModes n chosen = cleared ∧ cleared % 100 = n % 100 ∧
      ∀ j, modeDigit cleared j = if j ∈ chosen then 0 else modeDigit n j := by
  induction chosen generalizing n with
  | nil => exact ⟨n, rfl, rfl, fun j => by simp⟩
  | cons k rest ih =>
    obtain ⟨cleared, same, code, digits⟩ := ih (withoutDigit n (k + 2))
    refine ⟨cleared, ?_, code.trans (withoutDigit_mod_hundred n k), ?_⟩
    · rw [clearModes, List.foldl_cons, clearMode_natCast]
      exact same
    · intro j
      have first : modeDigit (withoutDigit n (k + 2)) j = if j = k then 0 else modeDigit n j := by
        simpa [modeDigit] using digit_withoutDigit n (k + 2) (j + 2)
      rw [digits, first]
      by_cases later : j ∈ rest <;> by_cases here : j = k <;> simp [later, here]

theorem modeDigit_of_mapM (decoded : (ofOpcode op).mapM (modeOf n) = .ok i)
    (found : i.toList[k]? = some mode) : modeDigit n k = mode.digit := by
  have numbers : (ofOpcode op).toList = List.range op.paramCount := by cases op <;> rfl
  have each := forall₂_of_mapM decoded
  have inside : k < op.paramCount := by
    rw [← List.length_range (n := op.paramCount), ← numbers, each.length_eq]
    exact (List.getElem?_eq_some_iff.1 found).1
  have number : (ofOpcode op).toList[k]? = some k := by rw [numbers, List.getElem?_range inside]
  obtain ⟨other, same, read⟩ := getElem?_of_forall₂ each number
  cases found.symm.trans same
  exact modeOf_eq_ok_iff.1 read

theorem decode_clearModes (decoded : decode word = .ok i) (chosen : List Nat) :
    decode (clearModes word chosen) = .ok (i.anchored chosen) := by
  cases word with
  | negSucc n => cases decoded
  | ofNat n =>
    rw [decode] at decoded
    cases coded : Opcode.ofCode? (n % 100) with
    | none =>
      rw [coded] at decoded
      cases decoded
    | some op =>
      rw [coded] at decoded
      have code : i.opcode = op := (opcode_of_mapM decoded).trans (opcode_ofOpcode op)
      obtain ⟨cleared, same, hundreds, digits⟩ := exists_clearModes n chosen
      rw [Int.ofNat_eq_natCast, same, ← Int.ofNat_eq_natCast, decode, hundreds, coded]
      dsimp only
      rw [← code, ← opcode_anchored chosen i]
      apply mapM_ofOpcode
      intro k mode found
      rw [anchored, toList_map, List.getElem?_map, getElem?_numbered, Option.map_map,
        Option.map_eq_some_iff] at found
      obtain ⟨before, found, rfl⟩ := found
      rw [modeOf_eq_ok_iff, digits, modeDigit_of_mapM decoded found]
      dsimp only [Function.comp_apply]
      split <;> rfl

end IntcodeVM.Instruction
