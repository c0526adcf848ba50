import IntcodeVM.Instruction
import IntcodeVM.Proofs.Attempt
import Mathlib.Data.List.Basic

namespace IntcodeVM.Instruction

variable {α β ε : Type}

theorem opcode_of_mapM {f : α → Except ε β} {i : Instruction α} {j : Instruction β}
    (h : i.mapM f = .ok j) : j.opcode = i.opcode := by
  cases i with
  | halt =>
    cases h
    rfl
  | input _ | output _ | adjustBase _ =>
    obtain ⟨_, _, same⟩ := map_eq_ok_iff.1 h
    cases same
    rfl
  | jumpIfTrue _ _ | jumpIfFalse _ _ =>
    obtain ⟨_, _, h⟩ := bind_eq_ok_iff.1 h
    obtain ⟨_, _, same⟩ := map_eq_ok_iff.1 h
    cases same
    rfl
  | add _ _ _ | mul _ _ _ | lessThan _ _ _ | equals _ _ _ =>
    obtain ⟨_, _, h⟩ := bind_eq_ok_iff.1 h
    obtain ⟨_, _, h⟩ := bind_eq_ok_iff.1 h
    obtain ⟨_, _, same⟩ := map_eq_ok_iff.1 h
    cases same
    rfl

theorem mapM_map {f : β → Except ε α} {g : α → β} {i : Instruction α}
    (back : ∀ a ∈ i.toList, f (g a) = .ok a) : (i.map g).mapM f = .ok i := by
  cases i <;> simp_all [Instruction.map, Instruction.mapM, Instruction.toList]

theorem modeOf_eq_ok_iff {n index : Nat} {mode : Mode} :
    modeOf n index = .ok mode ↔ modeDigit n index = mode.digit := by
  rw [← Mode.ofDigit?_eq_some_iff, modeOf]
  cases Mode.ofDigit? (modeDigit n index) with
  | none => simp
  | some found => simp

theorem isSome_ofList?_iff {op : Opcode} {ps : List α} :
    (ofList? op ps).isSome ↔ ps.length = op.paramCount := by
  constructor
  · intro some
    obtain ⟨i, listed⟩ := Option.isSome_iff_exists.1 some
    obtain ⟨rfl, rfl⟩ := ofList?_eq_some_iff.1 listed
    exact length_toList i
  · intro many
    cases op with
    | add | mul | lessThan | equals =>
      obtain ⟨a, b, c, rfl⟩ := List.length_eq_three.1 many
      rfl
    | jumpIfTrue | jumpIfFalse =>
      obtain ⟨a, b, rfl⟩ := List.length_eq_two.1 many
      rfl
    | input | output | adjustBase =>
      obtain ⟨a, rfl⟩ := List.length_eq_one_iff.1 many
      rfl
    | halt =>
      cases List.length_eq_zero_iff.1 many
      rfl

end IntcodeVM.Instruction
