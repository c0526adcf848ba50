import IntcodeVM.Proofs.Instruction.Parameters
import Mathlib.Data.List.Forall2

namespace IntcodeVM

variable {ε α β : Type} {f : α → Except ε β}

theorem mapM_eq_ok_iff {xs : List α} {ys : List β} :
    xs.mapM f = .ok ys ↔ List.Forall₂ (fun x y => f x = .ok y) xs ys := by
  induction xs generalizing ys with
  | nil =>
    constructor
    · intro h
      cases h
      exact .nil
    · intro h
      cases h
      rfl
  | cons x xs ih =>
    rw [List.mapM_cons]
    constructor
    · intro h
      obtain ⟨y, first, h⟩ := bind_eq_ok_iff.1 h
      obtain ⟨rest, others, same⟩ := bind_eq_ok_iff.1 h
      cases same
      exact .cons first (ih.1 others)
    · intro h
      cases h with
      | cons first others => simp [first, ih.2 others]

theorem getElem?_of_forall₂ {R : α → β → Prop} {xs : List α} {ys : List β} {k : Nat} {x : α}
    (h : List.Forall₂ R xs ys) (found : xs[k]? = some x) : ∃ y, ys[k]? = some y ∧ R x y := by
  induction h generalizing k with
  | nil => cases found
  | @cons a b _ _ first _ ih =>
    cases k with
    | zero =>
      cases found
      exact ⟨b, rfl, first⟩
    | succ k => exact ih found

theorem forall_exists_iff {R : α → β → Prop} {xs : List α} :
    (∃ ys, List.Forall₂ R xs ys) ↔ ∀ x ∈ xs, ∃ y, R x y := by
  induction xs with
  | nil => exact ⟨fun _ _ mem => (List.not_mem_nil mem).elim, fun _ => ⟨[], .nil⟩⟩
  | cons x xs ih =>
    rw [List.forall_mem_cons, ← ih]
    constructor
    · rintro ⟨_, each⟩
      cases each with
      | cons first others => exact ⟨⟨_, first⟩, _, others⟩
    · rintro ⟨⟨y, first⟩, ys, others⟩
      exact ⟨y :: ys, .cons first others⟩

theorem exists_forall₂ {γ : Type} {R : α → β → Prop} {S : α → γ → Prop} {T : β → γ → Prop}
    {xs : List α} {ys : List β} (h : List.Forall₂ R xs ys)
    (each : ∀ x y, R x y → ∃ z, S x z ∧ T y z) :
    ∃ zs, List.Forall₂ S xs zs ∧ List.Forall₂ T ys zs := by
  induction h with
  | nil => exact ⟨[], .nil, .nil⟩
  | cons first _ ih =>
    obtain ⟨z, left, right⟩ := each _ _ first
    obtain ⟨zs, lefts, rights⟩ := ih
    exact ⟨z :: zs, .cons left lefts, .cons right rights⟩

theorem Instruction.forall₂_of_mapM {i : Instruction α} {j : Instruction β}
    (h : i.mapM f = .ok j) : List.Forall₂ (fun a b => f a = .ok b) i.toList j.toList := by
  cases i with
  | halt =>
    cases h
    exact .nil
  | input _ | output _ | adjustBase _ =>
    obtain ⟨_, first, same⟩ := map_eq_ok_iff.1 h
    cases same
    exact .cons first .nil
  | jumpIfTrue _ _ | jumpIfFalse _ _ =>
    obtain ⟨_, first, h⟩ := bind_eq_ok_iff.1 h
    obtain ⟨_, second, same⟩ := map_eq_ok_iff.1 h
    cases same
    exact .cons first (.cons second .nil)
  | add _ _ _ | mul _ _ _ | lessThan _ _ _ | equals _ _ _ =>
    obtain ⟨_, first, h⟩ := bind_eq_ok_iff.1 h
    obtain ⟨_, second, h⟩ := bind_eq_ok_iff.1 h
    obtain ⟨_, third, same⟩ := map_eq_ok_iff.1 h
    cases same
    exact .cons first (.cons second (.cons third .nil))

theorem Instruction.exists_mapM {i : Instruction α} {ys : List β}
    (each : List.Forall₂ (fun a b => f a = .ok b) i.toList ys) :
    ∃ j, i.mapM f = .ok j ∧ j.opcode = i.opcode ∧ j.toList = ys := by
  cases i with
  | halt =>
    cases each
    exact ⟨.halt, rfl, rfl, rfl⟩
  | input _ | output _ | adjustBase _ =>
    obtain _ | ⟨first, each⟩ := each
    cases each
    simp only [mapM, first]
    exact ⟨_, rfl, rfl, rfl⟩
  | jumpIfTrue _ _ | jumpIfFalse _ _ =>
    obtain _ | ⟨first, each⟩ := each
    obtain _ | ⟨second, each⟩ := each
    cases each
    simp only [mapM, first, second]
    exact ⟨_, rfl, rfl, rfl⟩
  | add _ _ _ | mul _ _ _ | lessThan _ _ _ | equals _ _ _ =>
    obtain _ | ⟨first, each⟩ := each
    obtain _ | ⟨second, each⟩ := each
    obtain _ | ⟨third, each⟩ := each
    cases each
    simp only [mapM, first, second, third]
    exact ⟨_, rfl, rfl, rfl⟩

theorem Instruction.exists_mapM_iff {i : Instruction α} :
    (∃ j, i.mapM f = .ok j) ↔ ∀ a ∈ i.toList, ∃ b, f a = .ok b := by
  rw [← forall_exists_iff]
  constructor
  · rintro ⟨j, found⟩
    exact ⟨j.toList, forall₂_of_mapM found⟩
  · rintro ⟨ys, each⟩
    obtain ⟨j, found, -⟩ := exists_mapM each
    exact ⟨j, found⟩

end IntcodeVM
