import IntcodeVM.Amplifier.Search
import Mathlib.Data.List.Lex
import Mathlib.Data.List.FinRange

namespace IntcodeVM.Amplifier

variable {α β : Type} {list others ordering : List α} {a : α} {n : Nat}

/-- The orders of a list as orders of its positions, each once, the earlier positions first. -/
def ByPosition (list : List α) (listed : List (List α)) : Prop :=
  ∃ orders : List (List (Fin list.length)), orders.Pairwise (· < ·) ∧
    (∀ order, order ∈ orders ↔ order.Perm (List.finRange list.length)) ∧
    listed = orders.map (List.map list.get)

theorem perm_of_mem_selections (mem : (a, others) ∈ selections list) :
    (a :: others).Perm list := by
  induction list generalizing others with
  | nil => cases mem
  | cons first rest ih =>
    rw [selections, List.mem_cons, List.mem_map] at mem
    rcases mem with here | ⟨⟨b, left⟩, later, same⟩
    · cases here
      exact .refl _
    · cases same
      exact (List.Perm.swap first a left).trans ((ih later).cons first)

theorem exists_selection (mem : a ∈ list) : ∃ others, (a, others) ∈ selections list := by
  induction list with
  | nil => cases mem
  | cons first rest ih =>
    rw [selections]
    rcases List.mem_cons.1 mem with rfl | later
    · exact ⟨rest, List.mem_cons_self⟩
    · obtain ⟨others, found⟩ := ih later
      exact ⟨first :: others, List.mem_cons_of_mem _ (List.mem_map_of_mem found)⟩

theorem mem_orderingsOf_iff (count : n = list.length) :
    ordering ∈ orderingsOf n list ↔ ordering.Perm list := by
  induction n generalizing list ordering with
  | zero =>
    cases List.eq_nil_of_length_eq_zero count.symm
    simp [orderingsOf]
  | succ n ih =>
    have shorter : ∀ {a : α} {others : List α}, (a, others) ∈ selections list →
        n = others.length := by
      intro a others mem
      have same := (perm_of_mem_selections mem).length_eq
      rw [List.length_cons] at same
      omega
    simp only [orderingsOf, List.mem_flatMap, List.mem_map]
    constructor
    · rintro ⟨⟨a, others⟩, chosen, order, ordered, rfl⟩
      have rest : order.Perm others := (ih (shorter chosen)).1 ordered
      exact (rest.cons a).trans (perm_of_mem_selections chosen)
    · intro perm
      cases ordering with
      | nil =>
        have none : list.length = 0 := perm.length_eq.symm
        omega
      | cons a order =>
        obtain ⟨others, chosen⟩ := exists_selection (perm.subset List.mem_cons_self)
        have rest : order.Perm others :=
          (perm.trans (perm_of_mem_selections chosen).symm).cons_inv
        exact ⟨(a, others), chosen, order, (ih (shorter chosen)).2 rest, rfl⟩

theorem mem_orderings_iff : ordering ∈ orderings list ↔ ordering.Perm list :=
  mem_orderingsOf_iff rfl

theorem selections_map (f : α → β) (list : List α) :
    selections (list.map f) = (selections list).map (Prod.map f (List.map f)) := by
  induction list with
  | nil => rfl
  | cons first rest ih =>
    rw [List.map_cons, selections, selections, ih, List.map_cons, List.map_map, List.map_map]
    rfl

theorem orderingsOf_map (f : α → β) (n : Nat) (list : List α) :
    orderingsOf n (list.map f) = (orderingsOf n list).map (List.map f) := by
  induction n generalizing list with
  | zero => rfl
  | succ n ih =>
    rw [orderingsOf, orderingsOf, selections_map, List.flatMap_map, List.map_flatMap]
    congr 1
    funext ⟨a, others⟩
    simp only [Prod.map, ih, List.map_map]
    rfl

theorem orderings_map (f : α → β) (list : List α) :
    orderings (list.map f) = (orderings list).map (List.map f) := by
  rw [orderings, List.length_map, orderingsOf_map, orderings]

section Ascending

variable {k : Nat} {places : List (Fin k)}

theorem pairwise_selections (ascending : places.Pairwise (· < ·)) :
    (selections places).Pairwise (fun one other => one.1 < other.1) ∧
      ∀ chosen ∈ selections places, chosen.2.Pairwise (· < ·) := by
  induction places with
  | nil => exact ⟨.nil, by simp [selections]⟩
  | cons first rest ih =>
    obtain ⟨behind, later⟩ := List.pairwise_cons.1 ascending
    obtain ⟨choices, lefts⟩ := ih later
    rw [selections]
    constructor
    · refine List.pairwise_cons.2 ⟨?_, List.pairwise_map.2 choices⟩
      intro chosen mem
      obtain ⟨⟨a, others⟩, found, rfl⟩ := List.mem_map.1 mem
      exact behind a ((perm_of_mem_selections found).subset List.mem_cons_self)
    · intro chosen mem
      rcases List.mem_cons.1 mem with rfl | mem
      · exact later
      · obtain ⟨⟨a, others⟩, found, rfl⟩ := List.mem_map.1 mem
        refine List.pairwise_cons.2 ⟨?_, lefts _ found⟩
        intro b left
        exact behind b ((perm_of_mem_selections found).subset (List.mem_cons_of_mem a left))

theorem pairwise_orderingsOf (ascending : places.Pairwise (· < ·)) :
    (orderingsOf n places).Pairwise (· < ·) := by
  induction n generalizing places with
  | zero => exact List.pairwise_singleton _ _
  | succ n ih =>
    obtain ⟨choices, lefts⟩ := pairwise_selections ascending
    rw [orderingsOf, List.pairwise_flatMap]
    constructor
    · rintro ⟨a, others⟩ chosen
      refine List.pairwise_map.2 ((ih (lefts _ chosen)).imp ?_)
      intro one other less
      exact List.Lex.cons less
    · -- different first positions decide at once
      refine choices.imp ?_
      rintro ⟨a, others⟩ ⟨b, more⟩ less one memOne other memOther
      obtain ⟨order, -, rfl⟩ := List.mem_map.1 memOne
      obtain ⟨order', -, rfl⟩ := List.mem_map.1 memOther
      exact List.Lex.rel less

end Ascending

theorem byPosition_orderings (list : List α) : ByPosition list (orderings list) := by
  refine ⟨orderings (List.finRange list.length), ?_, fun order => mem_orderings_iff, ?_⟩
  · exact pairwise_orderingsOf (List.pairwise_lt_finRange _)
  · rw [← orderings_map, ← List.ofFn_eq_map, List.ofFn_get]

end IntcodeVM.Amplifier
