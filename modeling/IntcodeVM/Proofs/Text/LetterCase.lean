import IntcodeVM.Proofs.Text.Blanks
import IntcodeVM.Text.Lowercase

namespace IntcodeVM.Text

def SameLetters (text other : List Char) : Prop :=
  text.map Char.toLower = other.map Char.toLower

variable {α : Type} {c sep : Char} {text other front back word tail gap : List Char}

/-- What does not tell a capital from its small letter does not depend on case. -/
theorem toLower_of_capitals {f : Char → α}
    (capitals : ∀ k < 26, f (Char.ofNat (65 + k)).toLower = f (Char.ofNat (65 + k))) (c : Char) :
    f c.toLower = f c := by
  by_cases upper : 65 ≤ c.toNat ∧ c.toNat ≤ 90
  · have same : c = Char.ofNat (65 + (c.toNat - 65)) := by
      rw [Nat.add_sub_cancel' upper.1, Char.ofNat_toNat]
    rw [same]
    exact capitals (c.toNat - 65) (by omega)
  · have small : c.toLower = c := by
      have outside : ¬ (c.val ≥ 'A'.val ∧ c.val ≤ 'Z'.val) := by
        simp only [ge_iff_le, UInt32.le_iff_toNat_le]
        exact upper
      exact dif_neg outside
    rw [small]

theorem isBlank_toLower (c : Char) : isBlank c.toLower = isBlank c :=
  toLower_of_capitals (by decide +kernel) c

theorem toLower_eq_iff (other : ∀ k < 26, ((Char.ofNat (65 + k)).toLower == sep) =
    (Char.ofNat (65 + k) == sep)) : c.toLower = sep ↔ c = sep := by
  have same : (c.toLower == sep) = (c == sep) := toLower_of_capitals (f := (· == sep)) other c
  rw [← beq_iff_eq, same, beq_iff_eq]

theorem meetsCased_map_toLower (text : List Char) :
    meetsCased (text.map Char.toLower) = meetsCased text := by
  have ignorable : isCaseIgnorable ∘ Char.toLower = isCaseIgnorable :=
    funext (toLower_of_capitals (by decide +kernel))
  have cased : isCased ∘ Char.toLower = isCased := funext (toLower_of_capitals (by decide +kernel))
  rw [meetsCased, meetsCased, List.dropWhile_map, ignorable, List.head?_map, Option.map_map, cased]

theorem lowercaseFrom_map_toLower (past text : List Char) :
    lowercaseFrom (past.map Char.toLower) (text.map Char.toLower) = lowercaseFrom past text := by
  induction text generalizing past with
  | nil => rfl
  | cons c rest ih =>
    have sigma : c.toLower = 'Σ' ↔ c = 'Σ' := toLower_eq_iff (by decide +kernel)
    have dotted : c.toLower = 'İ' ↔ c = 'İ' := toLower_eq_iff (by decide +kernel)
    have plain : lowerCharacter c.toLower = lowerCharacter c :=
      toLower_of_capitals (by decide +kernel) c
    have later := ih (c :: past)
    rw [List.map_cons] at later
    rw [List.map_cons, lowercaseFrom, lowercaseFrom, later, plain, isFinalSigma, isFinalSigma,
      meetsCased_map_toLower, meetsCased_map_toLower]
    simp only [sigma, dotted]

theorem SameLetters.lowercase_eq (same : SameLetters text other) : lowercase text = lowercase other := by
  have first := lowercaseFrom_map_toLower [] text
  have second := lowercaseFrom_map_toLower [] other
  rw [same] at first
  exact first.symm.trans second

theorem mem_lowercase (mem : c ∈ text) (sigma : c ≠ 'Σ') (dotted : c ≠ 'İ') :
    lowerCharacter c ∈ lowercase text := by
  have anywhere (past : List Char) : lowerCharacter c ∈ lowercaseFrom past text := by
    induction text generalizing past with
    | nil => cases mem
    | cons d rest ih =>
      rw [lowercaseFrom]
      rcases List.mem_cons.1 mem with rfl | later
      · simp [sigma, dotted]
      · exact List.mem_append_right _ (ih later (d :: past))
  exact anywhere []

theorem strip_map_toLower (text : List Char) :
    strip (text.map Char.toLower) = (strip text).map Char.toLower := by
  have blank : isBlank ∘ Char.toLower = isBlank := funext isBlank_toLower
  rw [strip, strip, dropRightWhile, dropRightWhile, List.dropWhile_map, blank, ← List.map_reverse,
    List.dropWhile_map, blank, List.map_reverse]

theorem SameLetters.split (same : SameLetters text (front ++ sep :: back))
    (other : ∀ k < 26, ((Char.ofNat (65 + k)).toLower == sep) = (Char.ofNat (65 + k) == sep)) :
    ∃ first rest, text = first ++ sep :: rest ∧ SameLetters first front := by
  have fixed : sep.toLower = sep := (toLower_eq_iff other).2 rfl
  rw [SameLetters, List.map_append, List.map_cons, fixed] at same
  obtain ⟨first, rest, rfl, before, behind⟩ := List.map_eq_append_iff.1 same
  obtain ⟨c, rest, rfl, at', -⟩ := List.map_eq_cons_iff.1 behind
  cases (toLower_eq_iff other).1 at'
  exact ⟨first, rest, rfl, before⟩

theorem SameLetters.forall_iff {p : Char → Bool} (same : SameLetters text other)
    (capitals : ∀ k < 26, p (Char.ofNat (65 + k)).toLower = p (Char.ofNat (65 + k))) :
    (∀ c ∈ text, p c = true) ↔ ∀ c ∈ other, p c = true := by
  have lower (text : List Char) :
      (∀ c ∈ text.map Char.toLower, p c = true) ↔ ∀ c ∈ text, p c = true := by
    simp only [List.forall_mem_map, toLower_of_capitals capitals]
  rw [← lower text, same, lower other]

end IntcodeVM.Text
