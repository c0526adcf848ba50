import IntcodeVM.Assembly.Source

namespace IntcodeVM.Assembly

open Text

variable {c : Char} {name : List Char}

theorem isAlpha_iff :
    c.isAlpha = true ↔ (65 ≤ c.toNat ∧ c.toNat ≤ 90) ∨ (97 ≤ c.toNat ∧ c.toNat ≤ 122) := by
  show (decide (65 ≤ c.val ∧ c.val ≤ 90) || (decide (97 ≤ c.val) && decide (c.val ≤ 122))) = true ↔ _
  simp only [Bool.or_eq_true, Bool.and_eq_true, decide_eq_true_eq, UInt32.le_iff_toNat_le]
  rfl

theorem code_of_name_character (h : (c.isAlphanum || c == '_' || c == '.') = true) :
    (48 ≤ c.toNat ∧ c.toNat ≤ 57) ∨ (65 ≤ c.toNat ∧ c.toNat ≤ 90) ∨
      (97 ≤ c.toNat ∧ c.toNat ≤ 122) ∨ c.toNat = 95 ∨ c.toNat = 46 := by
  simp only [Char.isAlphanum, isAlpha_iff, Char.isDigit, Bool.or_eq_true, Bool.and_eq_true,
    decide_eq_true_eq, beq_iff_eq, UInt32.le_iff_toNat_le, ge_iff_le] at h
  change ((((65 ≤ c.toNat ∧ c.toNat ≤ 90) ∨ (97 ≤ c.toNat ∧ c.toNat ≤ 122)) ∨
    (48 ≤ c.toNat ∧ c.toNat ≤ 57)) ∨ c = '_') ∨ c = '.' at h
  rcases h with ((letter | digit) | rfl) | rfl
  · omega
  · omega
  · exact .inr (.inr (.inr (.inl rfl)))
  · exact .inr (.inr (.inr (.inr rfl)))

theorem plain_of_name_character (h : (c.isAlphanum || c == '_' || c == '.') = true) :
    c.toNat < 128 ∧ isAsciiBlank c = false := by
  have code := code_of_name_character h
  have space : c ≠ ' ' := by
    rintro rfl
    exact absurd code (by decide)
  refine ⟨by omega, ?_⟩
  simp [isAsciiBlank, space]
  omega

theorem digitOf?_start (h : (c.isAlpha || c == '_') = true) : digitOf? 10 c = none := by
  rw [Bool.or_eq_true, isAlpha_iff, beq_iff_eq] at h
  rcases h with letter | rfl
  · have digit : ¬ ('0' ≤ c ∧ c ≤ '9') := by
      simp only [Char.le_def, UInt32.le_iff_toNat_le]
      change ¬ (48 ≤ c.toNat ∧ c.toNat ≤ 57)
      omega
    simp only [digitOf?, Bool.and_eq_true, decide_eq_true_eq, digit, if_false]
    split
    · simp
    · split <;> simp
  · rfl

/-- The name of a label does not read as a number. -/
theorem integer?_name (h : isLabel name = true) : integer? name = none := by
  cases name with
  | nil => cases h
  | cons c rest =>
    simp only [isLabel, Bool.and_eq_true, List.all_eq_true] at h
    obtain ⟨start, others⟩ := h
    have plain : ∀ d ∈ c :: rest, d.toNat < 128 ∧ isAsciiBlank d = false := by
      intro d mem
      rcases List.mem_cons.1 mem with rfl | mem
      · apply plain_of_name_character
        simp only [Char.isAlphanum, Bool.or_eq_true] at start ⊢
        exact .inl (start.imp_left .inl)
      · exact plain_of_name_character (others d mem)
    have digit := digitOf?_start start
    have minus : c ≠ '-' := by
      rintro rfl
      cases start
    have plus : c ≠ '+' := by
      rintro rfl
      cases start
    have zero : c ≠ '0' := by
      rintro rfl
      cases start
    have unsigned : signed? markedDigits? (c :: rest) = none := by
      simp [signed?, markedDigits?, digits?, digit, minus, plus, zero]
    rw [← plainNumeral_eq_self plain] at unsigned
    exact Option.eq_none_iff_forall_ne_some.2 fun n read => by
      cases (signed?_of_numeral read).symm.trans unsigned

theorem isLabel_of_mem_leadingLabels {pieces : List (List Char)}
    (mem : name ∈ (leadingLabels pieces).1) : isLabel name = true := by
  fun_induction leadingLabels pieces with
  | case1 piece next more named labels rest split ih =>
    rcases List.mem_cons.1 mem with rfl | mem
    · exact named
    · rw [split] at ih
      exact ih mem
  | case2 | case3 => cases mem

theorem isLabel_of_mem_labels {source : List Char} {line : Line} (listed : line ∈ sourceLines source)
    (mem : name ∈ line.labels) : isLabel name = true := by
  obtain ⟨⟨raw, number⟩, -, rfl⟩ := List.mem_map.1 listed
  exact isLabel_of_mem_leadingLabels mem

end IntcodeVM.Assembly
