import IntcodeVM.Text.Numeral

namespace IntcodeVM.Text

variable {sep : Char} {p : Char → Bool} {piece text : List Char}

theorem dropWhile_of_head (h : ∀ c ∈ text.head?, p c = false) : text.dropWhile p = text := by
  cases text with
  | nil => rfl
  | cons c rest =>
    have first := h c rfl
    simp [first]

theorem takeWhile_of_head (h : ∀ c ∈ text.head?, p c = false) : text.takeWhile p = [] := by
  cases text with
  | nil => rfl
  | cons c rest =>
    have first := h c rfl
    simp [first]

theorem before_of_notMem (h : sep ∉ text) : before sep text = text := by
  have other : ∀ c ∈ text, (c != sep) = true := by
    intro c mem
    simpa using fun same : c = sep => h (same ▸ mem)
  have kept : (text ++ []).takeWhile (· != sep) = text ++ [] :=
    List.takeWhile_append_of_pos other
  simpa [before] using kept

theorem pieces_of_notMem (h : sep ∉ piece) : pieces sep piece = [piece] := by
  induction piece with
  | nil => rfl
  | cons c rest ih =>
    have other : c ≠ sep := fun same => h (same ▸ List.mem_cons_self)
    have absent : sep ∉ rest := fun mem => h (List.mem_cons_of_mem c mem)
    rw [pieces, if_neg other, ih absent]

theorem pieces_append (h : sep ∉ piece) (text : List Char) :
    pieces sep (piece ++ sep :: text) = piece :: pieces sep text := by
  induction piece with
  | nil => rw [List.nil_append, pieces, if_pos rfl]
  | cons c rest ih =>
    have other : c ≠ sep := fun same => h (same ▸ List.mem_cons_self)
    have absent : sep ∉ rest := fun mem => h (List.mem_cons_of_mem c mem)
    rw [List.cons_append, pieces, if_neg other, ih absent]

theorem pieces_glue {texts : List (List Char)} (nonempty : texts ≠ [])
    (h : ∀ text ∈ texts, sep ∉ text) : pieces sep (glue sep texts) = texts := by
  induction texts with
  | nil => exact absurd rfl nonempty
  | cons first more ih =>
    have absent := h first List.mem_cons_self
    cases more with
    | nil => exact pieces_of_notMem absent
    | cons next rest =>
      rw [glue, pieces_append absent, ih (List.cons_ne_nil _ _)]
      · intro text mem
        exact h text (List.mem_cons_of_mem first mem)
      · simp

theorem mem_glue {texts : List (List Char)} {c : Char} (h : c ∈ glue sep texts) :
    c = sep ∨ ∃ text ∈ texts, c ∈ text := by
  induction texts with
  | nil => cases h
  | cons first more ih =>
    cases more with
    | nil => exact .inr ⟨first, List.mem_cons_self, h⟩
    | cons next rest =>
      rw [glue, List.mem_append, List.mem_cons] at h
      · rcases h with inFirst | rfl | inRest
        · exact .inr ⟨first, List.mem_cons_self, inFirst⟩
        · exact .inl rfl
        · rcases ih inRest with same | ⟨text, mem, inText⟩
          · exact .inl same
          · exact .inr ⟨text, List.mem_cons_of_mem first mem, inText⟩
      · simp

theorem glue_ends (sep : Char) (texts : List (List Char)) (last : List Char) :
    ∃ front, glue sep (texts ++ [last]) = front ++ last := by
  induction texts with
  | nil => exact ⟨[], rfl⟩
  | cons first more ih =>
    obtain ⟨front, same⟩ := ih
    refine ⟨first ++ sep :: front, ?_⟩
    rw [List.cons_append, glue, same]
    · simp
    · simp

/-- What the words of a listing are made of. -/
def isTokenCharacter (c : Char) : Bool :=
  0x21 ≤ c.toNat && c.toNat ≤ 0x7E && c != ',' && c != ':' && c != ';'

structure Token (text : List Char) : Prop where
  ne_nil : text ≠ []
  plain : ∀ c ∈ text, isTokenCharacter c = true

theorem isBlank_of_token {c : Char} (h : isTokenCharacter c = true) : isBlank c = false := by
  simp only [isTokenCharacter, Bool.and_eq_true, decide_eq_true_eq] at h
  obtain ⟨⟨⟨⟨low, high⟩, -⟩, -⟩, -⟩ := h
  simp only [isBlank, Bool.or_eq_false_iff, Bool.and_eq_false_iff, decide_eq_false_iff_not,
    beq_eq_false_iff_ne]
  omega

theorem Token.not_blank (h : Token text) {c : Char} (mem : c ∈ text) : isBlank c = false :=
  isBlank_of_token (h.plain c mem)

theorem Token.strip (h : Token text) : strip text = text := by
  rw [Text.strip, dropWhile_eq_self fun _ mem => h.not_blank mem,
    dropRightWhile_eq_self fun _ mem => h.not_blank mem]

theorem Token.head_append (h : Token text) (rest : List Char) :
    ∀ c ∈ (text ++ rest).head?, isBlank c = false := by
  obtain ⟨c, more, rfl⟩ := List.exists_cons_of_ne_nil h.ne_nil
  intro d mem
  cases mem
  exact h.not_blank List.mem_cons_self

theorem Token.reverse (h : Token text) : Token text.reverse where
  ne_nil same := h.ne_nil (List.reverse_eq_nil_iff.1 same)
  plain c mem := h.plain c (List.mem_reverse.1 mem)

/-- Text between two tokens has no blanks at its ends. -/
theorem strip_append {first last : List Char} (front : Token first) (back : Token last)
    (text : List Char) : Text.strip (first ++ (text ++ last)) = first ++ (text ++ last) := by
  have foot := back.reverse.head_append (first ++ text).reverse
  rw [← List.reverse_append, List.append_assoc] at foot
  rw [Text.strip, dropWhile_of_head (front.head_append _), dropRightWhile, dropWhile_of_head foot,
    List.reverse_reverse]

theorem isTokenCharacter_of_sign_or_digit {c : Char} (h : c = '-' ∨ c.isDigit) :
    isTokenCharacter c = true := by
  rcases h with rfl | h
  · rfl
  · have digit : 48 ≤ c.toNat ∧ c.toNat ≤ 57 := by
      simpa [Char.isDigit, UInt32.le_iff_toNat_le] using h
    have other : c ≠ ',' ∧ c ≠ ':' ∧ c ≠ ';' := by
      refine ⟨?_, ?_, ?_⟩ <;> rintro rfl <;> exact absurd digit (by decide)
    simp only [isTokenCharacter, Bool.and_eq_true, decide_eq_true_eq, bne_iff_ne]
    exact ⟨⟨⟨⟨by omega, by omega⟩, other.1⟩, other.2.1⟩, other.2.2⟩

theorem decimal_ne_nil (n : Int) : decimal n ≠ [] := by
  cases n with
  | ofNat n => exact Nat.toDigits_ne_nil
  | negSucc n => exact List.cons_ne_nil _ _

theorem token_decimal (n : Int) : Token (decimal n) where
  ne_nil := decimal_ne_nil n
  plain _ mem := isTokenCharacter_of_sign_or_digit (of_mem_decimal mem)

end IntcodeVM.Text
