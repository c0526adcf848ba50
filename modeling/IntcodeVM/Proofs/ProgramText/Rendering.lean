import IntcodeVM.Proofs.ProgramText.Grammar
import IntcodeVM.Proofs.Text.AsciiBytes
import IntcodeVM.Text.Legible

namespace IntcodeVM.ProgramText

open Text

variable {word : Int} {words : List Int} {c : Char}

theorem isDigit_of_mem_toDigits {n : Nat} (mem : c ∈ Nat.toDigits 10 n) : c.isDigit = true :=
  Nat.isDigit_of_mem_toDigits (by omega) (by omega) mem

/-- The numeral that a number is written as. -/
def Numeral.ofInt : Int → Numeral
  | .ofNat n => {
      sign := .none
      digits := Nat.toDigits 10 n
      nonempty := Nat.toDigits_ne_nil
      ascii := fun _ => isDigit_of_mem_toDigits }
  | .negSucc n => {
      sign := .minus
      digits := Nat.toDigits 10 (n + 1)
      nonempty := Nat.toDigits_ne_nil
      ascii := fun _ => isDigit_of_mem_toDigits }

theorem text_ofInt (word : Int) : (Numeral.ofInt word).text = decimal word := by
  cases word <;> rfl

theorem value_ofInt (word : Int) : (Numeral.ofInt word).value = word := by
  cases word with
  | ofNat n => simp [Numeral.ofInt, Numeral.value, Sign.apply]
  | negSucc n => simp [Numeral.ofInt, Numeral.value, Sign.apply, Int.negSucc_eq]

theorem digits_ofInt (word : Int) : (Numeral.ofInt word).digits = Nat.toDigits 10 word.natAbs := by
  cases word <;> rfl

theorem reads_decimal (legible : isLegible word = true) : Reads (decimal word) word :=
  ⟨.ofInt word, text_ofInt word, value_ofInt word,
    digits_ofInt word ▸ (length_toDigits_le_iff word).2 legible⟩

theorem of_mem_commaSeparated (mem : c ∈ commaSeparated words) :
    c = ',' ∨ isTokenCharacter c = true := by
  rcases mem_glue mem with comma | ⟨text, written, inText⟩
  · exact .inl comma
  · obtain ⟨word, -, rfl⟩ := List.mem_map.1 written
    exact .inr ((token_decimal word).plain c inText)

theorem not_blank_of_commaSeparated (mem : c ∈ commaSeparated words) : isBlank c = false := by
  rcases of_mem_commaSeparated mem with rfl | token
  · rfl
  · exact isBlank_of_token token

theorem ascii_render (words : List Int) : Ascii (render words) := by
  intro c mem
  rcases List.mem_append.1 mem with mem | mem
  · rcases of_mem_commaSeparated mem with rfl | token
    · decide
    · simp only [isTokenCharacter, Bool.and_eq_true, decide_eq_true_eq] at token
      omega
  · rw [List.mem_singleton.1 mem]
    decide

theorem carriageReturn_notMem_render (words : List Int) : '\r' ∉ render words := by
  intro mem
  rcases List.mem_append.1 mem with mem | mem
  · cases not_blank_of_commaSeparated mem
  · cases List.mem_singleton.1 mem

theorem strip_line {text : List Char} (plain : ∀ c ∈ text, isBlank c = false) :
    strip (text ++ ['\n']) = text := by
  cases text with
  | nil => rfl
  | cons c rest =>
    have first : isBlank c = false := plain c List.mem_cons_self
    have kept : (c :: rest ++ ['\n']).dropWhile isBlank = c :: rest ++ ['\n'] := by
      simp [first]
    have reversed : ∀ d ∈ (c :: rest).reverse, isBlank d = false := fun d mem =>
      plain d (List.mem_reverse.1 mem)
    rw [strip, kept, dropRightWhile, List.reverse_append]
    show (List.dropWhile isBlank ('\n' :: (c :: rest).reverse)).reverse = c :: rest
    rw [List.dropWhile_cons_of_pos (by decide), dropWhile_eq_self reversed, List.reverse_reverse]

theorem strip_render (words : List Int) : strip (render words) = commaSeparated words :=
  strip_line fun _ mem => not_blank_of_commaSeparated mem

theorem commaSeparated_ne_nil (nonempty : words ≠ []) : commaSeparated words ≠ [] := by
  obtain ⟨first, more, rfl⟩ := List.exists_cons_of_ne_nil nonempty
  cases more <;> simp [commaSeparated, glue, decimal_ne_nil]

theorem tokens_render (nonempty : words ≠ []) : tokens (render words) = words.map decimal := by
  have absent : ∀ text ∈ words.map decimal, ',' ∉ text := by
    rintro text mem comma
    obtain ⟨word, -, rfl⟩ := List.mem_map.1 mem
    cases (token_decimal word).plain ',' comma
  have stripped : ∀ text ∈ words.map decimal, strip text = text := by
    intro text mem
    obtain ⟨word, -, rfl⟩ := List.mem_map.1 mem
    exact (token_decimal word).strip
  rw [tokens, strip_render, commaSeparated, pieces_glue (by simpa using nonempty) absent,
    List.map_congr_left stripped, List.map_id']

theorem forall₂_reads_decimal (legible : ∀ word ∈ words, isLegible word = true) :
    List.Forall₂ Reads (words.map decimal) words := by
  induction words with
  | nil => exact .nil
  | cons word rest ih =>
    have others := ih fun w mem => legible w (List.mem_cons_of_mem word mem)
    exact .cons (reads_decimal (legible word List.mem_cons_self)) others

/-- Legible words are read back. -/
theorem parse_render (nonempty : words ≠ []) (legible : ∀ word ∈ words, isLegible word = true) :
    parse (render words) = .ok words := by
  refine parse_eq_ok_iff.2 ⟨?_, ?_⟩
  · rw [strip_render]
    exact commaSeparated_ne_nil nonempty
  · rw [tokens_render nonempty]
    exact forall₂_reads_decimal legible

theorem parse_render_nil : parse (render []) = .error ⟨0, .emptyProgram⟩ :=
  parse_blank (strip_render [])

theorem decode_render (words : List Int) :
    decode (CommandLine.bytesOf (String.ofList (render words))) = .ok (render words) := by
  simp only [decode, decodeUtf8_ascii (ascii_render words),
    unifyLineEnds_of_notMem (carriageReturn_notMem_render words)]

end IntcodeVM.ProgramText
