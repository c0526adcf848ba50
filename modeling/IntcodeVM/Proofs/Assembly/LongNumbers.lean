import IntcodeVM.Proofs.Assembly.FirstPass
import IntcodeVM.Proofs.Assembly.Reading
import IntcodeVM.Proofs.Disassembly.Lines
import IntcodeVM.Text.Legible
import Mathlib.Tactic.Ring

namespace IntcodeVM.Assembly

open Text

def hexPower (zeros : Nat) : List Char := '0' :: 'x' :: '1' :: List.replicate zeros '0'

theorem digitsFrom?_replicate (value zeros : Nat) :
    digitsFrom? 16 value (List.replicate zeros '0') = some (value * 16 ^ zeros) := by
  induction zeros generalizing value with
  | zero => simp [digitsFrom?]
  | succ zeros ih =>
    have digit : digitOf? 16 '0' = some 0 := by decide
    rw [List.replicate_succ, digitsFrom?.eq_3 _ _ _ _ (by simp), digit, Option.bind_some, ih,
      Nat.add_zero, Nat.pow_succ', Nat.mul_assoc]

theorem hexPower_plain (zeros : Nat) : ∀ c ∈ hexPower zeros, c = 'x' ∨ c.isDigit = true := by
  intro c mem
  rcases List.mem_cons.1 mem with rfl | mem
  · exact .inr rfl
  · rcases List.mem_cons.1 mem with rfl | mem
    · exact .inl rfl
    · rcases List.mem_cons.1 mem with rfl | mem
      · exact .inr rfl
      · rw [List.eq_of_mem_replicate mem]
        exact .inr rfl

theorem integer?_hexPower (zeros : Nat) : integer? (hexPower zeros) = some (16 ^ zeros) := by
  have plain : ∀ c ∈ hexPower zeros, c.toNat < 128 ∧ isAsciiBlank c = false := by
    intro c mem
    rcases hexPower_plain zeros c mem with rfl | digit
    · decide
    · exact plain_of_sign_or_digit (.inr digit)
  have digits : markedDigits? (hexPower zeros) = some (16 ^ zeros) := by
    show digits? 16 ('1' :: List.replicate zeros '0') = _
    have one : digitOf? 16 '1' = some 1 := by decide
    rw [digits?, one, Option.bind_some, digitsFrom?_replicate, Nat.one_mul]
  -- in base ten the text starts with one digit only
  have short : frontExcess? (dropSign (plainNumeral (hexPower zeros))) = none := by
    rw [plainNumeral_eq_self plain]
    rfl
  rw [integer?, integer, numeral_of_front short, plainNumeral_eq_self plain]
  show (markedDigits? (hexPower zeros)).map (fun n => (n : Int)) = _
  rw [digits]
  simp

theorem token_hexPower (zeros : Nat) : Token (hexPower zeros) where
  ne_nil := List.cons_ne_nil _ _
  plain := by
    intro c mem
    rcases hexPower_plain zeros c mem with rfl | digit
    · decide
    · exact isTokenCharacter_of_sign_or_digit (.inr digit)

theorem spells_data_hexPower (zeros : Nat) :
    Spells ['.', 'd', 'a', 't', 'a'] [hexPower zeros] [16 ^ zeros] where
  named := ⟨List.cons_ne_nil _ _, List.all_eq_true.1 (by decide)⟩
  plain := by
    intro token mem
    rw [List.mem_singleton.1 mem]
    exact token_hexPower zeros
  lower := by decide +kernel
  known := ⟨.data, rfl, fun labels number text => by simp [encode, value, integer?_hexPower]⟩

theorem spells_output_hexPower (zeros : Nat) :
    Spells Opcode.output.mnemonic.toList [hexPower zeros] [4, 16 ^ zeros] where
  named := Opcode.output.token_mnemonic
  plain := by
    intro token mem
    rw [List.mem_singleton.1 mem]
    exact token_hexPower zeros
  lower := lowercase_mnemonic .output
  known := by
    refine ⟨.op .output, keyword_mnemonic .output, fun labels number text => ?_⟩
    have read : operand labels (hexPower zeros) = .ok ⟨.position, 16 ^ zeros⟩ := by
      show (value labels (hexPower zeros)).map _ = _
      rw [value, integer?_hexPower]
      rfl
    simp only [encode, Instruction.ofList?, Instruction.mapM, read]
    rfl

section Single

variable {name : List Char} {tokens : List (List Char)} {words : List Int} {keyword : Keyword}

theorem sourceLines_written (spells : Spells name tokens words) :
    sourceLines (written name tokens) = [.ofRaw 1 (written name tokens)] := by
  have absent : '\n' ∉ written name tokens :=
    notMem_written spells.named spells.plain rfl (by decide) (by decide)
  rw [sourceLines, pieces_of_notMem absent]
  rfl

theorem code_of_token {c : Char} (token : isTokenCharacter c = true) :
    0x20 ≤ c.toNat ∧ c.toNat ≤ 0x7E := by
  simp only [isTokenCharacter, Bool.and_eq_true, decide_eq_true_eq] at token
  omega

theorem code_of_mem_written (spells : Spells name tokens words) {c : Char}
    (mem : c ∈ written name tokens) : 0x20 ≤ c.toNat ∧ c.toNat ≤ 0x7E := by
  rcases List.mem_append.1 mem with inName | inTail
  · exact code_of_token (spells.named.plain c inName)
  · rcases mem_tail spells.plain inTail with token | rfl | rfl
    · exact code_of_token token
    · decide
    · decide

theorem assemble_written (spells : Spells name tokens words) :
    assemble (written name tokens) = .ok words := by
  have lines : sourceLines (written name tokens) =
      [(Line.ofRaw 1 (written name tokens), words)].map Prod.fst := sourceLines_written spells
  have reads : ∀ p ∈ [(Line.ofRaw 1 (written name tokens), words)], Reads p.1 p.2 := by
    intro p mem
    rw [List.mem_singleton.1 mem]
    exact spells.reads 1
  rw [assemble_of_reads lines reads]
  simp

theorem stated_written (spells : Spells name tokens words)
    (known : Keyword.ofName? name = some keyword) :
    (sourceLines (written name tokens)).filterMap Line.stated =
      [⟨1, written name tokens, keyword, tokens⟩] := by
  have nonempty : (written name tokens).isEmpty = false := by
    simp [written, spells.named.ne_nil]
  have stated : (Line.ofRaw 1 (written name tokens)).stated =
      some ⟨1, written name tokens, keyword, tokens⟩ := by
    rw [ofRaw_written spells.named spells.plain]
    apply stated_of_ok
    simp [Line.statement?, nonempty, splitFirstWord_written spells.named, spells.lower, known,
      operandTokens_tail spells.plain]
  rw [sourceLines_written spells, List.filterMap_cons_some stated, List.filterMap_nil]

end Single

theorem pow_le_hexPower {digits zeros k : Nat} (short : digits ≤ 43 * k) (long : 36 * k ≤ zeros) :
    Int.pow 10 digits ≤ 16 ^ zeros := by
  have natural : 10 ^ digits ≤ 16 ^ zeros := by
    calc 10 ^ digits ≤ 10 ^ (43 * k) := Nat.pow_le_pow_right (by decide) short
      _ = (10 ^ 43) ^ k := Nat.pow_mul 10 43 k
      _ ≤ (16 ^ 36) ^ k := Nat.pow_le_pow_left (by decide) k
      _ = 16 ^ (36 * k) := (Nat.pow_mul 16 36 k).symm
      _ ≤ 16 ^ zeros := Nat.pow_le_pow_right (by decide) long
  rw [pow_ten, Nat.pow_eq]
  exact_mod_cast natural

theorem not_isLegible_hexPower {zeros : Nat} (many : 3600 ≤ zeros) :
    isLegible (16 ^ zeros) = false := by
  have long : illegible ≤ 16 ^ zeros := pow_le_hexPower (k := 100) (by decide) many
  simp only [isLegible, Bool.and_eq_false_iff, decide_eq_false_iff_not]
  exact .inr (Int.not_lt.2 long)

end IntcodeVM.Assembly
