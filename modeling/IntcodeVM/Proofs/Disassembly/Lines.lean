import IntcodeVM.Disassembly
import IntcodeVM.Proofs.Assembly.Reading
import IntcodeVM.Proofs.Instruction.Parameters

namespace IntcodeVM

open Text

namespace Assembly

theorem value_decimal (labels : Labels) {n : Int} (legible : isLegible n = true) :
    value labels (decimal n) = .ok n := by
  rw [value, integer?_decimal legible]

theorem ofMark?_token {c : Char} (h : c = '-' ∨ c.isDigit) : Mode.ofMark? c = none := by
  unfold Mode.ofMark?
  split
  · rcases h with same | digit
    · cases same
    · cases digit
  · rcases h with same | digit
    · cases same
    · cases digit
  · rfl

theorem operand_text (labels : Labels) {o : Operand} (legible : isLegible o.value = true) :
    operand labels o.text = .ok o := by
  obtain ⟨mode, n⟩ := o
  have marked : ∀ mode, markedOperand labels mode (decimal n) = .ok ⟨mode, n⟩ := by
    intro mode
    have nonempty : (decimal n).isEmpty = false := by simp [decimal_ne_nil]
    rw [markedOperand, (token_decimal n).strip, nonempty, value_decimal labels legible]
    rfl
  cases mode with
  | immediate => exact marked .immediate
  | relative => exact marked .relative
  | position =>
    obtain ⟨c, rest, same⟩ := List.exists_cons_of_ne_nil (decimal_ne_nil n)
    have unmarked : Mode.ofMark? c = none :=
      ofMark?_token (of_mem_decimal (same ▸ List.mem_cons_self))
    show operand labels (decimal n) = _
    rw [same, operand, unmarked, ← same]
    show (value labels (decimal n)).map _ = _
    rw [value_decimal labels legible]
    rfl

theorem keyword_mnemonic (op : Opcode) :
    Keyword.ofName? op.mnemonic.toList = some (.op op) := by
  cases op <;> decide +kernel

theorem lowercase_mnemonic (op : Opcode) :
    lowercase op.mnemonic.toList = op.mnemonic.toList := by
  cases op <;> decide +kernel

end Assembly

theorem Opcode.token_mnemonic (op : Opcode) : Token op.mnemonic.toList where
  ne_nil := by cases op <;> decide
  plain := List.all_eq_true.1 (by cases op <;> decide)

theorem Operand.token_text (o : Operand) : Token o.text where
  ne_nil same := decimal_ne_nil o.value (List.append_eq_nil_iff.1 same).2
  plain := by
    intro c mem
    rcases List.mem_append.1 mem with inMark | inNumber
    · have marks : ∀ mode : Mode, mode.mark.all isTokenCharacter = true := by
        intro mode
        cases mode <;> decide
      exact List.all_eq_true.1 (marks o.mode) c inMark
    · exact (token_decimal o.value).plain c inNumber

namespace Disassembly

open Assembly

theorem encode_code (labels : Labels) {i : Instruction Operand}
    (legible : (Chunk.code i).isLegible = true) (number : Nat) (text : List Char) :
    encode labels ⟨number, text, .op i.opcode, i.toList.map Operand.text⟩ = .ok i.words := by
  have operands : Instruction.ofList? i.opcode (i.toList.map Operand.text) =
      some (i.map Operand.text) :=
    Instruction.ofList?_eq_some_iff.2 ⟨i.opcode_map _, i.toList_map _⟩
  have back : ∀ o ∈ i.toList, operand labels o.text = .ok o := fun o mem =>
    operand_text labels (List.all_eq_true.1 legible o mem)
  simp only [encode, operands, Instruction.mapM_map back]
  rfl

theorem text_code (i : Instruction Operand) :
    i.text = written i.opcode.mnemonic.toList (i.toList.map Operand.text) := by
  rw [Instruction.text, written, tail, List.map_map]
  rfl

theorem spells_code {i : Instruction Operand} (legible : (Chunk.code i).isLegible = true) :
    Spells i.opcode.mnemonic.toList (i.toList.map Operand.text) i.words where
  named := i.opcode.token_mnemonic
  plain := by
    intro token mem
    obtain ⟨o, -, rfl⟩ := List.mem_map.1 mem
    exact o.token_text
  lower := lowercase_mnemonic i.opcode
  known := ⟨.op i.opcode, keyword_mnemonic i.opcode, fun labels => encode_code labels legible⟩

theorem spells_data {word : Int} (legible : Text.isLegible word = true) :
    Spells ['.', 'd', 'a', 't', 'a'] [decimal word] [word] where
  named := ⟨List.cons_ne_nil _ _, List.all_eq_true.1 (by decide)⟩
  plain := by
    intro token mem
    rw [List.mem_singleton.1 mem]
    exact token_decimal word
  lower := by decide +kernel
  known := ⟨.data, rfl, fun labels number text => by
    simp [encode, value_decimal labels legible]⟩

theorem spells_chunk {chunk : Chunk} (inside : chunk ≠ .outside)
    (legible : chunk.isLegible = true) :
    ∃ name tokens, chunk.text = written name tokens ∧ Spells name tokens chunk.words := by
  cases chunk with
  | outside => exact absurd rfl inside
  | data word => exact ⟨_, _, rfl, spells_data legible⟩
  | code i => exact ⟨_, _, text_code i, spells_code legible⟩

theorem newline_notMem_text {chunk : Chunk} (inside : chunk ≠ .outside)
    (legible : chunk.isLegible = true) : '\n' ∉ chunk.text := by
  obtain ⟨name, tokens, same, spells⟩ := spells_chunk inside legible
  rw [same]
  exact notMem_written spells.named spells.plain rfl (by decide) (by decide)

theorem reads_chunk {chunk : Chunk} (inside : chunk ≠ .outside) (legible : chunk.isLegible = true)
    (number : Nat) : Reads (Line.ofRaw number chunk.text) chunk.words := by
  obtain ⟨name, tokens, same, spells⟩ := spells_chunk inside legible
  rw [same]
  exact spells.reads number

/-- The source of legible chunks inside memory assembles to the words that they show. -/
theorem assemble_chunks {listed : List (Int × Chunk)} (inside : ∀ p ∈ listed, p.2 ≠ .outside)
    (legible : ∀ p ∈ listed, p.2.isLegible = true) :
    assemble (source (textsOf listed)) = .ok (listed.flatMap fun p => p.2.words) := by
  by_cases nonempty : listed = []
  · subst nonempty
    rfl
  · let line (q : (Int × Chunk) × Nat) : Line × List Int := (.ofRaw q.2 q.1.2.text, q.1.2.words)
    have lined : source (textsOf listed) = glue '\n' (listed.map fun p => p.2.text) := by
      rw [source, textsOf, List.map_map]
      rfl
    have texts : ∀ text ∈ listed.map (fun p => p.2.text), '\n' ∉ text := by
      intro text mem
      obtain ⟨p, listed, rfl⟩ := List.mem_map.1 mem
      exact newline_notMem_text (inside p listed) (legible p listed)
    have lines : sourceLines (source (textsOf listed)) =
        ((listed.zipIdx 1).map line).map Prod.fst := by
      rw [sourceLines, lined, pieces_glue (by simpa using nonempty) texts, List.zipIdx_map,
        List.map_map, List.map_map]
      rfl
    have reads : ∀ r ∈ (listed.zipIdx 1).map line, Reads r.1 r.2 := by
      intro r mem
      obtain ⟨⟨p, number⟩, indexed, rfl⟩ := List.mem_map.1 mem
      have mem := List.fst_mem_of_mem_zipIdx indexed
      exact reads_chunk (inside p mem) (legible p mem) number
    have words : ((listed.zipIdx 1).map line).flatMap Prod.snd =
        ((listed.zipIdx 1).map Prod.fst).flatMap fun p => p.2.words := by
      rw [List.flatMap_map, List.flatMap_map]
    rw [assemble_of_reads lines reads, words, List.zipIdx_map_fst]

end Disassembly

end IntcodeVM
