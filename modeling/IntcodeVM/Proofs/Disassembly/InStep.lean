import IntcodeVM.Proofs.Assembly.Agreement
import IntcodeVM.Proofs.Assembly.LongNumbers
import IntcodeVM.Proofs.Disassembly.Decoding

/-! Assembled code and its listing. Main statement: where a source without data assembles, the
listing shows its statements one by one, each at its address and with its operands resolved, and
assembles to the same words; it is given up only for a number that is too long to be written. -/
namespace IntcodeVM.Disassembly

open Assembly
open Text (isLegible)

/-- A token stands for an operand: a mark in front gives the mode, and the rest is a number or a
label. -/
inductive StandsFor (labels : Labels) : List Char → Operand → Prop
  | unmarked {token : List Char} {n : Int} : (∀ c ∈ token.head?, Mode.ofMark? c = none) →
      value labels token = .ok n → StandsFor labels token ⟨.position, n⟩
  | marked {c : Char} {rest : List Char} {mode : Mode} {n : Int} : Mode.ofMark? c = some mode →
      value labels (Text.strip rest) = .ok n → StandsFor labels (c :: rest) ⟨mode, n⟩

/-- An instruction is what a statement says under these labels. -/
structure Resolves (labels : Labels) (s : Statement) (i : Instruction Operand) : Prop where
  operation : s.keyword = .op i.opcode
  operands : List.Forall₂ (StandsFor labels) s.operands i.toList

/-- An entry shows a statement where the assembler has put it. -/
structure Shows (labels : Labels) (p : Placed) (entry : Nat × Instruction Operand) : Prop where
  address : entry.1 = p.address
  resolves : Resolves labels p.statement entry.2

/-- A listing of code in step with the statements of its source, entry by entry. It is given up only
if one of its numbers is too long to be written. -/
structure InStep (program : List Char) (words : List Int) (scratch : Nat) (l : Layout)
    (entries : List (Nat × Instruction Operand)) : Prop where
  laidOut : layout program = .ok l
  statements : l.statements.map Placed.statement = (sourceLines program).filterMap Line.stated
  shows : List.Forall₂ (Shows l.labels) l.statements entries
  listed : fullListing words scratch =
    entries.map fun (address, i) => ((address : Int), .code i)
  texts : texts? (.ofWords words scratch) 0 none =
    if entries.all fun entry => entry.2.toList.all fun o => isLegible o.value then
      some (entries.map fun (address, i) => ((address : Int), i.text))
    else none
  reassembles {texts : List (Int × List Char)} :
    texts? (.ofWords words scratch) 0 none = some texts → assemble (source texts) = .ok words

variable {program token : List Char} {words : List Int} {labels : Labels} {s : Statement}
  {emitted : List Emitted} {instructions : List (Instruction Operand)} {o : Operand}

theorem standsFor_of_operand (h : operand labels token = .ok o) : StandsFor labels token o := by
  cases token with
  | nil => cases h
  | cons c rest =>
    rw [operand] at h
    cases mark : Mode.ofMark? c with
    | some mode =>
      simp only [mark, markedOperand] at h
      split at h
      · cases h
      · obtain ⟨n, read, rfl⟩ := map_eq_ok_iff.1 h
        exact .marked mark read
    | none =>
      rw [mark] at h
      obtain ⟨n, read, rfl⟩ := map_eq_ok_iff.1 h
      refine .unmarked ?_ read
      rintro _ ⟨⟩
      exact mark

theorem exists_instruction (encoded : encode labels s = .ok words) (code : s.keyword ≠ .data) :
    ∃ i, Resolves labels s i ∧ words = i.words := by
  obtain ⟨line, text, keyword, operands⟩ := s
  cases keyword with
  | data => exact absurd rfl code
  | op op =>
    rw [encode] at encoded
    dsimp only at encoded
    split at encoded
    · cases encoded
    · rename_i raw listed
      obtain ⟨i, parsed, rfl⟩ := map_eq_ok_iff.1 encoded
      obtain ⟨rfl, rfl⟩ := Instruction.ofList?_eq_some_iff.1 listed
      refine ⟨i, ⟨?_, ?_⟩, rfl⟩
      · rw [Instruction.opcode_of_mapM parsed]
      · exact (Instruction.forall₂_of_mapM parsed).imp fun _ _ => standsFor_of_operand

theorem Resolves.length_words {i : Instruction Operand} (h : Resolves labels s i) :
    i.words.length = s.size := by
  rw [Statement.size, h.operation, i.length_words]

theorem exists_instructions
    (encoded : ∀ e ∈ emitted, encode labels e.statement = .ok e.words)
    (code : ∀ e ∈ emitted, e.statement.keyword ≠ .data) :
    ∃ instructions, List.Forall₂ (fun e i => Resolves labels e.statement i) emitted instructions ∧
      emitted.flatMap Emitted.words = instructions.flatMap Instruction.words := by
  induction emitted with
  | nil => exact ⟨[], .nil, rfl⟩
  | cons e rest ih =>
    obtain ⟨instructions, others, words⟩ := ih
      (fun e mem => encoded e (List.mem_cons_of_mem _ mem))
      (fun e mem => code e (List.mem_cons_of_mem _ mem))
    obtain ⟨i, resolves, same⟩ := exists_instruction (encoded e List.mem_cons_self)
      (code e List.mem_cons_self)
    refine ⟨i :: instructions, .cons resolves others, ?_⟩
    rw [List.flatMap_cons, List.flatMap_cons, same, words]

/-- Instructions take the addresses that the assembler counts for their statements. -/
theorem shows_entriesFrom {statements : List Statement}
    (resolves : List.Forall₂ (Resolves labels) statements instructions) (address : Nat) :
    List.Forall₂ (Shows labels) (placedFrom address statements)
      (entriesFrom address instructions) := by
  induction resolves generalizing address with
  | nil => exact .nil
  | cons first _ ih =>
    refine .cons ⟨rfl, first⟩ ?_
    rw [first.length_words]
    exact ih _

theorem texts?_code (instructions : List (Instruction Operand)) (scratch : Nat) :
    texts? (.ofWords (instructions.flatMap Instruction.words) scratch) 0 none =
      if (entriesFrom 0 instructions).all fun entry =>
          entry.2.toList.all fun o => isLegible o.value then
        some ((entriesFrom 0 instructions).map fun (address, i) => ((address : Int), i.text))
      else none := by
  have listed : chunks (.ofWords (instructions.flatMap Instruction.words) scratch) 0 none =
      (entriesFrom 0 instructions).map fun (address, i) => ((address : Int), .code i) :=
    (sweep_code scratch instructions []).1
  have legible : ∀ entry ∈ entriesFrom 0 instructions,
      isLegibleAt (.ofWords (instructions.flatMap Instruction.words) scratch) entry.1 =
        entry.2.toList.all fun o => isLegible o.value := (sweep_code scratch instructions []).2
  have same : ((entriesFrom 0 instructions).all fun entry =>
      isLegibleAt (.ofWords (instructions.flatMap Instruction.words) scratch) entry.1) =
      (entriesFrom 0 instructions).all fun entry =>
        entry.2.toList.all fun o => isLegible o.value := by
    rw [Bool.eq_iff_iff, List.all_eq_true, List.all_eq_true]
    exact forall₂_congr fun entry mem => by rw [legible entry mem]
  rw [← same, texts?, listed, List.all_map, textsOf, List.map_map]
  rfl

theorem words_entriesFrom (instructions : List (Instruction Operand)) (address : Nat) :
    ((entriesFrom address instructions).map fun (address, i) => ((address : Int), Chunk.code i)).flatMap
      (fun p => p.2.words) = instructions.flatMap Instruction.words := by
  induction instructions generalizing address with
  | nil => rfl
  | cons i rest ih =>
    rw [entriesFrom, List.map_cons, List.flatMap_cons, List.flatMap_cons, ih]
    rfl

theorem assemble_code {instructions : List (Instruction Operand)} {scratch : Nat}
    {texts : List (Int × List Char)}
    (given : texts? (.ofWords (instructions.flatMap Instruction.words) scratch) 0 none = some texts) :
    assemble (source texts) = .ok (instructions.flatMap Instruction.words) := by
  have listed : chunks (.ofWords (instructions.flatMap Instruction.words) scratch) 0 none =
      (entriesFrom 0 instructions).map fun (address, i) => ((address : Int), .code i) :=
    (sweep_code scratch instructions []).1
  have consecutive := consecutive_fullListing (instructions.flatMap Instruction.words) scratch
  obtain ⟨legible, rfl⟩ := texts?_eq_some_iff.1 given
  have shown : ∀ p ∈ chunks (.ofWords (instructions.flatMap Instruction.words) scratch) 0 none,
      p.2.isLegible = true := fun p mem =>
    consecutive.eq_chunkAt p mem ▸ isLegible_chunkAt (legible p mem)
  have inside : ∀ p ∈ chunks (.ofWords (instructions.flatMap Instruction.words) scratch) 0 none,
      p.2 ≠ .outside := by
    intro p mem
    rw [listed] at mem
    obtain ⟨entry, -, rfl⟩ := List.mem_map.1 mem
    exact nofun
  rw [assemble_chunks inside shown, listed, words_entriesFrom]

/-- Code that assembles is listed in step with its statements, whatever scratch there is. -/
theorem listing_in_step (assembled : assemble program = .ok words)
    (code : ∀ s ∈ (sourceLines program).filterMap Line.stated, s.keyword ≠ .data) (scratch : Nat) :
    ∃ l entries, InStep program words scratch l entries := by
  obtain ⟨l, emitted, passes, rfl⟩ := passes_of_assemble assembled
  have statements := passes.statements
  have placed := statements_of_layoutFrom passes.laidOut
  have encoded : ∀ e ∈ emitted, encode l.labels e.statement = .ok e.words := by
    have emits := passes.emits
    rw [progress, passes.laidOut] at emits
    exact (emit_eq_iff.1 emits).2
  obtain ⟨instructions, resolves, same⟩ := exists_instructions encoded
    fun e mem => code e.statement (statements ▸ List.mem_map_of_mem mem)
  rw [← List.forall₂_map_left_iff, statements] at resolves
  rw [same]
  refine ⟨l, entriesFrom 0 instructions, passes.laidOut, ?_, ?_,
    (sweep_code scratch instructions []).1, texts?_code instructions scratch,
    assemble_code⟩
  · rw [placed, map_placedFrom]
  · rw [placed]
    exact shows_entriesFrom resolves 0

/-- Labels in both directions, and all modes. -/
theorem listing_in_step_labels :
    let program := "start: jt end, #start ; on\nlt @2, -3, end\nend: Halt".toList
    assemble program = .ok [1005, 7, 0, 207, 2, -3, 7, 99] ∧
      ∃ l entries, InStep program [1005, 7, 0, 207, 2, -3, 7, 99] 5 l entries := by
  intro program
  have assembled : assemble program = .ok [1005, 7, 0, 207, 2, -3, 7, 99] := by decide +kernel
  have code : ∀ s ∈ (sourceLines program).filterMap Line.stated, s.keyword ≠ .data := by
    decide +kernel
  exact ⟨assembled, listing_in_step assembled code 5⟩

/-- An operand that is too long to be written is assembled, and its listing is given up. -/
theorem listing_given_up :
    let program := "out 0x1".toList ++ List.replicate 3600 '0'
    assemble program = .ok [4, 16 ^ 3600] ∧
      (∀ s ∈ (sourceLines program).filterMap Line.stated, s.keyword ≠ .data) ∧
      texts? (.ofWords [4, 16 ^ 3600] 0) 0 none = none := by
  intro program
  have spells := spells_output_hexPower 3600
  have same : program = written Opcode.output.mnemonic.toList [hexPower 3600] := rfl
  refine ⟨?_, ?_, ?_⟩
  · rw [same, assemble_written spells]
  · rw [same, stated_written spells (keyword_mnemonic .output)]
    intro s mem
    rw [List.mem_singleton.1 mem]
    exact nofun
  · have texts := texts?_code [.output ⟨.position, 16 ^ 3600⟩] 0
    have long := not_isLegible_hexPower (Nat.le_refl 3600)
    simp only [entriesFrom, List.all_cons, Instruction.toList, long, Bool.false_and,
      Bool.false_eq_true, if_false] at texts
    exact texts

end IntcodeVM.Disassembly
