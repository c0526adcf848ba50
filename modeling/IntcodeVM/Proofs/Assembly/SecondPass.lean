import IntcodeVM.Assembly.Assembler
import IntcodeVM.Proofs.Instruction.Traversal

namespace IntcodeVM.Assembly

/-- A token of a statement without the mark in front; data have no marks. -/
def Keyword.bare : Keyword → List Char → List Char
  | .op _, c :: rest => if (Mode.ofMark? c).isSome then Text.strip rest else c :: rest
  | _, token => token

/-- The words of a statement before its first operand. -/
def Keyword.lead : Keyword → Nat
  | .data => 0
  | .op _ => 1

variable {labels : Labels} {s : Statement} {words : List Int} {token : List Char} {o : Operand}
  {op : Opcode} {k : Nat} {statements : List Placed} {emitted : List Emitted}

def marked (token : List Char) : Mode := (token.head?.bind Mode.ofMark?).getD .position

theorem operand_eq_ok_iff (op : Opcode) : operand labels token = .ok o ↔
    (Keyword.op op).bare token ≠ [] ∧ marked token = o.mode ∧
      value labels ((Keyword.op op).bare token) = .ok o.value := by
  cases token with
  | nil => simp [operand, Keyword.bare]
  | cons c rest =>
    obtain ⟨mode, n⟩ := o
    rw [operand]
    cases mark : Mode.ofMark? c with
    | none =>
      have unmarked : marked (c :: rest) = .position := by simp [marked, mark]
      have whole : (Keyword.op op).bare (c :: rest) = c :: rest := by simp [Keyword.bare, mark]
      rw [whole, unmarked]
      cases value labels (c :: rest) with
      | error problem => simp [Except.map]
      | ok found => simp [Except.map]
    | some found =>
      have same : marked (c :: rest) = found := by simp [marked, mark]
      have bare : (Keyword.op op).bare (c :: rest) = Text.strip rest := by simp [Keyword.bare, mark]
      rw [bare, same]
      by_cases empty : Text.strip rest = []
      · simp [markedOperand, empty]
      · cases read : value labels (Text.strip rest) with
        | error problem => simp [markedOperand, read, empty, Except.map]
        | ok found => simp [markedOperand, read, empty, Except.map]

theorem value_of_operand (h : operand labels token = .ok o) :
    value labels ((Keyword.op op).bare token) = .ok o.value :=
  ((operand_eq_ok_iff op).1 h).2.2

/-- What is known of a statement with these words. -/
structure Encodes (labels : Labels) (s : Statement) (words : List Int) : Prop where
  length : words.length = s.size
  nonempty : words ≠ []
  token {k : Nat} {token : List Char} : s.operands[k]? = some token →
    ∃ n, words[s.keyword.lead + k]? = some n ∧ value labels (s.keyword.bare token) = .ok n

theorem encodes_of_encode (h : encode labels s = .ok words) : Encodes labels s words := by
  obtain ⟨line, text, keyword, operands⟩ := s
  cases keyword with
  | data =>
    rw [encode] at h
    dsimp only at h
    split at h
    · cases h
    · rename_i some
      have values := mapM_eq_ok_iff.1 h
      have same : words.length = operands.length := values.length_eq.symm
      refine ⟨same, ?_, ?_⟩
      · rintro rfl
        simp_all
      · intro k token found
        obtain ⟨n, there, read⟩ := getElem?_of_forall₂ values found
        exact ⟨n, by simpa [Keyword.lead] using there, read⟩
  | op op =>
    rw [encode] at h
    dsimp only at h
    split at h
    · cases h
    · rename_i i listed
      obtain ⟨j, parsed, same⟩ := map_eq_ok_iff.1 h
      cases same
      obtain ⟨rfl, rfl⟩ := Instruction.ofList?_eq_some_iff.1 listed
      have values := Instruction.forall₂_of_mapM parsed
      refine ⟨?_, List.cons_ne_nil _ _, ?_⟩
      · simp [Instruction.words, Statement.size, Instruction.opcode_of_mapM parsed]
      · intro k token found
        obtain ⟨o, there, read⟩ := getElem?_of_forall₂ values found
        refine ⟨o.value, ?_, value_of_operand read⟩
        rw [Keyword.lead, Nat.add_comm]
        simp [Instruction.words, there]

theorem emit_eq_iff :
    emit labels statements = { emitted := emitted } ↔ emitted.map Emitted.placed = statements ∧
      ∀ e ∈ emitted, encode labels e.placed.statement = .ok e.words := by
  induction statements generalizing emitted with
  | nil =>
    constructor
    · intro h
      cases h
      exact ⟨rfl, by simp⟩
    · rintro ⟨placed, -⟩
      rw [List.map_eq_nil_iff.1 placed]
      rfl
  | cons p rest ih =>
    rw [emit]
    constructor
    · intro h
      cases encoded : encode labels p.statement with
      | error problem =>
        rw [encoded] at h
        cases h
      | ok words =>
        rcases later : emit labels rest with ⟨others, error⟩
        rw [encoded, later] at h
        cases h
        obtain ⟨placed, each⟩ := ih.1 later
        refine ⟨by rw [List.map_cons, placed], ?_⟩
        intro e mem
        rcases List.mem_cons.1 mem with rfl | mem
        · exact encoded
        · exact each e mem
    · rintro ⟨placed, each⟩
      obtain ⟨e, others, rfl, rfl, onward⟩ := List.map_eq_cons_iff.1 placed
      have encoded := each e List.mem_cons_self
      have later := ih.2 ⟨onward, fun e mem => each e (List.mem_cons_of_mem _ mem)⟩
      rw [encoded, later]

end IntcodeVM.Assembly
