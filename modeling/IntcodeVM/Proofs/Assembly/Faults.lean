import IntcodeVM.Proofs.Assembly.FirstPass
import IntcodeVM.Proofs.Assembly.LineParts
import IntcodeVM.Proofs.Assembly.SecondPass

/-! What may be wrong with a source, told by its text. A line is at fault for its labels or its mnemonic,
or for the operands of its statement. Main statements: the first kind are the lines that the first pass
refuses, and the second are the statements that have no words. -/
namespace IntcodeVM.Assembly

open Text

def Holds (source : List Char) (number : Nat) (given : List (List Char)) (body : List Char) : Prop :=
  ∃ index raw, number = index + 1 ∧ (pieces '\n' source)[index]? = some raw ∧
    Parts (before ';' raw) given body

def Defines (source name : List Char) : Prop :=
  ∃ number given body, Holds source number given body ∧ name ∈ given

/-- The line with a number states a keyword, in whatever case, with these operands. -/
def States (source : List Char) (number : Nat) (keyword : Keyword) (operands : List (List Char)) :
    Prop :=
  ∃ given body word tail, Holds source number given body ∧ FirstWord body word tail ∧
    keyword.name = lowercase word ∧ operandTokens tail = operands

/-- A line that defines a label again or states what is no keyword. -/
inductive LineFault (source : List Char) (number : Nat) : Prop
  | twice {given : List (List Char)} {body : List Char} : Holds source number given body →
      ¬ given.Nodup → LineFault source number
  | again {given others : List (List Char)} {body rest name : List Char} {earlier : Nat} :
      Holds source number given body → name ∈ given → earlier < number →
      Holds source earlier others rest → name ∈ others → LineFault source number
  | mnemonic {given : List (List Char)} {body word tail : List Char} :
      Holds source number given body → FirstWord body word tail →
      (∀ keyword : Keyword, keyword.name ≠ lowercase word) → LineFault source number

/-- Operands that a keyword cannot have in this source. -/
inductive Misfit (source : List Char) : Keyword → List (List Char) → Prop
  | count {op : Opcode} {operands : List (List Char)} : operands.length ≠ op.paramCount →
      Misfit source (.op op) operands
  | noData : Misfit source .data []
  | mark {op : Opcode} {operands : List (List Char)} {c : Char} {rest : List Char} :
      c :: rest ∈ operands → (Mode.ofMark? c).isSome → Blanks rest → Misfit source (.op op) operands
  | value {keyword : Keyword} {operands : List (List Char)} {token : List Char} : token ∈ operands →
      integer? (keyword.bare token) = none → ¬ Defines source (keyword.bare token) →
      Misfit source keyword operands

def OperandFault (source : List Char) (number : Nat) : Prop :=
  ∃ keyword operands, States source number keyword operands ∧ Misfit source keyword operands

/-- What the first pass refuses, once these labels are defined. -/
def Refused (earlier : List (List Char)) (line : Line) : Prop :=
  ¬ line.labels.Nodup ∨ (∃ name ∈ line.labels, name ∈ earlier) ∨ ∃ e, line.statement? = .error e

def RefusedAt (earlier : List (List Char)) (lines : List Line) (index : Nat) : Prop :=
  ∃ line, lines[index]? = some line ∧
    Refused (earlier ++ (lines.take index).flatMap Line.labels) line

variable {source body name token : List Char} {given operands : List (List Char)} {line : Line}
  {number index : Nat} {keyword : Keyword} {labels : Labels} {s : Statement}

section Lines

theorem getElem?_sourceLines : (sourceLines source)[index]? = some line ↔
    ∃ raw, (pieces '\n' source)[index]? = some raw ∧ line = Line.ofRaw (index + 1) raw := by
  rw [sourceLines, List.getElem?_map, List.getElem?_zipIdx, Nat.add_comm 1 index]
  cases (pieces '\n' source)[index]? with
  | none => simp
  | some raw => simp [eq_comm]

theorem line_of_holds (holds : Holds source number given body) :
    ∃ index, number = index + 1 ∧
      (sourceLines source)[index]? = some ⟨number, given, strip body⟩ := by
  obtain ⟨index, raw, rfl, found, parts⟩ := holds
  exact ⟨index, rfl, getElem?_sourceLines.2 ⟨raw, found, (ofRaw_of_parts parts _).symm⟩⟩

theorem exists_holds (found : (sourceLines source)[index]? = some line) :
    ∃ body, Holds source (index + 1) line.labels body ∧
      line = ⟨index + 1, line.labels, strip body⟩ := by
  obtain ⟨raw, there, rfl⟩ := getElem?_sourceLines.1 found
  obtain ⟨given, body, parts⟩ := exists_parts (before ';' raw)
  rw [ofRaw_of_parts parts]
  exact ⟨body, ⟨index, raw, rfl, there, parts⟩, rfl⟩

theorem defines_iff : Defines source name ↔ ∃ line ∈ sourceLines source, name ∈ line.labels := by
  constructor
  · rintro ⟨number, given, body, holds, mem⟩
    obtain ⟨index, -, found⟩ := line_of_holds holds
    exact ⟨_, List.mem_of_getElem? found, mem⟩
  · rintro ⟨line, listed, mem⟩
    obtain ⟨index, found⟩ := List.mem_iff_getElem?.1 listed
    obtain ⟨body, holds, -⟩ := exists_holds found
    exact ⟨_, _, body, holds, mem⟩

theorem states_iff : States source number keyword operands ↔
    ∃ line ∈ sourceLines source, ∃ s, line.stated = some s ∧ s.line = number ∧
      s.keyword = keyword ∧ s.operands = operands := by
  constructor
  · rintro ⟨given, body, word, tail, holds, first, known, rfl⟩
    obtain ⟨index, -, found⟩ := line_of_holds holds
    have read := statement?_of_firstWord first number given
    rw [ofName?_eq_some_iff.2 known] at read
    exact ⟨_, List.mem_of_getElem? found, _, stated_of_ok read, rfl, rfl, rfl⟩
  · rintro ⟨line, listed, s, stated, rfl, rfl, rfl⟩
    obtain ⟨index, found⟩ := List.mem_iff_getElem?.1 listed
    obtain ⟨body, holds, same⟩ := exists_holds found
    rw [same] at stated
    rcases blanks_or_firstWord body with blank | ⟨word, tail, first⟩
    · cases (stated_of_ok (statement?_of_blanks blank _ _)).symm.trans stated
    · have read := statement?_of_firstWord first (index + 1) line.labels
      cases known : Keyword.ofName? (lowercase word) with
      | none =>
        rw [known] at read
        rw [Line.stated, read] at stated
        cases stated
      | some keyword =>
        rw [known] at read
        cases (stated_of_ok read).symm.trans stated
        exact ⟨_, body, word, tail, holds, first, ofName?_eq_some_iff.1 known, rfl⟩

theorem lineFault_iff : LineFault source number ↔
    ∃ index, number = index + 1 ∧ RefusedAt [] (sourceLines source) index := by
  constructor
  · rintro (⟨holds, twice⟩ | ⟨holds, mem, earlier, other, defined⟩ | ⟨holds, first, unknown⟩)
    · obtain ⟨index, rfl, found⟩ := line_of_holds holds
      exact ⟨index, rfl, _, found, .inl twice⟩
    · obtain ⟨index, rfl, found⟩ := line_of_holds holds
      obtain ⟨before, rfl, there⟩ := line_of_holds other
      have taken : ((sourceLines source).take index)[before]? = _ :=
        (List.getElem?_take_of_lt (Nat.lt_of_succ_lt_succ earlier)).trans there
      refine ⟨index, rfl, _, found, .inr (.inl ⟨_, mem, ?_⟩)⟩
      exact List.mem_flatMap.2 ⟨_, List.mem_of_getElem? taken, defined⟩
    · obtain ⟨index, rfl, found⟩ := line_of_holds holds
      refine ⟨index, rfl, _, found, .inr (.inr ?_)⟩
      rw [statement?_of_firstWord first, ofName?_eq_none_iff.2 unknown]
      exact ⟨_, rfl⟩
  · rintro ⟨index, rfl, line, found, refused⟩
    obtain ⟨body, holds, same⟩ := exists_holds found
    rcases refused with twice | ⟨name, mem, defined⟩ | ⟨e, failed⟩
    · exact .twice holds twice
    · obtain ⟨other, taken, inOther⟩ := List.mem_flatMap.1 defined
      obtain ⟨before, there⟩ := List.mem_iff_getElem?.1 taken
      rw [List.getElem?_take] at there
      split at there
      · rename_i earlier
        obtain ⟨rest, holdsToo, -⟩ := exists_holds there
        exact .again holds mem (Nat.succ_lt_succ earlier) holdsToo inOther
      · cases there
    · rw [same] at failed
      rcases blanks_or_firstWord body with blank | ⟨word, tail, first⟩
      · cases (statement?_of_blanks blank _ _).symm.trans failed
      · rw [statement?_of_firstWord first] at failed
        cases known : Keyword.ofName? (lowercase word) with
        | none => exact .mnemonic holds first (ofName?_eq_none_iff.1 known)
        | some keyword =>
          rw [known] at failed
          cases failed

end Lines

section Operands

theorem exists_value_iff (domain : ∀ name, (labels.find? name).isSome ↔ Defines source name) :
    (∃ n, value labels token = .ok n) ↔ integer? token ≠ none ∨ Defines source token := by
  rw [← domain, value]
  cases integer? token with
  | some n => simp
  | none =>
    cases labels.find? token with
    | none => simp
    | some address => simp

theorem exists_encode_data_iff {text : List Char} :
    (∃ words, encode labels ⟨number, text, .data, operands⟩ = .ok words) ↔
      operands ≠ [] ∧ ∀ token ∈ operands, ∃ n, value labels token = .ok n := by
  rw [encode, ← forall_exists_iff]
  dsimp only
  simp only [← mapM_eq_ok_iff]
  by_cases empty : operands = []
  · simp [empty]
  · simp [empty]

theorem exists_encode_op_iff {text : List Char} {op : Opcode} :
    (∃ words, encode labels ⟨number, text, .op op, operands⟩ = .ok words) ↔
      operands.length = op.paramCount ∧ ∀ token ∈ operands, (Keyword.op op).bare token ≠ [] ∧
        ∃ n, value labels ((Keyword.op op).bare token) = .ok n := by
  have each (token : List Char) : (∃ o, operand labels token = .ok o) ↔
      (Keyword.op op).bare token ≠ [] ∧ ∃ n, value labels ((Keyword.op op).bare token) = .ok n := by
    simp only [operand_eq_ok_iff op]
    constructor
    · rintro ⟨o, nonempty, -, read⟩
      exact ⟨nonempty, o.value, read⟩
    · rintro ⟨nonempty, n, read⟩
      exact ⟨⟨marked token, n⟩, nonempty, rfl, read⟩
  have many : (Instruction.ofList? op operands).isSome ↔ operands.length = op.paramCount :=
    Instruction.isSome_ofList?_iff
  rw [encode, ← many]
  dsimp only
  cases listed : Instruction.ofList? op operands with
  | none => simp
  | some i =>
    obtain ⟨-, same⟩ := Instruction.ofList?_eq_some_iff.1 listed
    simp only [← each, Option.isSome_some, true_and, ← same, ← Instruction.exists_mapM_iff]
    constructor
    · rintro ⟨words, encoded⟩
      obtain ⟨j, found, -⟩ := map_eq_ok_iff.1 encoded
      exact ⟨j, found⟩
    · rintro ⟨j, found⟩
      exact ⟨j.words, map_eq_ok_iff.2 ⟨j, found, rfl⟩⟩

theorem not_defines_nil : ¬ Defines source [] := by
  rw [defines_iff]
  rintro ⟨line, listed, mem⟩
  cases isLabel_of_mem_labels listed mem

theorem exists_encode_iff (domain : ∀ name, (labels.find? name).isSome ↔ Defines source name) :
    (∃ words, encode labels s = .ok words) ↔ ¬ Misfit source s.keyword s.operands := by
  obtain ⟨line, text, keyword, operands⟩ := s
  have read (fits : ¬ Misfit source keyword operands) {token : List Char} (mem : token ∈ operands) :
      integer? (keyword.bare token) ≠ none ∨ Defines source (keyword.bare token) := by
    by_contra neither
    obtain ⟨unread, undefined⟩ := not_or.1 neither
    exact fits (.value mem (not_not.1 unread) undefined)
  cases keyword with
  | data =>
    rw [exists_encode_data_iff]
    constructor
    · rintro ⟨nonempty, each⟩ (_ | _ | _ | ⟨mem, unread, undefined⟩)
      · exact nonempty rfl
      · rcases (exists_value_iff domain).1 (each _ mem) with numeral | defined
        · exact numeral unread
        · exact undefined defined
    · intro fits
      constructor
      · rintro rfl
        exact fits .noData
      · intro token mem
        exact (exists_value_iff domain).2 (read fits mem)
  | op op =>
    rw [exists_encode_op_iff]
    constructor
    · rintro ⟨many, each⟩ (other | _ | ⟨mem, known, blank⟩ | ⟨mem, unread, undefined⟩)
      · exact other many
      · exact (each _ mem).1 (by simp [Keyword.bare, known, strip_of_blanks blank])
      · rcases (exists_value_iff domain).1 (each _ mem).2 with numeral | defined
        · exact numeral unread
        · exact undefined defined
    · intro fits
      constructor
      · by_contra other
        exact fits (.count other)
      · intro token mem
        refine ⟨?_, (exists_value_iff domain).2 (read fits mem)⟩
        intro empty
        rcases read fits mem with numeral | defined
        · exact numeral (empty ▸ rfl)
        · exact not_defines_nil (empty ▸ defined)

end Operands

end IntcodeVM.Assembly
