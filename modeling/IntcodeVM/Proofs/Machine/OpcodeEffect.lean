import IntcodeVM.Proofs.Instruction.Parameters
import IntcodeVM.Proofs.Machine.PortAction

namespace IntcodeVM

def Opcode.Allows : Opcode → Effect → Prop
  | .add, .store _ _ | .mul, .store _ _ | .lessThan, .store _ _ | .equals, .store _ _ => True
  | .input, .take _ => True
  | .output, .emit _ => True
  | .jumpIfTrue, .jump _ | .jumpIfTrue, .fallThrough => True
  | .jumpIfFalse, .jump _ | .jumpIfFalse, .fallThrough => True
  | .adjustBase, .shift _ => True
  | .halt, .halt => True
  | _, _ => False

theorem Opcode.eq_input_of_allows {op : Opcode} {dst : Int} (h : op.Allows (.take dst)) :
    op = .input := by
  cases op with
  | input => rfl
  | add | mul | output | jumpIfTrue | jumpIfFalse | lessThan | equals | adjustBase | halt =>
    cases h

theorem Opcode.eq_output_of_allows {op : Opcode} {value : Int} (h : op.Allows (.emit value)) :
    op = .output := by
  cases op with
  | output => rfl
  | add | mul | input | jumpIfTrue | jumpIfFalse | lessThan | equals | adjustBase | halt =>
    cases h

theorem Opcode.eq_halt_of_allows {op : Opcode} (h : op.Allows .halt) : op = .halt := by
  cases op with
  | halt => rfl
  | add | mul | input | output | jumpIfTrue | jumpIfFalse | lessThan | equals | adjustBase =>
    cases h

namespace Instruction

variable {α : Type}

theorem allows_of_effect {m : Memory} {i : Instruction Int} {effect : Effect}
    (h : i.effect m = .ok effect) : i.opcode.Allows effect := by
  cases i with
  | input _ | halt =>
    cases h
    trivial
  | output _ | adjustBase _ =>
    obtain ⟨_, _, same⟩ := map_eq_ok_iff.1 h
    cases same
    trivial
  | jumpIfTrue _ _ | jumpIfFalse _ _ =>
    obtain ⟨_, _, h⟩ := bind_eq_ok_iff.1 h
    split at h
    · obtain ⟨_, _, same⟩ := map_eq_ok_iff.1 h
      cases same
      trivial
    · cases h
      trivial
  | add _ _ _ | mul _ _ _ | lessThan _ _ _ | equals _ _ _ =>
    obtain ⟨_, _, h⟩ := bind_eq_ok_iff.1 h
    obtain ⟨_, _, h⟩ := bind_eq_ok_iff.1 h
    obtain ⟨_, _, same⟩ := map_eq_ok_iff.1 h
    cases same
    trivial

theorem index_of_store {m : Memory} {i : Instruction Int} {cell : Nat} {value : Int}
    (h : i.effect m = .ok (.store cell value)) : ∃ dst ∈ i.toList, m.index dst = .ok cell := by
  cases i with
  | halt | input _ => cases h
  | output _ | adjustBase _ =>
    obtain ⟨_, _, same⟩ := map_eq_ok_iff.1 h
    cases same
  | jumpIfTrue _ _ | jumpIfFalse _ _ =>
    obtain ⟨_, _, h⟩ := bind_eq_ok_iff.1 h
    split at h
    · obtain ⟨_, _, same⟩ := map_eq_ok_iff.1 h
      cases same
    · cases h
  | add _ _ dst | mul _ _ dst | lessThan _ _ dst | equals _ _ dst =>
    obtain ⟨_, _, h⟩ := bind_eq_ok_iff.1 h
    obtain ⟨_, _, h⟩ := bind_eq_ok_iff.1 h
    obtain ⟨_, found, same⟩ := map_eq_ok_iff.1 h
    cases same
    exact ⟨dst, by simp [toList], found⟩

theorem eq_input_of_opcode {i : Instruction α} (h : i.opcode = .input) : ∃ a, i = .input a := by
  cases i with
  | input a => exact ⟨a, rfl⟩
  | add | mul | output | jumpIfTrue | jumpIfFalse | lessThan | equals | adjustBase | halt =>
    cases h

end Instruction

namespace Cpu

theorem opcode_of_locate {m : Memory} {base first : Int} {i : Instruction Mode}
    {located : Instruction Int} (h : locate m base first i = .ok located) :
    located.opcode = i.opcode :=
  (Instruction.opcode_of_mapM h).trans i.opcode_numbered

theorem prepare_eq_ok_iff {cpu : Cpu} {word : Int} {op : Opcode} {effect : Effect} :
    cpu.prepare word = .ok (op, effect) ↔
      ∃ decoded located, Instruction.decode word = .ok decoded ∧
        locate cpu.memory cpu.base (cpu.ip + 1) decoded = .ok located ∧
        located.effect cpu.memory = .ok effect ∧ decoded.opcode = op := by
  constructor
  · intro h
    obtain ⟨decoded, hd, h⟩ := bind_eq_ok_iff.1 h
    obtain ⟨located, hl, h⟩ := bind_eq_ok_iff.1 h
    obtain ⟨found, he, same⟩ := map_eq_ok_iff.1 h
    cases same
    exact ⟨decoded, located, hd, hl, he, rfl⟩
  · rintro ⟨decoded, located, hd, hl, he, rfl⟩
    simp [prepare, hd, hl, he]

variable {cpu next : Cpu} {op : Opcode} {effect : Effect} {action : PortAction}

theorem Intends.allows (h : cpu.Intends op effect) : op.Allows effect := by
  obtain ⟨_, word, _, prepared⟩ := h
  obtain ⟨decoded, located, _, found, evaluated, rfl⟩ := prepare_eq_ok_iff.1 prepared
  rw [← opcode_of_locate found]
  exact Instruction.allows_of_effect evaluated

theorem Acts.output_recorded (acts : cpu.Acts .output action next) :
    ∃ value, next.lastOutput = some value := by
  cases acts with
  | emit h => exact ⟨_, rfl⟩
  | store h | jump h | fallThrough h | shift h | halt h => cases h.allows

theorem Acts.output_sent (acts : cpu.Acts .output action next) :
    ∃ value, action = .sent value ∧ next.lastOutput = some value := by
  cases acts with
  | emit h => exact ⟨_, rfl, rfl⟩
  | store h | jump h | fallThrough h | shift h | halt h => cases h.allows

theorem Acts.eq_output_of_sent {value : Int} (acts : cpu.Acts op (.sent value) next) :
    op = .output := by
  cases acts with
  | emit h => exact Opcode.eq_output_of_allows h.allows

theorem Acts.halts (acts : cpu.Acts .halt action next) : next.halted = true := by
  cases acts with
  | halt h => rfl
  | store h | jump h | fallThrough h | shift h | emit h => cases h.allows

theorem Acts.goes_on (acts : cpu.Acts op action next) (h : op ≠ .halt) :
    next.halted = cpu.halted := by
  cases acts with
  | halt intends => exact absurd (Opcode.eq_halt_of_allows intends.allows) h
  | store | jump | fallThrough | shift | phase | take | emit => rfl

theorem Acts.counted (acts : cpu.Acts op action next) : next.steps = cpu.steps + 1 := by
  cases acts <;> rfl

end Cpu

end IntcodeVM
