import IntcodeVM.Proofs.Instruction.ClearedModes
import IntcodeVM.Proofs.Machine.OpcodeEffect

namespace IntcodeVM

variable {ε α β γ : Type}

theorem mapError_bind {δ : Type} (x : Except ε α) (f : α → Except ε β) (g : ε → δ) :
    (x >>= f).mapError g = x.mapError g >>= fun a => (f a).mapError g := by
  cases x <;> rfl

namespace Memory

variable {m : Memory} {f : Int → Int → Int} {addr value : Int} {i : Nat}

def rewritten (m : Memory) (f : Int → Int → Int) : Memory where
  cells := m.cells.mapIdx fun i => f i
  programSize := m.programSize
  programSize_le := by simpa using m.programSize_le

theorem size_rewritten (m : Memory) (f : Int → Int → Int) : (m.rewritten f).size = m.size := by
  simp [size, rewritten]

theorem read_rewritten (m : Memory) (f : Int → Int → Int) (addr : Int) :
    (m.rewritten f).read addr = f addr <$> m.read addr := by
  unfold read
  by_cases low : addr < 0
  · simp [low]
  · have place : ((addr.toNat : Nat) : Int) = addr := by omega
    by_cases inside : addr.toNat < m.cells.size
    · simp [low, inside, rewritten, place]
    · simp [low, inside, rewritten, size]

theorem index_rewritten (m : Memory) (f : Int → Int → Int) (addr : Int) :
    (m.rewritten f).index addr = m.index addr := by
  rw [index, size_rewritten]
  rfl

theorem put_rewritten (stays : f i value = value) :
    (m.rewritten f).put i value = (m.put i value).rewritten f := by
  apply ext
  · simp [put, rewritten, stays]
  · rfl

end Memory

/-- The same cause where the chosen parameters are positions. -/
def Cause.anchored (chosen : List Nat) : Cause → Cause
  | negativeOperand addr mode index =>
    .negativeOperand addr (if index ∈ chosen then .position else mode) index
  | cause => cause

section

variable (m : Memory) (chosen : List Nat)

theorem mapError_read (addr : Int) :
    (m.read addr).mapError (Cause.anchored chosen) = m.read addr := by
  unfold Memory.read
  split
  · rfl
  · split <;> rfl

theorem mapError_index (addr : Int) :
    (m.index addr).mapError (Cause.anchored chosen) = m.index addr := by
  unfold Memory.index
  split
  · rfl
  · split <;> rfl

end

namespace Instruction

variable {f g : α → Except ε β}

theorem mapM_mapError {δ : Type} (f : α → Except ε β) (g : ε → δ) (i : Instruction α) :
    (i.mapM f).mapError g = i.mapM fun a => (f a).mapError g := by
  cases i <;> simp [mapM, mapError_bind]

theorem mapM_of_map (f : β → Except ε γ) (g : α → β) (i : Instruction α) :
    (i.map g).mapM f = i.mapM fun a => f (g a) := by
  cases i <;> rfl

theorem mapM_congr {i : Instruction α} (same : ∀ a ∈ i.toList, f a = g a) : i.mapM f = i.mapM g := by
  cases i <;> simp_all [mapM, toList]

theorem mem_numbered_iff {i : Instruction α} {k : Nat} {a : α} :
    (k, a) ∈ i.numbered.toList ↔ i.toList[k]? = some a := by
  rw [toList_numbered]
  simp [List.mem_zipIdx_iff_getElem?]

/-- What an instruction comes to hangs on memory only through the cells that it leads to. -/
theorem effect_congr {i : Instruction Int} {m n : Memory}
    (reads : ∀ addr ∈ i.toList, n.read addr = m.read addr)
    (indices : ∀ addr, n.index addr = m.index addr) : i.effect n = i.effect m := by
  cases i <;> simp_all [effect, toList]

theorem mapError_effect (i : Instruction Int) (m : Memory) (chosen : List Nat) :
    (i.effect m).mapError (Cause.anchored chosen) = i.effect m := by
  have read := mapError_read m chosen
  have index := mapError_index m chosen
  cases i with
  | jumpIfTrue a b | jumpIfFalse a b =>
    simp only [effect, mapError_bind, read]
    congr 1
    funext cond
    split <;> simp [mapError_bind, read]
  | add | mul | input | output | lessThan | equals | adjustBase | halt =>
    simp [effect, mapError_bind, read, index]

end Instruction

namespace Cpu

variable {cpu : Cpu} {chosen : List Nat} {word addr : Int} {i : Instruction Mode}

/-- The cells in which an anchored instruction differs: the chosen parameters and, if there are any, its
word. -/
def Rewrites (cpu : Cpu) (chosen : List Nat) (addr : Int) : Prop :=
  ∃ index ∈ chosen, addr = cpu.ip ∨ addr = cpu.ip + 1 + index

def anchorWord (cpu : Cpu) (chosen : List Nat) (addr word : Int) : Int :=
  if addr = cpu.ip then Instruction.clearModes word chosen
  else if ∃ index ∈ chosen, addr = cpu.ip + 1 + index then cpu.base + word
  else word

/-- The same machine with its instruction anchored: the mode digits of the chosen parameters are zero,
and the parameters are the sums of the base and what they were. -/
def anchored (cpu : Cpu) (chosen : List Nat) : Cpu :=
  { cpu with memory := cpu.memory.rewritten (cpu.anchorWord chosen) }

theorem anchorWord_of_spared (spared : ¬ cpu.Rewrites chosen addr) (word : Int) :
    cpu.anchorWord chosen addr word = word := by
  have apart : ¬ ∃ index ∈ chosen, addr = cpu.ip + 1 + index :=
    fun ⟨index, mem, same⟩ => spared ⟨index, mem, .inr same⟩
  rw [anchorWord, if_neg apart, ite_eq_right_iff]
  rintro rfl
  cases chosen with
  | nil => rfl
  | cons index rest => exact absurd ⟨index, List.mem_cons_self, .inl rfl⟩ spared

theorem read_anchored_of_spared (spared : ¬ cpu.Rewrites chosen addr) (m : Memory) :
    (m.rewritten (cpu.anchorWord chosen)).read addr = m.read addr := by
  rw [Memory.read_rewritten]
  cases m.read addr with
  | error cause => rfl
  | ok word => exact congrArg Except.ok (anchorWord_of_spared spared word)

theorem read_parameter (cpu : Cpu) (chosen : List Nat) (index : Nat) :
    (cpu.anchored chosen).memory.read (cpu.ip + 1 + index) =
      (fun word => if index ∈ chosen then cpu.base + word else word) <$>
        cpu.memory.read (cpu.ip + 1 + index) := by
  have behind : ¬ cpu.ip + 1 + index = cpu.ip := by omega
  have one : (∃ k ∈ chosen, cpu.ip + 1 + (index : Int) = cpu.ip + 1 + k) ↔ index ∈ chosen := by
    constructor
    · rintro ⟨k, mem, same⟩
      have : index = k := by omega
      exact this ▸ mem
    · exact fun mem => ⟨index, mem, rfl⟩
  have same : cpu.anchorWord chosen (cpu.ip + 1 + index) =
      fun word => if index ∈ chosen then cpu.base + word else word := by
    funext word
    simp only [anchorWord, if_neg behind, one]
  rw [anchored, Memory.read_rewritten, same]

/-- A relative parameter leads where its sum leads as a position. -/
theorem operandAddress_anchored {index : Nat} {mode : Mode}
    (relative : index ∈ chosen → mode = .relative) :
    operandAddress (cpu.anchored chosen).memory cpu.base (cpu.ip + 1 + index) index
        (if index ∈ chosen then .position else mode) =
      (operandAddress cpu.memory cpu.base (cpu.ip + 1 + index) index mode).mapError
        (Cause.anchored chosen) := by
  have read := read_parameter cpu chosen index
  have untold := mapError_read cpu.memory chosen (cpu.ip + 1 + index)
  by_cases here : index ∈ chosen
  · cases relative here
    simp only [if_pos here] at read ⊢
    simp only [operandAddress, read]
    cases found : cpu.memory.read (cpu.ip + 1 + index) with
    | error cause => exact (found ▸ untold).symm
    | ok word => by_cases low : cpu.base + word < 0 <;> simp [Except.map, low, Cause.anchored, here]
  · simp only [if_neg here, id_map'] at read ⊢
    cases mode with
    | immediate =>
      by_cases low : cpu.ip + 1 + (index : Int) < 0 <;>
        simp [operandAddress, low, Cause.anchored, here]
    | position | relative =>
      simp only [operandAddress, read]
      cases found : cpu.memory.read (cpu.ip + 1 + index) with
      | error cause => exact (found ▸ untold).symm
      | ok word =>
        simp only [Except.map, ok_bind]
        split <;> simp [Cause.anchored, here]

theorem locate_anchored (relative : ∀ index ∈ chosen, i.toList[index]? = some .relative) :
    locate (cpu.anchored chosen).memory cpu.base (cpu.ip + 1) (i.anchored chosen) =
      (locate cpu.memory cpu.base (cpu.ip + 1) i).mapError (Cause.anchored chosen) := by
  have numbered : (i.anchored chosen).numbered =
      i.numbered.map fun slot => (slot.1, if slot.1 ∈ chosen then .position else slot.2) := by
    cases i <;> rfl
  rw [locate, locate, numbered, Instruction.mapM_of_map, Instruction.mapM_mapError]
  apply Instruction.mapM_congr
  rintro ⟨index, mode⟩ mem
  apply operandAddress_anchored
  intro here
  have found := Instruction.mem_numbered_iff.1 mem
  exact Option.some.inj (found.symm.trans (relative index here))

/-- None of the addresses that the parameters lead to is that of a cell in which the anchored instruction
differs. -/
def LeadsApart (cpu : Cpu) (chosen : List Nat) (i : Instruction Mode) : Prop :=
  ∀ located, locate cpu.memory cpu.base (cpu.ip + 1) i = .ok located →
    ∀ addr ∈ located.toList, ¬ cpu.Rewrites chosen addr

theorem prepare_anchored (decoded : Instruction.decode word = .ok i)
    (relative : ∀ index ∈ chosen, i.toList[index]? = some .relative)
    (apart : cpu.LeadsApart chosen i) :
    (cpu.anchored chosen).prepare (Instruction.clearModes word chosen) =
      (cpu.prepare word).mapError (Cause.anchored chosen) := by
  have located : locate (cpu.anchored chosen).memory (cpu.anchored chosen).base
      ((cpu.anchored chosen).ip + 1) (i.anchored chosen) = _ := locate_anchored relative
  simp only [prepare, decoded, Instruction.decode_clearModes decoded, ok_bind, located]
  cases found : locate cpu.memory cpu.base (cpu.ip + 1) i with
  | error cause => rfl
  | ok addresses =>
    have effect : addresses.effect (cpu.anchored chosen).memory = addresses.effect cpu.memory :=
      Instruction.effect_congr
        (fun addr mem => read_anchored_of_spared (apart addresses found addr mem) _)
        fun addr => Memory.index_rewritten _ _ addr
    simp only [mapError_ok, ok_bind, mapError_bind, effect, Instruction.mapError_effect,
      Instruction.opcode_anchored]
    rfl

end Cpu

end IntcodeVM
