import IntcodeVM.Memory
import IntcodeVM.Operand
import IntcodeVM.Text.Legible

/-!
Disassembly: memory cut into chunks, each an instruction with its operands or a single word of data.
A word counts as an instruction only if assembling its text gives the word back: it decodes, all of
its parameters are inside memory, and it has no digits beyond its last mode. A listing is given up at
a number that is too long to be written.
-/

namespace IntcodeVM.Disassembly

inductive Chunk where
  /-- The address is not in memory. -/
  | outside
  | data (word : Int)
  | code (i : Instruction Operand)
  deriving DecidableEq, Repr

namespace Chunk

def size : Chunk → Nat
  | outside | data _ => 1
  | code i => i.opcode.paramCount + 1

def words : Chunk → List Int
  | outside => []
  | data word => [word]
  | code i => i.words

def text : Chunk → List Char
  | outside => ['?', '?', '?']
  | data word => ".data ".toList ++ Text.decimal word
  | code i => i.text

/-- Whether all numbers in the text of a chunk are legible. -/
def isLegible : Chunk → Bool
  | outside => true
  | data word => Text.isLegible word
  | code i => i.toList.all fun o => Text.isLegible o.value

theorem size_pos (c : Chunk) : 0 < c.size := by
  cases c <;> simp [size]

end Chunk

/-- Whether a word has digits beyond the modes of this many parameters. -/
def hasExcessDigits (word : Int) (params : Nat) : Bool :=
  word / Int.pow 10 (params + 2) ≠ 0

def chunkOf (m : Memory) (addr : Nat) (word : Int) : Chunk :=
  match Instruction.decode word with
  | .error _ => .data word
  | .ok i =>
    let params := i.opcode.paramCount
    if addr + params < m.size && !hasExcessDigits word params then
      .code (i.numbered.map fun (index, mode) => ⟨mode, m.cells[addr + 1 + index]?.getD 0⟩)
    else .data word

def chunkAt (m : Memory) (addr : Int) : Chunk :=
  if addr < 0 then .outside
  else match m.cells[addr.toNat]? with
    | none => .outside
    | some word => chunkOf m addr.toNat word

/-- The chunks from an address on, one after the other, that start before `stop`; at most as many as
the limit allows. -/
def sweep (m : Memory) (stop : Int) (limit : Option Nat) (addr : Int) : List (Int × Chunk) :=
  if addr < stop ∧ limit ≠ some 0 then
    let chunk := chunkAt m addr
    (addr, chunk) :: sweep m stop (limit.map (· - 1)) (addr + chunk.size)
  else []
termination_by (stop - addr).toNat
decreasing_by
  have := (chunkAt m addr).size_pos
  omega

/-- The listing from an address on: a number of chunks, or all up to the end of the program. -/
def chunks (m : Memory) (addr : Int) (count : Option Int) : List (Int × Chunk) :=
  match count with
  | none => sweep m m.programSize none addr
  | some n => sweep m m.size (some n.toNat) addr

/-- The parameters that are written before a word turns out to be an instruction or not: those in
front of the first digit that is no mode. -/
def triedParameters (m : Memory) (addr : Nat) (word : Int) : List Int :=
  match word with
  | .negSucc _ => []
  | .ofNat n =>
    match Opcode.ofCode? (n % 100) with
    | none => []
    | some op =>
      if addr + op.paramCount < m.size then
        ((List.range op.paramCount).takeWhile fun index =>
          (Mode.ofDigit? (Instruction.modeDigit n index)).isSome).map
            fun index => m.cells[addr + 1 + index]?.getD 0
      else []

/-- Whether all numbers that are written for the chunk at an address are legible. -/
def isLegibleAt (m : Memory) (addr : Int) : Bool :=
  if addr < 0 then true
  else match m.cells[addr.toNat]? with
    | none => true
    | some word =>
      (triedParameters m addr.toNat word).all Text.isLegible &&
        (chunkOf m addr.toNat word).isLegible

def textsOf (listed : List (Int × Chunk)) : List (Int × List Char) :=
  listed.map fun (place, chunk) => (place, chunk.text)

/-- The texts of a listing, if all of its numbers are legible. -/
def texts? (m : Memory) (addr : Int) (count : Option Int) : Option (List (Int × List Char)) :=
  let listed := chunks m addr count
  if listed.all fun (place, _) => isLegibleAt m place then some (textsOf listed) else none

def source (texts : List (Int × List Char)) : List Char := Text.glue '\n' (texts.map Prod.snd)

def line (addr : Int) (text : List Char) : String :=
  Text.alignRight 6 (toString addr) ++ ": " ++ String.ofList text

end IntcodeVM.Disassembly
