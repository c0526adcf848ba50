import IntcodeVM.Fault

/-!
Memory of a fixed size: the words of a program and zero cells after them. Every access is checked
against both ends. Main statements: a write shows at its own address and nowhere else, and no write
changes the size.
-/

namespace IntcodeVM

/-- Cells, and how many of them the program took when it was loaded. -/
structure Memory where
  cells : Array Int
  programSize : Nat
  programSize_le : programSize ≤ cells.size := by simp

namespace Memory

def ofWords (words : List Int) (scratch : Nat) : Memory where
  cells := words.toArray ++ Array.replicate scratch 0
  programSize := words.length

inductive ScratchError where
  | negative (size : Int)
  /-- More cells than an index of 63 bits can count. -/
  | uncountable
  /-- More cells than any machine has room for. -/
  | exhausting
  deriving DecidableEq, Repr

def ScratchError.message : ScratchError → String
  | negative size => s!"scratch must be >= 0, got {size}"
  | uncountable => "cannot fit 'int' into an index-sized integer"
  | exhausting => ""

def roomLimit : Int := Int.pow 2 32

def ofWords? (words : List Int) (scratch : Int) : Except ScratchError Memory :=
  if scratch < 0 then .error (.negative scratch)
  else if Int.pow 2 63 ≤ scratch then .error .uncountable
  else if roomLimit ≤ scratch then .error .exhausting
  else .ok (ofWords words scratch.toNat)

def size (m : Memory) : Nat := m.cells.size

def toList (m : Memory) : List Int := m.cells.toList

def index (m : Memory) (addr : Int) : Except Cause Nat :=
  if addr < 0 then .error (.negativeAddress addr)
  else if m.size ≤ addr.toNat then .error (.outOfBounds addr m.size)
  else .ok addr.toNat

def put (m : Memory) (i : Nat) (value : Int) : Memory where
  cells := m.cells.setIfInBounds i value
  programSize := m.programSize
  programSize_le := by simpa using m.programSize_le

def map (f : Int → Int) (m : Memory) : Memory where
  cells := m.cells.map f
  programSize := m.programSize
  programSize_le := by simpa using m.programSize_le

def read (m : Memory) (addr : Int) : Except Cause Int :=
  if addr < 0 then .error (.negativeAddress addr)
  else if h : addr.toNat < m.cells.size then .ok m.cells[addr.toNat]
  else .error (.outOfBounds addr m.size)

def write (m : Memory) (addr value : Int) : Except Cause Memory :=
  match m.index addr with
  | .error cause => .error cause
  | .ok i => .ok (m.put i value)

/-- The words from an address on; both ends of the range are checked, the first one first. A range
without words is never outside. -/
def slice (m : Memory) (addr count : Int) : Except Cause (List Int) :=
  if count ≤ 0 then .ok []
  else do
    let first ← m.index addr
    let last ← m.index (addr + count - 1)
    return (m.cells.extract first (last + 1)).toList

def changes (earlier later : Memory) : List (Nat × Int) :=
  ((earlier.toList.zip later.toList).zipIdx.filter fun ((old, new), _) => old != new).map
    fun ((_, new), i) => (i, new)

@[ext]
theorem ext {m n : Memory} (hc : m.cells = n.cells) (hp : m.programSize = n.programSize) :
    m = n := by
  cases m; cases n; simp_all

@[simp] theorem size_put (m : Memory) (i : Nat) (v : Int) : (m.put i v).size = m.size := by
  simp [put, size]

@[simp] theorem size_ofWords (words : List Int) (scratch : Nat) :
    (ofWords words scratch).size = words.length + scratch := by
  simp [ofWords, size]

theorem index_eq_ok_iff {m : Memory} {addr : Int} {i : Nat} :
    m.index addr = .ok i ↔ addr = i ∧ i < m.size := by
  unfold index
  split
  · constructor
    · rintro ⟨⟩
    · rintro ⟨rfl, _⟩; omega
  · split
    · constructor
      · rintro ⟨⟩
      · rintro ⟨rfl, _⟩; omega
    · constructor
      · rintro ⟨⟩; omega
      · rintro ⟨rfl, _⟩; simp

theorem read_eq_ok_iff {m : Memory} {addr v : Int} :
    m.read addr = .ok v ↔ 0 ≤ addr ∧ m.cells[addr.toNat]? = some v := by
  unfold read
  split
  · constructor
    · rintro ⟨⟩
    · rintro ⟨_, _⟩; omega
  · split
    · next h =>
      rw [Array.getElem?_eq_getElem h]
      constructor
      · rintro ⟨⟩; exact ⟨by omega, rfl⟩
      · rintro ⟨_, hv⟩; rw [Option.some.inj hv]
    · next h =>
      rw [Array.getElem?_eq_none (by omega)]
      simp

theorem read_put {m : Memory} {i : Nat} {addr value : Int} (h : i < m.size) :
    (m.put i value).read addr = if addr = i then .ok value else m.read addr := by
  have hi : i < m.cells.size := h
  unfold read put
  by_cases ha : addr = i
  · subst ha
    simp [hi]
  · by_cases hn : addr < 0
    · simp [ha, hn]
    · have hne : i ≠ addr.toNat := by omega
      simp only [ha, hn, Array.size_setIfInBounds, size, if_false]
      split
      · next hs => rw [Array.getElem_setIfInBounds_ne hs hne]
      · rfl

end Memory

end IntcodeVM
