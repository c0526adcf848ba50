import IntcodeVM.Hull.Picture
import Mathlib.Order.MinMax

namespace IntcodeVM.Hull

namespace Bounds

/-- A smallest box around the known cells: all are inside, and there is one at every side. -/
structure Tight (b : Bounds) (known : Cell → Prop) : Prop where
  inside {cell : Cell} : known cell →
    (b.minX ≤ cell.1 ∧ cell.1 ≤ b.maxX) ∧ b.minY ≤ cell.2 ∧ cell.2 ≤ b.maxY
  left : ∃ cell, known cell ∧ cell.1 = b.minX
  right : ∃ cell, known cell ∧ cell.1 = b.maxX
  bottom : ∃ cell, known cell ∧ cell.2 = b.minY
  top : ∃ cell, known cell ∧ cell.2 = b.maxY

namespace Tight

variable {b c : Bounds} {known other : Cell → Prop}

/-- A smallest box is in every box around the same cells, so there is only one. -/
theorem unique (tight : b.Tight known) (again : c.Tight known) : b = c := by
  obtain ⟨inside, ⟨l, knownL, left⟩, ⟨r, knownR, right⟩, ⟨d, knownD, bottom⟩, u, knownU, top⟩ := tight
  obtain ⟨inside', ⟨l', knownL', left'⟩, ⟨r', knownR', right'⟩, ⟨d', knownD', bottom'⟩,
    u', knownU', top'⟩ := again
  obtain ⟨minX, minY, maxX, maxY⟩ := b
  obtain ⟨minX', minY', maxX', maxY'⟩ := c
  have := inside knownL'
  have := inside knownR'
  have := inside knownD'
  have := inside knownU'
  have := inside' knownL
  have := inside' knownR
  have := inside' knownD
  have := inside' knownU
  simp only [mk.injEq] at *
  omega

theorem congr (tight : b.Tight known) (same : ∀ cell, known cell ↔ other cell) : b.Tight other :=
  funext (fun cell => propext (same cell)) ▸ tight

theorem touched {side : Cell → Int} {at' moved : Int} {cell : Cell}
    (touch : ∃ c, known c ∧ side c = at') (moves : moved = at' ∨ moved = side cell) :
    ∃ c, (known c ∨ c = cell) ∧ side c = moved := by
  rcases moves with rfl | rfl
  · obtain ⟨c, knows, same⟩ := touch
    exact ⟨c, .inl knows, same⟩
  · exact ⟨cell, .inr rfl, rfl⟩

theorem extend (tight : b.Tight known) (cell : Cell) :
    (b.extend cell).Tight fun c => known c ∨ c = cell where
  inside := by
    rintro c (knows | rfl)
    · have := tight.inside knows
      simp only [Bounds.extend]
      omega
    · simp only [Bounds.extend]
      omega
  left := touched tight.left (min_choice ..)
  right := touched tight.right (max_choice ..)
  bottom := touched tight.bottom (min_choice ..)
  top := touched tight.top (max_choice ..)

theorem foldl (tight : b.Tight known) (cells : List Cell) :
    (cells.foldl Bounds.extend b).Tight fun c => known c ∨ c ∈ cells := by
  induction cells generalizing b known with
  | nil => exact tight.congr fun cell => by simp
  | cons cell rest ih =>
    exact (ih (tight.extend cell)).congr fun c => by simp [or_assoc]

theorem shifted (tight : b.Tight known) (dx dy : Int) :
    Tight ⟨b.minX + dx, b.minY + dy, b.maxX + dx, b.maxY + dy⟩
      fun cell => known (cell.1 - dx, cell.2 - dy) where
  inside knows := by
    have := tight.inside knows
    dsimp only at this ⊢
    omega
  left := by
    obtain ⟨cell, knows, same⟩ := tight.left
    exact ⟨(cell.1 + dx, cell.2 + dy), by simpa using knows, congrArg (· + dx) same⟩
  right := by
    obtain ⟨cell, knows, same⟩ := tight.right
    exact ⟨(cell.1 + dx, cell.2 + dy), by simpa using knows, congrArg (· + dx) same⟩
  bottom := by
    obtain ⟨cell, knows, same⟩ := tight.bottom
    exact ⟨(cell.1 + dx, cell.2 + dy), by simpa using knows, congrArg (· + dy) same⟩
  top := by
    obtain ⟨cell, knows, same⟩ := tight.top
    exact ⟨(cell.1 + dx, cell.2 + dy), by simpa using knows, congrArg (· + dy) same⟩

end Tight

theorem tight_ofCells {cells : List Cell} (some : cells ≠ []) : (ofCells cells).Tight (· ∈ cells) := by
  obtain ⟨cell, rest, rfl⟩ := List.exists_cons_of_ne_nil some
  have one : Tight ⟨cell.1, cell.2, cell.1, cell.2⟩ (· = cell) := by
    refine ⟨?_, ⟨cell, rfl, rfl⟩, ⟨cell, rfl, rfl⟩, ⟨cell, rfl, rfl⟩, ⟨cell, rfl, rfl⟩⟩
    rintro c rfl
    exact ⟨⟨le_rfl, le_rfl⟩, le_rfl, le_rfl⟩
  exact (one.foldl rest).congr fun c => by simp

theorem ofCells_perm {cells others : List Cell} (order : cells.Perm others) :
    ofCells cells = ofCells others := by
  cases others with
  | nil => rw [order.eq_nil]
  | cons cell rest =>
    have some : cells ≠ [] := fun none => by simp [none] at order
    have same := (tight_ofCells some).congr fun cell => order.mem_iff
    exact same.unique (tight_ofCells (List.cons_ne_nil cell rest))

end Bounds

end IntcodeVM.Hull
