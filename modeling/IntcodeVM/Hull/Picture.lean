import IntcodeVM.Hull.Panels

namespace IntcodeVM.Hull

structure Bounds where
  minX : Int
  minY : Int
  maxX : Int
  maxY : Int
  deriving DecidableEq, Repr

namespace Bounds

def extend (b : Bounds) (cell : Cell) : Bounds :=
  ⟨min b.minX cell.1, min b.minY cell.2, max b.maxX cell.1, max b.maxY cell.2⟩

/-- The smallest box around the cells; without cells it holds the origin alone. -/
def ofCells : List Cell → Bounds
  | [] => ⟨0, 0, 0, 0⟩
  | cell :: rest => rest.foldl extend ⟨cell.1, cell.2, cell.1, cell.2⟩

def width (b : Bounds) : Nat := (b.maxX - b.minX + 1).toNat

def height (b : Bounds) : Nat := (b.maxY - b.minY + 1).toNat

end Bounds

def Panels.bounds (p : Panels) : Bounds := .ofCells (p.toList.map Prod.fst)

structure Picture where
  rows : Array (Array Bool)
  deriving DecidableEq, Repr

namespace Picture

def dark (width height : Nat) : Picture := ⟨.replicate height (.replicate width false)⟩

def light (p : Picture) (row column : Nat) : Picture :=
  ⟨p.rows.modify row fun r => r.setIfInBounds column true⟩

def ofPanels (p : Panels) : Picture :=
  let b := p.bounds
  p.toList.foldl
    (fun picture (cell, color) =>
      if color = black then picture
      else picture.light (b.maxY - cell.2).toNat (cell.1 - b.minX).toNat)
    (dark b.width b.height)

def width (p : Picture) : Nat := (p.rows[0]?.map Array.size).getD 0

def height (p : Picture) : Nat := p.rows.size

def level (lit : Bool) : Nat := if lit then 255 else 0

def text (lit unlit : String) (p : Picture) : String :=
  "\n".intercalate
    (p.rows.toList.map fun row => "".intercalate (row.toList.map fun b => if b then lit else unlit))

/-- Each pixel as a square of pixels; a size below one counts as one. -/
def enlarge (size : Int) (p : Picture) : Picture :=
  let n := max 1 size.toNat
  ⟨p.rows.flatMap fun row => .replicate n (row.flatMap (Array.replicate n))⟩

end Picture

end IntcodeVM.Hull
