import IntcodeVM.Hull.Heading
import Std.Data.ExtTreeMap

/-!
The panels of a hull: which cells are known and what color each has. Main statements: a painted
panel shows its new color and every other panel keeps its own; panels with the same colors are the
same; and the list of panels holds exactly the known ones.
-/

namespace IntcodeVM.Hull

def black : Int := 0
def white : Int := 1

def Cell.order : Cell → Cell → Ordering := compareLex (compareOn Prod.fst) (compareOn Prod.snd)

instance : Std.TransCmp Cell.order := inferInstanceAs (Std.TransCmp (compareLex _ _))

theorem Cell.order_eq_iff {a b : Cell} : a.order b = .eq ↔ a = b := by
  simp [order, compareLex_eq_eq, compareOn, Prod.ext_iff]

instance : Std.LawfulEqCmp Cell.order := ⟨Cell.order_eq_iff.mp⟩

structure Panels where
  colors : Std.ExtTreeMap Cell Int Cell.order := ∅

namespace Panels

def paint (p : Panels) (cell : Cell) (color : Int) : Panels := ⟨p.colors.insert cell color⟩

def color? (p : Panels) (cell : Cell) : Option Int := p.colors[cell]?

/-- The color of a cell; an unknown one is black. -/
def colorAt (p : Panels) (cell : Cell) : Int := (p.color? cell).getD black

def ofList (entries : List (Cell × Int)) : Panels :=
  entries.foldl (fun p (cell, color) => p.paint cell color) {}

def toList (p : Panels) : List (Cell × Int) := p.colors.toList

theorem color?_paint (p : Panels) (cell other : Cell) (color : Int) :
    (p.paint cell color).color? other = if other = cell then some color else p.color? other := by
  simp only [paint, color?, Std.ExtTreeMap.getElem?_insert, Cell.order_eq_iff]
  simp only [@eq_comm _ cell other]

@[ext] theorem ext_color? {p q : Panels} (h : ∀ cell, p.color? cell = q.color? cell) : p = q := by
  obtain ⟨p⟩ := p
  obtain ⟨q⟩ := q
  exact congrArg Panels.mk (Std.ExtTreeMap.ext_getElem? h)

theorem mem_toList_iff (p : Panels) (cell : Cell) (color : Int) :
    (cell, color) ∈ p.toList ↔ p.color? cell = some color := by
  simp [toList, color?, Std.ExtTreeMap.mem_toList_iff_getElem?_eq_some]

end Panels

end IntcodeVM.Hull
