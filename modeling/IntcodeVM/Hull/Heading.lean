namespace IntcodeVM.Hull

/-- A place on the hull: across, then up. -/
abbrev Cell := Int × Int

inductive Heading where
  | up
  | right
  | down
  | left
  deriving DecidableEq, Repr

namespace Heading

def delta : Heading → Cell
  | up => (0, 1)
  | right => (1, 0)
  | down => (0, -1)
  | left => (-1, 0)

def turnRight : Heading → Heading
  | up => right
  | right => down
  | down => left
  | left => up

def turnLeft : Heading → Heading
  | up => left
  | left => down
  | down => right
  | right => up

def turn (h : Heading) (command : Int) : Heading :=
  if command = 0 then h.turnLeft else h.turnRight

def turns (h : Heading) : List Int → List Heading
  | [] => []
  | command :: rest => h.turn command :: (h.turn command).turns rest

@[simp] theorem turnLeft_turnRight (h : Heading) : h.turnRight.turnLeft = h := by
  cases h <;> rfl

end Heading

def Cell.ahead (cell : Cell) (h : Heading) : Cell :=
  (cell.1 + h.delta.1, cell.2 + h.delta.2)

end IntcodeVM.Hull
