import IntcodeVM.Hull.Panels
import Std.Data.ExtTreeSet

/-!
The painting robot without its machine. It is told values in turn: a color for the panel under it,
then a turn after which it moves one cell ahead.
-/

namespace IntcodeVM.Hull

def origin : Cell := (0, 0)

/-- What the robot has done so far. `painted` holds every cell painted at least once. -/
structure Painter where
  panels : Panels := {}
  painted : Std.ExtTreeSet Cell Cell.order := ∅
  position : Cell := origin
  heading : Heading := .up
  expectsColor : Bool := true
  moves : Nat := 0

namespace Painter

def start (color : Int) : Painter := { panels := ({} : Panels).paint origin color }

def paint (p : Painter) (color : Int) : Painter :=
  { p with
    panels := p.panels.paint p.position color
    painted := p.painted.insert p.position
    expectsColor := false }

def move (p : Painter) (command : Int) : Painter :=
  let heading := p.heading.turn command
  { p with
    heading
    position := p.position.ahead heading
    moves := p.moves + 1
    expectsColor := true }

def consume (p : Painter) (value : Int) : Painter :=
  if p.expectsColor then p.paint value else p.move value

def view (p : Painter) : Int := p.panels.colorAt p.position

def paintedCount (p : Painter) : Nat := p.painted.size

def paintedCells (p : Painter) : List Cell := p.painted.toList

end Painter

end IntcodeVM.Hull
