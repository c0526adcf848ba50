import IntcodeVM.Diagnostic
import IntcodeVM.Hull.Picture
import IntcodeVM.Text.BinarySize

/-!
Pictures that are too large to be had. The sides of a picture are counted in 63 bits, those of an
enlarged picture in 31 bits, and there has to be room for all pixels, one byte each.
-/

namespace IntcodeVM.Hull

inductive SizeProblem where
  | longSide
  | largeArea
  | noRoom (height width : Nat)
  /-- A side of an enlarged picture does not fit into a machine word. -/
  | wordOverflow
  /-- A side of an enlarged picture does not fit into half a machine word. -/
  | sideOverflow
  | noRoomEnlarged
  deriving DecidableEq, Repr

def SizeProblem.message : SizeProblem → String
  | longSide => "Maximum allowed dimension exceeded"
  | largeArea =>
    "array is too big; `arr.size * arr.dtype.itemsize` is larger than the maximum possible size."
  | noRoom height width =>
    "Unable to allocate " ++ Text.binarySize (height * width) ++
      s!" for an array with shape ({height}, {width}) and data type uint8"
  | wordOverflow => "Python int too large to convert to C long"
  | sideOverflow => "signed integer is greater than maximum"
  | noRoomEnlarged => ""

def SizeProblem.diagnostic (p : SizeProblem) : Diagnostic :=
  match p with
  | longSide | largeArea => .badValue p.message
  | wordOverflow | sideOverflow => .overflow p.message
  | noRoom .. | noRoomEnlarged => .exhausted p.message

def pixelLimit : Nat := Nat.pow 2 36

def rowLimit : Nat := Nat.pow 2 29 - 2

def Panels.sizeProblem? (p : Panels) : Option SizeProblem :=
  let height := p.bounds.height
  let width := p.bounds.width
  if Nat.pow 2 63 ≤ max height width then some .longSide
  else if Nat.pow 2 63 ≤ height * width then some .largeArea
  else if pixelLimit ≤ height * width then some (.noRoom height width)
  else none

def sideProblem? (side : Nat) : Option SizeProblem :=
  if Nat.pow 2 63 ≤ side then some .wordOverflow
  else if Nat.pow 2 31 ≤ side then some .sideOverflow
  else none

/-- The problem with enlarging a picture of the panels; a scale below two changes nothing. -/
def Panels.enlargementProblem? (p : Panels) (scale : Int) : Option SizeProblem :=
  let height := p.bounds.height * scale.toNat
  let width := p.bounds.width * scale.toNat
  if scale ≤ 1 then none
  else ((sideProblem? width).or (sideProblem? height)).or
    (if rowLimit < width || pixelLimit ≤ height * width then some .noRoomEnlarged else none)

namespace Panels

def picture (p : Panels) : Except SizeProblem Picture :=
  match p.sizeProblem? with
  | some problem => .error problem
  | none => .ok (.ofPanels p)

def enlargedPicture (p : Panels) (scale : Int) : Except SizeProblem Picture := do
  let picture ← p.picture
  match p.enlargementProblem? scale with
  | some problem => throw problem
  | none => return picture.enlarge scale

end Panels

end IntcodeVM.Hull
