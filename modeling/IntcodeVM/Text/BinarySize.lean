/-!
Numbers of bytes in binary units, to three significant digits. A size is first brought to 53 binary
digits. All rounding goes to the nearest number, and a half to the even one.
-/

namespace IntcodeVM.Text

/-- The quotient rounded to the nearest integer; a half goes to the even neighbour. -/
def roundDiv (num den : Nat) : Nat :=
  let quotient := num / den
  let double := 2 * (num % den)
  if double < den then quotient
  else if den < double then quotient + 1
  else quotient + quotient % 2

def roundBits (digits n : Nat) : Nat :=
  let step := Nat.pow 2 (n.log2 + 1 - digits)
  roundDiv n step * step

def binaryUnits : List String := ["bytes", "KiB", "MiB", "GiB", "TiB", "PiB", "EiB"]

/-- A quotient to three significant digits, with a point after the integer part. From a thousand on
all digits of the integer part are shown. -/
def threeDigits (num den : Nat) : String :=
  let hundredths := roundDiv (100 * num) den
  let tenths := roundDiv (10 * num) den
  if hundredths < 1000 then
    let rest := hundredths % 100
    s!"{hundredths / 100}.{rest / 10}{rest % 10}"
  else if tenths < 1000 then s!"{tenths / 10}.{tenths % 10}"
  else s!"{roundDiv num den}."

/-- A size in the unit that fits it best: the greatest that is not above the size, or the next one
if the size would be rounded to a whole of it. -/
def binarySize (size : Nat) : String :=
  let rounded := roundBits 53 size
  let below := size.log2 / 10
  let best := if roundDiv rounded (Nat.pow 1024 below) = 1024 then below + 1 else below
  let index := min best (binaryUnits.length - 1)
  let unit := binaryUnits[index]?.getD ""
  if index = 0 then s!"{size} {unit}" else threeDigits rounded (Nat.pow 1024 index) ++ " " ++ unit

end IntcodeVM.Text
