/-!
Legible numbers. Numbers of any length can be reckoned with, but those of more than 4300 digits are
neither written in base ten nor read from it.
-/

namespace IntcodeVM.Text

def digitLimit : Nat := 4300

def illegible : Int := Int.pow 10 digitLimit

theorem pow_ten (k : Nat) : Int.pow 10 k = (Nat.pow 10 k : Nat) := (Int.natCast_pow 10 k).symm

theorem illegible_eq : illegible = (Nat.pow 10 digitLimit : Nat) := pow_ten digitLimit

def isLegible (n : Int) : Bool := -illegible < n && n < illegible

theorem isLegible_neg (n : Int) : isLegible (-n) = isLegible n := by
  rw [Bool.eq_iff_iff]
  simp only [isLegible, Bool.and_eq_true, decide_eq_true_eq]
  generalize illegible = limit
  omega

def illegibleMessage : String :=
  "Exceeds the limit (4300 digits) for integer string conversion; " ++
    "use sys.set_int_max_str_digits() to increase the limit"

/-- A line with these numbers in it, if all of them can be written. -/
def lineOf? (numbers : List Int) (line : String) : Option String :=
  if numbers.all isLegible then some line else none

theorem lineOf?_eq_some_iff {numbers : List Int} {line other : String} :
    lineOf? numbers line = some other ↔ numbers.all isLegible = true ∧ line = other := by
  unfold lineOf?
  split
  · simp [*]
  · simp [*]

/-- The lines in front of the first that cannot be written, and whether they are all. -/
def writtenLines : List (Option String) → List String × Bool
  | [] => ([], true)
  | none :: _ => ([], false)
  | some line :: rest =>
    let (lines, complete) := writtenLines rest
    (line :: lines, complete)

theorem snd_writtenLines (lines : List (Option String)) :
    (writtenLines lines).2 = lines.all Option.isSome := by
  induction lines with
  | nil => rfl
  | cons line rest ih =>
    cases line with
    | none => rfl
    | some line => simp [writtenLines, ih]

/-- The number of digits of a numeral in base ten, if they are too many to be read. -/
def excess? (count : Nat) : Option Nat := if digitLimit < count then some count else none

theorem excess?_eq_none_iff {count : Nat} : excess? count = none ↔ count ≤ digitLimit := by
  simp [excess?]

def excessMessage (count : Nat) : String :=
  "Exceeds the limit (4300 digits) for integer string conversion: " ++
    s!"value has {count} digits; use sys.set_int_max_str_digits() to increase the limit"

def digitRuns (text : List Char) : List (List Char) :=
  text.splitBy fun a b => a.isDigit == b.isDigit

def isLongNumeral (run : List Char) : Bool := run.all Char.isDigit && digitLimit < run.length

def isLegibleText (text : String) : Bool :=
  text.length ≤ digitLimit || (digitRuns text.toList).all (!isLongNumeral ·)

end IntcodeVM.Text
