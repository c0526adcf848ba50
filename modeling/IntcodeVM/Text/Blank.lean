/-!
Blank characters, and cutting text at blanks and separators. Text is a list of characters here, so
that each function is plain recursion on it. Main statement: gluing the pieces of a text together
with the separator gives the text back.
-/

namespace IntcodeVM.Text

/-- Everything that separates words: the space, the ASCII controls from tab to carriage return and
from file to unit separator, next line, and the spaces and separators beyond ASCII. -/
def isBlank (c : Char) : Bool :=
  let n := c.toNat
  (0x09 ≤ n && n ≤ 0x0D) || (0x1C ≤ n && n ≤ 0x20) || n == 0x85 || n == 0xA0 || n == 0x1680 ||
    (0x2000 ≤ n && n ≤ 0x200A) || n == 0x2028 || n == 0x2029 || n == 0x202F || n == 0x205F ||
    n == 0x3000

/-- The six blanks that may surround the digits of a number. -/
def isAsciiBlank (c : Char) : Bool :=
  c == ' ' || (0x09 ≤ c.toNat && c.toNat ≤ 0x0D)

def dropRightWhile (p : Char → Bool) (text : List Char) : List Char :=
  (text.reverse.dropWhile p).reverse

def strip (text : List Char) : List Char :=
  dropRightWhile isBlank (text.dropWhile isBlank)

def before (sep : Char) (text : List Char) : List Char :=
  text.takeWhile (· != sep)

def after (sep : Char) (text : List Char) : List Char :=
  (text.dropWhile (· != sep)).drop 1

/-- The pieces between separators; a text without one is a single piece. -/
def pieces (sep : Char) : List Char → List (List Char)
  | [] => [[]]
  | c :: rest =>
    if c = sep then [] :: pieces sep rest
    else match pieces sep rest with
      | [] => [[c]]
      | piece :: more => (c :: piece) :: more

def splitFirstWord (text : List Char) : List Char × List Char :=
  let trimmed := text.dropWhile isBlank
  (trimmed.takeWhile (!isBlank ·), (trimmed.dropWhile (!isBlank ·)).dropWhile isBlank)

def glue (sep : Char) : List (List Char) → List Char
  | [] => []
  | [piece] => piece
  | piece :: more => piece ++ sep :: glue sep more

theorem dropWhile_eq_self {p : Char → Bool} {text : List Char} (h : ∀ c ∈ text, p c = false) :
    text.dropWhile p = text := by
  cases text with
  | nil => rfl
  | cons c rest => simp [h c]

theorem dropRightWhile_eq_self {p : Char → Bool} {text : List Char} (h : ∀ c ∈ text, p c = false) :
    dropRightWhile p text = text := by
  rw [dropRightWhile, dropWhile_eq_self fun c hc => h c (List.mem_reverse.1 hc),
    List.reverse_reverse]

theorem pieces_ne_nil (sep : Char) (text : List Char) : pieces sep text ≠ [] := by
  cases text with
  | nil => simp [pieces]
  | cons c rest =>
    simp only [pieces]
    split
    · simp
    · split <;> simp

theorem glue_pieces (sep : Char) (text : List Char) : glue sep (pieces sep text) = text := by
  induction text with
  | nil => rfl
  | cons c rest ih =>
    simp only [pieces]
    split
    · next h =>
      cases hp : pieces sep rest with
      | nil => exact absurd hp (pieces_ne_nil sep rest)
      | cons p ps => rw [← ih, hp, h]; rfl
    · cases hp : pieces sep rest with
      | nil => exact absurd hp (pieces_ne_nil sep rest)
      | cons p ps =>
        rw [hp] at ih
        cases ps with
        | nil => simpa [glue] using ih
        | cons q qs => simpa [glue] using ih

end IntcodeVM.Text
