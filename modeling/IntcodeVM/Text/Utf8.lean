/-!
Strict decoding of UTF-8. A byte sequence that is not the shortest form of a character is refused
at its first byte; the refusal says which bytes are bad and why, as the longest start that a valid
character could have.
-/

namespace IntcodeVM.Text

inductive Utf8Problem where
  | invalidStart
  | invalidContinuation
  | unexpectedEnd
  deriving DecidableEq, Repr

/-- The bad bytes: their position, the bytes themselves (one to three), and the reason. -/
structure Utf8Error where
  position : Nat
  bytes : List UInt8
  problem : Utf8Problem
  deriving DecidableEq, Repr

/-- How a character starts: its bits in the first byte, how many bytes follow, and the range of
the second byte, which excludes longer forms than needed, surrogates and codes past the last. -/
structure Utf8Lead where
  bits : Nat
  following : Nat
  low : Nat
  high : Nat

def Utf8Lead.ofByte? (b : UInt8) : Option Utf8Lead :=
  let n := b.toNat
  if n < 0x80 then some ⟨n, 0, 0x80, 0xBF⟩
  else if 0xC2 ≤ n ∧ n ≤ 0xDF then some ⟨n - 0xC0, 1, 0x80, 0xBF⟩
  else if n = 0xE0 then some ⟨0, 2, 0xA0, 0xBF⟩
  else if n = 0xED then some ⟨0xD, 2, 0x80, 0x9F⟩
  else if 0xE1 ≤ n ∧ n ≤ 0xEF then some ⟨n - 0xE0, 2, 0x80, 0xBF⟩
  else if n = 0xF0 then some ⟨0, 3, 0x90, 0xBF⟩
  else if n = 0xF4 then some ⟨4, 3, 0x80, 0x8F⟩
  else if 0xF1 ≤ n ∧ n ≤ 0xF3 then some ⟨n - 0xF0, 3, 0x80, 0xBF⟩
  else none

inductive Utf8Tail where
  | complete (code : Nat) (rest : List UInt8)
  | bad (taken : List UInt8) (problem : Utf8Problem)

/-- Collects the following bytes; only the first of them has a range of its own. -/
def Utf8Tail.collect (code : Nat) : Nat → Nat → Nat → List UInt8 → Utf8Tail
  | 0, _, _, rest => .complete code rest
  | _ + 1, _, _, [] => .bad [] .unexpectedEnd
  | n + 1, low, high, b :: rest =>
    if low ≤ b.toNat ∧ b.toNat ≤ high then
      match collect (code * 64 + (b.toNat - 0x80)) n 0x80 0xBF rest with
      | .complete code rest => .complete code rest
      | .bad taken problem => .bad (b :: taken) problem
    else .bad [] .invalidContinuation

/-- Decodes from a position on; the fuel is the number of bytes left. -/
def decodeUtf8From : Nat → Nat → List Char → List UInt8 → Except Utf8Error (List Char)
  | 0, _, done, _ => .ok done.reverse
  | _ + 1, _, done, [] => .ok done.reverse
  | fuel + 1, position, done, b :: rest =>
    match Utf8Lead.ofByte? b with
    | none => .error ⟨position, [b], .invalidStart⟩
    | some lead =>
      match Utf8Tail.collect lead.bits lead.following lead.low lead.high rest with
      | .complete code more =>
        decodeUtf8From fuel (position + 1 + lead.following) (Char.ofNat code :: done) more
      | .bad taken problem => .error ⟨position, b :: taken, problem⟩

def decodeUtf8 (bytes : List UInt8) : Except Utf8Error (List Char) :=
  decodeUtf8From bytes.length 0 [] bytes

/-- Line ends of the two other customs become a line feed. -/
def unifyLineEnds : List Char → List Char
  | '\r' :: '\n' :: rest => '\n' :: unifyLineEnds rest
  | '\r' :: rest => '\n' :: unifyLineEnds rest
  | c :: rest => c :: unifyLineEnds rest
  | [] => []

end IntcodeVM.Text
