import IntcodeVM.Text.Blank
import IntcodeVM.Text.DecimalDigit
import IntcodeVM.Text.Legible

/-!
Integer numerals. A numeral is an optional sign, an optional base mark and digits that may be
grouped by single underscores. Digits of every script count, and blanks may surround the whole; of
digits in base ten only so many are read. A number is written in base ten, with a sign only if it is
negative. Main statement: a number that is written reads back as itself.
-/

namespace IntcodeVM.Text

def digitOf? (base : Nat) (c : Char) : Option Nat :=
  let value? :=
    if '0' ≤ c && c ≤ '9' then some (c.toNat - '0'.toNat)
    else if 'a' ≤ c && c ≤ 'f' then some (c.toNat - 'a'.toNat + 10)
    else if 'A' ≤ c && c ≤ 'F' then some (c.toNat - 'A'.toNat + 10)
    else none
  value?.filter (· < base)

/-- Reads the digits after the first, with at most one underscore before each. -/
def digitsFrom? (base value : Nat) : List Char → Option Nat
  | [] => some value
  | '_' :: c :: rest =>
    (digitOf? base c).bind fun d => digitsFrom? base (value * base + d) rest
  | c :: rest => (digitOf? base c).bind fun d => digitsFrom? base (value * base + d) rest

def digits? (base : Nat) : List Char → Option Nat
  | [] => none
  | c :: rest => (digitOf? base c).bind fun d => digitsFrom? base d rest

def dropUnderscore : List Char → List Char
  | '_' :: rest => rest
  | text => text

/-- An unsigned numeral whose base is marked by `0x`, `0o` or `0b`, and ten without a mark. An
unmarked numeral starts with a zero only if it is zero. -/
def markedDigits? : List Char → Option Nat
  | '0' :: mark :: rest =>
    if mark = 'x' ∨ mark = 'X' then digits? 16 (dropUnderscore rest)
    else if mark = 'o' ∨ mark = 'O' then digits? 8 (dropUnderscore rest)
    else if mark = 'b' ∨ mark = 'B' then digits? 2 (dropUnderscore rest)
    else (digits? 10 ('0' :: mark :: rest)).filter (· = 0)
  | text => digits? 10 text

def signed? (unsigned? : List Char → Option Nat) : List Char → Option Int
  | '-' :: rest => (unsigned? rest).map fun n => -(n : Int)
  | '+' :: rest => (unsigned? rest).map fun n => (n : Int)
  | text => (unsigned? text).map fun n => (n : Int)

/-- Beyond ASCII, a decimal digit stands for its value and a blank for a space. -/
def plainCharacter (c : Char) : Char :=
  if c.toNat < 128 then c
  else if isBlank c then ' '
  else match decimalDigit? c with
    | some d => Char.ofNat ('0'.toNat + d)
    | none => c

/-- The characters of a numeral in plain form, without the blanks around it. -/
def plainNumeral (text : List Char) : List Char :=
  dropRightWhile isAsciiBlank ((text.map plainCharacter).dropWhile isAsciiBlank)

inductive NumeralProblem where
  | malformed
  | tooManyDigits (count : Nat)
  deriving DecidableEq, Repr

def dropSign : List Char → List Char
  | '-' :: rest => rest
  | '+' :: rest => rest
  | text => text

/-- The digits in base ten and the underscores that a text starts with. -/
def frontDigits (text : List Char) : List Char := text.takeWhile fun c => c.isDigit || c == '_'

/-- How many digits a text starts with, if they are well grouped and too many to be read. -/
def frontExcess? (text : List Char) : Option Nat :=
  (digits? 10 (frontDigits text)).bind fun _ => excess? ((frontDigits text).countP Char.isDigit)

/-- Reads a numeral. Digits are counted first, so that of too many of them no more is seen. -/
def numeral (unsigned? : List Char → Option Nat) (text : List Char) : Except NumeralProblem Int :=
  let plain := plainNumeral text
  match frontExcess? (dropSign plain), signed? unsigned? plain with
  | some count, _ => .error (.tooManyDigits count)
  | none, some n => .ok n
  | none, none => .error .malformed

def integer (text : List Char) : Except NumeralProblem Int := numeral markedDigits? text

def integer? (text : List Char) : Option Int := (integer text).toOption

def decimalInteger? (text : List Char) : Option Int := (numeral (digits? 10) text).toOption

def decimal : Int → List Char
  | .ofNat n => Nat.toDigits 10 n
  | .negSucc n => '-' :: Nat.toDigits 10 (n + 1)

def commaSeparated (values : List Int) : List Char :=
  glue ',' (values.map decimal)

theorem digitOf?_digitChar {d : Nat} (h : d < 10) : digitOf? 10 d.digitChar = some d := by
  revert d
  decide

theorem digitsFrom?_append {base value n d : Nat} {digits : List Char} {c : Char}
    (hd : '_' ∉ digits) (hn : digitsFrom? base value digits = some n)
    (hc : digitOf? base c = some d) :
    digitsFrom? base value (digits ++ [c]) = some (n * base + d) := by
  induction digits generalizing value with
  | nil =>
    obtain rfl : value = n := by simpa [digitsFrom?] using hn
    simp [digitsFrom?, hc]
  | cons a rest ih =>
    have ha : a ≠ '_' := fun h => hd (by simp [h])
    rw [digitsFrom?.eq_3 _ _ _ _ (by simp [ha])] at hn
    rw [List.cons_append, digitsFrom?.eq_3 _ _ _ _ (by simp [ha])]
    obtain ⟨e, he, hr⟩ := Option.bind_eq_some_iff.1 hn
    simp only [he, Option.bind_some]
    exact ih (fun h => hd (List.mem_cons_of_mem _ h)) hr

theorem underscore_notMem_toDigits (n : Nat) : '_' ∉ Nat.toDigits 10 n := fun h =>
  absurd (Nat.isDigit_of_mem_toDigits (by omega) (by omega) h) (by decide)

theorem digits?_toDigits (n : Nat) : digits? 10 (Nat.toDigits 10 n) = some n := by
  induction n using Nat.strongRecOn with
  | ind n ih =>
    by_cases h : n < 10
    · simp [Nat.toDigits_of_lt_base h, digits?, digitOf?_digitChar h, digitsFrom?]
    · have hr := ih (n / 10) (by omega)
      have hu := underscore_notMem_toDigits (n / 10)
      rw [Nat.toDigits_of_base_le (by omega) (by omega)]
      cases hs : Nat.toDigits 10 (n / 10) with
      | nil => exact absurd hs Nat.toDigits_ne_nil
      | cons c rest =>
        rw [hs] at hr hu
        obtain ⟨d, hd, hr⟩ := Option.bind_eq_some_iff.1 hr
        have hm := digitsFrom?_append (fun h => hu (List.mem_cons_of_mem _ h)) hr
          (digitOf?_digitChar (Nat.mod_lt n (by omega)))
        simp only [List.cons_append, digits?, hd, Option.bind_some, hm]
        congr 1; omega

theorem toDigits_head_ne_zero {n : Nat} (h : 0 < n) : (Nat.toDigits 10 n).head? ≠ some '0' := by
  induction n using Nat.strongRecOn with
  | ind n ih =>
    by_cases hn : n < 10
    · rw [Nat.toDigits_of_lt_base hn]
      have hd : ∀ d < 10, 0 < d → [Nat.digitChar d].head? ≠ some '0' := by decide
      exact hd n hn h
    · rw [Nat.toDigits_of_base_le (by omega) (by omega)]
      have hr := ih (n / 10) (by omega) (by omega)
      cases hs : Nat.toDigits 10 (n / 10) with
      | nil => exact absurd hs Nat.toDigits_ne_nil
      | cons c rest => simpa [hs] using hr

theorem markedDigits?_toDigits (n : Nat) : markedDigits? (Nat.toDigits 10 n) = some n := by
  have hr := digits?_toDigits n
  rcases Nat.eq_zero_or_pos n with rfl | h
  · rfl
  · have hz := toDigits_head_ne_zero h
    unfold markedDigits?
    split
    · next hs => simp [hs] at hz
    · exact hr

theorem signed?_decimal {unsigned? : List Char → Option Nat}
    (h : ∀ n, unsigned? (Nat.toDigits 10 n) = some n) (n : Int) :
    signed? unsigned? (decimal n) = some n := by
  cases n with
  | ofNat n =>
    have hs : signed? unsigned? (Nat.toDigits 10 n) =
        (unsigned? (Nat.toDigits 10 n)).map fun n => (n : Int) := by
      have hm := fun c (hc : c ∈ Nat.toDigits 10 n) =>
        Nat.isDigit_of_mem_toDigits (b := 10) (by omega) (by omega) hc
      unfold signed?
      split
      · next hs => exact absurd (hm '-' (by simp [hs])) (by decide)
      · next hs => exact absurd (hm '+' (by simp [hs])) (by decide)
      · rfl
    simp [decimal, hs, h]
  | negSucc n => simp [decimal, signed?, h, Int.negSucc_eq]

theorem plainCharacter_eq_self {c : Char} (h : c.toNat < 128) : plainCharacter c = c := by
  simp [plainCharacter, h]

theorem of_mem_decimal {n : Int} {c : Char} (h : c ∈ decimal n) : c = '-' ∨ c.isDigit := by
  cases n with
  | ofNat n => exact .inr (Nat.isDigit_of_mem_toDigits (by omega) (by omega) h)
  | negSucc n =>
    rcases List.mem_cons.1 h with rfl | h
    · exact .inl rfl
    · exact .inr (Nat.isDigit_of_mem_toDigits (by omega) (by omega) h)

theorem plain_of_sign_or_digit {c : Char} (h : c = '-' ∨ c.isDigit) :
    c.toNat < 128 ∧ isAsciiBlank c = false := by
  rcases h with rfl | h
  · decide
  · have hd : 48 ≤ c.toNat ∧ c.toNat ≤ 57 := by
      simpa [Char.isDigit, UInt32.le_iff_toNat_le] using h
    refine ⟨by omega, ?_⟩
    have hs : c ≠ ' ' := by rintro rfl; exact absurd hd (by decide)
    simp [isAsciiBlank, hs]
    omega

theorem plainNumeral_eq_self {text : List Char}
    (h : ∀ c ∈ text, c.toNat < 128 ∧ isAsciiBlank c = false) : plainNumeral text = text := by
  rw [plainNumeral, List.map_congr_left fun c hc => plainCharacter_eq_self (h c hc).1,
    List.map_id', dropWhile_eq_self fun c hc => (h c hc).2,
    dropRightWhile_eq_self fun c hc => (h c hc).2]

theorem plainNumeral_decimal (n : Int) : plainNumeral (decimal n) = decimal n :=
  plainNumeral_eq_self fun _ hc => plain_of_sign_or_digit (of_mem_decimal hc)

theorem dropSign_decimal (n : Int) : dropSign (decimal n) = Nat.toDigits 10 n.natAbs := by
  cases n with
  | ofNat n =>
    have digits := fun c (mem : c ∈ Nat.toDigits 10 n) =>
      Nat.isDigit_of_mem_toDigits (b := 10) (by omega) (by omega) mem
    show dropSign (Nat.toDigits 10 n) = Nat.toDigits 10 n
    unfold dropSign
    split
    · next same => exact absurd (digits '-' (by simp [same])) (by decide)
    · next same => exact absurd (digits '+' (by simp [same])) (by decide)
    · rfl
  | negSucc n => rfl

theorem length_toDigits_le_iff (n : Int) :
    (Nat.toDigits 10 n.natAbs).length ≤ digitLimit ↔ isLegible n = true := by
  have length := Nat.length_toDigits_le_iff (b := 10) (n := n.natAbs) (k := digitLimit)
    (by omega) (by decide)
  simp only [length, isLegible, illegible_eq, Nat.pow_eq, Bool.and_eq_true, decide_eq_true_eq]
  generalize 10 ^ digitLimit = limit
  omega

theorem frontExcess?_of_length {text : List Char} (short : text.length ≤ digitLimit) :
    frontExcess? text = none := by
  have front : (frontDigits text).length ≤ text.length := (List.takeWhile_prefix _).length_le
  have counted : (frontDigits text).countP Char.isDigit ≤ digitLimit := by
    calc (frontDigits text).countP Char.isDigit ≤ (frontDigits text).length := List.countP_le_length
      _ ≤ digitLimit := by omega
  rw [frontExcess?, excess?_eq_none_iff.2 counted]
  cases digits? 10 (frontDigits text) <;> rfl

theorem numeral_of_front {unsigned? : List Char → Option Nat} {text : List Char}
    (short : frontExcess? (dropSign (plainNumeral text)) = none) :
    (numeral unsigned? text).toOption = signed? unsigned? (plainNumeral text) := by
  simp only [numeral, short]
  cases signed? unsigned? (plainNumeral text) <;> rfl

theorem signed?_of_numeral {unsigned? : List Char → Option Nat} {text : List Char} {n : Int}
    (read : (numeral unsigned? text).toOption = some n) :
    signed? unsigned? (plainNumeral text) = some n := by
  cases short : frontExcess? (dropSign (plainNumeral text)) with
  | none => rw [← numeral_of_front short, read]
  | some count => simp [numeral, short, Except.toOption] at read

theorem integer?_decimal {n : Int} (legible : isLegible n = true) :
    integer? (decimal n) = some n := by
  have short : frontExcess? (dropSign (plainNumeral (decimal n))) = none := by
    rw [plainNumeral_decimal, dropSign_decimal]
    exact frontExcess?_of_length ((length_toDigits_le_iff n).2 legible)
  rw [integer?, integer, numeral_of_front short, plainNumeral_decimal,
    signed?_decimal markedDigits?_toDigits]

theorem ofList_decimal (n : Int) : String.ofList (decimal n) = toString n := by
  cases n with
  | ofNat n => rfl
  | negSucc n =>
    show _ = "-" ++ (n + 1).repr
    rw [← String.toList_inj]
    simp [decimal, Nat.repr]

end IntcodeVM.Text
