import IntcodeVM.ProgramText
import IntcodeVM.Proofs.Attempt
import IntcodeVM.Proofs.Text.Tokens
import Mathlib.Data.List.Forall2

/-! The grammar of programs as text. Main statement: a text is read as the values of its numerals if
every token is one that is not too long, and otherwise refused for the first token that is not. -/
namespace IntcodeVM.ProgramText

open Text

inductive Sign where
  | none
  | plus
  | minus
  deriving DecidableEq, Repr

namespace Sign

def mark : Sign → List Char
  | none => []
  | plus => ['+']
  | minus => ['-']

def apply : Sign → Nat → Int
  | none, n | plus, n => n
  | minus, n => -n

end Sign

/-- At most one sign and at least one ASCII digit. -/
structure Numeral where
  sign : Sign
  digits : List Char
  nonempty : digits ≠ []
  ascii : ∀ c ∈ digits, c.isDigit = true

namespace Numeral

def text (n : Numeral) : List Char := n.sign.mark ++ n.digits

def value (n : Numeral) : Int := n.sign.apply (Nat.ofDigitChars 10 n.digits 0)

end Numeral

/-- The pieces between commas without the blanks around them. -/
def tokens (text : List Char) : List (List Char) := (pieces ',' (strip text)).map strip

/-- A token is a numeral of this value. -/
def Denotes (token : List Char) (word : Int) : Prop :=
  ∃ n : Numeral, n.text = token ∧ n.value = word

/-- A token is a numeral of this value with no more digits than are read. -/
def Reads (token : List Char) (word : Int) : Prop :=
  ∃ n : Numeral, n.text = token ∧ n.value = word ∧ n.digits.length ≤ digitLimit

/-- What is wrong with a token, by its number among the tokens. -/
inductive Refused (index : Nat) : List Char → Diagnostic → Prop
  | blank : Refused index [] (.load index "Missing value")
  | malformed {token : List Char} : token ≠ [] → (∀ n : Numeral, n.text ≠ token) →
      Refused index token (.load index ("Not an integer: " ++ String.ofList (quoted token)))
  | tooLong (n : Numeral) : digitLimit < n.digits.length →
      Refused index n.text (.badValue (Problem.tooManyDigits n.digits.length).message)

/-- The first token that is not read is refused; the tokens are numbered from `index`. -/
def FirstRefused (index : Nat) (list : List (List Char)) (d : Diagnostic) : Prop :=
  ∃ before token after, list = before ++ token :: after ∧
    (∀ earlier ∈ before, ∃ word, Reads earlier word) ∧ Refused (index + before.length) token d

variable {text token : List Char} {value : Nat} {word : Int} {words : List Int} {d : Diagnostic}
  {index : Nat} {raw : List (List Char)}

theorem foldlM_digits_eq_some_iff {start : Nat} :
    text.foldlM (fun value c => (asciiDigit? c).map (value * 10 + ·)) start = some value ↔
      (∀ c ∈ text, c.isDigit = true) ∧ Nat.ofDigitChars 10 text start = value := by
  induction text generalizing start with
  | nil => simp
  | cons c rest ih =>
    rw [List.foldlM_cons, Nat.ofDigitChars_cons, Nat.mul_comm]
    cases digit : c.isDigit with
    | false => simp [asciiDigit?, digit]
    | true => simpa [asciiDigit?, digit] using ih

theorem natural?_eq_some_iff :
    natural? text = some value ↔
      text ≠ [] ∧ (∀ c ∈ text, c.isDigit = true) ∧ Nat.ofDigitChars 10 text 0 = value := by
  rw [natural?]
  split
  · rename_i empty
    simp_all
  · rename_i nonempty
    rw [foldlM_digits_eq_some_iff]
    simp_all

theorem signed?_text (n : Numeral) : signed? natural? n.text = some n.value := by
  obtain ⟨sign, digits, nonempty, ascii⟩ := n
  have read : natural? digits = some (Nat.ofDigitChars 10 digits 0) :=
    natural?_eq_some_iff.2 ⟨nonempty, ascii, rfl⟩
  cases sign with
  | plus | minus => simp [Numeral.text, Numeral.value, Sign.mark, Sign.apply, signed?, read]
  | none =>
    show signed? natural? digits = some ((Nat.ofDigitChars 10 digits 0 : Nat) : Int)
    unfold signed?
    split
    · cases ascii '-' List.mem_cons_self
    · cases ascii '+' List.mem_cons_self
    · rw [read]
      rfl

theorem exists_numeral (read : natural? text = some value) (sign : Sign) :
    ∃ n : Numeral, n.text = sign.mark ++ text ∧ n.value = sign.apply value := by
  obtain ⟨nonempty, ascii, rfl⟩ := natural?_eq_some_iff.1 read
  exact ⟨⟨sign, text, nonempty, ascii⟩, rfl, rfl⟩

theorem exists_numeral_of_signed? (h : signed? natural? token = some word) :
    ∃ n : Numeral, n.text = token ∧ n.value = word := by
  unfold signed? at h
  split at h
  · rename_i digits
    obtain ⟨value, read, rfl⟩ :
        ∃ value : Nat, natural? digits = some value ∧ -(value : Int) = word := by
      simpa [Option.bind_eq_some_iff] using h
    exact exists_numeral read .minus
  · rename_i digits
    obtain ⟨value, read, rfl⟩ :
        ∃ value : Nat, natural? digits = some value ∧ (value : Int) = word := by
      simpa [Option.bind_eq_some_iff] using h
    exact exists_numeral read .plus
  · obtain ⟨value, read, rfl⟩ :
        ∃ value : Nat, natural? token = some value ∧ (value : Int) = word := by
      simpa [Option.bind_eq_some_iff] using h
    exact exists_numeral read .none

theorem signed?_eq_none_iff :
    signed? natural? token = none ↔ ∀ n : Numeral, n.text ≠ token := by
  constructor
  · rintro unread n rfl
    cases unread.symm.trans (signed?_text n)
  · intro other
    cases read : signed? natural? token with
    | none => rfl
    | some word =>
      obtain ⟨n, same, -⟩ := exists_numeral_of_signed? read
      exact absurd same (other n)

theorem Numeral.text_ne_nil (n : Numeral) : n.text ≠ [] := fun same =>
  n.nonempty (List.append_eq_nil_iff.1 same).2

theorem Numeral.token_text (n : Numeral) : Token n.text where
  ne_nil := n.text_ne_nil
  plain := by
    intro c mem
    rcases List.mem_append.1 mem with inMark | inDigits
    · have marks : ∀ sign : Sign, sign.mark.all isTokenCharacter = true := by
        intro sign
        cases sign <;> decide
      exact List.all_eq_true.1 (marks n.sign) c inMark
    · exact isTokenCharacter_of_sign_or_digit (.inr (n.ascii c inDigits))

theorem Numeral.countP_text (n : Numeral) : n.text.countP Char.isDigit = n.digits.length := by
  have marks : n.sign.mark.countP Char.isDigit = 0 := by
    cases n.sign <;> rfl
  rw [Numeral.text, List.countP_append, marks, Nat.zero_add, List.countP_eq_length.2 n.ascii]

theorem word_text (n : Numeral) :
    ProgramText.word n.text =
      if digitLimit < n.digits.length then .error (.tooManyDigits n.digits.length)
      else .ok n.value := by
  have nonempty : n.text.isEmpty = false := by simp [n.text_ne_nil]
  by_cases long : digitLimit < n.digits.length
  · simp [ProgramText.word, nonempty, signed?_text, n.countP_text, excess?, long]
  · simp [ProgramText.word, nonempty, signed?_text, n.countP_text, excess?, long]

theorem word_malformed (nonempty : token ≠ []) (other : ∀ n : Numeral, n.text ≠ token) :
    ProgramText.word token = .error (.notAnInteger token) := by
  have some : token.isEmpty = false := by simp [nonempty]
  simp [ProgramText.word, some, signed?_eq_none_iff.2 other]

/-- A token is blank, malformed or a numeral. -/
theorem token_cases (token : List Char) :
    token = [] ∨ (token ≠ [] ∧ ∀ n : Numeral, n.text ≠ token) ∨ ∃ n : Numeral, n.text = token := by
  by_cases blank : token = []
  · exact .inl blank
  · by_cases numeral : ∃ n : Numeral, n.text = token
    · exact .inr (.inr numeral)
    · exact .inr (.inl ⟨blank, fun n same => numeral ⟨n, same⟩⟩)

theorem word_eq_ok_iff : ProgramText.word token = .ok word ↔ Reads token word := by
  constructor
  · intro h
    rcases token_cases token with rfl | ⟨nonempty, other⟩ | ⟨n, rfl⟩
    · cases h
    · rw [word_malformed nonempty other] at h
      cases h
    · rw [word_text] at h
      split at h
      · cases h
      · rename_i short
        cases h
        exact ⟨n, rfl, rfl, Nat.le_of_not_lt short⟩
  · rintro ⟨n, rfl, rfl, short⟩
    rw [word_text, if_neg (Nat.not_lt.2 short)]

theorem word_eq_error_iff :
    (∃ problem, ProgramText.word token = .error problem ∧
      (LoadError.mk index problem).diagnostic = d) ↔ Refused index token d := by
  constructor
  · rintro ⟨problem, h, rfl⟩
    rcases token_cases token with rfl | ⟨nonempty, other⟩ | ⟨n, rfl⟩
    · cases h
      exact .blank
    · rw [word_malformed nonempty other] at h
      cases h
      exact .malformed nonempty other
    · rw [word_text] at h
      split at h
      · rename_i long
        cases h
        exact .tooLong n long
      · cases h
  · rintro (_ | ⟨nonempty, other⟩ | ⟨n, long⟩)
    · exact ⟨.missingValue, rfl, rfl⟩
    · exact ⟨_, word_malformed nonempty other, rfl⟩
    · refine ⟨.tooManyDigits n.digits.length, ?_, rfl⟩
      rw [word_text, if_pos long]

theorem wordsFrom_eq_ok_iff :
    wordsFrom index raw = .ok words ↔ List.Forall₂ Reads (raw.map strip) words := by
  induction raw generalizing index words with
  | nil => simp [wordsFrom, eq_comm]
  | cons piece rest ih =>
    rw [wordsFrom, List.map_cons]
    cases read : ProgramText.word (strip piece) with
    | error problem =>
      constructor
      · intro h
        cases h
      · rintro (_ | ⟨first, -⟩)
        cases read.symm.trans (word_eq_ok_iff.2 first)
    | ok word =>
      show (wordsFrom (index + 1) rest).map (word :: ·) = .ok words ↔ _
      constructor
      · intro h
        obtain ⟨others, onward, rfl⟩ := map_eq_ok_iff.1 h
        exact .cons (word_eq_ok_iff.1 read) (ih.1 onward)
      · rintro (_ | ⟨first, onward⟩)
        cases read.symm.trans (word_eq_ok_iff.2 first)
        rw [ih.2 onward]
        rfl

theorem not_reads_of_refused (h : Refused index token d) : ¬ Reads token word := by
  intro reads
  obtain ⟨problem, unread, -⟩ := word_eq_error_iff.2 h
  cases unread.symm.trans (word_eq_ok_iff.2 reads)

theorem firstRefused_cons_of_read (reads : Reads token word) :
    FirstRefused index (token :: raw) d ↔ FirstRefused (index + 1) raw d := by
  constructor
  · rintro ⟨before, other, after, same, earlier, refused⟩
    cases before with
    | nil =>
      cases same
      exact absurd reads (not_reads_of_refused refused)
    | cons first before =>
      obtain ⟨-, same⟩ := List.cons.inj same
      refine ⟨before, other, after, same, fun t mem => earlier t (List.mem_cons_of_mem _ mem), ?_⟩
      rwa [List.length_cons, Nat.add_comm before.length, ← Nat.add_assoc] at refused
  · rintro ⟨before, other, after, same, earlier, refused⟩
    refine ⟨token :: before, other, after, by rw [same, List.cons_append], ?_, ?_⟩
    · intro t mem
      rcases List.mem_cons.1 mem with rfl | mem
      · exact ⟨word, reads⟩
      · exact earlier t mem
    · rwa [List.length_cons, Nat.add_comm before.length, ← Nat.add_assoc]

theorem firstRefused_cons_of_unread (unread : ∀ word, ¬ Reads token word) :
    FirstRefused index (token :: raw) d ↔ Refused index token d := by
  constructor
  · rintro ⟨before, other, after, same, earlier, refused⟩
    cases before with
    | nil =>
      cases same
      exact refused
    | cons first before =>
      cases same
      obtain ⟨word, reads⟩ := earlier token List.mem_cons_self
      exact absurd reads (unread word)
  · intro refused
    exact ⟨[], token, raw, rfl, by simp, refused⟩

theorem wordsFrom_refused_iff :
    (wordsFrom index raw).mapError LoadError.diagnostic = .error d ↔
      FirstRefused index (raw.map strip) d := by
  induction raw generalizing index with
  | nil =>
    constructor
    · intro h
      cases h
    · rintro ⟨before, token, after, same, -, -⟩
      simp at same
  | cons piece rest ih =>
    rw [wordsFrom, List.map_cons]
    cases read : ProgramText.word (strip piece) with
    | error problem =>
      have unread : ∀ word, ¬ Reads (strip piece) word := by
        intro word reads
        cases read.symm.trans (word_eq_ok_iff.2 reads)
      rw [firstRefused_cons_of_unread unread, ← word_eq_error_iff]
      simp [read]
    | ok word =>
      rw [firstRefused_cons_of_read (word_eq_ok_iff.1 read), ← ih]
      cases wordsFrom (index + 1) rest with
      | ok words => exact ⟨nofun, nofun⟩
      | error e => exact Iff.rfl

theorem parse_blank (blank : strip text = []) : parse text = .error ⟨0, .emptyProgram⟩ := by
  simp [parse, blank]

theorem parse_of_nonblank (nonblank : strip text ≠ []) :
    parse text = wordsFrom 0 (pieces ',' (strip text)) := by
  simp [parse, nonblank]

theorem parse_eq_ok_iff :
    parse text = .ok words ↔ strip text ≠ [] ∧ List.Forall₂ Reads (tokens text) words := by
  by_cases blank : strip text = []
  · simp [parse_blank blank, blank]
  · rw [parse_of_nonblank blank, wordsFrom_eq_ok_iff]
    exact (and_iff_right blank).symm

theorem tokens_numeral (n : Numeral) : tokens n.text = [n.text] := by
  have absent : ',' ∉ n.text := fun mem => by cases n.token_text.plain ',' mem
  rw [tokens, n.token_text.strip, pieces_of_notMem absent, List.map_singleton, n.token_text.strip]

theorem parse_numeral (n : Numeral) :
    parse n.text =
      if digitLimit < n.digits.length then .error ⟨0, .tooManyDigits n.digits.length⟩
      else .ok [n.value] := by
  have absent : ',' ∉ n.text := fun mem => by cases n.token_text.plain ',' mem
  have nonblank : strip n.text ≠ [] := by
    rw [n.token_text.strip]
    exact n.text_ne_nil
  rw [parse_of_nonblank nonblank, n.token_text.strip, pieces_of_notMem absent, wordsFrom,
    n.token_text.strip, word_text]
  by_cases long : digitLimit < n.digits.length
  · simp only [if_pos long]
  · simp only [if_neg long]
    rfl

/-- A text is read as the values of its tokens if it is not blank and each of them is a numeral that
is not too long. Otherwise it is refused, blank as a whole or for its first other token. -/
theorem parse_follows_grammar (text : List Char) :
    (∀ words, parse text = .ok words ↔
      strip text ≠ [] ∧ List.Forall₂ Reads (tokens text) words) ∧
      ∀ d, (parse text).mapError LoadError.diagnostic = .error d ↔
        (strip text = [] ∧ d = .load 0 "Empty program") ∨
          (strip text ≠ [] ∧ FirstRefused 0 (tokens text) d) := by
  refine ⟨fun words => parse_eq_ok_iff, fun d => ?_⟩
  by_cases blank : strip text = []
  · rw [parse_blank blank]
    show Except.error (Diagnostic.load 0 "Empty program") = .error d ↔ _
    simp [blank, eq_comm]
  · rw [parse_of_nonblank blank, wordsFrom_refused_iff]
    simp [blank, tokens]

def zeros (more : Nat) : Numeral where
  sign := .none
  digits := List.replicate (more + 1) '0'
  nonempty := List.cons_ne_nil _ _
  ascii c mem := by rw [List.eq_of_mem_replicate mem]; rfl

theorem length_zeros (more : Nat) : (zeros more).digits.length = more + 1 := List.length_replicate

/-- A zero with many zeros in front is a numeral, and is not read. -/
theorem parse_refuses_long_zero :
    (parse (List.replicate 4301 '0')).mapError LoadError.diagnostic =
        .error (.badValue (Problem.tooManyDigits 4301).message) ∧
      ¬ ∀ text words, parse text = .ok words ↔
        strip text ≠ [] ∧ List.Forall₂ Denotes (tokens text) words := by
  have same : List.replicate 4301 '0' = (zeros 4300).text := rfl
  have unread : parse (zeros 4300).text = .error ⟨0, .tooManyDigits 4301⟩ := by
    rw [parse_numeral, length_zeros, if_pos (by decide)]
  refine ⟨by rw [same, unread]; rfl, fun all => ?_⟩
  have read : parse (zeros 4300).text = .ok [(zeros 4300).value] := by
    refine (all _ _).2 ⟨?_, ?_⟩
    · rw [(zeros 4300).token_text.strip]
      exact (zeros 4300).text_ne_nil
    · rw [tokens_numeral]
      exact .cons ⟨zeros 4300, rfl, rfl⟩ .nil
  cases unread.symm.trans read

end IntcodeVM.ProgramText
