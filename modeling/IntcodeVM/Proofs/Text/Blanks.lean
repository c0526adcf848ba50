import IntcodeVM.Proofs.Text.Tokens
import Mathlib.Data.List.DropRight

namespace IntcodeVM.Text

def Blanks (text : List Char) : Prop := ∀ c ∈ text, isBlank c = true

/-- A text with its first word and all that follows it. -/
structure FirstWord (text word tail : List Char) : Prop where
  split : ∃ gap, Blanks gap ∧ text = gap ++ (word ++ tail)
  ne_nil : word ≠ []
  solid : ∀ c ∈ word, isBlank c = false
  apart : ∀ c ∈ tail.head?, isBlank c = true

variable {sep : Char} {text gap word tail front back : List Char}

theorem notMem_of_blanks (blank : Blanks gap) (solid : isBlank sep = false) : sep ∉ gap := by
  intro mem
  cases solid.symm.trans (blank sep mem)

theorem dropRightWhile_eq (p : Char → Bool) (text : List Char) :
    dropRightWhile p text = text.rdropWhile p := rfl

theorem dropRightWhile_append_blanks (blank : Blanks gap) (text : List Char) :
    dropRightWhile isBlank (text ++ gap) = dropRightWhile isBlank text := by
  have reversed : ∀ c ∈ gap.reverse, isBlank c = true := fun c mem => blank c (List.mem_reverse.1 mem)
  rw [dropRightWhile, dropRightWhile, List.reverse_append, List.dropWhile_append_of_pos reversed]

theorem strip_blanks_append (blank : Blanks gap) (text : List Char) :
    strip (gap ++ text) = strip text := by
  rw [strip, strip, List.dropWhile_append_of_pos blank]

theorem dropWhile_blanks (blank : Blanks gap) : gap.dropWhile isBlank = [] :=
  List.dropWhile_eq_nil_iff.2 blank

theorem strip_append_blanks (text : List Char) (blank : Blanks gap) :
    strip (text ++ gap) = strip text := by
  rw [strip, strip, List.dropWhile_append]
  split
  · rename_i empty
    rw [List.isEmpty_iff.1 empty, dropWhile_blanks blank]
  · exact dropRightWhile_append_blanks blank _

theorem strip_of_blanks (blank : Blanks text) : strip text = [] := by
  rw [strip, dropWhile_blanks blank]
  rfl

theorem exists_strip (text : List Char) :
    ∃ left right, Blanks left ∧ Blanks right ∧ text = left ++ (strip text ++ right) := by
  refine ⟨text.takeWhile isBlank, (text.dropWhile isBlank).rtakeWhile isBlank,
    fun c mem => List.mem_takeWhile_imp mem, fun c mem => List.mem_rtakeWhile_imp mem, ?_⟩
  rw [strip, dropRightWhile_eq, List.rdropWhile_append_rtakeWhile,
    List.takeWhile_append_dropWhile]

theorem mem_strip {c : Char} (mem : c ∈ text) (solid : isBlank c = false) : c ∈ strip text := by
  obtain ⟨left, right, before, behind, same⟩ := exists_strip text
  have one : c ∈ left ∨ c ∈ strip text ∨ c ∈ right := by
    rw [same] at mem
    simpa using mem
  rcases one with inLeft | inside | inRight
  · exact absurd inLeft (notMem_of_blanks before solid)
  · exact inside
  · exact absurd inRight (notMem_of_blanks behind solid)

theorem head_dropWhile (p : Char → Bool) (text : List Char) :
    ∀ c ∈ (text.dropWhile p).head?, p c = false := by
  intro c mem
  have head := List.head?_dropWhile_not p text
  rw [Option.mem_def.1 mem] at head
  simpa using head

theorem blanks_or_firstWord (text : List Char) :
    Blanks text ∨ ∃ word tail, FirstWord text word tail := by
  have whole := List.takeWhile_append_dropWhile (p := isBlank) (l := text)
  have begins := head_dropWhile isBlank text
  cases rest : text.dropWhile isBlank with
  | nil => exact .inl (List.dropWhile_eq_nil_iff.1 rest)
  | cons c others =>
    rw [rest] at whole begins
    have solid : isBlank c = false := begins c rfl
    refine .inr ⟨(c :: others).takeWhile (!isBlank ·), (c :: others).dropWhile (!isBlank ·),
      ⟨⟨text.takeWhile isBlank, fun c mem => List.mem_takeWhile_imp mem, ?_⟩, ?_, ?_, ?_⟩⟩
    · rw [List.takeWhile_append_dropWhile, whole]
    · simp [solid]
    · intro d mem
      simpa using List.mem_takeWhile_imp mem
    · intro d mem
      simpa using head_dropWhile (!isBlank ·) (c :: others) d mem

/-- Stripping a text shortens what follows its first word, but only by blanks. -/
theorem FirstWord.splitFirstWord_strip (first : FirstWord text word tail) :
    ∃ lead rest right, Blanks lead ∧ Blanks right ∧ tail = lead ++ (rest ++ right) ∧
      splitFirstWord (strip text) = (word, rest) := by
  obtain ⟨⟨gap, blank, rfl⟩, nonempty, solid, apart⟩ := first
  have begins : ∀ c ∈ (word ++ dropRightWhile isBlank tail).head?, isBlank c = false := by
    obtain ⟨c, others, rfl⟩ := List.exists_cons_of_ne_nil nonempty
    rintro _ ⟨⟩
    exact solid c List.mem_cons_self
  -- the blanks at the right end are those of the tail, as the word ends without
  have stripped : strip (gap ++ (word ++ tail)) = word ++ dropRightWhile isBlank tail := by
    obtain ⟨c, others, rfl⟩ := List.exists_cons_of_ne_nil nonempty
    have last : dropRightWhile isBlank (c :: others) = c :: others := dropRightWhile_eq_self solid
    rw [strip_blanks_append blank, strip, List.cons_append,
      dropWhile_of_head (by rintro _ ⟨⟩; exact solid c List.mem_cons_self), ← List.cons_append,
      dropRightWhile, List.reverse_append, List.dropWhile_append]
    split
    · rename_i empty
      have none : dropRightWhile isBlank tail = [] := by
        rw [dropRightWhile, List.isEmpty_iff.1 empty, List.reverse_nil]
      rw [none, List.append_nil]
      exact last
    · rw [List.reverse_append, List.reverse_reverse]
      rfl
  have ends : ∀ c ∈ (dropRightWhile isBlank tail).head?, (!isBlank c) = false := by
    intro c mem
    obtain ⟨rest, same⟩ := List.rdropWhile_prefix isBlank tail
    have head : c ∈ tail.head? := by
      rw [← same]
      exact List.mem_head?_append_of_mem_head? mem
    simpa using apart c head
  have word' : ∀ c ∈ word, (!isBlank c) = true := by
    intro c mem
    simpa using solid c mem
  refine ⟨(dropRightWhile isBlank tail).takeWhile isBlank,
    (dropRightWhile isBlank tail).dropWhile isBlank, tail.rtakeWhile isBlank,
    fun c mem => List.mem_takeWhile_imp mem, fun c mem => List.mem_rtakeWhile_imp mem, ?_, ?_⟩
  · rw [← List.append_assoc, List.takeWhile_append_dropWhile]
    exact List.rdropWhile_append_rtakeWhile.symm
  · rw [stripped, splitFirstWord, dropWhile_of_head begins, List.takeWhile_append_of_pos word',
      List.dropWhile_append_of_pos word', takeWhile_of_head ends, dropWhile_of_head ends,
      List.append_nil]

theorem notMem_of_mem_pieces {piece : List Char} (mem : piece ∈ pieces sep text) : sep ∉ piece := by
  induction text generalizing piece with
  | nil =>
    rw [List.mem_singleton.1 mem]
    exact List.not_mem_nil
  | cons c rest ih =>
    rw [pieces] at mem
    split at mem
    · rcases List.mem_cons.1 mem with rfl | mem
      · exact List.not_mem_nil
      · exact ih mem
    · rename_i other
      cases cut : pieces sep rest with
      | nil => exact absurd cut (pieces_ne_nil sep rest)
      | cons first more =>
        rw [cut] at mem ih
        rcases List.mem_cons.1 mem with rfl | mem
        · simpa [Ne.symm other] using ih List.mem_cons_self
        · exact ih (List.mem_cons_of_mem first mem)

/-- A separator keeps what is before it from what is behind it. -/
theorem pieces_append_sep (sep : Char) (front back : List Char) :
    pieces sep (front ++ sep :: back) = pieces sep front ++ pieces sep back := by
  induction front with
  | nil => simp [pieces]
  | cons c rest ih =>
    rw [List.cons_append, pieces, pieces, ih]
    split
    · rfl
    · cases cut : pieces sep rest with
      | nil => exact absurd cut (pieces_ne_nil sep rest)
      | cons first more => rfl

theorem pieces_notMem_append (absent : sep ∉ front) (back : List Char) :
    ∃ first more, pieces sep back = first :: more ∧
      pieces sep (front ++ back) = (front ++ first) :: more := by
  obtain ⟨first, more, cut⟩ := List.exists_cons_of_ne_nil (pieces_ne_nil sep back)
  refine ⟨first, more, cut, ?_⟩
  induction front with
  | nil => exact cut
  | cons c rest ih =>
    have other : c ≠ sep := fun same => absent (same ▸ List.mem_cons_self)
    have later := ih fun mem => absent (List.mem_cons_of_mem c mem)
    rw [List.cons_append, pieces, if_neg other, later]
    rfl

theorem pieces_append_notMem (front : List Char) (absent : sep ∉ back) :
    ∃ others last, pieces sep front = others ++ [last] ∧
      pieces sep (front ++ back) = others ++ [last ++ back] := by
  induction front with
  | nil => exact ⟨[], [], rfl, pieces_of_notMem absent⟩
  | cons c rest ih =>
    obtain ⟨others, last, cut, longer⟩ := ih
    rw [List.cons_append, pieces, pieces, cut, longer]
    split
    · exact ⟨[] :: others, last, rfl, rfl⟩
    · cases others with
      | nil => exact ⟨[], c :: last, rfl, rfl⟩
      | cons first more => exact ⟨(c :: first) :: more, last, rfl, rfl⟩

theorem split_at_sep {lead body : List Char} (same : lead ++ body = front ++ sep :: back)
    (absent : sep ∉ lead) : ∃ inner, front = lead ++ inner ∧ body = inner ++ sep :: back := by
  rcases List.append_eq_append_iff.1 same with ⟨inner, rfl, cut⟩ | ⟨inner, rfl, cut⟩
  · exact ⟨inner, rfl, cut⟩
  · cases inner with
    | nil => exact ⟨[], by simp, cut.symm⟩
    | cons c more =>
      cases cut
      simp at absent

theorem FirstWord.behind_sep (first : FirstWord (front ++ sep :: back) word tail)
    (sepSolid : isBlank sep = false) (absent : sep ∉ word) :
    ∃ rest, tail = rest ++ sep :: back ∧
      ∀ other, FirstWord (front ++ other) word (rest ++ other) := by
  obtain ⟨⟨gap, blank, whole⟩, nonempty, solid, apart⟩ := first
  obtain ⟨middle, rfl, behind⟩ := split_at_sep whole.symm (notMem_of_blanks blank sepSolid)
  obtain ⟨rest, rfl, rfl⟩ := split_at_sep behind absent
  refine ⟨rest, rfl, fun other => ⟨⟨gap, blank, by simp⟩, nonempty, solid, ?_⟩⟩
  intro c mem
  cases rest with
  | nil => cases sepSolid.symm.trans (apart sep rfl)
  | cons d more => exact apart c mem

theorem before_append_sep (sep : Char) (front back : List Char) :
    before sep (front ++ sep :: back) = before sep front := by
  induction front with
  | nil => simp [before]
  | cons c rest ih =>
    rw [before, before] at ih
    rw [before, before, List.cons_append, List.takeWhile_cons, List.takeWhile_cons, ih]

theorem before_append (absent : sep ∉ front) (back : List Char) :
    before sep (front ++ back) = front ++ before sep back := by
  apply List.takeWhile_append_of_pos
  intro c mem
  simpa using fun same : c = sep => absent (same ▸ mem)

theorem before_or_append (sep : Char) (front : List Char) :
    (∀ back, before sep (front ++ back) = before sep front) ∨ sep ∉ front := by
  by_cases mem : sep ∈ front
  · left
    intro back
    obtain ⟨left, right, rfl⟩ := List.append_of_mem mem
    rw [List.append_assoc, List.cons_append, before_append_sep, before_append_sep]
  · exact .inr mem

end IntcodeVM.Text
