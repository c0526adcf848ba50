import IntcodeVM.Assembly.Assembler
import IntcodeVM.Proofs.Attempt
import IntcodeVM.Proofs.Text.Tokens

namespace IntcodeVM.Assembly

open Text

def tail (tokens : List (List Char)) : List Char := glue ',' (tokens.map (' ' :: ·))

def written (name : List Char) (tokens : List (List Char)) : List Char := name ++ tail tokens

variable {name : List Char} {tokens : List (List Char)}

theorem head_tail (tokens : List (List Char)) : ∀ c ∈ (tail tokens).head?, c = ' ' := by
  intro c mem
  cases tokens with
  | nil => cases mem
  | cons first more =>
    cases more with
    | nil => exact (Option.some.inj mem).symm
    | cons next rest => exact (Option.some.inj mem).symm

theorem mem_tail {c : Char} (plain : ∀ token ∈ tokens, Token token) (h : c ∈ tail tokens) :
    isTokenCharacter c = true ∨ c = ' ' ∨ c = ',' := by
  rcases mem_glue h with rfl | ⟨text, mem, inText⟩
  · exact .inr (.inr rfl)
  · obtain ⟨token, listed, rfl⟩ := List.mem_map.1 mem
    rcases List.mem_cons.1 inText with rfl | inToken
    · exact .inr (.inl rfl)
    · exact .inl ((plain token listed).plain c inToken)

theorem notMem_written (named : Token name) (plain : ∀ token ∈ tokens, Token token) {sep : Char}
    (other : isTokenCharacter sep = false) (blank : sep ≠ ' ') (comma : sep ≠ ',') :
    sep ∉ written name tokens := by
  intro mem
  rcases List.mem_append.1 mem with inName | inTail
  · cases other.symm.trans (named.plain sep inName)
  · rcases mem_tail plain inTail with token | rfl | rfl
    · cases other.symm.trans token
    · exact blank rfl
    · exact comma rfl

theorem tail_ends (nonempty : tokens ≠ []) (plain : ∀ token ∈ tokens, Token token) :
    ∃ front last, tail tokens = front ++ last ∧ Token last := by
  obtain ⟨init, last, rfl⟩ := (List.eq_nil_or_concat tokens).resolve_left nonempty
  obtain ⟨front, same⟩ := glue_ends ',' (init.map (' ' :: ·)) (' ' :: last)
  refine ⟨front ++ [' '], last, ?_, plain last (by simp [List.concat_eq_append])⟩
  simpa [tail] using same

theorem strip_written (named : Token name) (plain : ∀ token ∈ tokens, Token token) :
    strip (written name tokens) = written name tokens := by
  by_cases nonempty : tokens = []
  · subst nonempty
    simpa [written, tail, glue] using named.strip
  · obtain ⟨front, last, same, token⟩ := tail_ends nonempty plain
    rw [written, same]
    exact strip_append named token front

theorem splitFirstWord_written (named : Token name) :
    splitFirstWord (written name tokens) = (name, (tail tokens).dropWhile isBlank) := by
  have stops : ∀ c ∈ (tail tokens).head?, (!isBlank c) = false := by
    intro c mem
    rw [head_tail tokens c mem]
    rfl
  have word : ∀ c ∈ name, (!isBlank c) = true := by
    intro c mem
    rw [named.not_blank mem]
    rfl
  rw [splitFirstWord, written, dropWhile_of_head (named.head_append _), List.takeWhile_append_of_pos word,
    List.dropWhile_append_of_pos word, takeWhile_of_head stops, dropWhile_of_head stops,
    List.append_nil]

theorem operandTokens_tail (plain : ∀ token ∈ tokens, Token token) :
    operandTokens ((tail tokens).dropWhile isBlank) = tokens := by
  cases tokens with
  | nil => rfl
  | cons first more =>
    have token := plain first List.mem_cons_self
    have same : (tail (first :: more)).dropWhile isBlank =
        glue ',' (first :: more.map (' ' :: ·)) := by
      -- only the space before the first token is dropped
      have blank : isBlank ' ' = true := rfl
      obtain ⟨c, rest, rfl⟩ := List.exists_cons_of_ne_nil token.ne_nil
      have head : isBlank c = false := token.not_blank List.mem_cons_self
      cases more <;> simp [tail, glue, blank, head]
    have absent : ∀ text ∈ first :: more.map (' ' :: ·), ',' ∉ text := by
      intro text mem inText
      rcases List.mem_cons.1 mem with rfl | mem
      · cases token.plain ',' inText
      · obtain ⟨other, listed, rfl⟩ := List.mem_map.1 mem
        rcases List.mem_cons.1 inText with comma | inOther
        · cases comma
        · cases (plain other (List.mem_cons_of_mem first listed)).plain ',' inOther
    -- the other tokens lose theirs here
    have stripped : (first :: more.map (' ' :: ·)).map strip = first :: more := by
      rw [List.map_cons, token.strip, List.map_map]
      congr 1
      rw [List.map_congr_left (g := id), List.map_id]
      intro other mem
      exact (plain other (List.mem_cons_of_mem first mem)).strip
    rw [operandTokens, same, pieces_glue (List.cons_ne_nil _ _) absent, stripped,
      List.filter_eq_self.2]
    intro text mem
    simpa using (plain text mem).ne_nil

theorem ofRaw_written (named : Token name) (plain : ∀ token ∈ tokens, Token token)
    (number : Nat) :
    Line.ofRaw number (written name tokens) = ⟨number, [], written name tokens⟩ := by
  have comment : ';' ∉ written name tokens := notMem_written named plain rfl (by decide) (by decide)
  have colon : ':' ∉ written name tokens := notMem_written named plain rfl (by decide) (by decide)
  simp only [Line.ofRaw, before_of_notMem comment, pieces_of_notMem colon, leadingLabels, glue,
    strip_written named plain]

/-- A line is one statement with these words, whatever labels there are. -/
structure Reads (line : Line) (words : List Int) : Prop where
  unlabelled : line.labels = []
  statement : ∃ s, line.statement? = .ok (some s) ∧ ∀ labels, encode labels s = .ok words

/-- A keyword's name and tokens behind it that stand for these words. -/
structure Spells (name : List Char) (tokens : List (List Char)) (words : List Int) : Prop where
  named : Token name
  plain : ∀ token ∈ tokens, Token token
  lower : lowercase name = name
  known : ∃ keyword, Keyword.ofName? name = some keyword ∧
    ∀ labels number text, encode labels ⟨number, text, keyword, tokens⟩ = .ok words

theorem Spells.reads {words : List Int} (h : Spells name tokens words) (number : Nat) :
    Reads (Line.ofRaw number (written name tokens)) words := by
  obtain ⟨keyword, known, encoded⟩ := h.known
  have nonempty : (written name tokens).isEmpty = false := by
    simp [written, h.named.ne_nil]
  rw [ofRaw_written h.named h.plain]
  refine ⟨rfl, ⟨number, written name tokens, keyword, tokens⟩, ?_, fun labels => encoded ..⟩
  simp [Line.statement?, nonempty, splitFirstWord_written h.named, h.lower, known,
    operandTokens_tail h.plain]

theorem layoutFrom_reads {list : List (Line × List Int)} (h : ∀ p ∈ list, Reads p.1 p.2)
    (address : Nat) (labels : Labels) :
    ∃ statements, layoutFrom address labels (list.map Prod.fst) = .ok ⟨labels, statements⟩ ∧
      ∀ known, ∃ emitted, emit known statements = { emitted := emitted } ∧
        emitted.flatMap Emitted.words = list.flatMap Prod.snd := by
  induction list generalizing address with
  | nil => exact ⟨[], rfl, fun known => ⟨[], rfl, rfl⟩⟩
  | cons first rest ih =>
    obtain ⟨unlabelled, s, read, encoded⟩ := h first List.mem_cons_self
    obtain ⟨statements, laidOut, emits⟩ :=
      ih (fun p mem => h p (List.mem_cons_of_mem first mem)) (address + s.size)
    refine ⟨⟨address, s⟩ :: statements, ?_, ?_⟩
    · simp [layoutFrom, unlabelled, defineLabels, read, laidOut]
    · intro known
      obtain ⟨emitted, same, words⟩ := emits known
      refine ⟨⟨⟨address, s⟩, first.2⟩ :: emitted, ?_, ?_⟩
      · simp only [emit, encoded known, same]
      · simp [words]

/-- A source whose lines all read as statements. -/
theorem assemble_of_reads {source : List Char} {list : List (Line × List Int)}
    (lines : sourceLines source = list.map Prod.fst) (h : ∀ p ∈ list, Reads p.1 p.2) :
    assemble source = .ok (list.flatMap Prod.snd) := by
  obtain ⟨statements, laidOut, emits⟩ := layoutFrom_reads h 0 {}
  obtain ⟨emitted, same, words⟩ := emits {}
  simp only [assemble, progress, layout, lines, laidOut, same, words]

end IntcodeVM.Assembly
