import IntcodeVM.Proofs.Assembly.Names
import IntcodeVM.Proofs.Text.Blanks

namespace IntcodeVM.Assembly

open Text

/-- Labels one after the other, each with its colon. -/
inductive Heads : List Char → List (List Char) → Prop
  | nil : Heads [] []
  | cons {piece rest : List Char} {names : List (List Char)} : ':' ∉ piece →
      isLabel (strip piece) = true → Heads rest names →
      Heads (piece ++ ':' :: rest) (strip piece :: names)

def Unlabelled (body : List Char) : Prop :=
  ∀ piece rest, body = piece ++ ':' :: rest → ':' ∉ piece → isLabel (strip piece) = false

/-- The names of the labels and the body of a text without a comment. -/
structure Parts (text : List Char) (names : List (List Char)) (body : List Char) : Prop where
  heads : ∃ front, Heads front names ∧ text = front ++ body
  unlabelled : Unlabelled body

def Keyword.name : Keyword → List Char
  | .data => ['.', 'd', 'a', 't', 'a']
  | .op opcode => opcode.mnemonic.toList

variable {text front body gap word tail : List Char} {names others : List (List Char)}
  {number : Nat} {keyword : Keyword}

theorem ofName?_eq_some_iff {name : List Char} :
    Keyword.ofName? name = some keyword ↔ keyword.name = name := by
  unfold Keyword.ofName?
  constructor
  · intro found
    split at found
    · rename_i same
      cases found
      exact same.symm
    · obtain ⟨op, listed, rfl⟩ := Option.map_eq_some_iff.1 found
      have same : op.mnemonic = String.ofList name := by simpa using List.find?_some listed
      simp [Keyword.name, same]
  · rintro rfl
    cases keyword with
    | data => rfl
    | op op => cases op <;> decide +kernel

theorem ofName?_eq_none_iff {name : List Char} :
    Keyword.ofName? name = none ↔ ∀ keyword : Keyword, keyword.name ≠ name := by
  constructor
  · intro none keyword same
    cases none.symm.trans (ofName?_eq_some_iff.2 same)
  · intro other
    cases found : Keyword.ofName? name with
    | none => rfl
    | some keyword => exact absurd (ofName?_eq_some_iff.1 found) (other keyword)

theorem Heads.append {back : List Char} (first : Heads front names) (second : Heads back others) :
    Heads (front ++ back) (names ++ others) := by
  induction first with
  | nil => exact second
  | cons whole named _ ih =>
    rw [List.append_assoc]
    exact .cons whole named ih

theorem notMem_of_isLabel {c : Char} {name : List Char} (named : isLabel name = true)
    (other : (c.isAlphanum || c == '_' || c == '.') = false) : c ∉ name := by
  intro mem
  cases name with
  | nil => cases mem
  | cons d rest =>
    simp only [isLabel, Bool.and_eq_true, List.all_eq_true] at named
    rcases List.mem_cons.1 mem with rfl | inRest
    · simp only [Char.isAlphanum, Bool.or_eq_true, Bool.or_eq_false_iff] at named other
      rcases named.1 with letter | line
      · cases other.1.1.1.symm.trans letter
      · cases other.1.2.symm.trans line
    · cases other.symm.trans (named.2 c inRest)

theorem Heads.notMem {c : Char} (heads : Heads front names) (colon : c ≠ ':')
    (solid : isBlank c = false) (other : (c.isAlphanum || c == '_' || c == '.') = false) :
    c ∉ front := by
  induction heads with
  | nil => exact List.not_mem_nil
  | cons _ named _ ih =>
    intro mem
    rcases List.mem_append.1 mem with inPiece | inRest
    · exact notMem_of_isLabel named other (mem_strip inPiece solid)
    · rcases List.mem_cons.1 inRest with same | inRest
      · exact colon same
      · exact ih inRest

theorem leadingLabels_heads (heads : Heads front names) (body : List Char) :
    leadingLabels (pieces ':' (front ++ body)) =
      (names ++ (leadingLabels (pieces ':' body)).1, (leadingLabels (pieces ':' body)).2) := by
  induction heads with
  | nil => rfl
  | @cons piece rest names whole named _ ih =>
    obtain ⟨next, more, cut⟩ := List.exists_cons_of_ne_nil (pieces_ne_nil ':' (rest ++ body))
    rw [cut] at ih
    rw [List.append_assoc, List.cons_append, pieces_append whole, cut, leadingLabels, if_pos named, ih]
    rfl

theorem leadingLabels_unlabelled (unlabelled : Unlabelled body) :
    leadingLabels (pieces ':' body) = ([], pieces ':' body) := by
  have whole := glue_pieces ':' body
  cases cut : pieces ':' body with
  | nil => rfl
  | cons piece rest =>
    cases rest with
    | nil => rfl
    | cons next more =>
      have absent : ':' ∉ piece := notMem_of_mem_pieces (cut ▸ List.mem_cons_self)
      rw [cut, glue] at whole
      · simp [leadingLabels, unlabelled piece _ whole.symm absent]
      · simp

/-- The labels of a line are those in front of its body, and its text is the body without the blanks at
the ends. -/
theorem ofRaw_of_parts {raw : List Char} (parts : Parts (before ';' raw) names body) (number : Nat) :
    Line.ofRaw number raw = ⟨number, names, strip body⟩ := by
  obtain ⟨front, heads, same⟩ := parts.heads
  simp [Line.ofRaw, same, leadingLabels_heads heads, leadingLabels_unlabelled parts.unlabelled,
    glue_pieces]

theorem Heads.parts (heads : Heads front names) (parts : Parts text others body) :
    Parts (front ++ text) (names ++ others) body := by
  obtain ⟨⟨inner, others, rfl⟩, unlabelled⟩ := parts
  exact ⟨⟨front ++ inner, heads.append others, by rw [List.append_assoc]⟩, unlabelled⟩

theorem exists_parts (text : List Char) : ∃ names body, Parts text names body := by
  -- on the length of the text, as each label shortens it
  induction length : text.length using Nat.strongRecOn generalizing text with
  | ind n ih =>
    by_cases unlabelled : Unlabelled text
    · exact ⟨[], text, ⟨[], .nil, rfl⟩, unlabelled⟩
    · simp only [Unlabelled, not_forall, Bool.not_eq_false] at unlabelled
      obtain ⟨piece, rest, rfl, whole, named⟩ := unlabelled
      have shorter : rest.length < n := by
        rw [← length, List.length_append, List.length_cons]
        omega
      obtain ⟨names, body, parts⟩ := ih rest.length shorter rest rfl
      have heads : Heads (piece ++ [':']) [strip piece] := .cons whole named .nil
      have whole := heads.parts parts
      rw [List.append_assoc] at whole
      exact ⟨strip piece :: names, body, whole⟩

theorem unlabelled_of_blanks (blank : Blanks body) : Unlabelled body := by
  rintro piece rest rfl -
  have first : Blanks piece := fun c mem => blank c (List.mem_append_left _ mem)
  rw [strip_of_blanks first]
  rfl

theorem unlabelled_of_notMem (absent : ':' ∉ body) : Unlabelled body := by
  rintro piece rest rfl -
  simp at absent

theorem parts_of_blanks (blank : Blanks body) : Parts body [] body :=
  ⟨⟨[], .nil, rfl⟩, unlabelled_of_blanks blank⟩

theorem statement?_of_blanks (blank : Blanks body) (number : Nat) (names : List (List Char)) :
    (Line.mk number names (strip body)).statement? = .ok none := by
  rw [strip_of_blanks blank]
  rfl

section Blanks

variable {left right raw rest : List Char}

theorem Heads.before_append (heads : Heads front names) (rest : List Char) :
    before ';' (front ++ rest) = front ++ before ';' rest :=
  Text.before_append (heads.notMem (by decide) rfl rfl) rest

theorem Unlabelled.blanks_append (unlabelled : Unlabelled body) (blank : Blanks left) :
    Unlabelled (left ++ body) := by
  intro piece rest same whole
  obtain ⟨inner, rfl, cut⟩ := split_at_sep same (notMem_of_blanks blank rfl)
  rw [strip_blanks_append blank]
  exact unlabelled inner rest cut fun mem => whole (List.mem_append_right _ mem)

theorem Unlabelled.append_blanks (unlabelled : Unlabelled body) (blank : Blanks right) :
    Unlabelled (body ++ right) := by
  intro piece rest same whole
  have absent : ':' ∉ right := notMem_of_blanks blank rfl
  rcases List.append_eq_append_iff.1 same with ⟨inner, rfl, rfl⟩ | ⟨inner, rfl, cut⟩
  · simp at absent
  · cases inner with
    | nil =>
      rw [List.nil_append] at cut
      simp [← cut] at absent
    | cons c more =>
      cases cut
      exact unlabelled piece more rfl whole

theorem unlabelled_comma_iff : Unlabelled (text ++ ',' :: rest) ↔ Unlabelled text := by
  constructor
  · rintro unlabelled piece more rfl whole
    exact unlabelled piece _ (List.append_assoc ..) whole
  · intro unlabelled piece more same whole
    by_cases comma : ',' ∈ piece
    · cases named : isLabel (strip piece) with
      | false => rfl
      | true => exact absurd (mem_strip comma rfl) (notMem_of_isLabel named rfl)
    · have absent : ',' ∉ piece ++ [':'] := by simpa using comma
      obtain ⟨inner, rfl, -⟩ := split_at_sep (by simpa using same.symm) absent
      exact unlabelled piece inner (by simp) whole

theorem Parts.append_blanks (parts : Parts text names body) (blank : Blanks right) :
    Parts (text ++ right) names (body ++ right) := by
  obtain ⟨⟨front, heads, rfl⟩, unlabelled⟩ := parts
  exact ⟨⟨front, heads, List.append_assoc ..⟩, unlabelled.append_blanks blank⟩

theorem Parts.blanks_append (parts : Parts text names body) (blank : Blanks left) :
    ∃ gap, Blanks gap ∧ Parts (left ++ text) names (gap ++ body) := by
  obtain ⟨⟨front, heads, rfl⟩, unlabelled⟩ := parts
  cases heads with
  | nil => exact ⟨left, blank, ⟨[], .nil, rfl⟩, unlabelled.blanks_append blank⟩
  | @cons piece rest names whole named others =>
    -- the blanks are now in front of the first label
    have colonless : ':' ∉ left := notMem_of_blanks blank rfl
    have absent : ':' ∉ left ++ piece := by simp [colonless, whole]
    have same : strip (left ++ piece) = strip piece := strip_blanks_append blank piece
    have heads : Heads (left ++ piece ++ ':' :: rest) (strip (left ++ piece) :: names) :=
      .cons absent (same ▸ named) others
    rw [same] at heads
    exact ⟨[], List.forall_mem_nil _, ⟨_, heads, by simp⟩, unlabelled⟩

theorem ofRaw_blanks (number : Nat) (raw : List Char) (first : Blanks left) (second : Blanks right) :
    Line.ofRaw number (left ++ (raw ++ right)) = Line.ofRaw number raw := by
  obtain ⟨names, body, parts⟩ := exists_parts (before ';' raw)
  have commentless : ';' ∉ left := notMem_of_blanks first rfl
  obtain ⟨gap, blank, more⟩ := parts.blanks_append first
  rcases before_or_append ';' raw with hidden | plain
  · have longer : Parts (before ';' (left ++ (raw ++ right))) names (gap ++ body) := by
      rwa [Text.before_append commentless, hidden]
    rw [ofRaw_of_parts parts, ofRaw_of_parts longer, strip_blanks_append blank]
  · have ends : before ';' right = right := before_of_notMem (notMem_of_blanks second rfl)
    have longer : Parts (before ';' (left ++ (raw ++ right))) names (gap ++ body ++ right) := by
      rw [before_of_notMem plain] at more
      rw [Text.before_append commentless, Text.before_append plain, ends, ← List.append_assoc]
      exact more.append_blanks second
    rw [ofRaw_of_parts parts, ofRaw_of_parts longer, strip_append_blanks _ second,
      strip_blanks_append blank]

theorem ofRaw_congr {other : List Char} (same : before ';' raw = before ';' other) (number : Nat) :
    Line.ofRaw number raw = Line.ofRaw number other := by
  rw [Line.ofRaw, Line.ofRaw, same]

end Blanks

section Operands

variable {left right : List Char}

theorem operandTokens_append (left right : List Char) :
    operandTokens (left ++ ',' :: right) = operandTokens left ++ operandTokens right := by
  rw [operandTokens, pieces_append_sep, List.map_append, List.filter_append]
  rfl

theorem operandTokens_blanks_append (blank : Blanks gap) (text : List Char) :
    operandTokens (gap ++ text) = operandTokens text := by
  have absent : ',' ∉ gap := notMem_of_blanks blank rfl
  obtain ⟨first, more, cut, longer⟩ := pieces_notMem_append absent text
  rw [operandTokens, operandTokens, cut, longer, List.map_cons, List.map_cons,
    strip_blanks_append blank]

theorem operandTokens_append_blanks (text : List Char) (blank : Blanks gap) :
    operandTokens (text ++ gap) = operandTokens text := by
  have absent : ',' ∉ gap := notMem_of_blanks blank rfl
  obtain ⟨others, last, cut, longer⟩ := pieces_append_notMem text absent
  rw [operandTokens, operandTokens, cut, longer, List.map_append, List.map_append, List.map_singleton,
    List.map_singleton, strip_append_blanks last blank]

theorem operandTokens_spaced (before behind : List Char) (first : Blanks left) (second : Blanks right) :
    operandTokens (before ++ (left ++ ',' :: (right ++ behind))) =
      operandTokens (before ++ ',' :: behind) := by
  rw [← List.append_assoc, operandTokens_append, operandTokens_append,
    operandTokens_append_blanks before first, operandTokens_blanks_append second]

end Operands

theorem statement?_of_firstWord (first : FirstWord body word tail) (number : Nat)
    (names : List (List Char)) :
    (Line.mk number names (strip body)).statement? =
      match Keyword.ofName? (lowercase word) with
      | none => .error ⟨number, .unknownMnemonic (lowercase word)⟩
      | some keyword => .ok (some ⟨number, strip body, keyword, operandTokens tail⟩) := by
  obtain ⟨lead, rest, right, before, behind, same, split⟩ := first.splitFirstWord_strip
  have nonempty : (strip body).isEmpty = false := by
    obtain ⟨⟨gap, -, rfl⟩, nonempty, solid, -⟩ := first
    obtain ⟨c, others, rfl⟩ := List.exists_cons_of_ne_nil nonempty
    have mem : c ∈ strip (gap ++ (c :: others ++ tail)) :=
      mem_strip (by simp) (solid c List.mem_cons_self)
    simpa using List.ne_nil_of_mem mem
  have tokens : operandTokens rest = operandTokens tail := by
    rw [same, operandTokens_blanks_append before, operandTokens_append_blanks rest behind]
  simp only [Line.statement?, nonempty, split, tokens]
  rfl

end IntcodeVM.Assembly
