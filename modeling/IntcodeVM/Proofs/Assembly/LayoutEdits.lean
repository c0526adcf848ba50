import IntcodeVM.Proofs.Assembly.Items
import IntcodeVM.Proofs.Assembly.LineParts
import IntcodeVM.Proofs.Text.LetterCase
import Mathlib.Logic.Relation

/-! Edits of a source that change only its layout: blanks, comments, line ends behind labels and the
case of mnemonics. Each leaves the items of the source as they are. Main statement: after any number
of them a source assembles to the same words. -/
namespace IntcodeVM.Assembly

open Text

/-- A word, and what is behind it, where a line goes on after its labels. -/
structure Mnemonic (word rest : List Char) : Prop where
  ne_nil : word ≠ []
  solid : ∀ c ∈ word, isBlank c = false ∧ c ≠ ';'
  apart : ∀ c ∈ rest.head?, isBlank c = true ∨ c = ';'
  unlabelled : Unlabelled (word ++ before ';' rest)

/-- Lines that stand in the place of others. -/
inductive LineEdit : List (List Char) → List (List Char) → Prop
  | insert (line : List Char) : Blanks (before ';' line) → LineEdit [] [line]
  | comment (line text : List Char) : LineEdit [line] [line ++ ';' :: text]
  | ends (left line right : List Char) : Blanks left → Blanks right →
      LineEdit [line] [left ++ (line ++ right)]
  | comma (front left right back : List Char) : Blanks left → Blanks right →
      LineEdit [front ++ ',' :: back] [front ++ (left ++ ',' :: (right ++ back))]
  | split {front : List Char} {given : List (List Char)} (rest : List Char) : Heads front given →
      given ≠ [] → LineEdit [front ++ rest] [front, rest]
  | recase {front word : List Char} {given : List (List Char)} (gap other rest : List Char) :
      Heads front given → Blanks gap → Mnemonic word rest → SameLetters other word →
      LineEdit [front ++ (gap ++ (word ++ rest))] [front ++ (gap ++ (other ++ rest))]

/-- The source with some of its lines edited. -/
inductive Edit (source : List Char) : List Char → Prop
  | mk (above below : List (List Char)) {old new : List (List Char)} : pieces '\n' source = above ++ (old ++ below) →
      LineEdit old new → (∀ line ∈ new, '\n' ∉ line) →
      Edit source (glue '\n' (above ++ (new ++ below)))

variable {raw front rest text body word other tail left right gap source edited : List Char}
  {given others old new : List (List Char)} {items : List Item} {words : List Int}

theorem items?_of_blanks (parts : Parts (before ';' raw) given body) (blank : Blanks body) :
    (Line.ofRaw 0 raw).items? = some (given.map .label) := by
  rw [ofRaw_of_parts parts, Line.items?, statement?_of_blanks blank]
  simp [Except.toOption]

theorem items?_of_firstWord (parts : Parts (before ';' raw) given body)
    (first : FirstWord body word tail) :
    (Line.ofRaw 0 raw).items? = (Keyword.ofName? (lowercase word)).map fun keyword =>
      given.map .label ++ [.statement keyword (operandTokens tail)] := by
  rw [ofRaw_of_parts parts, Line.items?, statement?_of_firstWord first]
  cases Keyword.ofName? (lowercase word) with
  | none => rfl
  | some keyword => rfl

theorem items?_of_heads (heads : Heads front given) (rest : List Char) :
    (Line.ofRaw 0 (front ++ rest)).items? =
      (Line.ofRaw 0 rest).items?.map (given.map .label ++ ·) := by
  obtain ⟨others, body, parts⟩ := exists_parts (before ';' rest)
  have whole : Parts (before ';' (front ++ rest)) (given ++ others) body := by
    rw [heads.before_append]
    exact heads.parts parts
  rw [ofRaw_of_parts whole, ofRaw_of_parts parts, Line.items?, Line.items?, Option.map_map]
  simp [Function.comp_def, Line.statement?]

theorem comma_notMem_of_ofName? {keyword : Keyword}
    (known : Keyword.ofName? (lowercase word) = some keyword) : ',' ∉ word := by
  intro mem
  have inName : ',' ∈ keyword.name := by
    have small : lowerCharacter ',' = ',' := by decide +kernel
    rw [ofName?_eq_some_iff.1 known, ← small]
    exact mem_lowercase mem (by decide) (by decide)
  revert inName
  cases keyword with
  | data => decide
  | op op => cases op <;> decide

theorem items?_comma (back : List Char) (onLeft : Blanks left) (onRight : Blanks right)
    (found : (Line.ofRaw 0 (front ++ ',' :: back)).items? = some items) :
    (Line.ofRaw 0 (front ++ (left ++ ',' :: (right ++ back)))).items? = some items := by
  rcases before_or_append ';' front with hidden | plain
  · rw [ofRaw_congr ((hidden _).trans (hidden (',' :: back)).symm), found]
  · have short : before ';' (front ++ ',' :: back) = front ++ ',' :: before ';' back := by
      rw [Text.before_append plain]
      rfl
    have long : before ';' (front ++ (left ++ ',' :: (right ++ back))) =
        front ++ (left ++ ',' :: (right ++ before ';' back)) := by
      have leftPlain : ';' ∉ left := notMem_of_blanks onLeft rfl
      have rightPlain : ';' ∉ right := notMem_of_blanks onRight rfl
      have absent : ';' ∉ left ++ ',' :: right := by simp [leftPlain, rightPlain]
      rw [Text.before_append plain]
      simpa using Text.before_append absent back
    obtain ⟨given, body, parts⟩ := exists_parts (before ';' (front ++ ',' :: back))
    obtain ⟨lead, heads, same⟩ := parts.heads
    obtain ⟨inner, rfl, rfl⟩ := split_at_sep (same.symm.trans short) (heads.notMem (by decide) rfl rfl)
    rcases blanks_or_firstWord (inner ++ ',' :: before ';' back) with blank | ⟨word, tail, first⟩
    · exact absurd (blank ',' (by simp)) (by decide)
    · rw [items?_of_firstWord parts first] at found
      obtain ⟨keyword, known, rfl⟩ := Option.map_eq_some_iff.1 found
      obtain ⟨operands, rfl, spaced⟩ := first.behind_sep rfl (comma_notMem_of_ofName? known)
      have unlabelled : Unlabelled (inner ++ (left ++ ',' :: (right ++ before ';' back))) := by
        rw [← List.append_assoc]
        exact unlabelled_comma_iff.2 ((unlabelled_comma_iff.1 parts.unlabelled).append_blanks onLeft)
      have longer := items?_of_firstWord
        ⟨⟨lead, heads, long.trans (List.append_assoc ..)⟩, unlabelled⟩ (spaced _)
      rw [longer, known, operandTokens_spaced operands _ onLeft onRight]
      rfl

theorem isLabel_map_toLower (name : List Char) : isLabel (name.map Char.toLower) = isLabel name := by
  cases name with
  | nil => rfl
  | cons c rest =>
    have start := toLower_of_capitals (f := fun c => c.isAlpha || c == '_') (by decide +kernel) c
    have others := funext <|
      toLower_of_capitals (f := fun d => d.isAlphanum || d == '_' || d == '.') (by decide +kernel)
    simp only [List.map_cons, isLabel, start, List.all_map, Function.comp_def, others]

theorem Unlabelled.sameLetters {other : List Char} (unlabelled : Unlabelled text)
    (same : SameLetters other text) : Unlabelled other := by
  rintro piece rest rfl whole
  have colon : ∀ k < 26, ((Char.ofNat (65 + k)).toLower == ':') = (Char.ofNat (65 + k) == ':') := by
    decide +kernel
  obtain ⟨first, more, rfl, letters⟩ := SameLetters.split same.symm colon
  have absent : ':' ∉ first := by
    intro mem
    obtain ⟨front, back, rfl⟩ := List.append_of_mem mem
    obtain ⟨_, _, rfl, -⟩ := SameLetters.split letters.symm colon
    simp at whole
  rw [← isLabel_map_toLower, ← strip_map_toLower, ← letters, strip_map_toLower, isLabel_map_toLower]
  exact unlabelled first more rfl absent

theorem Mnemonic.sameLetters (stem : Mnemonic word rest) (same : SameLetters other word) :
    Mnemonic other rest := by
  refine ⟨?_, ?_, stem.apart, stem.unlabelled.sameLetters ?_⟩
  · rintro rfl
    exact stem.ne_nil (List.map_eq_nil_iff.1 same.symm)
  · have solid := (same.forall_iff (p := fun c => !isBlank c && c != ';') (by decide +kernel)).2
    simp only [Bool.and_eq_true, Bool.not_eq_true', bne_iff_ne] at solid
    exact solid stem.solid
  · rw [SameLetters, List.map_append, List.map_append, same]

theorem Mnemonic.items?_eq (stem : Mnemonic word rest) (blank : Blanks gap) :
    (Line.ofRaw 0 (gap ++ (word ++ rest))).items? = (Keyword.ofName? (lowercase word)).map fun keyword =>
      [.statement keyword (operandTokens (before ';' rest))] := by
  obtain ⟨nonempty, solid, apart, unlabelled⟩ := stem
  have absent : ';' ∉ gap ++ word := by
    simp only [List.mem_append, not_or]
    exact ⟨notMem_of_blanks blank rfl, fun mem => (solid ';' mem).2 rfl⟩
  have plain : before ';' (gap ++ (word ++ rest)) = gap ++ (word ++ before ';' rest) := by
    simpa using Text.before_append absent rest
  have ends : ∀ c ∈ (before ';' rest).head?, isBlank c = true := by
    intro c mem
    cases rest with
    | nil => cases mem
    | cons d more =>
      rcases apart d rfl with space | rfl
      · have kept : before ';' (d :: more) = d :: before ';' more := by
          have other : d ≠ ';' := by
            rintro rfl
            cases space
          simp [before, other]
        rw [kept] at mem
        cases mem
        exact space
      · cases mem
  have parts : Parts (before ';' (gap ++ (word ++ rest))) [] (gap ++ (word ++ before ';' rest)) :=
    ⟨⟨[], .nil, plain⟩, unlabelled.blanks_append blank⟩
  exact items?_of_firstWord parts ⟨⟨gap, blank, rfl⟩, nonempty, fun c mem => (solid c mem).1, ends⟩

theorem itemsOf?_singleton (line : Line) : itemsOf? [line] = line.items? := by
  rw [itemsOf?, itemsOf?]
  cases line.items? <;> simp

theorem itemsOf?_edited (edit : LineEdit old new)
    (found : itemsOf? (old.map (Line.ofRaw 0)) = some items) :
    itemsOf? (new.map (Line.ofRaw 0)) = some items := by
  cases edit with
  | insert line blank =>
    cases found
    rw [List.map_singleton, itemsOf?_singleton, items?_of_blanks (parts_of_blanks blank) blank]
    rfl
  | comment line text =>
    rw [← found, List.map_singleton, List.map_singleton,
      ofRaw_congr (before_append_sep ';' line text)]
  | ends left line right onLeft onRight =>
    rw [← found, List.map_singleton, List.map_singleton, ofRaw_blanks 0 line onLeft onRight]
  | comma front left right back onLeft onRight =>
    rw [List.map_singleton, itemsOf?_singleton] at found ⊢
    exact items?_comma back onLeft onRight found
  | @split front given rest heads _ =>
    have alone := items?_of_heads heads []
    rw [List.append_nil] at alone
    rw [List.map_singleton, itemsOf?_singleton, items?_of_heads heads rest] at found
    obtain ⟨others, read, rfl⟩ := Option.map_eq_some_iff.1 found
    have empty : (Line.ofRaw 0 []).items? = some [] := rfl
    rw [List.map_cons, List.map_singleton, itemsOf?, itemsOf?_singleton, alone, read, empty]
    simp
  | recase gap other rest heads blank stem same =>
    rw [List.map_singleton, itemsOf?_singleton, items?_of_heads heads] at found ⊢
    rw [(stem.sameLetters same).items?_eq blank, same.lowercase_eq, ← stem.items?_eq blank, found]

theorem LineEdit.new_ne_nil (edit : LineEdit old new) : new ≠ [] := by
  cases edit <;> exact List.cons_ne_nil _ _

theorem items?_edited (edit : Edit source edited) (found : items? source = some items) :
    items? edited = some items := by
  obtain ⟨above, below, cut, edit, absent⟩ := edit
  rename_i old new
  have whole : pieces '\n' (glue '\n' (above ++ (new ++ below))) = above ++ (new ++ below) := by
    apply pieces_glue (by simp [edit.new_ne_nil])
    intro line mem
    have kept : line ∈ above ++ (old ++ below) ∨ line ∈ new := by
      simp only [List.mem_append] at mem ⊢
      tauto
    rcases kept with kept | fresh
    · exact notMem_of_mem_pieces (cut ▸ kept)
    · exact absent line fresh
  rw [items?, whole, List.map_append, List.map_append, itemsOf?_append, itemsOf?_append]
  rw [items?, cut, List.map_append, List.map_append, itemsOf?_append, itemsOf?_append] at found
  simp only [Option.bind_eq_bind, Option.bind_eq_some_iff] at found ⊢
  obtain ⟨first, read, later, ⟨middle, inOld, last, inBelow, same⟩, all⟩ := found
  exact ⟨first, read, later, ⟨middle, itemsOf?_edited edit inOld, last, inBelow, same⟩, all⟩

/-- Layout does not change the words. -/
theorem assemble_edited (assembled : assemble source = .ok words)
    (edits : Relation.ReflTransGen Edit source edited) : assemble edited = .ok words := by
  obtain ⟨items, found, rest⟩ := assemble_eq_ok_iff.1 assembled
  apply assemble_eq_ok_iff.2
  refine ⟨items, ?_, rest⟩
  induction edits with
  | refl => exact found
  | tail _ edit ih => exact items?_edited edit ih

/-- A mnemonic in capitals, spaces around a comma, a label on a line of its own with a comment, a blank
line and a line that is set in. -/
theorem assemble_edited_of_each_kind :
    let source := "go:jt #1,go".toList
    let edited := "go:;start\n\n JT #1 , go".toList
    assemble source = .ok [105, 1, 0] ∧ Relation.ReflTransGen Edit source edited ∧
      assemble edited = .ok [105, 1, 0] := by
  intro source edited
  have assembled : assemble source = .ok [105, 1, 0] := by decide +kernel
  have space : Blanks [' '] := List.forall_mem_singleton.2 rfl
  have label : Heads ("go".toList ++ ':' :: []) [strip "go".toList] := .cons (by decide) (by decide) .nil
  have go : Heads "go:".toList ["go".toList] := label
  have solid : ∀ c ∈ "jt".toList, isBlank c = false ∧ c ≠ ';' :=
    List.forall_mem_cons.2 ⟨⟨rfl, by decide⟩, List.forall_mem_singleton.2 ⟨rfl, by decide⟩⟩
  have apart : ∀ c ∈ " #1,go".toList.head?, isBlank c = true ∨ c = ';' := by
    rintro _ ⟨⟩
    exact .inl rfl
  have stem : Mnemonic "jt".toList " #1,go".toList :=
    ⟨by decide, solid, apart, unlabelled_of_notMem (by decide)⟩
  have letters : SameLetters "JT".toList "jt".toList := by
    unfold SameLetters
    decide
  have recased : Edit source "go:JT #1,go".toList :=
    .mk [] [] (by decide +kernel)
      (.recase [] "JT".toList " #1,go".toList go (List.forall_mem_nil _) stem letters)
      (by decide +kernel)
  have spaced : Edit "go:JT #1,go".toList "go:JT #1 , go".toList :=
    .mk [] [] (by decide +kernel)
      (.comma "go:JT #1".toList [' '] [' '] "go".toList space space) (by decide +kernel)
  have split : Edit "go:JT #1 , go".toList "go:\nJT #1 , go".toList :=
    .mk [] [] (by decide +kernel) (.split "JT #1 , go".toList go (by decide)) (by decide +kernel)
  have commented : Edit "go:\nJT #1 , go".toList "go:;start\nJT #1 , go".toList :=
    .mk [] ["JT #1 , go".toList] (by decide +kernel) (.comment "go:".toList "start".toList)
      (by decide +kernel)
  have inserted : Edit "go:;start\nJT #1 , go".toList "go:;start\n\nJT #1 , go".toList :=
    .mk ["go:;start".toList] ["JT #1 , go".toList] (by decide +kernel)
      (.insert [] (List.forall_mem_nil _)) (by decide +kernel)
  have setIn : Edit "go:;start\n\nJT #1 , go".toList edited :=
    .mk ["go:;start".toList, []] [] (by decide +kernel)
      (.ends [' '] "JT #1 , go".toList [] space (List.forall_mem_nil _)) (by decide +kernel)
  have edits : Relation.ReflTransGen Edit source edited :=
    .head recased (.head spaced (.head split (.head commented (.head inserted (.single setIn)))))
  exact ⟨assembled, edits, assemble_edited assembled edits⟩

end IntcodeVM.Assembly
