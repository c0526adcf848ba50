import IntcodeVM.Proofs.Assembly.Items
import IntcodeVM.Proofs.Text.Blanks

/-! Two sources as one. Main statement: where both assemble and no label is defined by both, the one
behind the other assembles to the words of the first, then those of the second, and of these only the
values of labels have changed, by the length of the first. -/
namespace IntcodeVM.Assembly

def defined (source : List Char) : List (List Char) := (sourceLines source).flatMap Line.labels

/-- The token that a word of a statement was read from, without its mark. -/
def Emitted.token? (e : Emitted) (index : Nat) : Option (List Char) :=
  if index < e.statement.keyword.lead then none
  else e.statement.operands[index - e.statement.keyword.lead]?.map e.statement.keyword.bare

/-- The words of a statement when the labels of its source have moved on. -/
def Emitted.relocated (given : List (List Char)) (distance : Nat) (e : Emitted) : List Int :=
  e.words.mapIdx fun index word =>
    if (e.token? index).any (· ∈ given) then word + distance else word

/-- The words of a source with a distance added to each that was read from a label. -/
def relocation (source : List Char) (distance : Nat) : List Int :=
  (progress source).emitted.flatMap (Emitted.relocated (defined source) distance)

/-- Labels that are known with addresses further on. -/
structure Further (given : List (List Char)) (distance : Nat) (labels known : Labels) : Prop where
  defined {name : List Char} : (labels.find? name).isSome ↔ name ∈ given
  named {name : List Char} : name ∈ given → isLabel name = true
  found {name : List Char} {address : Nat} : labels.find? name = some address →
    known.find? name = some (address + distance)

variable {labels known : Labels} {given : List (List Char)} {distance : Nat} {token : List Char}
  {n : Int} {s : Statement} {words moved others : List Int} {e : Emitted} {items : List Item}
  {source first second : List Char} {emitted : List Emitted}

theorem value_further (further : Further given distance labels known)
    (read : value labels token = .ok n) :
    value known token = .ok (if token ∈ given then n + distance else n) := by
  unfold value at read ⊢
  cases numeral : Text.integer? token with
  | some m =>
    have absent : token ∉ given := by
      intro mem
      cases (integer?_name (further.named mem)).symm.trans numeral
    rw [numeral] at read
    cases read
    simp [absent]
  | none =>
    rw [numeral] at read
    cases found : labels.find? token with
    | none =>
      rw [found] at read
      cases read
    | some address =>
      have mem : token ∈ given := further.defined.1 (by simp [found])
      rw [found] at read
      cases read
      simp [further.found found, mem]

theorem size_of_encode (encoded : encode labels s = .ok words) :
    s.size = s.keyword.lead + s.operands.length := by
  obtain ⟨line, text, keyword, operands⟩ := s
  cases keyword with
  | data => simp [Statement.size, Keyword.lead]
  | op op =>
    rw [encode] at encoded
    dsimp only at encoded
    split at encoded
    · cases encoded
    · rename_i i listed
      obtain ⟨rfl, rfl⟩ := Instruction.ofList?_eq_some_iff.1 listed
      simp [Statement.size, Keyword.lead, Nat.add_comm]

theorem operand_further {o : Operand} (further : Further given distance labels known)
    (read : operand labels token = .ok o) : ∃ p, operand known token = .ok p ∧ o.mode = p.mode := by
  obtain ⟨nonempty, mode, found⟩ := (operand_eq_ok_iff .halt).1 read
  let n := if (Keyword.op .halt).bare token ∈ given then o.value + distance else o.value
  have still : operand known token = .ok ⟨o.mode, n⟩ :=
    (operand_eq_ok_iff .halt).2 ⟨nonempty, mode, value_further further found⟩
  exact ⟨⟨o.mode, n⟩, still, rfl⟩

theorem exists_encode (further : Further given distance labels known)
    (encoded : encode labels s = .ok words) : ∃ moved, encode known s = .ok moved ∧
      moved.take s.keyword.lead = words.take s.keyword.lead := by
  obtain ⟨line, text, keyword, operands⟩ := s
  cases keyword with
  | data =>
    rw [encode] at encoded ⊢
    dsimp only at encoded ⊢
    split at encoded
    · cases encoded
    · rename_i some
      obtain ⟨moved, values, -⟩ := exists_forall₂ (S := fun token n => value known token = .ok n)
        (T := fun _ _ => True) (mapM_eq_ok_iff.1 encoded)
        fun token n read => ⟨_, value_further further read, trivial⟩
      exact ⟨moved, by rw [if_neg some, mapM_eq_ok_iff.2 values], rfl⟩
  | op op =>
    rw [encode] at encoded ⊢
    dsimp only at encoded ⊢
    split at encoded
    · cases encoded
    · rename_i i listed
      obtain ⟨j, parsed, same⟩ := map_eq_ok_iff.1 encoded
      cases same
      obtain ⟨moved, values, modes⟩ := exists_forall₂ (Instruction.forall₂_of_mapM parsed)
        fun token o read => operand_further further read
      obtain ⟨k, found, opcode, rfl⟩ := Instruction.exists_mapM values
      have same : j.toList.map Operand.mode = k.toList.map Operand.mode := by
        rw [← List.forall₂_eq_eq_eq, List.forall₂_map_left_iff, List.forall₂_map_right_iff]
        exact modes
      refine ⟨k.words, map_eq_ok_iff.2 ⟨k, found, rfl⟩, ?_⟩
      simp [Instruction.words, Keyword.lead, opcode, Instruction.opcode_of_mapM parsed, same]

theorem encode_further (further : Further given distance labels known)
    (encoded : encode labels e.statement = .ok e.words) :
    encode known e.statement = .ok (e.relocated given distance) := by
  obtain ⟨moved, again, same⟩ := exists_encode further encoded
  have old := encodes_of_encode encoded
  have new := encodes_of_encode again
  rw [again]
  congr 1
  apply List.ext_getElem?
  intro index
  rw [Emitted.relocated, List.getElem?_mapIdx]
  by_cases head : index < e.statement.keyword.lead
  · have kept : moved[index]? = e.words[index]? := by
      simpa [List.getElem?_take, head] using congrArg (·[index]?) same
    simp [kept, Emitted.token?, head]
  · obtain ⟨k, rfl⟩ := Nat.exists_eq_add_of_le (Nat.le_of_not_lt head)
    cases found : e.statement.operands[k]? with
    | none =>
      have past : e.statement.size ≤ e.statement.keyword.lead + k := by
        rw [size_of_encode encoded]
        exact Nat.add_le_add_left (List.getElem?_eq_none_iff.1 found) _
      rw [List.getElem?_eq_none (new.length ▸ past), List.getElem?_eq_none (old.length ▸ past)]
      rfl
    | some token =>
      obtain ⟨n, here, read⟩ := old.token found
      obtain ⟨m, there, reread⟩ := new.token found
      cases reread.symm.trans (value_further further read)
      have origin : e.token? (e.statement.keyword.lead + k) = some (e.statement.keyword.bare token) := by
        simp [Emitted.token?, found]
      rw [there, here, origin]
      simp

theorem relocated_zero (given : List (List Char)) (e : Emitted) : e.relocated given 0 = e.words := by
  simp [Emitted.relocated, List.mapIdx_eq_zipIdx_map]

theorem names_of_items (read : items? source = some items) : names items = defined source := by
  have each (lines : List Line) (items : List Item) (read : itemsOf? lines = some items) :
      names items = lines.flatMap Line.labels := by
    induction lines generalizing items with
    | nil =>
      cases read
      rfl
    | cons line lines ih =>
      obtain ⟨stated, later, -, found, rfl⟩ := itemsOf?_cons_eq_some_iff.1 read
      simp [ih later found]
  exact each _ _ ((itemsOf?_sourceLines source).trans read)

theorem length_encodeAll (encoded : encodeAll labels items = .ok words) :
    words.length = sizes items := by
  induction items generalizing words with
  | nil =>
    cases encoded
    rfl
  | cons item rest ih =>
    obtain ⟨front, here, later⟩ := bind_eq_ok_iff.1 encoded
    obtain ⟨back, behind, same⟩ := bind_eq_ok_iff.1 later
    cases same
    have size : front.length = item.size := by
      cases item with
      | label name =>
        cases here
        rfl
      | statement keyword operands => exact (encodes_of_encode here).length
    simp [sizes, size, ih behind]

/-- The labels of the first items stay where they are, and those of the second are further on by the
size of the first. -/
theorem further_of_items {front back : List Item} (apart : ∀ name ∈ names front, name ∉ names back)
    (named : ∀ name ∈ names front ++ names back, isLabel name = true) :
    Further (names front) 0 (labelsFrom 0 front) (labelsFrom 0 (front ++ back)) ∧
      Further (names back) (sizes front) (labelsFrom 0 back) (labelsFrom 0 (front ++ back)) := by
  constructor
  · refine ⟨isSome_find?_labelsFrom, fun mem => named _ (List.mem_append_left _ mem), ?_⟩
    intro name address found
    simp [find?_labelsFrom_append, found]
  · refine ⟨isSome_find?_labelsFrom, fun mem => named _ (List.mem_append_right _ mem), ?_⟩
    intro name address found
    have mem : name ∈ names back := isSome_find?_labelsFrom.1 (Option.isSome_of_eq_some found)
    have absent : (labelsFrom 0 front).find? name = none := by
      have missing : ¬ ((labelsFrom 0 front).find? name).isSome :=
        fun some => apart name (isSome_find?_labelsFrom.1 some) mem
      simpa using missing
    rw [find?_labelsFrom_append, absent, Option.none_or, find?_labelsFrom_add, found, Option.map_some]

theorem isLabel_of_mem_defined {name : List Char} (mem : name ∈ defined source) :
    isLabel name = true := by
  obtain ⟨line, listed, inLine⟩ := List.mem_flatMap.1 mem
  exact isLabel_of_mem_labels listed inLine

theorem items?_joined (first second : List Char) : items? (first ++ '\n' :: second) = do
    let front ← items? first
    let back ← items? second
    return front ++ back := by
  rw [items?, Text.pieces_append_sep, List.map_append, itemsOf?_append]
  rfl

/-- Two sources without a label in common assemble one behind the other. -/
theorem assemble_joined (front : assemble first = .ok words) (back : assemble second = .ok others)
    (apart : ∀ name ∈ defined first, name ∉ defined second) :
    (progress second).emitted.flatMap Emitted.words = others ∧
      (relocation second words.length).length = others.length ∧
      assemble (first ++ '\n' :: second) = .ok (words ++ relocation second words.length) := by
  obtain ⟨xs, early, left, rfl⟩ := itemized_of_assemble front
  obtain ⟨ys, late, right, rfl⟩ := itemized_of_assemble back
  have size := length_encodeAll (left.encodeAll_eq left.encoded)
  have apart' : ∀ name ∈ names xs, name ∉ names ys := by
    rwa [names_of_items left.read, names_of_items right.read]
  have named : ∀ name ∈ names xs ++ names ys, isLabel name = true := by
    intro name mem
    rw [names_of_items left.read, names_of_items right.read] at mem
    exact (List.mem_append.1 mem).elim isLabel_of_mem_defined isLabel_of_mem_defined
  obtain ⟨stay, move⟩ := further_of_items apart' named
  have kept : encodeAll (labelsFrom 0 (xs ++ ys)) xs = .ok (early.flatMap Emitted.words) := by
    apply left.encodeAll_eq
    intro e mem
    rw [← relocated_zero (names xs) e]
    exact encode_further stay (left.encoded e mem)
  have moved : encodeAll (labelsFrom 0 (xs ++ ys)) ys =
      .ok (relocation second (early.flatMap Emitted.words).length) := by
    rw [relocation, right.emits, size, ← names_of_items right.read]
    exact right.encodeAll_eq fun e mem => encode_further move (right.encoded e mem)
  refine ⟨by rw [right.emits], ?_, ?_⟩
  · simp [relocation, right.emits, Emitted.relocated, List.length_flatMap]
  · rw [assemble_eq_ok_iff]
    refine ⟨xs ++ ys, ?_, ?_, ?_⟩
    · rw [items?_joined, left.read, right.read]
      rfl
    · rw [names_append, List.nodup_append]
      refine ⟨left.distinct, right.distinct, ?_⟩
      rintro name mem _ later rfl
      exact apart' name mem later
    · rw [encodeAll_append, kept, moved]
      rfl

/-- The first source ends in a label and a comment; in the second one value of a label is a word of data
and another is an operand. -/
theorem assemble_joined_behind_label :
    let first := "a: out a\nend: ; of the first".toList
    let second := "jt #1, b\nb: .data b, 7".toList
    assemble first = .ok [4, 0] ∧ assemble second = .ok [105, 1, 3, 3, 7] ∧
      (∀ name ∈ defined first, name ∉ defined second) ∧
      assemble (first ++ '\n' :: second) = .ok [4, 0, 105, 1, 5, 5, 7] := by
  intro first second
  have front : assemble first = .ok [4, 0] := by decide +kernel
  have back : assemble second = .ok [105, 1, 3, 3, 7] := by decide +kernel
  have apart : ∀ name ∈ defined first, name ∉ defined second := by decide +kernel
  have moved : relocation second 2 = [105, 1, 5, 5, 7] := by decide +kernel
  refine ⟨front, back, apart, ?_⟩
  rw [(assemble_joined front back apart).2.2]
  exact congrArg (fun late => Except.ok ([4, 0] ++ late)) moved

end IntcodeVM.Assembly
