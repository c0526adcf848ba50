import IntcodeVM.Assembly.Layout
import IntcodeVM.Proofs.Attempt

namespace IntcodeVM.Assembly

/-- The statement of a line, if it has one with a known mnemonic. -/
def Line.stated (line : Line) : Option Statement := line.statement?.toOption.join

def counted : List Statement → Nat
  | [] => 0
  | s :: rest => s.size + counted rest

variable {line : Line} {before lines : List Line} {s : Statement} {labels known : Labels}
  {names : List (List Char)} {name : List Char} {address number place : Nat} {l : Layout}

@[simp] theorem counted_nil : counted [] = 0 := rfl

@[simp] theorem counted_cons (s : Statement) (rest : List Statement) :
    counted (s :: rest) = s.size + counted rest := rfl

theorem stated_of_ok {stated : Option Statement} (h : line.statement? = .ok stated) :
    line.stated = stated := by
  rw [Line.stated, h]
  rfl

theorem line_of_stated (h : line.stated = some s) : s.line = line.number := by
  unfold Line.stated Line.statement? at h
  split at h
  · cases h
  · dsimp only at h
    split at h
    · cases h
    · cases h
      rfl

theorem defineLabels_eq_ok_iff : defineLabels number address names labels = .ok known ↔
    names.Nodup ∧ (∀ name ∈ names, labels.find? name = none) ∧
      ∀ name, known.find? name = if name ∈ names then some address else labels.find? name := by
  induction names generalizing labels with
  | nil =>
    simp only [defineLabels, List.nodup_nil, List.not_mem_nil, false_imp_iff, implies_true, true_and,
      if_false, Except.ok.injEq]
    constructor
    · rintro rfl name
      rfl
    · intro same
      exact Labels.ext_find? fun name => (same name).symm
  | cons first rest ih =>
    -- what the rest of the line sees as defined is the first name and what was defined before
    have either (name : List Char) : (if name ∈ rest then some address
          else (labels.define first address).find? name) =
        if name ∈ first :: rest then some address else labels.find? name := by
      simp only [Labels.find?_define, List.mem_cons]
      grind
    rw [defineLabels]
    split
    · rename_i defined
      constructor
      · rintro ⟨⟩
      · rintro ⟨-, fresh, -⟩
        rw [fresh first List.mem_cons_self] at defined
        cases defined
    · rename_i undefined
      have undefined : labels.find? first = none := by simpa using undefined
      rw [ih, List.nodup_cons]
      simp only [either]
      constructor
      · rintro ⟨distinct, fresh, found⟩
        have absent : first ∉ rest := by
          intro mem
          simpa [Labels.find?_define] using fresh first mem
        refine ⟨⟨absent, distinct⟩, ?_, found⟩
        intro name mem
        rcases List.mem_cons.1 mem with rfl | later
        · exact undefined
        · have other : name ≠ first := fun same => absent (same ▸ later)
          simpa [Labels.find?_define, other] using fresh name later
      · rintro ⟨⟨absent, distinct⟩, fresh, found⟩
        refine ⟨distinct, ?_, found⟩
        intro name later
        have other : name ≠ first := fun same => absent (same ▸ later)
        simpa [Labels.find?_define, other] using fresh name (List.mem_cons_of_mem first later)

theorem find?_of_defineLabels (h : defineLabels number address names labels = .ok known) :
    (∀ name ∈ names, labels.find? name = none ∧ known.find? name = some address) ∧
      ∀ name, name ∉ names → known.find? name = labels.find? name := by
  obtain ⟨-, fresh, found⟩ := defineLabels_eq_ok_iff.1 h
  constructor
  · intro name mem
    rw [found name, if_pos mem]
    exact ⟨fresh name mem, rfl⟩
  · intro name absent
    rw [found name, if_neg absent]

theorem layoutFrom_cons (h : layoutFrom address labels (line :: lines) = .ok l) :
    ∃ known rest, defineLabels line.number address line.labels labels = .ok known ∧
      line.statement? = .ok line.stated ∧
      layoutFrom (address + counted line.stated.toList) known lines = .ok rest ∧
      l.labels = rest.labels ∧
      l.statements = line.stated.toList.map (Placed.mk address) ++ rest.statements := by
  obtain ⟨known, defined, h⟩ := bind_eq_ok_iff.1 h
  obtain ⟨stated, read, h⟩ := bind_eq_ok_iff.1 h
  rw [stated_of_ok read]
  cases stated with
  | none => exact ⟨known, l, defined, read, h, rfl, rfl⟩
  | some s =>
    obtain ⟨rest, found, same⟩ := map_eq_ok_iff.1 h
    cases same
    exact ⟨known, rest, defined, read, by simpa using found, rfl, rfl⟩

theorem layoutFrom_cons_of_ok {stated : Option Statement} (lines : List Line)
    (defined : defineLabels line.number address line.labels labels = .ok known)
    (read : line.statement? = .ok stated) :
    layoutFrom address labels (line :: lines) =
      (layoutFrom (address + counted stated.toList) known lines).map fun rest =>
        ⟨rest.labels, stated.toList.map (Placed.mk address) ++ rest.statements⟩ := by
  rw [layoutFrom, defined, read]
  cases stated with
  | none =>
    cases laidOut : layoutFrom address known lines with
    | error e => simp [laidOut, Except.map]
    | ok rest => simp [laidOut, Except.map]
  | some s =>
    cases laidOut : layoutFrom (address + s.size) known lines with
    | error e => simp [laidOut, Except.map]
    | ok rest => simp [laidOut, Except.map]

theorem isSome_of_layoutFrom (h : layoutFrom address labels lines = .ok l) (name : List Char) :
    (l.labels.find? name).isSome ↔
      (labels.find? name).isSome ∨ ∃ line ∈ lines, name ∈ line.labels := by
  induction lines generalizing address labels l with
  | nil =>
    cases h
    simp
  | cons line lines ih =>
    obtain ⟨known, rest, defined, -, later, same, -⟩ := layoutFrom_cons h
    have knows : (known.find? name).isSome ↔ (labels.find? name).isSome ∨ name ∈ line.labels := by
      rw [(defineLabels_eq_ok_iff.1 defined).2.2 name]
      by_cases here : name ∈ line.labels
      · simp [here]
      · simp [here]
    rw [same, ih later, knows]
    simp [or_assoc]

def placedFrom (address : Nat) : List Statement → List Placed
  | [] => []
  | s :: rest => ⟨address, s⟩ :: placedFrom (address + s.size) rest

theorem statements_of_layoutFrom (h : layoutFrom address labels lines = .ok l) :
    l.statements = placedFrom address (lines.filterMap Line.stated) := by
  induction lines generalizing address labels l with
  | nil =>
    cases h
    rfl
  | cons line lines ih =>
    obtain ⟨known, rest, -, -, later, -, statements⟩ := layoutFrom_cons h
    rw [statements, ih later]
    cases stated : line.stated with
    | none => simp [stated]
    | some s => simp [stated, placedFrom]

theorem kept_of_layoutFrom (h : layoutFrom address labels lines = .ok l)
    (found : labels.find? name = some place) : l.labels.find? name = some place := by
  induction lines generalizing address labels l with
  | nil =>
    cases h
    exact found
  | cons line lines ih =>
    obtain ⟨known, rest, defined, -, later, same, -⟩ := layoutFrom_cons h
    obtain ⟨given, kept⟩ := find?_of_defineLabels defined
    have absent : name ∉ line.labels := by
      intro mem
      cases (given name mem).1.symm.trans found
    rw [same]
    exact ih later ((kept name absent).trans found)

/-- A label of a line has the address of what the counter has gone over before this line. -/
theorem label_of_layoutFrom
    (h : layoutFrom address labels (before ++ line :: lines) = .ok l) (mem : name ∈ line.labels) :
    l.labels.find? name = some (address + counted (before.filterMap Line.stated)) := by
  induction before generalizing address labels l with
  | nil =>
    obtain ⟨known, rest, defined, -, later, same, -⟩ := layoutFrom_cons h
    rw [same]
    exact kept_of_layoutFrom later ((find?_of_defineLabels defined).1 name mem).2
  | cons first before ih =>
    obtain ⟨known, rest, -, -, later, same, -⟩ := layoutFrom_cons h
    rw [same, ih later]
    cases stated : first.stated with
    | none => simp [stated]
    | some s => simp [stated, Nat.add_assoc]

end IntcodeVM.Assembly
