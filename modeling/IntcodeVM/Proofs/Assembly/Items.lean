import IntcodeVM.Proofs.Assembly.Agreement

/-! What a source says, wherever its lines end: labels and statements, one after the other. Main
statement: a source assembles to the words of its items, where a label stands for the size of the items
before it, and it is refused where a line has no items, a name is given twice or an item has no words. -/
namespace IntcodeVM.Assembly

/-- A label or a statement without its place in the text. -/
inductive Item
  | label (name : List Char)
  | statement (keyword : Keyword) (operands : List (List Char))
  deriving DecidableEq, Repr

def Statement.item (s : Statement) : Item := .statement s.keyword s.operands

namespace Item

def size : Item → Nat
  | label _ => 0
  | statement keyword operands => Statement.size ⟨0, [], keyword, operands⟩

def name? : Item → Option (List Char)
  | label name => some name
  | statement .. => none

def encode (labels : Labels) : Item → Except Problem (List Int)
  | label _ => .ok []
  | statement keyword operands => Assembly.encode labels ⟨0, [], keyword, operands⟩

@[simp] theorem size_label (name : List Char) : (label name).size = 0 := rfl

@[simp] theorem name?_label (name : List Char) : (label name).name? = some name := rfl

@[simp] theorem encode_label (labels : Labels) (name : List Char) :
    (label name).encode labels = .ok [] := rfl

@[simp] theorem encode_item (labels : Labels) (s : Statement) :
    s.item.encode labels = Assembly.encode labels s := rfl

end Item

def sizes : List Item → Nat
  | [] => 0
  | item :: rest => item.size + sizes rest

def names (items : List Item) : List (List Char) := items.filterMap Item.name?

def labelsFrom (address : Nat) : List Item → Labels
  | [] => {}
  | .label name :: rest => (labelsFrom address rest).define name address
  | .statement keyword operands :: rest =>
    labelsFrom (address + (Item.statement keyword operands).size) rest

def encodeAll (labels : Labels) : List Item → Except Problem (List Int)
  | [] => .ok []
  | item :: rest => do
    let first ← item.encode labels
    let later ← encodeAll labels rest
    return first ++ later

def Line.items? (line : Line) : Option (List Item) :=
  line.statement?.toOption.map fun stated =>
    line.labels.map .label ++ stated.toList.map Statement.item

def itemsOf? : List Line → Option (List Item)
  | [] => some []
  | line :: rest => do
    let first ← line.items?
    let later ← itemsOf? rest
    return first ++ later

/-- The items of a source; the numbers of its lines play no part in them. -/
def items? (source : List Char) : Option (List Item) :=
  itemsOf? ((Text.pieces '\n' source).map (Line.ofRaw 0))

variable {labels known : Labels} {line : Line} {lines : List Line} {items first second : List Item}
  {s : Statement} {name : List Char} {source : List Char} {words : List Int} {address number : Nat}
  {l : Layout}

section Items

@[simp] theorem names_append (first second : List Item) :
    names (first ++ second) = names first ++ names second :=
  List.filterMap_append

@[simp] theorem sizes_labels (given : List (List Char)) : sizes (given.map .label) = 0 := by
  induction given with
  | nil => rfl
  | cons name rest ih => simp [sizes, ih]

@[simp] theorem names_labels (given : List (List Char)) : names (given.map .label) = given := by
  simp [names, Function.comp_def]

@[simp] theorem sizes_stated (stated : Option Statement) :
    sizes (stated.toList.map Statement.item) = counted stated.toList := by
  cases stated with
  | none => rfl
  | some s => rfl

@[simp] theorem names_stated (stated : Option Statement) :
    names (stated.toList.map Statement.item) = [] := by
  cases stated with
  | none => rfl
  | some s => rfl

theorem find?_labelsFrom_append (address : Nat) (first second : List Item) (name : List Char) :
    (labelsFrom address (first ++ second)).find? name =
      ((labelsFrom address first).find? name).or
        ((labelsFrom (address + sizes first) second).find? name) := by
  induction first generalizing address with
  | nil => simp [labelsFrom, sizes]
  | cons item rest ih =>
    cases item with
    | label other =>
      simp only [List.cons_append, labelsFrom, Labels.find?_define, ih]
      by_cases same : name = other
      · simp [same]
      · simp [same, sizes]
    | statement keyword operands =>
      simp only [List.cons_append, labelsFrom, ih]
      simp [sizes, Nat.add_assoc]

theorem find?_labelsFrom_add (address distance : Nat) (items : List Item) (name : List Char) :
    (labelsFrom (address + distance) items).find? name =
      ((labelsFrom address items).find? name).map (· + distance) := by
  induction items generalizing address with
  | nil => simp [labelsFrom]
  | cons item rest ih =>
    cases item with
    | label other =>
      simp only [labelsFrom, Labels.find?_define, ih]
      by_cases same : name = other
      · simp [same]
      · simp [same]
    | statement keyword operands =>
      rw [labelsFrom, labelsFrom, Nat.add_right_comm, ih]

theorem isSome_find?_labelsFrom :
    ((labelsFrom address items).find? name).isSome ↔ name ∈ names items := by
  induction items generalizing address with
  | nil => simp [labelsFrom, names]
  | cons item rest ih =>
    cases item with
    | label other =>
      rw [labelsFrom, Labels.find?_define]
      by_cases same : name = other
      · simp [same, names]
      · simpa [same, names] using ih
    | statement keyword operands => simpa [labelsFrom, names, Item.name?] using ih

@[simp] theorem find?_labelsFrom_labels (address : Nat) (given : List (List Char))
    (name : List Char) :
    (labelsFrom address (given.map .label)).find? name =
      if name ∈ given then some address else none := by
  induction given with
  | nil => simp [labelsFrom]
  | cons first rest ih =>
    simp only [List.map_cons, labelsFrom, Labels.find?_define, ih, List.mem_cons]
    by_cases same : name = first
    · simp [same]
    · simp [same]

@[simp] theorem find?_labelsFrom_stated (address : Nat) (stated : Option Statement)
    (name : List Char) :
    (labelsFrom address (stated.toList.map Statement.item)).find? name = none := by
  cases stated with
  | none => exact Labels.find?_empty name
  | some s => exact Labels.find?_empty name

theorem encodeAll_append (labels : Labels) (first second : List Item) :
    encodeAll labels (first ++ second) = do
      let front ← encodeAll labels first
      let back ← encodeAll labels second
      return front ++ back := by
  induction first with
  | nil =>
    simp only [List.nil_append, encodeAll, ok_bind]
    cases encodeAll labels second <;> rfl
  | cons item rest ih =>
    simp only [List.cons_append, encodeAll, ih]
    cases item.encode labels with
    | error problem => rfl
    | ok words =>
      cases encodeAll labels rest with
      | error problem => rfl
      | ok more =>
        cases encodeAll labels second with
        | error problem => rfl
        | ok others => simp

theorem itemsOf?_append (before after : List Line) :
    itemsOf? (before ++ after) = do
      let first ← itemsOf? before
      let later ← itemsOf? after
      return first ++ later := by
  induction before with
  | nil =>
    rw [List.nil_append, itemsOf?]
    cases itemsOf? after <;> rfl
  | cons line rest ih =>
    simp only [List.cons_append, itemsOf?, ih]
    cases line.items? with
    | none => rfl
    | some items =>
      cases itemsOf? rest with
      | none => rfl
      | some more =>
        cases itemsOf? after with
        | none => rfl
        | some others => simp

theorem items?_ofRaw (number : Nat) (raw : List Char) :
    (Line.ofRaw number raw).items? = (Line.ofRaw 0 raw).items? := by
  unfold Line.items? Line.statement? Line.ofRaw
  dsimp only
  split
  · rfl
  · split
    · rfl
    · rfl

theorem itemsOf?_sourceLines (source : List Char) : itemsOf? (sourceLines source) = items? source := by
  have numbered (raws : List (List Char)) (number : Nat) :
      itemsOf? ((raws.zipIdx number).map fun p => Line.ofRaw p.2 p.1) =
        itemsOf? (raws.map (Line.ofRaw 0)) := by
    induction raws generalizing number with
    | nil => rfl
    | cons raw rest ih =>
      simp only [List.zipIdx_cons, List.map_cons, itemsOf?, items?_ofRaw number raw, ih]
  exact numbered _ 1

end Items

theorem items?_eq_some_iff : line.items? = some items ↔
    ∃ stated, line.statement? = .ok stated ∧
      items = line.labels.map .label ++ stated.toList.map Statement.item := by
  rw [Line.items?]
  cases line.statement? with
  | error problem => simp [Except.toOption]
  | ok stated => simp [Except.toOption, eq_comm]

theorem itemsOf?_cons_eq_some_iff : itemsOf? (line :: lines) = some items ↔
    ∃ stated later, line.statement? = .ok stated ∧ itemsOf? lines = some later ∧
      items = line.labels.map .label ++ (stated.toList.map Statement.item ++ later) := by
  simp only [itemsOf?, Option.bind_eq_bind, Option.bind_eq_some_iff, items?_eq_some_iff]
  constructor
  · rintro ⟨_, ⟨stated, read, rfl⟩, later, found, same⟩
    exact ⟨stated, later, read, found, by simpa using (Option.some.inj same).symm⟩
  · rintro ⟨stated, later, read, found, rfl⟩
    exact ⟨_, ⟨stated, read, rfl⟩, later, found, by simp⟩

theorem exists_defineLabels (number address : Nat) {given : List (List Char)} (distinct : given.Nodup)
    (fresh : ∀ name ∈ given, labels.find? name = none) :
    ∃ known, defineLabels number address given labels = .ok known := by
  induction given generalizing labels with
  | nil => exact ⟨labels, rfl⟩
  | cons first rest ih =>
    obtain ⟨absent, distinct⟩ := List.nodup_cons.1 distinct
    have undefined := fresh first List.mem_cons_self
    rw [defineLabels, undefined]
    apply ih distinct
    intro name later
    have other : name ≠ first := fun same => absent (same ▸ later)
    rw [Labels.find?_define, if_neg other]
    exact fresh name (List.mem_cons_of_mem first later)

theorem items_of_layoutFrom (h : layoutFrom address labels lines = .ok l) :
    ∃ items, itemsOf? lines = some items ∧ (names items).Nodup ∧
      (∀ name ∈ names items, labels.find? name = none) ∧
      (∀ name, l.labels.find? name =
        ((labelsFrom address items).find? name).or (labels.find? name)) ∧
      l.statements.map (fun p => p.statement.item) = items.filter fun item => item.name?.isNone := by
  induction lines generalizing address labels l with
  | nil =>
    cases h
    exact ⟨[], rfl, .nil, by simp [names], by simp [labelsFrom], rfl⟩
  | cons line lines ih =>
    obtain ⟨known, rest, defined, read, later, same, placed⟩ := layoutFrom_cons h
    obtain ⟨items, found, distinct, fresh, finds, listed⟩ := ih later
    obtain ⟨once, undefined, knows⟩ := defineLabels_eq_ok_iff.1 defined
    -- a name that comes later is not one of this line, as it was not known then
    have apart : ∀ name ∈ names items, name ∉ line.labels ∧ labels.find? name = none := by
      intro name mem
      have unknown := fresh name mem
      rw [knows name] at unknown
      split at unknown
      · cases unknown
      · exact ⟨‹_›, unknown⟩
    refine ⟨_, itemsOf?_cons_eq_some_iff.2 ⟨_, _, read, found, rfl⟩, ?_, ?_, ?_, ?_⟩
    · simp only [names_append, names_labels, names_stated, List.nil_append]
      apply List.nodup_append.2 ⟨once, distinct, ?_⟩
      rintro name here _ later rfl
      exact (apart name later).1 here
    · intro name mem
      simp only [names_append, names_labels, names_stated, List.nil_append, List.mem_append] at mem
      rcases mem with here | later
      · exact undefined name here
      · exact (apart name later).2
    · intro name
      rw [same, finds name, knows name]
      simp only [find?_labelsFrom_append, find?_labelsFrom_labels, find?_labelsFrom_stated, sizes_labels,
        sizes_stated, Nat.add_zero, Option.none_or]
      by_cases here : name ∈ line.labels
      · have absent : (labelsFrom (address + counted line.stated.toList) items).find? name = none := by
          apply Option.not_isSome_iff_eq_none.1
          exact fun some => (apart name (isSome_find?_labelsFrom.1 some)).1 here
        simp [here, absent]
      · simp [here]
    · rw [placed, List.map_append, listed, List.filter_append, List.filter_append]
      cases line.stated <;> simp [Item.name?, Statement.item]

theorem exists_layoutFrom (whole : itemsOf? lines = some items) (distinct : (names items).Nodup)
    (fresh : ∀ name ∈ names items, labels.find? name = none) :
    ∃ l, layoutFrom address labels lines = .ok l := by
  induction lines generalizing address labels items with
  | nil => exact ⟨_, rfl⟩
  | cons line lines ih =>
    obtain ⟨stated, later, read, found, rfl⟩ := itemsOf?_cons_eq_some_iff.1 whole
    simp only [names_append, names_labels, names_stated, List.nil_append] at distinct fresh
    obtain ⟨once, others, apart⟩ := List.nodup_append.1 distinct
    obtain ⟨known, defined⟩ := exists_defineLabels line.number address once
      fun name mem => fresh name (List.mem_append_left _ mem)
    have unknown : ∀ name ∈ names later, known.find? name = none := by
      intro name mem
      have absent : name ∉ line.labels := fun here => apart name here name mem rfl
      rw [(defineLabels_eq_ok_iff.1 defined).2.2 name, if_neg absent]
      exact fresh name (List.mem_append_right _ mem)
    obtain ⟨l, laidOut⟩ : ∃ l, layoutFrom (address + counted stated.toList) known lines = .ok l :=
      ih found others unknown
    exact ⟨_, by rw [layoutFrom_cons_of_ok lines defined read, laidOut]; rfl⟩

theorem encodeAll_filter (labels : Labels) (items : List Item) :
    encodeAll labels (items.filter fun item => item.name?.isNone) = encodeAll labels items := by
  induction items with
  | nil => rfl
  | cons item rest ih =>
    cases item with
    | label name =>
      simp only [List.filter_cons, Item.name?_label, Option.isNone_some, Bool.false_eq_true, if_false,
        encodeAll, Item.encode_label, ok_bind, List.nil_append, ih]
      cases encodeAll labels rest <;> rfl
    | statement keyword operands => rw [List.filter_cons_of_pos rfl, encodeAll, encodeAll, ih]

theorem encodeAll_emitted {emitted : List Emitted} {written : Emitted → List Int}
    (each : ∀ e ∈ emitted, encode labels e.placed.statement = .ok (written e)) :
    encodeAll labels (emitted.map fun e => e.placed.statement.item) =
      .ok (emitted.flatMap written) := by
  induction emitted with
  | nil => rfl
  | cons e rest ih =>
    have later := ih fun e mem => each e (List.mem_cons_of_mem _ mem)
    simp [encodeAll, each e List.mem_cons_self, later]

theorem exists_emit {statements : List Placed}
    (encoded : encodeAll labels (statements.map fun p => p.statement.item) = .ok words) :
    ∃ emitted, emit labels statements = { emitted := emitted } ∧
      emitted.flatMap Emitted.words = words := by
  induction statements generalizing words with
  | nil =>
    cases encoded
    exact ⟨[], rfl, rfl⟩
  | cons p rest ih =>
    obtain ⟨first, here, later⟩ := bind_eq_ok_iff.1 encoded
    obtain ⟨more, behind, same⟩ := bind_eq_ok_iff.1 later
    cases same
    obtain ⟨others, emits, rfl⟩ := ih behind
    rw [Item.encode_item] at here
    exact ⟨⟨p, first⟩ :: others, by rw [emit, here, emits], rfl⟩

/-- A source with its items and the words of its statements. -/
structure Itemized (source : List Char) (items : List Item) (emitted : List Emitted) : Prop where
  read : items? source = some items
  distinct : (names items).Nodup
  emits : progress source = { emitted := emitted }
  encoded : ∀ e ∈ emitted, encode (labelsFrom 0 items) e.placed.statement = .ok e.words
  listed : emitted.map (fun e => e.placed.statement.item) = items.filter fun item => item.name?.isNone

theorem items_of_layout (laidOut : layout source = .ok l) :
    ∃ items, items? source = some items ∧ (names items).Nodup ∧ l.labels = labelsFrom 0 items ∧
      l.statements.map (fun p => p.statement.item) = items.filter fun item => item.name?.isNone := by
  obtain ⟨items, read, distinct, -, finds, listed⟩ := items_of_layoutFrom laidOut
  refine ⟨items, (itemsOf?_sourceLines source).symm.trans read, distinct, ?_, listed⟩
  apply Labels.ext_find?
  intro name
  rw [finds name, Labels.find?_empty, Option.or_none]

theorem itemized_of_assemble (assembled : assemble source = .ok words) :
    ∃ items emitted, Itemized source items emitted ∧ emitted.flatMap Emitted.words = words := by
  obtain ⟨l, emitted, passes, rfl⟩ := passes_of_assemble assembled
  obtain ⟨items, read, distinct, same, listed⟩ := items_of_layout passes.laidOut
  have whole : progress source = emit l.labels l.statements := by rw [progress, passes.laidOut]
  obtain ⟨placed, encoded⟩ := emit_eq_iff.1 (whole.symm.trans passes.emits)
  refine ⟨items, emitted, ⟨read, distinct, passes.emits, ?_, ?_⟩, rfl⟩
  · rwa [← same]
  · rw [← listed, ← placed, List.map_map]
    rfl

theorem Itemized.encodeAll_eq {emitted : List Emitted} {written : Emitted → List Int}
    (itemized : Itemized source items emitted)
    (each : ∀ e ∈ emitted, encode labels e.placed.statement = .ok (written e)) :
    encodeAll labels items = .ok (emitted.flatMap written) := by
  rw [← encodeAll_filter, ← itemized.listed]
  exact encodeAll_emitted each

theorem assemble_eq_ok_iff : assemble source = .ok words ↔
    ∃ items, items? source = some items ∧ (names items).Nodup ∧
      encodeAll (labelsFrom 0 items) items = .ok words := by
  constructor
  · intro assembled
    obtain ⟨items, emitted, itemized, rfl⟩ := itemized_of_assemble assembled
    exact ⟨items, itemized.read, itemized.distinct, itemized.encodeAll_eq itemized.encoded⟩
  · rintro ⟨items, read, distinct, encoded⟩
    obtain ⟨l, laidOut⟩ : ∃ l, layout source = .ok l :=
      exists_layoutFrom ((itemsOf?_sourceLines source).trans read) distinct fun name _ =>
        Labels.find?_empty name
    obtain ⟨others, again, -, same, listed⟩ := items_of_layout laidOut
    cases again.symm.trans read
    rw [← same, ← encodeAll_filter, ← listed] at encoded
    obtain ⟨emitted, emits, rfl⟩ := exists_emit encoded
    have whole : progress source = { emitted := emitted } := by
      rw [progress, laidOut]
      exact emits
    rw [assemble, whole]

end IntcodeVM.Assembly
