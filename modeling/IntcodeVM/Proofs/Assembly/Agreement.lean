import IntcodeVM.Proofs.Assembly.FirstPass
import IntcodeVM.Proofs.Assembly.Names
import IntcodeVM.Proofs.Assembly.SecondPass

/-! The two passes of the assembler against each other. Main statement: in a source that assembles,
every statement stands in the words where the first pass counted it, and a token that names a label
stands for the index at which the words of the statements behind the label begin. -/
namespace IntcodeVM.Assembly

def Emitted.statement (e : Emitted) : Statement := e.placed.statement

/-- Where the words of the statements from a line on begin. -/
def landing (emitted : List Emitted) (number : Nat) : Nat :=
  ((emitted.takeWhile fun e => e.statement.line < number).flatMap Emitted.words).length

variable {source : List Char} {words : List Int} {line : Line} {before after : List Line}
  {labels : Labels} {l : Layout} {emitted first rest : List Emitted} {e : Emitted}
  {name token : List Char} {number k : Nat}

/-- What the passes over a source have to do with each other. -/
structure Agree (source : List Char) (words : List Int) (l : Layout) (emitted : List Emitted) :
    Prop where
  laidOut : layout source = .ok l
  emits : progress source = { emitted := emitted }
  statements : l.statements.map Placed.statement = (sourceLines source).filterMap Line.stated
  placed : emitted.map Emitted.placed = l.statements
  whole : emitted.flatMap Emitted.words = words
  counter : counted (l.statements.map Placed.statement) = words.length
  start {first rest : List Emitted} {e : Emitted} : emitted = first ++ e :: rest →
    e.words ≠ [] ∧ e.words.length = e.statement.size ∧
      e.placed.address = counted (first.map Emitted.statement) ∧
      e.placed.address = (first.flatMap Emitted.words).length
  landing_start {number : Nat} {e : Emitted} :
    emitted.find? (fun e => number ≤ e.statement.line) = some e →
      landing emitted number = e.placed.address ∧ words[landing emitted number]? = e.words.head?
  landing_end {number : Nat} : emitted.find? (fun e => number ≤ e.statement.line) = none →
    landing emitted number = words.length
  label {line : Line} {name : List Char} : line ∈ sourceLines source → name ∈ line.labels →
    Text.integer? name = none ∧ l.labels.find? name = some (landing emitted line.number)
  token {line : Line} {name token : List Char} {e : Emitted} {k : Nat} :
    line ∈ sourceLines source → name ∈ line.labels → e ∈ emitted →
    e.statement.operands[k]? = some token → e.statement.keyword.bare token = name →
      e.words[e.statement.keyword.lead + k]? = some (landing emitted line.number : Int)

theorem ascending_numbers (source : List Char) :
    (sourceLines source).Pairwise fun line other => line.number < other.number := by
  have numbers : (sourceLines source).map Line.number =
      List.range' 1 (Text.pieces '\n' source).length := by
    rw [sourceLines, List.map_map, ← List.zipIdx_map_snd]
    rfl
  rw [← List.pairwise_map (f := Line.number) (R := (· < ·)), numbers]
  exact List.pairwise_lt_range'

theorem number_lt_of_sourceLines (h : sourceLines source = before ++ line :: after) :
    (∀ other ∈ before, other.number < line.number) ∧
      ∀ other ∈ after, line.number < other.number := by
  have ascending := ascending_numbers source
  rw [h, List.pairwise_append, List.pairwise_cons] at ascending
  obtain ⟨-, ⟨later, -⟩, earlier⟩ := ascending
  exact ⟨fun other mem => earlier other mem line List.mem_cons_self, later⟩

theorem length_flatMap_words (sized : ∀ e ∈ emitted, e.words.length = e.statement.size) :
    (emitted.flatMap Emitted.words).length = counted (emitted.map Emitted.statement) := by
  induction emitted with
  | nil => rfl
  | cons e rest ih =>
    have others := ih fun e mem => sized e (List.mem_cons_of_mem _ mem)
    rw [List.flatMap_cons, List.length_append, sized e List.mem_cons_self, others, List.map_cons,
      counted_cons]

theorem landing_append (earlier : ∀ e ∈ first, e.statement.line < number)
    (later : ∀ e ∈ rest.head?, number ≤ e.statement.line) :
    landing (first ++ rest) number = (first.flatMap Emitted.words).length := by
  have taken : (first ++ rest).takeWhile (fun e => decide (e.statement.line < number)) = first := by
    rw [List.takeWhile_append_of_pos fun e mem => decide_eq_true (earlier e mem)]
    cases rest with
    | nil => simp
    | cons e rest =>
      have behind : ¬ e.statement.line < number := Nat.not_lt.2 (later e rfl)
      simp [behind]
  rw [landing, taken]

theorem placedFrom_split {address : Nat} {p : Placed} {ps qs : List Placed}
    {statements : List Statement} (h : placedFrom address statements = ps ++ p :: qs) :
    p.address = address + counted (ps.map Placed.statement) := by
  induction ps generalizing address statements with
  | nil =>
    cases statements with
    | nil => cases h
    | cons s rest =>
      cases h
      simp
  | cons q ps ih =>
    cases statements with
    | nil => cases h
    | cons s rest =>
      obtain ⟨same, onward⟩ := List.cons.inj h
      cases same
      rw [ih onward, List.map_cons, counted_cons, Nat.add_assoc]

theorem map_placedFrom (address : Nat) (statements : List Statement) :
    (placedFrom address statements).map Placed.statement = statements := by
  induction statements generalizing address with
  | nil => rfl
  | cons s rest ih => rw [placedFrom, List.map_cons, ih]

/-- A source that went through both passes. -/
structure Passes (source : List Char) (l : Layout) (emitted : List Emitted) : Prop where
  laidOut : layout source = .ok l
  emits : progress source = { emitted := emitted }
  placed : emitted.map Emitted.placed = l.statements
  encodes : ∀ e ∈ emitted, Encodes l.labels e.statement e.words

theorem passes_of_assemble (h : assemble source = .ok words) :
    ∃ l emitted, Passes source l emitted ∧ emitted.flatMap Emitted.words = words := by
  unfold assemble at h
  cases laidOut : layout source with
  | error e =>
    have failed : progress source = { error := some e } := by rw [progress, laidOut]
    rw [failed] at h
    cases h
  | ok l =>
    have same : progress source = emit l.labels l.statements := by rw [progress, laidOut]
    rcases emits : emit l.labels l.statements with ⟨emitted, error⟩
    rw [same, emits] at h
    cases error with
    | some e => cases h
    | none =>
      cases h
      obtain ⟨placed, encoded⟩ := emit_eq_iff.1 emits
      refine ⟨l, emitted, ⟨laidOut, same.trans emits, placed, ?_⟩, rfl⟩
      intro e mem
      exact encodes_of_encode (encoded e mem)

namespace Passes

variable (passes : Passes source l emitted)

include passes

theorem statements : emitted.map Emitted.statement = (sourceLines source).filterMap Line.stated := by
  have both : emitted.map Emitted.statement =
      (emitted.map Emitted.placed).map Placed.statement := by
    rw [List.map_map]
    rfl
  rw [both, passes.placed, statements_of_layoutFrom passes.laidOut, map_placedFrom]

theorem length_words (sub : first ⊆ emitted) :
    (first.flatMap Emitted.words).length = counted (first.map Emitted.statement) :=
  length_flatMap_words fun e mem => (passes.encodes e (sub mem)).length

theorem start (split : emitted = first ++ e :: rest) :
    e.placed.address = counted (first.map Emitted.statement) ∧
      e.placed.address = (first.flatMap Emitted.words).length := by
  have order := passes.placed
  rw [statements_of_layoutFrom passes.laidOut, split, List.map_append, List.map_cons] at order
  have counts := placedFrom_split order.symm
  rw [Nat.zero_add, List.map_map] at counts
  have words := passes.length_words (show first ⊆ emitted by simp [split])
  exact ⟨counts, counts.trans words.symm⟩

/-- The statements of a source in the order of its lines, cut at one of them. -/
theorem split_at_line (listed : line ∈ sourceLines source) :
    ∃ (before : List Line) (first rest : List Emitted), emitted = first ++ rest ∧
      first.map Emitted.statement = before.filterMap Line.stated ∧
      (∀ e ∈ first, e.statement.line < line.number) ∧
      (∀ e ∈ rest, line.number ≤ e.statement.line) ∧
      ∀ name ∈ line.labels,
        l.labels.find? name = some (counted (before.filterMap Line.stated)) := by
  -- a cut through the lines is a cut through the statements, which carry the numbers of their lines
  obtain ⟨before, after, split⟩ := List.append_of_mem listed
  obtain ⟨earlier, later⟩ := number_lt_of_sourceLines split
  have statements := passes.statements
  rw [split, List.filterMap_append] at statements
  obtain ⟨first, rest, rfl, firsts, rests⟩ := List.map_eq_append_iff.1 statements
  refine ⟨before, first, rest, rfl, firsts, ?_, ?_, ?_⟩
  · intro e mem
    have stated : e.statement ∈ before.filterMap Line.stated :=
      firsts ▸ List.mem_map_of_mem mem
    obtain ⟨other, inBefore, same⟩ := List.mem_filterMap.1 stated
    rw [line_of_stated same]
    exact earlier other inBefore
  · intro e mem
    have stated : e.statement ∈ (line :: after).filterMap Line.stated :=
      rests ▸ List.mem_map_of_mem mem
    obtain ⟨other, inRest, same⟩ := List.mem_filterMap.1 stated
    rw [line_of_stated same]
    rcases List.mem_cons.1 inRest with rfl | inAfter
    · exact Nat.le_refl _
    · exact Nat.le_of_lt (later other inAfter)
  · intro name mem
    have laidOut : layoutFrom 0 {} (before ++ line :: after) = .ok l := split ▸ passes.laidOut
    simpa using label_of_layoutFrom laidOut mem

theorem find?_label (listed : line ∈ sourceLines source) (mem : name ∈ line.labels) :
    l.labels.find? name = some (landing emitted line.number) := by
  obtain ⟨before, first, rest, split, firsts, earlier, later, found⟩ := passes.split_at_line listed
  have lands : landing emitted line.number = (first.flatMap Emitted.words).length := by
    rw [split]
    exact landing_append earlier fun e head => later e (List.mem_of_mem_head? head)
  have sub : first ⊆ emitted := by simp [split]
  rw [found name mem, lands, passes.length_words sub, firsts]

theorem landing_start (found : emitted.find? (fun e => number ≤ e.statement.line) = some e) :
    landing emitted number = e.placed.address ∧
      (emitted.flatMap Emitted.words)[landing emitted number]? = e.words.head? := by
  obtain ⟨behind, first, rest, split, before⟩ := List.find?_eq_some_iff_append.1 found
  have earlier : ∀ e ∈ first, e.statement.line < number := by
    intro other mem
    simpa using before other mem
  have lands : landing emitted number = (first.flatMap Emitted.words).length := by
    rw [split]
    exact landing_append earlier (by simpa using behind)
  have mem : e ∈ emitted := List.mem_of_find?_eq_some found
  obtain ⟨word, more, words⟩ := List.exists_cons_of_ne_nil (passes.encodes e mem).nonempty
  refine ⟨lands.trans (passes.start split).2.symm, ?_⟩
  rw [lands, split]
  simp [words]

end Passes

theorem landing_end (none : emitted.find? (fun e => number ≤ e.statement.line) = none) :
    landing emitted number = (emitted.flatMap Emitted.words).length := by
  have earlier : ∀ e ∈ emitted, e.statement.line < number := by
    intro e mem
    simpa using List.find?_eq_none.1 none e mem
  have lands : landing (emitted ++ []) number = (emitted.flatMap Emitted.words).length :=
    landing_append earlier (by simp)
  rwa [List.append_nil] at lands

/-- Where a source assembles, its two passes agree. -/
theorem passes_agree (h : assemble source = .ok words) :
    ∃ l emitted, Agree source words l emitted := by
  obtain ⟨l, emitted, passes, rfl⟩ := passes_of_assemble h
  have listed : l.statements.map Placed.statement = emitted.map Emitted.statement := by
    rw [← passes.placed, List.map_map]
    rfl
  refine ⟨l, emitted, passes.laidOut, passes.emits, listed.trans passes.statements, passes.placed,
    rfl, ?_, ?_, passes.landing_start, landing_end, ?_, ?_⟩
  · rw [listed, passes.length_words fun _ mem => mem]
  · intro first rest e split
    have encodes := passes.encodes e (by simp [split])
    exact ⟨encodes.nonempty, encodes.length, passes.start split⟩
  · intro line name listed mem
    exact ⟨integer?_name (isLabel_of_mem_labels listed mem), passes.find?_label listed mem⟩
  · intro line name token e k listed mem inEmitted found bare
    obtain ⟨n, there, read⟩ := (passes.encodes e inEmitted).token found
    have unread := integer?_name (isLabel_of_mem_labels listed mem)
    rw [bare, value, unread, passes.find?_label listed mem] at read
    cases read
    exact there

/-- Labels in front of a statement, in front of its operands and at the end of the source. -/
theorem passes_agree_both_ways :
    let source := "start: lo: jt end, #start ; both ways\n.data lo, end, -3\nend: last:".toList
    assemble source = .ok [1005, 6, 0, 0, 6, -3] ∧
      ∃ l emitted, Agree source [1005, 6, 0, 0, 6, -3] l emitted := by
  intro source
  have assembled : assemble source = .ok [1005, 6, 0, 0, 6, -3] := by decide +kernel
  exact ⟨assembled, passes_agree assembled⟩

end IntcodeVM.Assembly
