import IntcodeVM.Proofs.Disassembly.Reassembly

/-! The listing of a whole program. It starts every chunk inside the program, but the parameters of
the last instruction are looked for in all of memory, scratch cells included. Main statement: the
listing, if it is not given up, assembles to the program and to as many zeros as its last instruction
takes from the scratch, at most three; more scratch than that makes no difference. -/
namespace IntcodeVM.Disassembly

/-- The listing of a program that was loaded with some scratch, without an address or a count. -/
def fullListing (words : List Int) (scratch : Nat) : List (Int × Chunk) :=
  chunks (.ofWords words scratch) 0 none

/-- How many cells behind the program the listing covers. -/
def overrun (words : List Int) (scratch : Nat) : Nat :=
  span (fullListing words scratch) - words.length

theorem Chunk.size_le (c : Chunk) : c.size ≤ 4 := by
  cases c with
  | outside | data _ => simp [size]
  | code i => cases i <;> simp [size, Instruction.opcode, Opcode.paramCount]

variable {words : List Int} {scratch room : Nat}

theorem cells_ofWords (words : List Int) (scratch i : Nat) :
    (Memory.ofWords words scratch).cells[i]?.getD 0 = words[i]?.getD 0 := by
  by_cases inside : i < words.length
  · simp [Memory.ofWords, inside, Array.getElem?_append]
  · by_cases behind : i - words.length < scratch
    · simp [Memory.ofWords, inside, behind, Array.getElem?_append]
    · simp [Memory.ofWords, inside, behind, Array.getElem?_append]

theorem toList_ofWords (words : List Int) (scratch : Nat) :
    (Memory.ofWords words scratch).toList = words ++ List.replicate scratch 0 := by
  simp [Memory.toList, Memory.ofWords]

theorem chunkAt_ofWords {addr : Nat} (inside : addr < words.length) (scratch : Nat) :
    chunkAt (.ofWords words scratch) addr =
      chunkOf (.ofWords words scratch) addr words[addr] := by
  have found : (Memory.ofWords words scratch).cells[addr]? = some words[addr] := by
    simp [Memory.ofWords, inside, Array.getElem?_append]
  have low : ¬ (addr : Int) < 0 := by omega
  rw [chunkAt, if_neg low, Int.toNat_natCast, found]

theorem chunkAt_of_room {addr : Nat} (inside : addr < words.length) (less : room ≤ scratch)
    (fits : addr + (chunkAt (.ofWords words scratch) addr).size ≤ words.length + room) :
    chunkAt (.ofWords words room) addr = chunkAt (.ofWords words scratch) addr := by
  rw [chunkAt_ofWords inside] at fits
  rw [chunkAt_ofWords inside, chunkAt_ofWords inside]
  unfold chunkOf at fits ⊢
  cases decoded : Instruction.decode words[addr] with
  | error cause => rfl
  | ok i =>
    simp only [decoded, Memory.size_ofWords, cells_ofWords, Bool.and_eq_true, decide_eq_true_eq]
      at fits ⊢
    by_cases shown : addr + i.opcode.paramCount < words.length + scratch ∧
        (!hasExcessDigits words[addr] i.opcode.paramCount) = true
    · rw [if_pos shown] at fits ⊢
      simp only [Chunk.size, Instruction.opcode_map, Instruction.opcode_numbered] at fits
      rw [if_pos ⟨by omega, shown.2⟩]
    · -- what does not fit into the larger memory does not fit into the smaller one
      rw [if_neg shown, if_neg fun small => shown ⟨by omega, small.2⟩]

theorem sweep_of_room (less : room ≤ scratch) {limit : Option Nat} {addr : Int} (low : 0 ≤ addr)
    (fits : addr + span (sweep (.ofWords words scratch) words.length limit addr) ≤
      words.length + room) :
    sweep (.ofWords words room) words.length limit addr =
      sweep (.ofWords words scratch) words.length limit addr := by
  fun_induction sweep (.ofWords words scratch) words.length limit addr with
  | case1 limit addr go chunk ih =>
    obtain ⟨place, rfl⟩ := Int.eq_ofNat_of_zero_le low
    rw [span_cons] at fits
    have size : chunk.size = (chunkAt (.ofWords words scratch) place).size := rfl
    have same : chunkAt (.ofWords words room) place = chunk :=
      chunkAt_of_room (by omega) less (by omega)
    rw [sweep, if_pos go]
    simp only [same]
    rw [ih (by omega) (by omega)]
  | case2 limit addr ended => rw [sweep, if_neg ended]

/-- The end of a sweep: no chunk starts behind its stop, and none reaches out of memory. -/
theorem Consecutive.ends {m : Memory} {stop addr : Int} {listed : List (Int × Chunk)}
    (h : Consecutive m stop addr listed) (bound : stop ≤ m.size) (low : 0 ≤ addr) :
    listed = [] ∨ addr + span listed ≤ m.size ∧ addr + span listed ≤ stop + 3 := by
  induction h with
  | nil => exact .inl rfl
  | @cons addr rest go _ ih =>
    obtain ⟨place, rfl⟩ := Int.eq_ofNat_of_zero_le low
    have covers : Covers m place (chunkAt m place) := covers_chunkAt (by omega)
    have fits := covers.fits
    have small := (chunkAt m place).size_le
    right
    rw [span_cons]
    rcases ih (by omega) with rfl | ⟨within, near⟩
    · simp only [span, List.foldr_nil]
      omega
    · omega

theorem Consecutive.reaches {m : Memory} {stop addr place : Int} {listed : List (Int × Chunk)}
    (h : Consecutive m stop addr listed) (low : addr ≤ place) :
    place < addr + span listed ↔ ∃ p ∈ listed, place < p.1 + p.2.size := by
  induction h with
  | nil => simpa [span] using low
  | @cons addr rest go _ ih =>
    rw [span_cons]
    by_cases first : place < addr + (chunkAt m addr).size
    · constructor
      · intro _
        exact ⟨_, List.mem_cons_self, first⟩
      · intro _
        omega
    · constructor
      · intro behind
        obtain ⟨p, mem, reached⟩ := (ih (by omega)).1 (by omega)
        exact ⟨p, List.mem_cons_of_mem _ mem, reached⟩
      · rintro ⟨p, mem, reached⟩
        rcases List.mem_cons.1 mem with rfl | mem
        · exact absurd reached first
        · have behind := (ih (by omega)).2 ⟨p, mem, reached⟩
          omega

theorem fullListing_eq (words : List Int) (scratch : Nat) :
    fullListing words scratch = sweep (.ofWords words scratch) words.length none 0 := rfl

theorem consecutive_fullListing (words : List Int) (scratch : Nat) :
    Consecutive (.ofWords words scratch) words.length 0 (fullListing words scratch) :=
  consecutive_sweep ..

theorem span_fullListing (words : List Int) (scratch : Nat) :
    span (fullListing words scratch) = words.length + overrun words scratch := by
  have ended := (sweep_complete (.ofWords words scratch) words.length none 0).1
  have reached : (words.length : Int) ≤ 0 + span (fullListing words scratch) :=
    ended.resolve_right (by simp)
  rw [overrun]
  omega

theorem overrun_le (words : List Int) (scratch : Nat) :
    overrun words scratch ≤ min scratch 3 := by
  have spans := span_fullListing words scratch
  have size := Memory.size_ofWords words scratch
  rcases (consecutive_fullListing words scratch).ends (by omega) (by omega) with empty | ends
  · simp [overrun, empty, span]
  · omega

theorem overrun_le_iff (less : room ≤ scratch) :
    overrun words scratch ≤ room ↔ fullListing words room = fullListing words scratch := by
  constructor
  · intro enough
    have spans := span_fullListing words scratch
    rw [fullListing_eq] at spans
    exact sweep_of_room less (Int.le_refl 0) (by omega)
  · intro same
    have bounded := overrun_le words room
    rw [overrun, same, ← overrun] at bounded
    omega

/-- The listing of a program covers the program and what its last instruction takes from the
scratch. If it is not given up for an illegible number, it assembles to the program exactly if no
listed chunk reaches over the end of it, and that is when the listing is the one without any scratch. -/
theorem fullListing_overruns (words : List Int) (scratch : Nat) :
    let listed := fullListing words scratch
    let given := texts? (.ofWords words scratch) 0 none
    span listed = words.length + overrun words scratch ∧
      (given = none ↔ ∃ p ∈ listed, isLegibleAt (.ofWords words scratch) p.1 = false) ∧
      (∀ texts, given = some texts → texts = textsOf listed ∧
        Assembly.assemble (source texts) =
          .ok (words ++ List.replicate (overrun words scratch) 0)) ∧
      overrun words scratch ≤ min scratch 3 ∧
      (0 < overrun words scratch ↔ ∃ p ∈ listed, (words.length : Int) < p.1 + p.2.size) ∧
      ∀ room ≤ scratch, overrun words scratch ≤ room ↔
        fullListing words room = fullListing words scratch := by
  intro listed given
  have spans := span_fullListing words scratch
  have bounded := overrun_le words scratch
  have size := Memory.size_ofWords words scratch
  have consecutive : Consecutive (.ofWords words scratch) words.length (0 : Nat) listed :=
    consecutive_fullListing words scratch
  refine ⟨spans, texts?_eq_none_iff, ?_, bounded, ?_, fun room less => overrun_le_iff less⟩
  · intro texts some
    obtain ⟨legible, rfl⟩ := texts?_eq_some_iff.1 some
    have covered : ((Memory.ofWords words scratch).toList.drop 0).take
        (words.length + overrun words scratch) =
        words ++ List.replicate (overrun words scratch) 0 := by
      have within : min (overrun words scratch) scratch = overrun words scratch := by omega
      simp [toList_ofWords, List.take_append, List.take_of_length_le, within]
    refine ⟨rfl, ?_⟩
    rw [← covered, ← spans]
    exact consecutive.assemble (by omega) legible
  · have reaches := consecutive.reaches (Int.natCast_nonneg words.length)
    rw [← reaches, spans]
    omega

/-- A program that ends in the word of an instruction takes a cell of the scratch into its
listing. -/
theorem fullListing_takes_scratch :
    let texts := [(0, "out 3".toList), (2, "halt".toList), (3, "out 0".toList)]
    texts? (.ofWords [4, 3, 99, 4] 1) 0 none = some texts ∧
      (Assembly.assemble (source texts)).toOption = some [4, 3, 99, 4, 0] ∧
      ¬ ∀ (words : List Int) (scratch : Nat) (texts : List (Int × List Char)),
        texts? (.ofWords words scratch) 0 none = some texts →
          span (fullListing words scratch) = words.length ∧
            Assembly.assemble (source texts) = .ok words := by
  intro texts
  have given : texts? (.ofWords [4, 3, 99, 4] 1) 0 none = some texts := by decide +kernel
  have listed : span (fullListing [4, 3, 99, 4] 1) = 5 := by decide +kernel
  refine ⟨given, by decide +kernel, ?_⟩
  intro exactly
  cases listed.symm.trans (exactly [4, 3, 99, 4] 1 texts given).1

end IntcodeVM.Disassembly
