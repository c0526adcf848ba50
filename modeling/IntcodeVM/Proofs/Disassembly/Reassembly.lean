import IntcodeVM.Proofs.Assembly.LongNumbers
import IntcodeVM.Proofs.Disassembly.Lines

/-! Listings and the memory under them. Main statement: a listing is given up just at a number that is
too long to be written, and otherwise its texts assemble to the words of memory that it covers. -/
namespace IntcodeVM

namespace Instruction

/-- A word is its operation's code and the digits of its modes, if it has no others. -/
theorem headWord_of_digits {n : Nat} {op : Opcode} {i : Instruction Mode}
    (decoded : (ofOpcode op).mapM (modeOf n) = .ok i) (coded : n % 100 = op.code)
    (excess : n / Nat.pow 10 (op.paramCount + 2) = 0) : headWord i.opcode i.toList = n := by
  cases op with
  | halt =>
    cases decoded
    simp only [Opcode.code, Opcode.paramCount, Nat.pow_eq] at coded excess
    simp only [headWord, opcode, toList, Opcode.code, List.zipIdx_nil, List.foldl_nil]
    omega
  | input | output | adjustBase =>
    obtain ⟨a, first, same⟩ := map_eq_ok_iff.1 decoded
    cases same
    rw [modeOf_eq_ok_iff] at first
    simp only [Opcode.code, Opcode.paramCount, Nat.pow_eq] at coded excess
    simp only [headWord, opcode, toList, Opcode.code, List.zipIdx_cons, List.zipIdx_nil,
      List.foldl_cons, List.foldl_nil, ← first, modeDigit, Nat.pow_eq]
    omega
  | jumpIfTrue | jumpIfFalse =>
    obtain ⟨a, first, decoded⟩ := bind_eq_ok_iff.1 decoded
    obtain ⟨b, second, same⟩ := map_eq_ok_iff.1 decoded
    cases same
    rw [modeOf_eq_ok_iff] at first second
    simp only [Opcode.code, Opcode.paramCount, Nat.pow_eq] at coded excess
    simp only [headWord, opcode, toList, Opcode.code, List.zipIdx_cons, List.zipIdx_nil,
      List.foldl_cons, List.foldl_nil, ← first, ← second, modeDigit, Nat.pow_eq]
    omega
  | add | mul | lessThan | equals =>
    obtain ⟨a, first, decoded⟩ := bind_eq_ok_iff.1 decoded
    obtain ⟨b, second, decoded⟩ := bind_eq_ok_iff.1 decoded
    obtain ⟨c, third, same⟩ := map_eq_ok_iff.1 decoded
    cases same
    rw [modeOf_eq_ok_iff] at first second third
    simp only [Opcode.code, Opcode.paramCount, Nat.pow_eq] at coded excess
    simp only [headWord, opcode, toList, Opcode.code, List.zipIdx_cons, List.zipIdx_nil,
      List.foldl_cons, List.foldl_nil, ← first, ← second, ← third, modeDigit, Nat.pow_eq]
    omega

end Instruction

namespace Disassembly

theorem headWord_of_decode {word : Int} {i : Instruction Mode}
    (decoded : Instruction.decode word = .ok i)
    (excess : hasExcessDigits word i.opcode.paramCount = false) :
    (Instruction.headWord i.opcode i.toList : Int) = word := by
  cases word with
  | negSucc n => cases decoded
  | ofNat n =>
    rw [Instruction.decode] at decoded
    cases coded : Opcode.ofCode? (n % 100) with
    | none =>
      rw [coded] at decoded
      cases decoded
    | some op =>
      rw [coded] at decoded
      have same : i.opcode = op :=
        (Instruction.opcode_of_mapM decoded).trans (Instruction.opcode_ofOpcode op)
      rw [same] at excess
      have none : n / Nat.pow 10 (op.paramCount + 2) = 0 := by
        simp only [hasExcessDigits, ne_eq, decide_not, Bool.not_eq_false', decide_eq_true_eq]
          at excess
        rw [← Int.natCast_eq_zero, Int.natCast_ediv, Nat.pow_eq, Int.natCast_pow]
        exact excess
      have whole :=
        Instruction.headWord_of_digits decoded (Opcode.ofCode?_eq_some_iff.1 coded) none
      exact congrArg Int.ofNat whole

theorem take_succ_drop {m : Memory} {addr : Nat} {word : Int}
    (found : m.cells[addr]? = some word) (count : Nat) :
    (m.toList.drop addr).take (count + 1) = word :: (m.toList.drop (addr + 1)).take count := by
  obtain ⟨inside, rfl⟩ := Array.getElem?_eq_some_iff.1 found
  have listed : addr < m.toList.length := inside
  rw [List.drop_eq_getElem_cons listed, List.take_succ_cons]
  rfl

theorem map_range_cells {m : Memory} {addr count : Nat} (inside : addr + count ≤ m.size) :
    (List.range count).map (fun k => m.cells[addr + k]?.getD 0) =
      (m.toList.drop addr).take count := by
  have size : m.toList.length = m.size := rfl
  apply List.ext_getElem
  · simp only [List.length_map, List.length_range, List.length_take, List.length_drop]
    omega
  · intro k first _
    have within : addr + k < m.cells.size := by
      have total : m.size = m.cells.size := rfl
      simp only [List.length_map, List.length_range] at first
      omega
    simp [Memory.toList, within]

theorem map_numbered (i : Instruction Mode) (f : Nat → Int) :
    (i.numbered.map fun (index, mode) => (⟨mode, f index⟩ : Operand)).words =
      (Instruction.headWord i.opcode i.toList : Int) ::
        (List.range i.opcode.paramCount).map f := by
  cases i <;> rfl

/-- What a chunk says of the memory that it was made from. -/
structure Covers (m : Memory) (addr : Nat) (chunk : Chunk) : Prop where
  inside : chunk ≠ .outside
  fits : addr + chunk.size ≤ m.size
  words : chunk.words = (m.toList.drop addr).take chunk.size

theorem covers_data {m : Memory} {addr : Nat} {word : Int} (found : m.cells[addr]? = some word) :
    Covers m addr (.data word) where
  inside := by simp
  fits := (Array.getElem?_eq_some_iff.1 found).1
  words := (take_succ_drop found 0).symm

theorem chunkOf_of_neg {m : Memory} {addr : Nat} {word : Int} (negative : word < 0) :
    chunkOf m addr word = .data word := by
  cases word with
  | ofNat n => exact absurd negative (by simp)
  | negSucc n => rfl

theorem covers_chunkOf {m : Memory} {addr : Nat} {word : Int}
    (found : m.cells[addr]? = some word) : Covers m addr (chunkOf m addr word) := by
  unfold chunkOf
  split
  · exact covers_data found
  · rename_i i decoded
    dsimp only
    split
    · rename_i shown
      simp only [Bool.and_eq_true, decide_eq_true_eq, Bool.not_eq_true'] at shown
      obtain ⟨fits, excess⟩ := shown
      refine ⟨by simp, ?_, ?_⟩
      · simp only [Chunk.size, Instruction.opcode_map, Instruction.opcode_numbered]
        omega
      · simp only [Chunk.words, Chunk.size, Instruction.opcode_map, Instruction.opcode_numbered]
        rw [map_numbered i fun index => m.cells[addr + 1 + index]?.getD 0,
          headWord_of_decode decoded excess, take_succ_drop found, map_range_cells (by omega)]
    · exact covers_data found

theorem covers_chunkAt {m : Memory} {addr : Nat} (inside : addr < m.size) :
    Covers m addr (chunkAt m addr) := by
  have found : m.cells[addr]? = some m.cells[addr] := Array.getElem?_eq_getElem inside
  have low : ¬ (addr : Int) < 0 := by omega
  -- the address is inside at both ends
  rw [chunkAt, if_neg low, Int.toNat_natCast, found]
  exact covers_chunkOf found

def span (listed : List (Int × Chunk)) : Nat := listed.foldr (fun p total => p.2.size + total) 0

theorem span_cons (place : Int) (chunk : Chunk) (rest : List (Int × Chunk)) :
    span ((place, chunk) :: rest) = chunk.size + span rest := rfl

/-- Chunks of memory one after the other, from an address on, that start before `stop`. -/
inductive Consecutive (m : Memory) (stop : Int) : Int → List (Int × Chunk) → Prop
  | nil (addr : Int) : Consecutive m stop addr []
  | cons {addr : Int} {rest : List (Int × Chunk)} : addr < stop →
      Consecutive m stop (addr + (chunkAt m addr).size) rest →
      Consecutive m stop addr ((addr, chunkAt m addr) :: rest)

theorem consecutive_sweep (m : Memory) (stop : Int) (limit : Option Nat) (addr : Int) :
    Consecutive m stop addr (sweep m stop limit addr) := by
  fun_induction sweep with
  | case1 limit addr go chunk ih => exact .cons go.1 ih
  | case2 limit addr ended => exact .nil addr

/-- A sweep goes on to its stop or to its limit. -/
theorem sweep_complete (m : Memory) (stop : Int) (limit : Option Nat) (addr : Int) :
    (stop ≤ addr + span (sweep m stop limit addr) ∨
      limit = some (sweep m stop limit addr).length) ∧
      ∀ n, limit = some n → (sweep m stop limit addr).length ≤ n := by
  fun_induction sweep with
  | case1 limit addr go chunk ih =>
    obtain ⟨ended, limited⟩ := ih
    -- without a limit the sweep can only end at its stop
    cases limit with
    | none =>
      refine ⟨.inl ?_, by simp⟩
      have reached := ended.resolve_right (by simp)
      rw [span_cons]
      omega
    | some n =>
      have more : n ≠ 0 := by simpa using go.2
      have shorter := limited (n - 1) rfl
      constructor
      · rcases ended with reached | counted
        · left
          rw [span_cons]
          omega
        · right
          have counted : n - 1 = _ := Option.some.inj counted
          rw [List.length_cons, ← counted]
          congr 1
          omega
      · rintro _ ⟨⟩
        rw [List.length_cons]
        omega
  | case2 limit addr ended =>
    by_cases before : addr < stop
    · have none : limit = some 0 := by simpa [before] using ended
      subst none
      exact ⟨.inr rfl, by simp⟩
    · refine ⟨.inl ?_, by simp⟩
      simp only [span, List.foldr_nil]
      omega

/-- Consecutive chunks show the words of memory from their address on. -/
theorem Consecutive.words {m : Memory} {stop : Int} (bound : stop ≤ m.size) {addr : Int}
    {listed : List (Int × Chunk)} (h : Consecutive m stop addr listed) (low : 0 ≤ addr) :
    (∀ p ∈ listed, p.2 ≠ .outside) ∧
      listed.flatMap (fun p => p.2.words) = (m.toList.drop addr.toNat).take (span listed) := by
  induction h with
  | nil => simp [span]
  | @cons addr rest go _ ih =>
    obtain ⟨place, rfl⟩ := Int.eq_ofNat_of_zero_le low
    have covers : Covers m place (chunkAt m place) := covers_chunkAt (by omega)
    obtain ⟨inside, words⟩ := ih (by omega)
    constructor
    · intro p mem
      rcases List.mem_cons.1 mem with rfl | mem
      · exact covers.inside
      · exact inside p mem
    · have next : ((place : Int) + (chunkAt m place).size).toNat =
          place + (chunkAt m place).size := by omega
      rw [List.flatMap_cons, words, covers.words, next, Int.toNat_natCast, span_cons, List.take_add,
        List.drop_drop]

theorem texts?_eq_some_iff {m : Memory} {addr : Int} {count : Option Int}
    {texts : List (Int × List Char)} : texts? m addr count = some texts ↔
      (∀ p ∈ chunks m addr count, isLegibleAt m p.1 = true) ∧ textsOf (chunks m addr count) = texts := by
  simp only [texts?, Option.ite_none_right_eq_some, List.all_eq_true, Option.some.injEq]

theorem texts?_eq_none_iff {m : Memory} {addr : Int} {count : Option Int} :
    texts? m addr count = none ↔ ∃ p ∈ chunks m addr count, isLegibleAt m p.1 = false := by
  simp [texts?]

theorem isLegible_chunkAt {m : Memory} {addr : Int} (legible : isLegibleAt m addr = true) :
    (chunkAt m addr).isLegible = true := by
  unfold isLegibleAt at legible
  unfold chunkAt
  split
  · rfl
  · rename_i inside
    rw [if_neg inside] at legible
    split
    · rfl
    · rename_i word found
      rw [found] at legible
      exact (Bool.and_eq_true_iff.1 legible).2

theorem Consecutive.eq_chunkAt {m : Memory} {stop addr : Int} {listed : List (Int × Chunk)}
    (h : Consecutive m stop addr listed) : ∀ p ∈ listed, p.2 = chunkAt m p.1 := by
  induction h with
  | nil => simp
  | cons _ _ ih =>
    intro p mem
    rcases List.mem_cons.1 mem with rfl | mem
    · rfl
    · exact ih p mem

/-- The texts of consecutive chunks, if they are given, assemble to the words under the chunks. -/
theorem Consecutive.assemble {m : Memory} {stop : Int} (bound : stop ≤ m.size) {addr : Nat}
    {listed : List (Int × Chunk)} (h : Consecutive m stop addr listed)
    (legible : ∀ p ∈ listed, isLegibleAt m p.1 = true) :
    Assembly.assemble (source (textsOf listed)) =
      .ok ((m.toList.drop addr).take (span listed)) := by
  obtain ⟨inside, words⟩ := h.words bound (by omega)
  have shown : ∀ p ∈ listed, p.2.isLegible = true := fun p mem =>
    h.eq_chunkAt p mem ▸ isLegible_chunkAt (legible p mem)
  rw [assemble_chunks inside shown, words, Int.toNat_natCast]

/-- A listing covers memory from its address on, chunk by chunk. It is given up just at a number that
is not legible, and if it is not, its lines assemble to just the words that it covers. -/
theorem assemble_listing (m : Memory) (addr : Nat) (count : Option Int) :
    let listed := chunks m addr count
    let stop := if count.isSome then m.size else m.programSize
    Consecutive m stop addr listed ∧
      (stop ≤ addr + span listed ∨ ∃ n, count = some n ∧ listed.length = n.toNat) ∧
      (∀ n, count = some n → listed.length ≤ n.toNat) ∧
      (texts? m addr count = none ↔ ∃ p ∈ listed, isLegibleAt m p.1 = false) ∧
      ∀ texts, texts? m addr count = some texts → texts = textsOf listed ∧
        Assembly.assemble (source texts) = .ok ((m.toList.drop addr).take (span listed)) := by
  intro listed stop
  -- with or without a count, a listing is one sweep
  obtain ⟨limit, swept, limited⟩ : ∃ limit, listed = sweep m stop limit addr ∧
      limit = count.map Int.toNat := by
    cases count with
    | none => exact ⟨none, rfl, rfl⟩
    | some n => exact ⟨some n.toNat, rfl, rfl⟩
  have bound : (stop : Int) ≤ m.size := by
    have loaded : m.programSize ≤ m.size := m.programSize_le
    simp only [stop]
    split <;> omega
  have consecutive : Consecutive m stop addr listed := swept ▸ consecutive_sweep m stop limit addr
  obtain ⟨ended, short⟩ := swept ▸ sweep_complete m stop limit addr
  refine ⟨consecutive, ?_, ?_, texts?_eq_none_iff, ?_⟩
  · rcases ended with reached | counted
    · left
      omega
    · right
      obtain ⟨n, same, length⟩ := Option.map_eq_some_iff.1 (limited.symm.trans counted)
      exact ⟨n, same, length.symm⟩
  · rintro n rfl
    exact short n.toNat limited
  · intro texts given
    obtain ⟨legible, rfl⟩ := texts?_eq_some_iff.1 given
    exact ⟨rfl, consecutive.assemble bound legible⟩

/-- A single word that is too long to be written has no listing. -/
theorem listing_of_long_word :
    texts? (.ofWords [-16 ^ 3600] 0) 0 none = none ∧
      ¬ ∀ (m : Memory) (addr : Nat) (count : Option Int), ∃ texts,
        texts? m addr count = some texts ∧ Assembly.assemble (source texts) =
          .ok ((m.toList.drop addr).take (span (chunks m addr count))) := by
  have long : isLegibleAt (.ofWords [-16 ^ 3600] 0) 0 = false := by
    have negative : (-16 ^ 3600 : Int) < 0 := Int.neg_neg_of_pos (Int.pow_pos (by decide))
    have found : (Memory.ofWords [-16 ^ 3600] 0).cells[0]? = some (-16 ^ 3600) := rfl
    have word := Assembly.not_isLegible_hexPower (Nat.le_refl 3600)
    rw [← Text.isLegible_neg] at word
    simp only [isLegibleAt, Int.toNat_zero, found, chunkOf_of_neg negative, Chunk.isLegible, word,
      Bool.and_false, Int.lt_irrefl, if_false]
  have given : texts? (.ofWords [-16 ^ 3600] 0) 0 none = none := by
    refine texts?_eq_none_iff.2 ⟨(0, chunkAt (.ofWords [-16 ^ 3600] 0) 0), ?_, long⟩
    rw [chunks, sweep, if_pos ⟨by decide, by decide⟩]
    exact List.mem_cons_self
  refine ⟨given, fun always => ?_⟩
  obtain ⟨texts, listed, -⟩ := always (.ofWords [-16 ^ 3600] 0) 0 none
  cases given.symm.trans listed

end Disassembly

end IntcodeVM
