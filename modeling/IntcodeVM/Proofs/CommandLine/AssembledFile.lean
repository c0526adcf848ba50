import IntcodeVM.Proofs.Assembly.LongNumbers
import IntcodeVM.Proofs.CommandLine.Endings
import IntcodeVM.Proofs.CommandLine.StoredFiles
import IntcodeVM.Proofs.ProgramText.Rendering

/-! Assembling a source into a file and loading the file. Main statement: this comes to the same
memory as loading the source itself, unless there are no words or one of them is too long to be
written. -/
namespace IntcodeVM.CommandLine

open Text (isLegible)

variable {files later : Files} {source out path : String} {listing assembly : Bool}
  {text : List Char} {words : List Int} {scratch : Amount} {size : Int} {failure : Failure}

theorem loadProgram_of_words (read : readWords files ⟨path, .number size, assembly⟩ = .ok words) :
    loadProgram files ⟨path, .number size, assembly⟩ =
      (Memory.ofWords? words size).mapError .scratch := by
  rw [loadProgram, read]
  rfl

theorem loadProgram_of_unread
    (unread : readWords files ⟨path, scratch, assembly⟩ = .error failure) :
    loadProgram files ⟨path, scratch, assembly⟩ = .error failure := by
  rw [loadProgram, unread]
  rfl

theorem readText_of_ascii (stored : files.read path = .ok (bytesOf (String.ofList text)))
    (ascii : Text.Ascii text) (absent : '\r' ∉ text) : readText files path = .ok text := by
  simp [readText, stored, Text.decodeUtf8_ascii ascii, Text.unifyLineEnds_of_notMem absent]

theorem readWords_of_source (read : readText files source = .ok text)
    (assembled : Assembly.assemble text = .ok words) :
    readWords files ⟨source, scratch, true⟩ = .ok words := by
  simp [readWords, read, assembled]

theorem readWords_of_rendered
    (stored : files.read out = .ok (bytesOf (String.ofList (ProgramText.render words)))) :
    readWords files ⟨out, scratch, false⟩ =
      (ProgramText.parse (ProgramText.render words)).mapError .load := by
  simp [readWords, stored, ProgramText.decode_render]

theorem readWords_of_empty (stored : files.read out = .ok []) :
    readWords files ⟨out, scratch, false⟩ = .error (.load ⟨0, .emptyProgram⟩) := by
  simp only [readWords, stored, Bool.false_eq_true, if_false]
  rfl

theorem loadProgram_of_rendered
    (stored : files.read out = .ok (bytesOf (String.ofList (ProgramText.render words))))
    (some : words ≠ []) (legible : ∀ word ∈ words, isLegible word = true) :
    loadProgram files ⟨out, .number size, false⟩ =
      (Memory.ofWords? words size).mapError .scratch := by
  apply loadProgram_of_words
  rw [readWords_of_rendered stored, ProgramText.parse_render some legible]
  rfl

theorem loadProgram_of_rendered_nil
    (stored : files.read out = .ok (bytesOf (String.ofList (ProgramText.render [])))) :
    loadProgram files ⟨out, scratch, false⟩ = .error (.load ⟨0, .emptyProgram⟩) := by
  apply loadProgram_of_unread
  rw [readWords_of_rendered stored, ProgramText.parse_render_nil]
  rfl

theorem ofWords?_of_room (low : 0 ≤ size) (room : size < Memory.roomLimit) :
    Memory.ofWords? words size = .ok (.ofWords words size.toNat) := by
  have countable : Memory.roomLimit ≤ Int.pow 2 63 := by decide +kernel
  rw [Memory.ofWords?, if_neg (Int.not_lt.2 low), if_neg (by omega), if_neg (by omega)]

theorem writeWords_legible (writable : (files.write out (.bytes [])).isOk = true)
    (legible : words.all isLegible = true) :
    ∃ later, writeWords files (some out) words = (.ok out, later) ∧
      later.read out = .ok (bytesOf (String.ofList (ProgramText.render words))) := by
  obtain ⟨later, written⟩ := Files.exists_write _
    (.bytes (bytesOf (String.ofList (ProgramText.render words)))) writable
  refine ⟨later, ?_, Files.read_of_write written⟩
  simp [writeWords, legible, written]

theorem writeWords_illegible (writable : (files.write out (.bytes [])).isOk = true)
    (illegible : words.all isLegible = false) :
    ∃ later, writeWords files (some out) words = (.error .illegible, later) ∧
      later.read out = .ok [] := by
  obtain ⟨later, written⟩ := Files.exists_write _ (.bytes (bytesOf "")) writable
  have blank : bytesOf "" = [] := Text.bytesOf_ofList []
  refine ⟨later, ?_, blank ▸ Files.read_of_write written⟩
  simp [writeWords, illegible, written]

section Command

variable (read : readText files source = .ok text) (assembled : Assembly.assemble text = .ok words)
  (listed : Listed text listing)

include read assembled listed

theorem assemble_of_written (written : writeWords files (some out) words = (.ok out, later)) :
    ∃ stdout, CommandLine.assemble files source (some out) listing = .done later stdout := by
  simp [CommandLine.assemble, read, assembled, complete_of_listed listed, written]

theorem assemble_of_unwritten
    (unwritten : writeWords files (some out) words = (.error failure, later)) :
    ∃ stdout, CommandLine.assemble files source (some out) listing =
      .failed later stdout failure := by
  simp only [CommandLine.assemble, read, assembled, complete_of_listed listed, unwritten,
    Bool.false_eq_true, if_false]
  exact ⟨_, rfl⟩

end Command

/-- A source that assembles is loaded from the file that its words are written to just as from the
source, for any scratch, if it has words and they are all legible. A source without words is refused
as blank. With a word that is not legible the call fails, and leaves a blank file. -/
theorem assembled_file_loads (read : readText files source = .ok text)
    (assembled : Assembly.assemble text = .ok words) (listed : Listed text listing)
    (writable : (files.write out (.bytes [])).isOk = true) :
    let report := CommandLine.assemble files source (some out) listing
    let loaded (size : Int) := loadProgram report.files ⟨out, .number size, false⟩
    (words.all isLegible = true →
      report.ending = .exit 0 ∧
        (words ≠ [] → ∀ size, loaded size = loadProgram files ⟨source, .number size, true⟩ ∧
          (0 ≤ size → size < Memory.roomLimit → loaded size = .ok (.ofWords words size.toNat))) ∧
        ∀ size, (∃ problem, loaded size = .error (.load ⟨0, problem⟩)) ↔ words = []) ∧
      (words.all isLegible = false →
        report.ending = .uncaught (.badValue Text.illegibleMessage) ∧
          ∀ size, loaded size = .error (.load ⟨0, .emptyProgram⟩)) := by
  intro report loaded
  constructor
  · intro legible
    obtain ⟨later, written, stored⟩ := writeWords_legible writable legible
    obtain ⟨stdout, command⟩ := assemble_of_written read assembled listed written
    have reported : report = .done later stdout := command
    have loads : ∀ size, loaded size = loadProgram later ⟨out, .number size, false⟩ := by
      simp only [loaded, reported, Report.done, implies_true]
    have same : words ≠ [] → ∀ size,
        loaded size = (Memory.ofWords? words size).mapError .scratch := by
      intro some size
      exact (loads size).trans
        (loadProgram_of_rendered stored some (List.all_eq_true.1 legible))
    refine ⟨by rw [reported]; rfl, fun some size => ⟨?_, fun low room => ?_⟩, fun size => ⟨?_, ?_⟩⟩
    · rw [same some size]
      exact (loadProgram_of_words (readWords_of_source read assembled)).symm
    · rw [same some size, ofWords?_of_room low room]
      rfl
    · rintro ⟨problem, refused⟩
      by_contra some
      rw [same some size] at refused
      obtain ⟨e, -, other⟩ := mapError_eq_error_iff.1 refused
      cases other
    · rintro rfl
      exact ⟨.emptyProgram, (loads size).trans (loadProgram_of_rendered_nil stored)⟩
  · intro illegible
    obtain ⟨later, unwritten, stored⟩ := writeWords_illegible writable illegible
    obtain ⟨stdout, command⟩ := assemble_of_unwritten read assembled listed unwritten
    have reported : report = .failed later stdout .illegible := command
    constructor
    · rw [reported]
      rfl
    · intro size
      simp only [loaded, reported]
      exact loadProgram_of_unread (readWords_of_empty stored)

/-- Data with a label and a negative number, and a listing. -/
theorem assembled_file_loads_listed :
    let files : Files := ({} : Files).add "p.asm"
      (.file (.bytes (bytesOf "loop: in @2 ; read\n.data loop, -5\n")))
    let report := CommandLine.assemble files "p.asm" (some "p.txt") true
    report.ending = .exit 0 ∧
      loadProgram report.files ⟨"p.txt", .number 1, false⟩ =
        loadProgram files ⟨"p.asm", .number 1, true⟩ ∧
      loadProgram report.files ⟨"p.txt", .number 1, false⟩ = .ok (.ofWords [203, 2, 0, -5] 1) := by
  intro files report
  have read : readText files "p.asm" = .ok "loop: in @2 ; read\n.data loop, -5\n".toList := by
    decide +kernel
  have assembled : Assembly.assemble "loop: in @2 ; read\n.data loop, -5\n".toList =
      .ok [203, 2, 0, -5] := by decide +kernel
  have listed : Listed "loop: in @2 ; read\n.data loop, -5\n".toList true := by
    intro _
    decide +kernel
  have writable : (files.write "p.txt" (.bytes [])).isOk = true := by decide +kernel
  have legible : [203, 2, 0, -5].all isLegible = true := by decide +kernel
  obtain ⟨ending, same, -⟩ := (assembled_file_loads read assembled listed writable).1 legible
  obtain ⟨direct, memory⟩ := same (by decide) 1
  exact ⟨ending, direct, memory (by decide) (by decide +kernel)⟩

/-- A word that is too long to be written leaves a blank file, though the source can be loaded. -/
theorem assembled_file_left_blank :
    let text := ".data 0x1".toList ++ List.replicate 3600 '0'
    let files : Files := ({} : Files).add "p.asm" (.file (.bytes (bytesOf (String.ofList text))))
    let report := CommandLine.assemble files "p.asm" (some "p.txt") false
    Assembly.assemble text = .ok [16 ^ 3600] ∧
      loadProgram files ⟨"p.asm", .number 0, true⟩ = .ok (.ofWords [16 ^ 3600] 0) ∧
      report.ending = .uncaught (.badValue Text.illegibleMessage) ∧
      loadProgram report.files ⟨"p.txt", .number 0, false⟩ = .error (.load ⟨0, .emptyProgram⟩) := by
  intro text files report
  have spells := Assembly.spells_data_hexPower 3600
  have same : text = Assembly.written ['.', 'd', 'a', 't', 'a'] [Assembly.hexPower 3600] := rfl
  have assembled : Assembly.assemble text = .ok [16 ^ 3600] := by
    rw [same, Assembly.assemble_written spells]
  have printable : ∀ c ∈ text, 0x20 ≤ c.toNat ∧ c.toNat ≤ 0x7E := by
    rw [same]
    exact fun c mem => Assembly.code_of_mem_written spells mem
  have ascii : Text.Ascii text := fun c mem => Nat.lt_of_le_of_lt (printable c mem).2 (by decide)
  have absent : '\r' ∉ text := fun mem => absurd (printable '\r' mem).1 (by decide)
  have read : readText files "p.asm" = .ok text := readText_of_ascii rfl ascii absent
  have illegible : [(16 ^ 3600 : Int)].all isLegible = false := by
    rw [List.all_cons, Assembly.not_isLegible_hexPower (Nat.le_refl 3600), Bool.false_and]
  have listed : Listed text false := nofun
  have free : ∀ bytes, ((({} : Files).add "p.asm" (.file (.bytes bytes))).write "p.txt"
      (.bytes [])).isOk = true := fun _ => rfl
  have writable : (files.write "p.txt" (.bytes [])).isOk = true := free _
  obtain ⟨later, unwritten, stored⟩ := writeWords_illegible writable illegible
  obtain ⟨stdout, command⟩ := assemble_of_unwritten read assembled listed unwritten
  have reported : report = .failed later stdout .illegible := command
  refine ⟨assembled, ?_, ?_, ?_⟩
  · rw [loadProgram_of_words (readWords_of_source read assembled),
      ofWords?_of_room (Int.le_refl 0) (by decide +kernel)]
    rfl
  · rw [reported]
    rfl
  · rw [reported]
    exact loadProgram_of_unread (readWords_of_empty stored)

end IntcodeVM.CommandLine
