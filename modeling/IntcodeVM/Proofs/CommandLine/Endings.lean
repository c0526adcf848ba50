import IntcodeVM.CommandLine.Run
import IntcodeVM.Proofs.Attempt
import IntcodeVM.Proofs.Monitor.Refusals

/-! How a call of the command line ends. A call reads a program or a source, builds a memory, runs its
machines and prints or writes what they came to; each of these can fail, and a failure is caught or
not. Sessions and picture files are left out. Main statement: a call fails with just what one of its
parts fails with, and then ends with code one and a message, unless the failure is one of three kinds
that nobody catches. -/
namespace IntcodeVM

namespace CommandLine

variable {allowance : Nat} {files : Files} {i : Invocation} {failure : Failure} {p : ProgramFile}

def Invocation.program? : Invocation → Option ProgramFile
  | run program .. | amplify program .. | paint program .. | repair program ..
  | disassemble program .. | monitor program .. => some program
  | assemble .. => none

/-- The text that a call prints at its end, or what keeps it from that. -/
def Invocation.text? (allowance : Nat) (files : Files) : Invocation → Option (Except Failure String)
  | run program inputs phase => some (runProgram allowance files program inputs phase)
  | amplify program feedback seed => some (CommandLine.amplify allowance files program feedback seed)
  | disassemble program addr count => some (CommandLine.disassemble files program addr count)
  | repair program _ _ (some target) => some do
    let (noun, verb) ← repairing allowance (← loadProgram files program) target
    return lines [s!"noun={noun} verb={verb} answer={100 * noun + verb}"]
  | repair program (some noun) (some verb) none => some do
    return lines [toString (← repaired allowance (← loadProgram files program) noun verb)]
  | repair .. | paint .. | monitor .. | assemble .. => none

/-- The listing of an assembly source can be written, if it is asked for. -/
def Listed (text : List Char) (listing : Bool) : Prop :=
  listing = true → ∀ e ∈ (Assembly.progress text).emitted, e.words.all Text.isLegible = true

/-- What a call fails with. -/
inductive Failing (allowance : Nat) (files : Files) : Invocation → Failure → Prop
  | unread {i : Invocation} {p : ProgramFile} {failure : Failure} : i.program? = some p →
      readWords files p = .error failure → Failing allowance files i failure
  | scratch {i : Invocation} {p : ProgramFile} {words : List Int} {size : Int}
      {e : Memory.ScratchError} : i.program? = some p → readWords files p = .ok words →
      p.scratch = .number size → Memory.ofWords? words size = .error e →
      Failing allowance files i (.scratch e)
  | machine {p : ProgramFile} {memory : Memory} {inputs : List Int} {phase : Option Int}
      {stop : Stop} : loadProgram files p = .ok memory →
      Batch.outputs allowance memory inputs phase = .error stop →
      Failing allowance files (.run p (inputs.map .number) (phase.map .number)) (.machine stop)
  | circuit {p : ProgramFile} {memory : Memory} {feedback : Bool} {seed : Int}
      {e : Amplifier.CircuitError} : loadProgram files p = .ok memory →
      Amplifier.searchPhases allowance memory (Amplifier.defaultPhases feedback) feedback seed =
        .error e →
      Failing allowance files (.amplify p feedback (.number seed)) (.circuit e)
  | robot {p : ProgramFile} {memory : Memory} {start : Int} {shown : Bool} {image : Option String}
      {scale : Amount} {stop : Stop} : loadProgram files p = .ok memory →
      ((Hull.Robot.start memory start).run allowance).1 = .error stop →
      Failing allowance files (.paint p start shown image scale) (.machine stop)
  | patched {p : ProgramFile} {memory : Memory} {noun verb : Int} {stop : Stop} :
      loadProgram files p = .ok memory → Batch.patched allowance memory noun verb = .error stop →
      Failing allowance files (.repair p (some (.number noun)) (some (.number verb)) none)
        (.machine stop)
  | search {p : ProgramFile} {memory : Memory} {noun verb : Option Amount} {target : Int}
      {e : Batch.SearchError} : loadProgram files p = .ok memory →
      Batch.search allowance memory target searchLimit = .error e →
      Failing allowance files (.repair p noun verb (some (.number target))) (.search e)
  | source {source out : String} {listing : Bool} {failure : Failure} :
      readText files source = .error failure →
      Failing allowance files (.assemble source (some out) listing) failure
  | assembly {source out : String} {listing : Bool} {text : List Char} {e : Assembly.AssemblyError} :
      readText files source = .ok text → Listed text listing → Assembly.assemble text = .error e →
      Failing allowance files (.assemble source (some out) listing) (.assembly e)
  | output {source out : String} {listing : Bool} {text : List Char} {words : List Int}
      {failure : Failure} {later : Files} :
      readText files source = .ok text → Listed text listing → Assembly.assemble text = .ok words →
      writeWords files (some out) words = (.error failure, later) →
      Failing allowance files (.assemble source (some out) listing) failure
  | longText {i : Invocation} {text : String} : i.text? allowance files = some (.ok text) →
      Text.isLegibleText text = false → Failing allowance files i .illegible
  | longChunk {p : ProgramFile} {memory : Memory} {addr : Int} {count : Option Int} :
      loadProgram files p = .ok memory → Disassembly.texts? memory addr count = none →
      Failing allowance files (.disassemble p (.number addr) (count.map .number)) .illegible
  | longListing {source out : String} {text : List Char} :
      readText files source = .ok text → ¬Listed text true →
      Failing allowance files (.assemble source (some out) true) .illegible

theorem return_eq_error_iff {ε α β : Type} {x : Except ε α} {cause : ε → Failure} {shown : α → β} :
    (do return shown (← x.mapError cause)) = Except.error failure ↔
      ∃ e, x = .error e ∧ cause e = failure := by
  cases x with
  | ok a => simp
  | error e => simp

def Report.outcome (r : Report) : String × Ending := (r.stderr, r.ending)

theorem complete_iff {text : List Char} :
    (Text.writtenLines (Assembly.progress text).listing).2 = true ↔ Listed text true := by
  simp [Text.snd_writtenLines, Assembly.Progress.listing, Assembly.Emitted.line?, Text.lineOf?, Listed]

theorem complete_of_listed {text : List Char} {listing : Bool} (listed : Listed text listing) :
    (listing && !(Text.writtenLines (Assembly.progress text).listing).2) = false := by
  cases listing with
  | false => rfl
  | true => simp [complete_iff.2 listed]

/-- Whether there are words for what a machine stopped for. -/
def isWorded : Stop → Bool
  | .unworded _ => false
  | .fault _ | .refused _ | .waiting | .unfinished => true

/-- The failures that a plain call can meet. -/
def Failure.isKnown : Failure → Bool
  | file _ | encoding _ | load _ | assembly _ | scratch _ | machine _ | search _ | illegible => true
  | circuit e => e ≠ .noStages
  | _ => false

theorem known_of_readText {path : String} (failed : readText files path = .error failure) :
    failure.isKnown = true := by
  rcases bind_eq_error_iff.1 failed with unread | ⟨bytes, -, failed⟩
  · obtain ⟨e, -, rfl⟩ := mapError_eq_error_iff.1 unread
    rfl
  · obtain ⟨e, -, rfl⟩ := return_eq_error_iff.1 failed
    rfl

theorem known_of_readWords (failed : readWords files p = .error failure) :
    failure.isKnown = true := by
  unfold readWords at failed
  split at failed
  · rcases bind_eq_error_iff.1 failed with unread | ⟨text, -, failed⟩
    · exact known_of_readText unread
    · obtain ⟨e, -, rfl⟩ := mapError_eq_error_iff.1 failed
      rfl
  · rcases bind_eq_error_iff.1 failed with unread | ⟨bytes, -, failed⟩
    · obtain ⟨e, -, rfl⟩ := mapError_eq_error_iff.1 unread
      rfl
    rcases bind_eq_error_iff.1 failed with undecoded | ⟨text, -, failed⟩
    · obtain ⟨e, -, rfl⟩ := mapError_eq_error_iff.1 undecoded
      rfl
    · obtain ⟨e, -, rfl⟩ := mapError_eq_error_iff.1 failed
      rfl

theorem known_of_writeWords {out : String} {words : List Int} {later : Files}
    (failed : writeWords files (some out) words = (.error failure, later)) :
    failure.isKnown = true := by
  unfold writeWords at failed
  dsimp only at failed
  split at failed
  · cases failed
    rfl
  · split at failed
    · cases failed
    · cases failed
      rfl

theorem ne_nil_of_mem_orderings {α : Type} {list ordering : List α} (some : list ≠ [])
    (mem : ordering ∈ Amplifier.orderings list) : ordering ≠ [] := by
  obtain ⟨a, rest, rfl⟩ := List.exists_cons_of_ne_nil some
  simp only [Amplifier.orderings, List.length_cons, Amplifier.orderingsOf, List.mem_flatMap,
    List.mem_map] at mem
  obtain ⟨_, -, _, -, rfl⟩ := mem
  exact List.cons_ne_nil _ _

theorem trial_of_bestOf {trial : List (Option Int) → Except Amplifier.CircuitError Int}
    {settings : List (List (Option Int))} {best : Option Amplifier.Setting}
    {e : Amplifier.CircuitError} (failed : Amplifier.bestOf trial settings best = .error e) :
    ∃ phases ∈ settings, trial phases = .error e := by
  induction settings generalizing best with
  | nil => cases failed
  | cons phases rest ih =>
    rcases bind_eq_error_iff.1 failed with first | ⟨value, -, failed⟩
    · exact ⟨phases, List.mem_cons_self, first⟩
    · obtain ⟨later, mem, tried⟩ := ih failed
      exact ⟨later, List.mem_cons_of_mem _ mem, tried⟩

theorem ne_noStages_of_runInOrder {stages : List Nat} {c later : Amplifier.Circuit}
    {e : Amplifier.CircuitError} (failed : c.runInOrder allowance stages = (some e, later)) :
    e ≠ .noStages := by
  induction stages generalizing c with
  | nil => cases failed
  | cons stage rest ih =>
    unfold Amplifier.Circuit.runInOrder at failed
    split at failed
    · cases failed
      exact nofun
    · cases failed
      exact nofun
    · exact ih failed

theorem ne_noStages_of_runRing {c : Amplifier.Circuit} {seed : Int} {e : Amplifier.CircuitError}
    (failed : (c.runRing allowance seed).1 = .error e) : e ≠ .noStages := by
  unfold Amplifier.Circuit.runRing at failed
  split at failed
  · cases failed
    exact nofun
  · dsimp only at failed
    split at failed
    · cases failed
      exact nofun
    · cases failed
      exact nofun
    · split at failed
      · cases failed
        exact nofun
      · unfold Amplifier.Circuit.loopResult at failed
        dsimp only at failed
        repeat' split at failed
        all_goals cases failed
        all_goals exact nofun

theorem ne_noStages_of_runChain {c : Amplifier.Circuit} {seed : Int} {e : Amplifier.CircuitError}
    (failed : (c.runChain allowance seed).1 = .error e) : e ≠ .noStages := by
  unfold Amplifier.Circuit.runChain at failed
  split at failed
  · cases failed
    exact nofun
  · split at failed
    · rename_i ran
      cases failed
      exact ne_noStages_of_runInOrder ran
    · unfold Amplifier.Circuit.chainResult at failed
      split at failed <;> cases failed
      exact nofun

theorem ne_noStages_of_run {c : Amplifier.Circuit} {seed : Int} {e : Amplifier.CircuitError}
    (failed : (c.run allowance seed).1 = .error e) : e ≠ .noStages := by
  unfold Amplifier.Circuit.run at failed
  split at failed
  · exact ne_noStages_of_runRing failed
  · exact ne_noStages_of_runChain failed

theorem ne_noStages_of_searchPhases {memory : Memory} {feedback : Bool} {seed : Int}
    {e : Amplifier.CircuitError}
    (failed : Amplifier.searchPhases allowance memory (Amplifier.defaultPhases feedback) feedback
      seed = .error e) : e ≠ .noStages := by
  obtain ⟨phases, mem, tried⟩ := trial_of_bestOf failed
  have stages : phases ≠ [] := ne_nil_of_mem_orderings (by simp [Amplifier.defaultPhases]) mem
  rcases bind_eq_error_iff.1 tried with unbuilt | ⟨c, -, failed⟩
  · simp [Amplifier.Circuit.build, stages] at unbuilt
  · exact ne_noStages_of_run failed

theorem Failing.known (failing : Failing allowance files i failure) : failure.isKnown = true := by
  cases failing with
  | unread loads unread => exact known_of_readWords unread
  | source unread => exact known_of_readText unread
  | output read listed words unwritten => exact known_of_writeWords unwritten
  | circuit loaded stopped => simpa [Failure.isKnown] using ne_noStages_of_searchPhases stopped
  | scratch | machine | robot | patched | search | assembly | longText | longChunk | longListing => rfl

end CommandLine

end IntcodeVM
