import IntcodeVM.CommandLine.Files
import IntcodeVM.Proofs.Attempt

namespace IntcodeVM.CommandLine.Files

variable {files later : Files} {l other : Location} {e : Entry} {content : Content} {path : String}
  {dir here next : Location} {name : List Char}

theorem lookup_filter_ne (entries : List (Location × Entry)) (distinct : other ≠ l) :
    (entries.filter (·.1 != l)).lookup other = entries.lookup other := by
  induction entries with
  | nil => rfl
  | cons first rest ih =>
    obtain ⟨place, entry⟩ := first
    by_cases same : place = l
    · subst same
      simp [List.lookup_cons, beq_eq_false_iff_ne.2 distinct, ih]
    · simp [List.lookup_cons, same, ih]

theorem at?_set_of_ne (distinct : other ≠ l) : (files.set l e).at? other = files.at? other := by
  rw [at?, at?, set, List.lookup_cons, beq_eq_false_iff_ne.2 distinct,
    lookup_filter_ne files.entries distinct]

theorem isBase_of_not_directory (free : files.at? l ≠ some .directory) : l.isBase = false := by
  cases base : l.isBase with
  | false => rfl
  | true => exact absurd (by simp [at?, base]) free

theorem enter_eq_ok_iff : files.enter here name = .ok next ↔
    (name = hereName ∧ next = here) ∨ (name ≠ hereName ∧ name = parentName ∧ next = here.up) ∨
      (name ≠ hereName ∧ name ≠ parentName ∧ isLongName name = false ∧
        files.at? (here ++ [name]) = some .directory ∧ next = here ++ [name]) := by
  unfold enter named?
  by_cases stays : name = hereName
  · simp [stays, @eq_comm _ next]
  · by_cases rises : name = parentName
    · have notHere : parentName ≠ hereName := by decide
      simp [rises, notHere, @eq_comm _ next]
    · simp only [stays, rises, if_false, false_and, not_false_eq_true, true_and, false_or, ne_eq]
      cases long : isLongName name with
      | true => simp
      | false =>
        rcases files.at? (here ++ [name]) with _ | _ | content
        · simp
        · simp [@eq_comm _ next]
        · simp

theorem enter_set (free : files.at? l ≠ some .directory)
    (entered : files.enter here name = .ok next) :
    (files.set l e).enter here name = .ok next := by
  rcases enter_eq_ok_iff.1 entered with stays | rises | ⟨notHere, notParent, short, found, same⟩
  · exact enter_eq_ok_iff.2 (.inl stays)
  · exact enter_eq_ok_iff.2 (.inr (.inl rises))
  · have distinct : here ++ [name] ≠ l := by
      rintro rfl
      exact free found
    have kept := (at?_set_of_ne (e := e) distinct).trans found
    exact enter_eq_ok_iff.2 (.inr (.inr ⟨notHere, notParent, short, kept, same⟩))

theorem foldlM_enter_set {way : List (List Char)} (free : files.at? l ≠ some .directory)
    (walked : way.foldlM files.enter here = .ok next) :
    way.foldlM (files.set l e).enter here = .ok next := by
  induction way generalizing here with
  | nil => exact walked
  | cons first rest ih =>
    rw [List.foldlM_cons] at walked ⊢
    obtain ⟨between, entered, onward⟩ := bind_eq_ok_iff.1 walked
    rw [enter_set free entered]
    exact ih onward

theorem locate_set {place : Place} {path : List Char} (free : files.at? l ≠ some .directory)
    (located : files.locate path = .ok place) : (files.set l e).locate path = .ok place := by
  unfold locate at located ⊢
  split at located
  · cases located
  · split at located
    · cases located
    · split at located
      · cases located
      · rename_i whole some short
        rw [if_neg whole, if_neg some, if_neg short]
        dsimp only at located ⊢
        obtain ⟨dir, walked, located⟩ := bind_eq_ok_iff.1 located
        rw [foldlM_enter_set free walked]
        exact located

theorem write_eq_ok_iff : files.write path content = .ok later ↔
    ∃ dir name, files.locate path.toList = .ok (.named dir name false) ∧
      isLongName name = false ∧ files.at? (dir ++ [name]) ≠ some .directory ∧
      later = files.set (dir ++ [name]) (.file content) := by
  rw [write, mapError_eq_ok_iff]
  constructor
  · intro written
    obtain ⟨place, located, written⟩ := bind_eq_ok_iff.1 written
    cases place with
    | directory => cases written
    | named dir name slash =>
      cases slash with
      | true => cases written
      | false =>
        obtain ⟨stored, found, written⟩ := bind_eq_ok_iff.1 written
        unfold named? at found
        split at found
        · cases found
        · rename_i short
          cases found
          refine ⟨dir, name, located, by simpa using short, ?_⟩
          split at written
          · cases written
          · rename_i free
            cases written
            exact ⟨free, rfl⟩
  · rintro ⟨dir, name, located, short, free, rfl⟩
    rw [located]
    rcases found : files.at? (dir ++ [name]) with _ | _ | stored
    · simp [named?, short, found]
    · exact absurd found free
    · simp [named?, short, found]

theorem exists_write (content other : Content) (written : (files.write path content).isOk = true) :
    ∃ later, files.write path other = .ok later := by
  obtain ⟨later, written⟩ : ∃ later, files.write path content = .ok later := by
    cases result : files.write path content with
    | ok later => exact ⟨later, rfl⟩
    | error e =>
      rw [result] at written
      cases written
  obtain ⟨dir, name, located, short, free, -⟩ := write_eq_ok_iff.1 written
  exact ⟨_, write_eq_ok_iff.2 ⟨dir, name, located, short, free, rfl⟩⟩

/-- What was written under a path is read under it. -/
theorem read_of_write (written : files.write path content = .ok later) :
    later.read path = .ok content.toBytes := by
  obtain ⟨dir, name, located, short, free, rfl⟩ := write_eq_ok_iff.1 written
  have stored : (files.set (dir ++ [name]) (.file content)).at? (dir ++ [name]) =
      some (.file content) := at?_set (isBase_of_not_directory free)
  simp [read, find, named?, locate_set free located, short, stored]

end IntcodeVM.CommandLine.Files
