/-! Systems of parts that move one at a time. A move of a part runs or fails, and moves that run do
not get into each other's way. Main statements: if some order of moves leads to a standstill, then
nothing ever fails, and every order leads to this standstill in as many moves of each part; and if some
order leads to a failure, no other moves lead away from it. -/
namespace IntcodeVM.Settling

variable {σ ι : Type} {runs : ι → σ → σ → Prop} {fails : ι → σ → Prop}

/-- Different parts can be exchanged: what one does leaves the other's next move as it was. -/
structure Commuting (runs : ι → σ → σ → Prop) (fails : ι → σ → Prop) : Prop where
  unique {i : ι} {s a b : σ} : runs i s a → runs i s b → a = b
  sound {i : ι} {s a : σ} : runs i s a → ¬ fails i s
  commute {i j : ι} {s a b : σ} : i ≠ j → runs i s a → runs j s b →
    ∃ t, runs j a t ∧ runs i b t
  persists {i j : ι} {s b : σ} : i ≠ j → fails i s → runs j s b → fails i b

/-- Moves that all run, by these parts in this order. -/
inductive Path (runs : ι → σ → σ → Prop) : List ι → σ → σ → Prop
  | nil (s : σ) : Path runs [] s s
  | cons {i : ι} {order : List ι} {s t u : σ} : runs i s t → Path runs order t u →
      Path runs (i :: order) s u

theorem Path.append {first second : List ι} {s t u : σ} (h : Path runs first s t)
    (k : Path runs second t u) : Path runs (first ++ second) s u := by
  induction h with
  | nil => exact k
  | cons move _ ih => exact .cons move (ih k)

def Still (runs : ι → σ → σ → Prop) (fails : ι → σ → Prop) (s : σ) : Prop :=
  ∀ i, (∀ t, ¬ runs i s t) ∧ ¬ fails i s

variable (laws : Commuting runs fails)

include laws

theorem Commuting.not_fails {order : List ι} {s last : σ} (path : Path runs order s last)
    (still : Still runs fails last) (i : ι) : ¬ fails i s := by
  induction path with
  | nil => exact (still i).2
  | @cons j order s t last move _ ih =>
    intro failing
    by_cases same : i = j
    · subst same
      exact laws.sound move failing
    · exact ih still (laws.persists same failing move)

/-- Any move can be made the first one of the path. -/
theorem Commuting.first {order : List ι} {s last : σ} (path : Path runs order s last)
    (still : Still runs fails last) {i : ι} {a : σ} (move : runs i s a) :
    ∃ rest, Path runs rest a last ∧ (i :: rest).Perm order := by
  induction path generalizing i a with
  | nil => exact absurd move ((still i).1 a)
  | @cons j order s t last head tail ih =>
    by_cases same : i = j
    · subst same
      cases laws.unique move head
      exact ⟨order, tail, .refl _⟩
    · -- the head is put off until after the move
      obtain ⟨u, byJ, byI⟩ := laws.commute same move head
      obtain ⟨rest, path, perm⟩ := ih still byI
      exact ⟨j :: rest, .cons byJ path, (List.Perm.swap j i rest).trans (perm.cons j)⟩

/-- Every path stays on the way to the standstill. -/
theorem Commuting.remaining {order other : List ι} {s t last : σ} (path : Path runs order s last)
    (still : Still runs fails last) (begun : Path runs other s t) :
    ∃ rest, Path runs rest t last ∧ (other ++ rest).Perm order := by
  induction begun generalizing order with
  | nil => exact ⟨order, path, .refl _⟩
  | @cons i others s u t head _ ih =>
    obtain ⟨left, onward, perm⟩ := laws.first path still head
    obtain ⟨rest, path, more⟩ := ih onward
    exact ⟨rest, path, (more.cons i).trans perm⟩

theorem Commuting.same_end {order other : List ι} {s t last : σ} (path : Path runs order s last)
    (still : Still runs fails last) (begun : Path runs other s t) (stuck : ∀ i u, ¬ runs i t u) :
    t = last ∧ other.Perm order := by
  obtain ⟨rest, onward, perm⟩ := laws.remaining path still begun
  cases onward with
  | nil => exact ⟨rfl, by simpa using perm⟩
  | cons move _ => exact absurd move (stuck _ _)

theorem Commuting.still_fails {order : List ι} {s t : σ} (path : Path runs order s t) {i : ι}
    (failing : fails i s) : fails i t := by
  induction path with
  | nil => exact failing
  | @cons j order s t last move _ ih =>
    by_cases same : i = j
    · subst same
      exact absurd failing (laws.sound move)
    · exact ih (laws.persists same failing move)

theorem Commuting.ahead_of_move {order : List ι} {s t a : σ} (path : Path runs order s t) {i j : ι}
    (failing : fails i t) (move : runs j s a) : ∃ rest u, Path runs rest a u ∧ fails i u := by
  induction path generalizing a with
  | nil =>
    have other : i ≠ j := by
      rintro rfl
      exact laws.sound move failing
    exact ⟨[], a, .nil a, laws.persists other failing move⟩
  | @cons first order s t last head tail ih =>
    by_cases same : j = first
    · subst same
      cases laws.unique move head
      exact ⟨order, last, tail, failing⟩
    · -- the head of the path can still be made after the move
      obtain ⟨u, later, earlier⟩ := laws.commute same move head
      obtain ⟨rest, v, path, failing⟩ := ih failing earlier
      exact ⟨first :: rest, v, .cons later path, failing⟩

/-- Whatever is done before it, a failure that is ahead stays ahead. -/
theorem Commuting.ahead {order other : List ι} {s t u : σ} (path : Path runs order s t) {i : ι}
    (failing : fails i t) (begun : Path runs other s u) :
    ∃ rest v, Path runs rest u v ∧ fails i v := by
  induction begun generalizing order t with
  | nil => exact ⟨order, t, path, failing⟩
  | cons move _ ih =>
    obtain ⟨rest, v, path, failing⟩ := laws.ahead_of_move path failing move
    exact ih path failing

end IntcodeVM.Settling
