import IntcodeVM.Proofs.Hull.Bounds
import Mathlib.Data.List.Nodup

/-! Pictures of panels, pixel by pixel. A picture is the table of its pixels, and each entry that is drawn
adds one lit pixel at most. Main statement: each pixel shows the panel at its place, and neither the order
of drawing nor a shift of all panels is to be seen. -/
namespace IntcodeVM.Hull

namespace Panels

variable {p : Panels} {cell : Cell} {color : Int} {entries : List (Cell × Int)}

def Known (p : Panels) (cell : Cell) : Prop := (p.color? cell).isSome

/-- Whether a panel is known and not black. -/
def lit (p : Panels) (cell : Cell) : Bool := (p.color? cell).any (· ≠ black)

theorem known_of_color? (shown : p.color? cell = some color) : p.Known cell :=
  Option.isSome_of_eq_some shown

theorem known_iff_mem : p.Known cell ↔ cell ∈ p.toList.map Prod.fst := by
  simp [Known, Option.isSome_iff_exists, ← mem_toList_iff]

theorem nodup_cells (p : Panels) : (p.toList.map Prod.fst).Nodup :=
  List.pairwise_map.2 (p.colors.distinct_keys_toList.imp fun apart same =>
    apart (Cell.order_eq_iff.2 same))

theorem color?_foldl (distinct : (entries.map Prod.fst).Nodup) (p : Panels) :
    (entries.foldl (fun p (cell, color) => p.paint cell color) p).color? cell = some color ↔
      (cell, color) ∈ entries ∨ cell ∉ entries.map Prod.fst ∧ p.color? cell = some color := by
  induction entries generalizing p with
  | nil => simp
  | cons entry rest ih =>
    obtain ⟨first, shown⟩ := entry
    obtain ⟨unlike, distinct⟩ := List.nodup_cons.1 distinct
    rw [List.foldl_cons, ih distinct, color?_paint]
    by_cases same : cell = first
    · subst same
      have behind : (cell, color) ∉ rest := fun mem => unlike (List.mem_map.2 ⟨_, mem, rfl⟩)
      simp [behind, unlike, eq_comm]
    · simp [same]

theorem color?_ofList (distinct : (entries.map Prod.fst).Nodup) :
    (ofList entries).color? cell = some color ↔ (cell, color) ∈ entries := by
  have blank : ({} : Panels).color? cell = none := Std.ExtTreeMap.getElem?_empty
  rw [ofList, color?_foldl distinct, blank]
  simp

theorem ofList_perm (order : entries.Perm p.toList) : ofList entries = p := by
  have distinct : (entries.map Prod.fst).Nodup := (order.map Prod.fst).nodup_iff.2 p.nodup_cells
  ext cell color
  rw [color?_ofList distinct, order.mem_iff, mem_toList_iff]

def shifted (p : Panels) (dx dy : Int) : Panels :=
  ofList (p.toList.map fun (cell, color) => ((cell.1 + dx, cell.2 + dy), color))

theorem color?_shifted (p : Panels) (dx dy : Int) (cell : Cell) :
    (p.shifted dx dy).color? cell = p.color? (cell.1 - dx, cell.2 - dy) := by
  have distinct : ((p.toList.map fun (cell, color) =>
      ((cell.1 + dx, cell.2 + dy), color)).map Prod.fst).Nodup := by
    have moves : Function.Injective fun cell : Cell => (cell.1 + dx, cell.2 + dy) := by
      rintro ⟨x, y⟩ ⟨x', y'⟩ same
      simpa using same
    simpa [Function.comp_def] using List.Nodup.map moves p.nodup_cells
  ext color
  rw [shifted, color?_ofList distinct, ← mem_toList_iff, List.mem_map]
  constructor
  · rintro ⟨⟨at', shown⟩, mem, same⟩
    cases same
    simpa using mem
  · intro mem
    exact ⟨_, mem, by simp⟩

end Panels

namespace Picture

def table (height width : Nat) (lit : Nat → Nat → Bool) : Picture :=
  ⟨(Array.range height).map fun row => (Array.range width).map (lit row)⟩

variable {height width : Nat} {f g : Nat → Nat → Bool}

theorem table_congr (same : ∀ row < height, ∀ column < width, f row column = g row column) :
    table height width f = table height width g := by
  refine congrArg mk (Array.map_congr_left fun row mem => Array.map_congr_left fun column mem' => ?_)
  exact same row (Array.mem_range.1 mem) column (Array.mem_range.1 mem')

theorem dark_eq_table : dark width height = table height width fun _ _ => false := by
  refine congrArg mk (Array.ext (by simp) fun row _ _ => Array.ext (by simp) fun column _ _ => ?_)
  simp

theorem light_table (row column : Nat) :
    (table height width f).light row column =
      table height width fun r c => f r c || (row = r && column = c) := by
  refine congrArg mk (Array.ext (by simp [table]) fun r _ _ => ?_)
  simp only [table, Array.getElem_modify, Array.getElem_map, Array.getElem_range]
  by_cases here : row = r
  · simp only [here, if_true]
    refine Array.ext (by simp) fun c inside _ => ?_
    by_cases there : column = c
    · simp [there]
    · rw [Array.getElem_setIfInBounds_ne (by simpa using inside) there]
      simp [there]
  · simp [here]

def drawEntry (b : Bounds) (picture : Picture) : Cell × Int → Picture
  | (cell, color) =>
    if color = black then picture
    else picture.light (b.maxY - cell.2).toNat (cell.1 - b.minX).toNat

def drawing (entries : List (Cell × Int)) : Picture :=
  let b := Bounds.ofCells (entries.map Prod.fst)
  entries.foldl (drawEntry b) (dark b.width b.height)

def lights (b : Bounds) (row column : Nat) : Cell × Int → Bool
  | (cell, color) =>
    color ≠ black && ((b.maxY - cell.2).toNat = row && (cell.1 - b.minX).toNat = column)

theorem drawEntry_table (b : Bounds) (entry : Cell × Int) :
    drawEntry b (table height width f) entry =
      table height width fun row column => f row column || lights b row column entry := by
  obtain ⟨cell, color⟩ := entry
  by_cases unlit : color = black
  · simp [drawEntry, lights, unlit]
  · rw [drawEntry, if_neg unlit, light_table]
    simp [lights, unlit]

theorem foldl_drawEntry (b : Bounds) (entries : List (Cell × Int)) :
    entries.foldl (drawEntry b) (table height width f) =
      table height width fun row column => f row column || entries.any (lights b row column) := by
  induction entries generalizing f with
  | nil => simp
  | cons entry rest ih =>
    rw [List.foldl_cons, drawEntry_table, ih]
    simp [Bool.or_assoc]

theorem drawing_eq_table (entries : List (Cell × Int)) :
    let b := Bounds.ofCells (entries.map Prod.fst)
    drawing entries = table b.height b.width fun row column => entries.any (lights b row column) := by
  rw [drawing, dark_eq_table, foldl_drawEntry]
  simp

end Picture

namespace Panels

variable {p : Panels} {cell : Cell} {entries : List (Cell × Int)}

theorem bounds_tight (known : p.Known cell) : p.bounds.Tight p.Known := by
  have some : p.toList.map Prod.fst ≠ [] := List.ne_nil_of_mem (known_iff_mem.1 known)
  exact (Bounds.tight_ofCells some).congr fun cell => known_iff_mem.symm

/-- Whether the panel at the place of a pixel is lit. -/
def shows (p : Panels) (row column : Nat) : Bool :=
  p.lit (p.bounds.minX + column, p.bounds.maxY - row)

theorem bounds_empty (none : ∀ cell, ¬ p.Known cell) : p.bounds = ⟨0, 0, 0, 0⟩ := by
  have nothing : p.toList.map Prod.fst = [] :=
    List.eq_nil_iff_forall_not_mem.2 fun cell mem => none cell (known_iff_mem.2 mem)
  rw [bounds, nothing]
  rfl

theorem bounds_ordered (p : Panels) : p.bounds.minX ≤ p.bounds.maxX ∧ p.bounds.minY ≤ p.bounds.maxY := by
  by_cases some : ∃ cell, p.Known cell
  · obtain ⟨cell, known⟩ := some
    have := (bounds_tight known).inside known
    omega
  · rw [bounds_empty (not_exists.1 some)]
    exact ⟨le_rfl, le_rfl⟩

theorem any_lights (p : Panels) (row column : Nat) :
    p.toList.any (Picture.lights p.bounds row column) = p.shows row column := by
  rw [Bool.eq_iff_iff, List.any_eq_true, shows, lit, Option.any_eq_true]
  constructor
  · rintro ⟨⟨cell, color⟩, mem, lights⟩
    have shown := (p.mem_toList_iff cell color).1 mem
    obtain ⟨across, up⟩ := (bounds_tight (known_of_color? shown)).inside (known_of_color? shown)
    simp only [Picture.lights, Bool.and_eq_true, decide_eq_true_eq] at lights
    obtain ⟨colored, sameRow, sameColumn⟩ := lights
    have here : cell = (p.bounds.minX + column, p.bounds.maxY - row) := by
      ext <;> dsimp only <;> omega
    exact ⟨color, here ▸ shown, by simpa using colored⟩
  · rintro ⟨color, shown, colored⟩
    refine ⟨_, (p.mem_toList_iff _ color).2 shown, ?_⟩
    have up : p.bounds.maxY - (p.bounds.maxY - row) = row := by omega
    have across : p.bounds.minX + column - p.bounds.minX = column := by omega
    simpa [Picture.lights, up, across] using colored

/-- A picture is the table of what its pixels show. -/
theorem ofPanels_eq_table (p : Panels) :
    Picture.ofPanels p = Picture.table p.bounds.height p.bounds.width p.shows :=
  (Picture.drawing_eq_table p.toList).trans
    (Picture.table_congr fun row _ column _ => p.any_lights row column)

theorem ofPanels_empty (none : ∀ cell, ¬ p.Known cell) : Picture.ofPanels p = ⟨#[#[false]]⟩ := by
  have dark : p.shows = fun _ _ => false := by
    funext row column
    exact (Option.any_eq_false ..).2 fun color shown => absurd (known_of_color? shown) (none _)
  rw [ofPanels_eq_table, dark, bounds_empty none, ← Picture.dark_eq_table]
  rfl

theorem drawing_perm (order : entries.Perm p.toList) :
    Picture.drawing entries = Picture.ofPanels p := by
  have sorted : Picture.ofPanels p = Picture.drawing p.toList := rfl
  rw [sorted, Picture.drawing_eq_table, Picture.drawing_eq_table,
    Bounds.ofCells_perm (order.map Prod.fst)]
  exact Picture.table_congr fun row _ column _ => order.any_eq

theorem ofPanels_shifted (p : Panels) (dx dy : Int) :
    Picture.ofPanels (p.shifted dx dy) = Picture.ofPanels p := by
  have known (cell : Cell) : (p.shifted dx dy).Known cell ↔ p.Known (cell.1 - dx, cell.2 - dy) := by
    rw [Known, color?_shifted, Known]
  by_cases some : ∃ cell, p.Known cell
  · obtain ⟨cell, some⟩ := some
    have there : (p.shifted dx dy).Known (cell.1 + dx, cell.2 + dy) := by
      rw [known]
      simpa using some
    have moved := ((bounds_tight some).shifted dx dy).congr fun cell => (known cell).symm
    have bounds := (bounds_tight there).unique moved
    have shows : (p.shifted dx dy).shows = p.shows := by
      funext row column
      rw [Panels.shows, lit, color?_shifted, bounds, Panels.shows, lit]
      congr 3 <;> dsimp only <;> omega
    rw [ofPanels_eq_table, ofPanels_eq_table, shows, bounds]
    simp only [Bounds.height, Bounds.width, Int.add_sub_add_right]
  · have none := not_exists.1 some
    rw [ofPanels_empty none, ofPanels_empty fun cell => (known cell).not.2 (none _)]

/-- What the picture of the panels is. -/
structure Pictured (p : Panels) (picture : Picture) : Prop where
  tight {cell : Cell} : p.Known cell → p.bounds.Tight p.Known
  height : (picture.height : Int) = p.bounds.maxY - p.bounds.minY + 1
  width {row : Array Bool} : row ∈ picture.rows →
    (row.size : Int) = p.bounds.maxX - p.bounds.minX + 1
  /-- Both indices of each panel lie inside the picture. -/
  inside {cell : Cell} : p.Known cell →
    (0 ≤ p.bounds.maxY - cell.2 ∧ p.bounds.maxY - cell.2 < p.bounds.maxY - p.bounds.minY + 1) ∧
      0 ≤ cell.1 - p.bounds.minX ∧ cell.1 - p.bounds.minX < p.bounds.maxX - p.bounds.minX + 1
  pixel {row column : Nat} : row < p.bounds.height → column < p.bounds.width →
    (picture.rows[row]?.bind (·[column]?)).map Picture.level =
      some (if p.shows row column then 255 else 0)
  text (on off : String) : picture.text on off =
    "\n".intercalate ((List.range p.bounds.height).map fun row =>
      "".intercalate ((List.range p.bounds.width).map fun column =>
        if p.shows row column then on else off))
  order {entries : List (Cell × Int)} : entries.Perm p.toList →
    ofList entries = p ∧ Picture.drawing entries = picture
  shift (dx dy : Int) :
    (∀ cell, (p.shifted dx dy).color? cell = p.color? (cell.1 - dx, cell.2 - dy)) ∧
      Picture.ofPanels (p.shifted dx dy) = picture
  empty : (∀ cell, ¬ p.Known cell) → picture = ⟨#[#[false]]⟩

/-- A picture has one pixel for each place of the smallest box around the known panels, the highest row
first, and a pixel is lit exactly if its panel is known and not black. Whatever order the panels are
listed in, and wherever they lie, the picture is the same. -/
theorem pictured_exactly (p : Panels) : Pictured p (Picture.ofPanels p) where
  tight := bounds_tight
  height := by
    have := p.bounds_ordered
    rw [ofPanels_eq_table, Picture.height, Picture.table, Array.size_map, Array.size_range,
      Bounds.height]
    omega
  width := by
    intro row mem
    have := p.bounds_ordered
    rw [ofPanels_eq_table, Picture.table] at mem
    obtain ⟨place, -, rfl⟩ := Array.mem_map.1 mem
    rw [Array.size_map, Array.size_range, Bounds.width]
    omega
  inside known := by
    have := (bounds_tight known).inside known
    omega
  pixel := by
    intro row column low left
    rw [ofPanels_eq_table]
    simp [Picture.table, low, left, Picture.level]
  text on off := by
    rw [ofPanels_eq_table]
    simp [Picture.table, Picture.text, Function.comp_def]
  order order := ⟨ofList_perm order, drawing_perm order⟩
  shift dx dy := ⟨color?_shifted p dx dy, ofPanels_shifted p dx dy⟩
  empty := ofPanels_empty

/-- Two lit panels and a black one that makes the picture higher, drawn in both orders. -/
theorem pictured_exactly_reversed :
    let entries : List (Cell × Int) := [((0, 0), 1), ((2, 1), 1), ((1, -1), 0)]
    let p := ofList entries
    p.bounds = ⟨0, -1, 2, 1⟩ ∧ ofList entries.reverse = p ∧
      Picture.drawing entries.reverse = Picture.drawing entries ∧
      (Picture.drawing entries).text "#" " " = "  #\n#  \n   " := by
  intro entries p
  have order : entries.Perm p.toList := by decide +kernel
  have pictured := pictured_exactly p
  obtain ⟨-, forth⟩ := pictured.order order
  obtain ⟨same, back⟩ := pictured.order (entries.reverse_perm.trans order)
  exact ⟨by decide +kernel, same, back.trans forth.symm, by decide +kernel⟩

end Panels

end IntcodeVM.Hull
