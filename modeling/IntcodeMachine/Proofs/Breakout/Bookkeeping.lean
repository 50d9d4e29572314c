import IntcodeMachine.Breakout.Game
import Mathlib.Data.Set.Card

/-! # The books of a screen

A screen does not remember what has been drawn on it.  It keeps the tiles that are
left, and along with them, changed a little by each event, the greatest column and
row, the number of blocks, whether there has ever been one, and the score.
`books_after_events` says that all this is what the events themselves give, in
whatever order positions are drawn, drawn again, or missed by coordinates that
cannot be seen.

What one event preserves is `Books`.  Its count of blocks is that of a set of
positions, which a drawing changes at one position or not at all
(`blocks_draw`); so the count is never lowered where there is no block to remove.
The shape of the rows, and that they hold every block, follows from the books
alone.
-/
namespace IntcodeMachine

/-! ## What events say -/

/-- The value of the last one that has a value. -/
def latest {α β : Type} (value? : α → Option β) (l : List α) : Option β :=
  (l.filterMap value?).getLast?

theorem latest_concat {α β : Type} (value? : α → Option β) (l : List α) (a : α) :
    latest value? (l ++ [a]) = (value? a).or (latest value? l) := by
  rw [latest, List.filterMap_append, List.getLast?_append]
  cases h : value? a <;> simp [h, latest]

theorem latest_cons {α β : Type} (value? : α → Option β) (a : α) (l : List α) :
    latest value? (a :: l) = (latest value? l).or (value? a) := by
  cases h : value? a with
  | none => simp [latest, h]
  | some b => simp [latest, h, List.getLast?_cons, Option.or_some]

/-- The tile that an event draws at a position. -/
def Event.tileFor? (x y : Cell) : Event → Option Tile
  | .draw x' y' tile => if x' = x ∧ y' = y then some tile else none
  | .score _ => none

/-- The score that an event sets. -/
def Event.points? : Event → Option Cell
  | .draw .. => none
  | .score points => some points

namespace Screen

/-- The position can be seen: columns and rows are numbered from 0 to 1023. -/
def Visible (x y : Cell) : Prop := (0 ≤ x.toInt ∧ x.toInt < 1024) ∧ 0 ≤ y.toInt ∧ y.toInt < 1024

instance (x y : Cell) : Decidable (Visible x y) := inferInstanceAs (Decidable (_ ∧ _))

/-- Something has been drawn at the position, which can be seen. -/
def Drawn (events : List Event) (x y : Cell) : Prop :=
  Visible x y ∧ ∃ tile, Event.draw x y tile ∈ events

/-- The number is a coordinate of something that has been drawn, the column or the row. -/
def DrawnAt (coordinate : Cell → Cell → Cell) (events : List Event) (n : Int) : Prop :=
  ∃ x y, Drawn events x y ∧ (coordinate x y).toInt = n

/-- **The extent of what has been found**: one more than the greatest number, or zero if there is
none. -/
def Extent (found : Int → Prop) (extent : Nat) : Prop :=
  (∀ n, found n → n < extent) ∧ (extent = 0 ∨ found (extent - 1))

/-- The positions at which there is a block. -/
def blockPositions (s : Screen) : Set (Cell × Cell) := {p | s.tileAt p.1 p.2 = .block}

variable {s : Screen} {x y x' y' : Cell} {tile : Tile} {events : List Event}

/-! ## One drawing -/

theorem visible?_eq_some {c : Cell} {n : Nat} :
    visible? c = some n ↔ c.toInt = n ∧ c.toInt < 1024 := by
  have zero : 0 ≤ c ↔ 0 ≤ c.toInt := Int64.le_iff_toInt_le
  unfold visible? extent
  split
  · rename_i h
    rw [zero] at h
    rw [Option.some.injEq]
    omega
  · rename_i h
    rw [zero] at h
    simp only [reduceCtorEq, false_iff]
    omega

theorem visible_iff :
    Visible x y ↔ ∃ column row, visible? x = some column ∧ visible? y = some row := by
  simp only [visible?_eq_some]
  constructor
  · rintro ⟨hx, hy⟩
    exact ⟨x.toInt.toNat, y.toInt.toNat, by omega, by omega⟩
  · rintro ⟨column, row, hx, hy⟩
    exact ⟨by omega, by omega⟩

/-- What is drawn at a position that can be seen is put into its column and row. -/
theorem exists_column_row (visible : Visible x y) : ∃ column row : Nat,
    (x.toInt = column ∧ column < 1024) ∧ (y.toInt = row ∧ row < 1024) ∧
      (∀ s : Screen, s.tileAt x y = s.tileIn column row) ∧
      ∀ (s : Screen) (tile : Tile), s.draw x y tile = s.put column row tile := by
  obtain ⟨column, row, hx, hy⟩ := visible_iff.mp visible
  refine ⟨column, row, ?_, ?_, fun s => ?_, fun s tile => ?_⟩
  · have := visible?_eq_some.mp hx
    omega
  · have := visible?_eq_some.mp hy
    omega
  · simp only [tileAt, hx, hy]
  · simp only [draw, hx, hy]

theorem tileAt_of_not_visible (h : ¬ Visible x y) : s.tileAt x y = .empty := by
  unfold tileAt
  split
  · rename_i column row hx hy
    exact absurd (visible_iff.mpr ⟨column, row, hx, hy⟩) h
  · rfl

theorem draw_of_not_visible (h : ¬ Visible x y) : s.draw x y tile = s := by
  unfold draw
  split
  · rename_i column row hx hy
    exact absurd (visible_iff.mpr ⟨column, row, hx, hy⟩) h
  · rfl

theorem tileIn_put {column row column' row' : Nat} (h : column < 1024) (h' : column' < 1024) :
    (s.put column row tile).tileIn column' row' =
      if column = column' ∧ row = row' then tile else s.tileIn column' row' := by
  have places : place column row = place column' row' ↔ column = column' ∧ row = row' := by
    unfold place extent
    omega
  show (s.tiles.insert (place column row) tile).getD (place column' row') .empty = _
  rw [Std.ExtTreeMap.getD_insert]
  simp only [Nat.compare_eq_eq, places]
  rfl

/-- **A drawing changes one position**, and none if it cannot be seen. -/
theorem tileAt_draw (s : Screen) (x y x' y' : Cell) (tile : Tile) :
    (s.draw x y tile).tileAt x' y' =
      if Visible x y ∧ x = x' ∧ y = y' then tile else s.tileAt x' y' := by
  by_cases visible : Visible x y
  · obtain ⟨column, row, hx, hy, -, draw⟩ := exists_column_row visible
    rw [draw]
    by_cases visible' : Visible x' y'
    · obtain ⟨column', row', hx', hy', tileAt, -⟩ := exists_column_row visible'
      have same : column = column' ∧ row = row' ↔ x = x' ∧ y = y' := by
        rw [← Int64.toInt_inj, ← Int64.toInt_inj]
        omega
      simp only [tileAt, tileIn_put hx.2 hx'.2, same, visible, true_and]
    · rw [tileAt_of_not_visible visible', tileAt_of_not_visible visible', if_neg]
      rintro ⟨-, rfl, rfl⟩
      exact visible' visible
  · rw [draw_of_not_visible visible, if_neg fun h => visible h.1]

/-! ## The number of blocks -/

theorem blockPositions_draw_block (visible : Visible x y) :
    (s.draw x y .block).blockPositions = insert (x, y) s.blockPositions := by
  ext ⟨x', y'⟩
  simp only [blockPositions, Set.mem_ofPred_eq, Set.mem_insert_iff, Prod.mk.injEq, tileAt_draw]
  by_cases here : x = x' ∧ y = y'
  · obtain ⟨rfl, rfl⟩ := here
    simp [visible]
  · have there : ¬ (x' = x ∧ y' = y) := fun h => here ⟨h.1.symm, h.2.symm⟩
    simp [here, there]

theorem blockPositions_draw_other (visible : Visible x y) (other : tile ≠ .block) :
    (s.draw x y tile).blockPositions = s.blockPositions \ {(x, y)} := by
  ext ⟨x', y'⟩
  simp only [blockPositions, Set.mem_ofPred_eq, Set.mem_sdiff, Set.mem_singleton_iff, Prod.mk.injEq,
    tileAt_draw]
  by_cases here : x = x' ∧ y = y'
  · obtain ⟨rfl, rfl⟩ := here
    simp [visible, other]
  · have there : ¬ (x' = x ∧ y' = y) := fun h => here ⟨h.1.symm, h.2.symm⟩
    simp [here, there]

/-- The change of the count is decided by the tile that was there and the one that is drawn. -/
theorem blocks_draw_eq (visible : Visible x y) :
    (s.draw x y tile).blocks =
      if s.tileAt x y ≠ .block ∧ tile = .block then s.blocks + 1
      else if s.tileAt x y = .block ∧ tile ≠ .block then s.blocks - 1
      else s.blocks := by
  obtain ⟨column, row, -, -, tileAt, draw⟩ := exists_column_row visible
  rw [draw, tileAt]
  rfl

/-- **Drawing keeps the count of blocks right**, and lowers it by exactly one where a block is
replaced by something else. -/
theorem blocks_draw (counted : s.blockPositions.encard = s.blocks) (x y : Cell) (tile : Tile) :
    (s.draw x y tile).blockPositions.encard = (s.draw x y tile).blocks ∧
      (s.tileAt x y = .block → tile ≠ .block → (s.draw x y tile).blocks + 1 = s.blocks) := by
  by_cases visible : Visible x y
  · have mem : (x, y) ∈ s.blockPositions ↔ s.tileAt x y = .block := Iff.rfl
    rw [blocks_draw_eq visible]
    by_cases draws : tile = .block
    · subst draws
      rw [blockPositions_draw_block visible]
      by_cases was : s.tileAt x y = .block
      · rw [Set.insert_eq_of_mem (mem.mpr was), counted]
        simp [was]
      · rw [Set.encard_insert_of_notMem (mt mem.mp was), counted]
        simp [was]
    · rw [blockPositions_draw_other visible draws]
      by_cases was : s.tileAt x y = .block
      · -- The block that goes is one of those counted, so there is something to subtract from.
        have fewer := Set.encard_sdiff_singleton_add_one (mem.mpr was)
        rw [counted] at fewer
        obtain ⟨n, hn⟩ : ∃ n : Nat, (s.blockPositions \ {(x, y)}).encard = n := by
          refine ENat.ne_top_iff_exists.mp (fun top => ?_) |>.imp fun _ => Eq.symm
          rw [top] at fewer
          exact ENat.top_ne_natCast _ fewer
        rw [hn] at fewer ⊢
        have : n + 1 = s.blocks := by exact_mod_cast fewer
        simp [was, draws, ← this]
      · rw [Set.sdiff_singleton_eq_self (mt mem.mp was), counted]
        simp [was, draws]
  · rw [draw_of_not_visible visible, tileAt_of_not_visible visible]
    exact ⟨counted, fun h => by cases h⟩

/-! ## One event -/

/-- **What a screen keeps of the events**, whatever they are. -/
structure Books (events : List Event) (s : Screen) : Prop where
  /-- The last tile drawn at a position that can be seen is there, and nothing anywhere else. -/
  tile : ∀ x y, s.tileAt x y =
    if Visible x y then (latest (Event.tileFor? x y) events).getD .empty else .empty
  width : Extent (DrawnAt (fun x _ => x) events) s.width
  height : Extent (DrawnAt (fun _ y => y) events) s.height
  /-- The number of blocks is that of the positions at which there is one. -/
  blocks : s.blockPositions.encard = s.blocks
  seenBlocks : s.seenBlocks = true ↔ ∃ x y, Visible x y ∧ Event.draw x y .block ∈ events
  score : s.score = (latest Event.points? events).getD 0

theorem extent_atLeast {found : Int → Prop} {last : Option Nat} {k : Nat}
    (extent : Extent found ((last.map (· + 1)).getD 0)) :
    Extent (fun n => found n ∨ n = k) (((atLeast last k).map (· + 1)).getD 0) := by
  obtain ⟨below, reached⟩ := extent
  cases last with
  | none =>
    simp only [atLeast, Option.map_none, Option.map_some, Option.getD_none, Option.getD_some]
      at below ⊢
    refine ⟨?_, .inr (.inr (by omega))⟩
    rintro n (h | rfl)
    · have := below n h
      omega
    · omega
  | some m =>
    simp only [atLeast, Option.map_some, Option.getD_some] at below reached ⊢
    refine ⟨?_, ?_⟩
    · rintro n (h | rfl)
      · have := below n h
        omega
      · omega
    · rcases Nat.le_total m k with le | le
      · exact .inr (.inr (by omega))
      · rcases reached with zero | found
        · omega
        · rw [Nat.max_eq_left le]
          exact .inr (.inl found)

theorem drawnAt_concat_score {coordinate : Cell → Cell → Cell} {points : Cell} :
    DrawnAt coordinate (events ++ [.score points]) = DrawnAt coordinate events := by
  funext n
  simp [DrawnAt, Drawn]

theorem drawnAt_concat_draw {coordinate : Cell → Cell → Cell} :
    DrawnAt coordinate (events ++ [.draw x y tile]) =
      fun n => DrawnAt coordinate events n ∨ Visible x y ∧ n = (coordinate x y).toInt := by
  funext n
  refine propext ⟨?_, ?_⟩
  · rintro ⟨x', y', ⟨visible, tile', mem⟩, rfl⟩
    rcases List.mem_append.mp mem with mem | mem
    · exact .inl ⟨x', y', ⟨visible, tile', mem⟩, rfl⟩
    · obtain ⟨rfl, rfl, rfl⟩ := Event.draw.inj (List.mem_singleton.mp mem)
      exact .inr ⟨visible, rfl⟩
  · rintro (⟨x', y', ⟨visible, tile', mem⟩, rfl⟩ | ⟨visible, rfl⟩)
    · exact ⟨x', y', ⟨visible, tile', List.mem_append_left _ mem⟩, rfl⟩
    · exact ⟨x, y, ⟨visible, tile, List.mem_append_right _ (List.mem_singleton_self _)⟩, rfl⟩

/-- What a drawing adds to the numbers of columns, or of rows. -/
theorem extent_draw {coordinate : Cell → Cell → Cell} {extent : Screen → Nat}
    (before : Extent (DrawnAt coordinate events) (extent s))
    (put : Visible x y → Extent (fun n => DrawnAt coordinate events n ∨ n = (coordinate x y).toInt)
      (extent (s.draw x y tile))) :
    Extent (DrawnAt coordinate (events ++ [.draw x y tile])) (extent (s.draw x y tile)) := by
  rw [drawnAt_concat_draw]
  by_cases visible : Visible x y
  · simpa only [visible, true_and] using put visible
  · rw [draw_of_not_visible visible]
    simpa only [visible, false_and, or_false] using before

theorem width_draw (before : Extent (DrawnAt (fun x _ => x) events) s.width) :
    Extent (DrawnAt (fun x _ => x) (events ++ [.draw x y tile])) (s.draw x y tile).width := by
  refine extent_draw before fun visible => ?_
  obtain ⟨column, row, ⟨hx, -⟩, -, -, draw⟩ := exists_column_row visible
  rw [draw, hx]
  exact extent_atLeast before

theorem height_draw (before : Extent (DrawnAt (fun _ y => y) events) s.height) :
    Extent (DrawnAt (fun _ y => y) (events ++ [.draw x y tile])) (s.draw x y tile).height := by
  refine extent_draw before fun visible => ?_
  obtain ⟨column, row, -, ⟨hy, -⟩, -, draw⟩ := exists_column_row visible
  rw [draw, hy]
  exact extent_atLeast before

theorem tile_draw
    (before : ∀ x y, s.tileAt x y =
      if Visible x y then (latest (Event.tileFor? x y) events).getD .empty else .empty)
    (x y : Cell) (tile : Tile) (x' y' : Cell) :
    (s.draw x y tile).tileAt x' y' =
      if Visible x' y' then
        (latest (Event.tileFor? x' y') (events ++ [.draw x y tile])).getD .empty
      else .empty := by
  rw [tileAt_draw, before, latest_concat, Event.tileFor?]
  by_cases here : x = x' ∧ y = y'
  · obtain ⟨rfl, rfl⟩ := here
    by_cases visible : Visible x y <;> simp [visible]
  · simp [here]

theorem seenBlocks_draw
    (before : s.seenBlocks = true ↔ ∃ x y, Visible x y ∧ Event.draw x y .block ∈ events) :
    (s.draw x y tile).seenBlocks = true ↔
      ∃ x' y', Visible x' y' ∧ Event.draw x' y' .block ∈ events ++ [.draw x y tile] := by
  have split : (∃ x' y', Visible x' y' ∧ Event.draw x' y' .block ∈ events ++ [.draw x y tile]) ↔
      s.seenBlocks = true ∨ Visible x y ∧ tile = .block := by
    rw [before]
    constructor
    · rintro ⟨x', y', visible, mem⟩
      rcases List.mem_append.mp mem with mem | mem
      · exact .inl ⟨x', y', visible, mem⟩
      · obtain ⟨rfl, rfl, rfl⟩ := Event.draw.inj (List.mem_singleton.mp mem)
        exact .inr ⟨visible, rfl⟩
    · rintro (⟨x', y', visible, mem⟩ | ⟨visible, rfl⟩)
      · exact ⟨x', y', visible, List.mem_append_left _ mem⟩
      · exact ⟨x, y, visible, List.mem_append_right _ (List.mem_singleton_self _)⟩
  rw [split]
  by_cases visible : Visible x y
  · obtain ⟨column, row, -, -, -, draw⟩ := exists_column_row visible
    rw [draw]
    simp [put, visible]
  · rw [draw_of_not_visible visible]
    simp [visible]

theorem score_draw : (s.draw x y tile).score = s.score := by
  unfold draw
  split <;> rfl

theorem score_after (s : Screen) (e : Event) : (s.after e).score = e.points?.getD s.score := by
  cases e with
  | draw x y tile => exact score_draw
  | score points => rfl

/-- **One more event keeps the books.** -/
theorem Books.after (books : Books events s) (e : Event) :
    Books (events ++ [e]) (s.after e) := by
  cases e with
  | draw x y tile =>
    refine ⟨tile_draw books.tile x y tile, width_draw books.width, height_draw books.height,
      (blocks_draw books.blocks x y tile).1, seenBlocks_draw books.seenBlocks, ?_⟩
    show (s.draw x y tile).score = _
    rw [score_draw, books.score, latest_concat]
    rfl
  | score points =>
    refine ⟨fun x y => ?_, ?_, ?_, books.blocks, ?_, ?_⟩
    · rw [latest_concat]
      exact books.tile x y
    · rw [drawnAt_concat_score]
      exact books.width
    · rw [drawnAt_concat_score]
      exact books.height
    · show s.seenBlocks = true ↔ _
      rw [books.seenBlocks]
      simp
    · rw [latest_concat]
      rfl

theorem tileAt_empty : ({} : Screen).tileAt x y = .empty := by
  unfold tileAt
  split <;> rfl

theorem extent_none {coordinate : Cell → Cell → Cell} : Extent (DrawnAt coordinate []) 0 := by
  refine ⟨?_, .inl rfl⟩
  rintro n ⟨x, y, ⟨-, tile, mem⟩, -⟩
  cases mem

theorem books_empty : Books [] {} where
  tile x y := by
    rw [tileAt_empty]
    exact (ite_self _).symm
  width := extent_none
  height := extent_none
  blocks := by
    have nowhere : ({} : Screen).blockPositions = ∅ := by
      ext p
      simp [blockPositions, tileAt_empty]
    rw [nowhere, Set.encard_empty]
    rfl
  seenBlocks := by simp
  score := rfl

/-- **The books are right after any events.** -/
theorem books_foldl (events : List Event) : Books events (events.foldl Screen.after {}) := by
  induction events using List.reverseRecOn with
  | nil => exact books_empty
  | append_singleton events e ih =>
    rw [List.foldl_append]
    exact ih.after e

/-! ## Rows -/

/-- A tile that can be told from an empty one has been drawn. -/
theorem Books.drawn_of_ne_empty (books : Books events s) (h : s.tileAt x y ≠ .empty) :
    Drawn events x y := by
  rw [books.tile] at h
  split at h
  · rename_i visible
    cases last : latest (Event.tileFor? x y) events with
    | none =>
      rw [last] at h
      exact absurd rfl h
    | some tile =>
      obtain ⟨e, mem, draws⟩ := List.mem_filterMap.mp (List.mem_of_getLast? last)
      refine ⟨visible, tile, ?_⟩
      cases e with
      | score points => cases draws
      | draw x' y' tile' =>
        simp only [Event.tileFor?, Option.ite_none_right_eq_some, Option.some.injEq] at draws
        obtain ⟨⟨rfl, rfl⟩, rfl⟩ := draws
        exact mem
  · exact absurd rfl h

/-- The position is within the extent of the screen. -/
def Within (s : Screen) (x y : Cell) : Prop :=
  (0 ≤ x.toInt ∧ x.toInt < s.width) ∧ 0 ≤ y.toInt ∧ y.toInt < s.height

theorem Books.within_of_ne_empty (books : Books events s) (h : s.tileAt x y ≠ .empty) :
    s.Within x y := by
  have drawn := books.drawn_of_ne_empty h
  exact ⟨⟨drawn.1.1.1, books.width.1 _ ⟨x, y, drawn, rfl⟩⟩, drawn.1.2.1,
    books.height.1 _ ⟨x, y, drawn, rfl⟩⟩

theorem Extent.le {coordinate : Cell → Cell → Cell} {n : Nat}
    (extent : Extent (DrawnAt coordinate events) n)
    (visible : ∀ x y, Visible x y → (coordinate x y).toInt < 1024) : n ≤ 1024 := by
  rcases extent.2 with zero | ⟨x, y, drawn, last⟩
  · omega
  · have := visible x y drawn.1
    omega

theorem Books.width_le (books : Books events s) : s.width ≤ 1024 :=
  books.width.le fun _ _ visible => visible.1.2

theorem Books.height_le (books : Books events s) : s.height ≤ 1024 :=
  books.height.le fun _ _ visible => visible.2.2

theorem Books.visible (books : Books events s) (within : s.Within x y) : Visible x y := by
  have := books.width_le
  have := books.height_le
  unfold Within at within
  unfold Visible
  omega

theorem Books.rows_tile (books : Books events s) (within : s.Within x y) :
    s.rows[y.toInt.toNat]?.bind (·[x.toInt.toNat]?) = some (s.tileAt x y) := by
  obtain ⟨column, row, ⟨hx, -⟩, ⟨hy, -⟩, tileAt, -⟩ := exists_column_row (books.visible within)
  obtain ⟨⟨-, inWidth⟩, -, inHeight⟩ := within
  rw [hx] at inWidth ⊢
  rw [hy] at inHeight ⊢
  rw [tileAt, rows, Int.toNat_natCast, Int.toNat_natCast, List.getElem?_map,
    List.getElem?_range (Int.ofNat_lt.mp inHeight), Option.map_some, Option.bind_some,
    List.getElem?_map, List.getElem?_range (Int.ofNat_lt.mp inWidth), Option.map_some]

theorem length_rows (s : Screen) : s.rows.length = s.height := by
  rw [rows, List.length_map, List.length_range]

theorem length_of_mem_rows {row : List Tile} (mem : row ∈ s.rows) : row.length = s.width := by
  obtain ⟨k, -, rfl⟩ := List.mem_map.mp mem
  rw [List.length_map, List.length_range]

/-- The positions of a screen, row by row. -/
def positions (s : Screen) : List (Cell × Cell) :=
  (List.range s.height).flatMap fun row =>
    (List.range s.width).map fun column => (Int64.ofNat column, Int64.ofNat row)

theorem toInt_ofNat_of_le {k n : Nat} (lt : k < n) (le : n ≤ 1024) : (Int64.ofNat k).toInt = k :=
  Int64.toInt_ofNat_of_lt (by omega)

theorem ofNat_injective_of_le {k l n : Nat} (hk : k < n) (hl : l < n) (le : n ≤ 1024)
    (same : Int64.ofNat k = Int64.ofNat l) : k = l := by
  have := congrArg Int64.toInt same
  rw [toInt_ofNat_of_le hk le, toInt_ofNat_of_le hl le] at this
  omega

namespace Books

theorem mem_positions (books : Books events s) : (x, y) ∈ s.positions ↔ s.Within x y := by
  simp only [positions, List.mem_flatMap, List.mem_map, List.mem_range, Prod.mk.injEq]
  constructor
  · rintro ⟨row, inHeight, column, inWidth, rfl, rfl⟩
    unfold Within
    rw [toInt_ofNat_of_le inHeight books.height_le, toInt_ofNat_of_le inWidth books.width_le]
    omega
  · rintro ⟨⟨hx, inWidth⟩, hy, inHeight⟩
    have column : x.toInt.toNat < s.width := by omega
    have row : y.toInt.toNat < s.height := by omega
    refine ⟨y.toInt.toNat, row, x.toInt.toNat, column, ?_, ?_⟩
    · rw [← Int64.toInt_inj, toInt_ofNat_of_le column books.width_le, Int.toNat_of_nonneg hx]
    · rw [← Int64.toInt_inj, toInt_ofNat_of_le row books.height_le, Int.toNat_of_nonneg hy]

theorem nodup_positions (books : Books events s) : s.positions.Nodup := by
  refine List.nodup_flatMap.mpr ⟨fun row _ => ?_, ?_⟩
  · refine List.Nodup.map_on (fun column hc column' hc' same => ?_) List.nodup_range
    exact ofNat_injective_of_le (List.mem_range.mp hc) (List.mem_range.mp hc') books.width_le
      (Prod.mk.inj same).1
  · refine List.nodup_range.imp_of_mem fun {row row'} hr hr' different => ?_
    rintro p mem mem'
    obtain ⟨column, -, rfl⟩ := List.mem_map.mp mem
    obtain ⟨column', -, same⟩ := List.mem_map.mp mem'
    exact different (ofNat_injective_of_le (List.mem_range.mp hr) (List.mem_range.mp hr')
      books.height_le (Prod.mk.inj same).2.symm)

theorem tileAt_ofNat (books : Books events s) {column row : Nat} (hc : column < s.width)
    (hr : row < s.height) : s.tileAt (Int64.ofNat column) (Int64.ofNat row) = s.tileIn column row := by
  have visible : Visible (Int64.ofNat column) (Int64.ofNat row) := by
    refine books.visible (books.mem_positions.mp ?_)
    exact List.mem_flatMap.mpr ⟨row, List.mem_range.mpr hr,
      List.mem_map.mpr ⟨column, List.mem_range.mpr hc, rfl⟩⟩
  obtain ⟨column', row', ⟨hx, -⟩, ⟨hy, -⟩, tileAt, -⟩ := exists_column_row visible
  rw [toInt_ofNat_of_le hc books.width_le] at hx
  rw [toInt_ofNat_of_le hr books.height_le] at hy
  rw [tileAt, Int.ofNat_inj.mp hx, Int.ofNat_inj.mp hy]

/-- **The rows are those of the tiles** at all positions. -/
theorem rows_eq (books : Books events s) :
    s.rows = (List.range s.height).map fun row =>
      (List.range s.width).map fun column => s.tileAt (Int64.ofNat column) (Int64.ofNat row) := by
  refine List.map_congr_left fun row hr => List.map_congr_left fun column hc => ?_
  rw [books.tileAt_ofNat (List.mem_range.mp hc) (List.mem_range.mp hr)]

/-- The rows hold the tiles of all positions. -/
theorem flatten_rows (books : Books events s) :
    s.rows.flatten = s.positions.map fun p => s.tileAt p.1 p.2 := by
  rw [books.rows_eq, ← List.flatMap_def, positions, List.map_flatMap]
  refine List.flatMap_congr fun row _ => ?_
  rw [List.map_map]
  rfl

/-- **The rows hold every block.** -/
theorem count_rows (books : Books events s) : s.rows.flatten.count .block = s.blocks := by
  have blocks : s.blockPositions =
      {p | p ∈ s.positions.filter fun p => s.tileAt p.1 p.2 = .block} := by
    ext ⟨x, y⟩
    simp only [blockPositions, Set.mem_ofPred_eq, List.mem_filter, books.mem_positions,
      decide_eq_true_eq]
    exact ⟨fun h => ⟨books.within_of_ne_empty (by rw [h]; decide), h⟩, fun h => h.2⟩
  have counted := books.blocks
  rw [blocks, ← List.coe_toFinset, Set.encard_coe_eq_coe_finsetCard,
    List.toFinset_card_of_nodup (books.nodup_positions.filter _), ← List.countP_eq_length_filter]
    at counted
  rw [books.flatten_rows, List.count, List.countP_map]
  exact_mod_cast counted

end Books

/-! ## The statement -/

/-- **The books of a screen are those of its tiles**, and these are the ones that have been drawn. -/
structure Accounts (events : List Event) (s : Screen) : Prop extends Books events s where
  width_le : s.width ≤ 1024
  height_le : s.height ≤ 1024
  rows_length : s.rows.length = s.height
  row_length : ∀ row ∈ s.rows, row.length = s.width
  rows_tile : ∀ x y, s.Within x y →
    s.rows[y.toInt.toNat]?.bind (·[x.toInt.toNat]?) = some (s.tileAt x y)
  outside : ∀ x y, ¬ s.Within x y → s.tileAt x y = .empty
  rows_blocks : s.rows.flatten.count .block = s.blocks
  /-- A block that is drawn over is one of those counted. -/
  removes : ∀ x y tile, s.tileAt x y = .block → tile ≠ .block →
    (s.draw x y tile).blocks + 1 = s.blocks

/-- **After any events the books of the screen are right**: the tiles are those drawn last, the
extent is that of everything drawn that can be seen, the number of blocks is that of the positions
at which there is a block, and the rows show all of it. -/
theorem books_after_events (events : List Event) :
    Accounts events (events.foldl Screen.after {}) := by
  have books := books_foldl events
  generalize events.foldl Screen.after {} = s at books ⊢
  exact
    { books with
      width_le := books.width_le
      height_le := books.height_le
      rows_length := by simp [rows]
      row_length := fun row mem => by
        obtain ⟨k, -, rfl⟩ := List.mem_map.mp mem
        simp
      rows_tile := fun _ _ within => books.rows_tile within
      outside := fun x y outside => Decidable.not_not.mp (mt books.within_of_ne_empty outside)
      rows_blocks := books.count_rows
      removes := fun x y tile => (blocks_draw books.blocks x y tile).2 }

end Screen
end IntcodeMachine
