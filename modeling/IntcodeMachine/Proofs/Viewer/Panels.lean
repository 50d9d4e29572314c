import IntcodeMachine.Proofs.Breakout.Bookkeeping
import IntcodeMachine.Proofs.Viewer.Watching
import IntcodeMachine.Viewer.Frame

/-! # Panels beside and above each other

A frame is put together from four panels, and what they hold has no bound: a score or
a register has up to 20 digits, a screen up to 1024 columns and rows, and an error may
be told in any number of words.  `frame_faithful` says that nothing of it leaves its
panel, and that the tiles of the game are where they belong and look as they should
(`Looks`).

Blocks of spots are looked at position by position (`at?`).  What stands at a position
is then said once for each way of putting blocks together (`Sized.at?_append`,
`Sized.at?_zipWith`) and once for a panel, whatever its lines are (`at?_panel`).  A panel
consists of an edge, what is between, and an edge, in both directions, so that `Along`
tells which part of it a position is in.
-/
namespace IntcodeMachine
namespace Frame

/-! ## Blocks -/

section Blocks
variable {α β : Type} {width width' height height' column row : Nat} {a b rows : List (List α)}

/-- What stands in a column and a row. -/
def at? (rows : List (List α)) (column row : Nat) : Option α := rows[row]?.bind (·[column]?)

/-- The number of rows, and that of columns in each of them. -/
structure Sized (width height : Nat) (rows : List (List α)) : Prop where
  rows_length : rows.length = height
  row_length : ∀ row ∈ rows, row.length = width

theorem at?_map (f : α → β) :
    at? (rows.map (·.map f)) column row = (at? rows column row).map f := by
  unfold at?
  rw [List.getElem?_map]
  cases rows[row]? with
  | none => rfl
  | some line => exact List.getElem?_map

namespace Sized

theorem row_at (sized : Sized width height a) (h : row < height) :
    ∃ line, a[row]? = some line ∧ line.length = width := by
  have inside : row < a.length := by rw [sized.rows_length]; exact h
  exact ⟨a[row], List.getElem?_eq_getElem inside, sized.row_length _ (List.getElem_mem inside)⟩

/-- There is nothing outside a block. -/
theorem at?_eq_none (sized : Sized width height a) (h : ¬ (column < width ∧ row < height)) :
    at? a column row = none := by
  unfold at?
  by_cases inside : row < height
  · obtain ⟨line, hl, length⟩ := sized.row_at inside
    rw [hl, Option.bind_some, List.getElem?_eq_none]
    omega
  · rw [List.getElem?_eq_none, Option.bind_none]
    rw [sized.rows_length]
    omega

/-- **One block above another.** -/
theorem append {total : Nat} (above : Sized width height a) (below : Sized width height' b)
    (sum : height + height' = total) : Sized width total (a ++ b) where
  rows_length := by rw [List.length_append, above.rows_length, below.rows_length, sum]
  row_length row mem := by
    rcases List.mem_append.mp mem with mem | mem
    · exact above.row_length row mem
    · exact below.row_length row mem

theorem at?_append (above : Sized width height a) :
    at? (a ++ b) column row =
      if row < height then at? a column row else at? b column (row - height) := by
  unfold at?
  rw [List.getElem?_append, above.rows_length]
  split <;> rfl

/-- **One block beside another.** -/
theorem zipWith {total : Nat} (left : Sized width height a) (right : Sized width' height b)
    (sum : width + width' = total) : Sized total height (List.zipWith (· ++ ·) a b) where
  rows_length := by
    rw [List.length_zipWith, left.rows_length, right.rows_length, Nat.min_self]
  row_length row mem := by
    rw [← List.map_uncurry_zip_eq_zipWith] at mem
    obtain ⟨⟨l, r⟩, both, rfl⟩ := List.mem_map.mp mem
    obtain ⟨hl, hr⟩ := List.of_mem_zip both
    show (l ++ r).length = _
    rw [List.length_append, left.row_length l hl, right.row_length r hr, sum]

theorem at?_zipWith (left : Sized width height a) (right : Sized width' height b) :
    at? (List.zipWith (· ++ ·) a b) column row =
      if column < width then at? a column row else at? b (column - width) row := by
  by_cases inside : row < height
  · obtain ⟨l, hl, length⟩ := left.row_at inside
    obtain ⟨r, hr, -⟩ := right.row_at inside
    unfold at?
    simp only [List.getElem?_zipWith, hl, hr, Option.bind_some]
    rw [List.getElem?_append, length]
  · rw [(left.zipWith right rfl).at?_eq_none (by omega), left.at?_eq_none (by omega),
      right.at?_eq_none (by omega), ite_self]

end Sized
end Blocks

/-! ## One panel -/

/-- Where a number below some size is: at one of the two ends, or between them. -/
inductive Along
  | first
  | between (k : Nat)
  | last

/-- Where a column is among `size` columns, or a row among as many rows. -/
def along (size k : Nat) : Along :=
  if k = 0 then .first else if k + 1 < size then .between (k - 1) else .last

/-- **What the border of a panel consists of**: corners, edges, and the title, which is written over
the upper edge as far as there is room between the corners. -/
def border? (width height : Nat) (title : String) (column row : Nat) : Option Char :=
  match along width column, along height row with
  | .first, .first => some '┌'
  | .last, .first => some '┐'
  | .first, .last => some '└'
  | .last, .last => some '┘'
  | .between k, .first => some (title.toList[k]?.getD '─')
  | .between _, .last => some '─'
  | .first, .between _ => some '│'
  | .last, .between _ => some '│'
  | .between _, .between _ => none

section Panel
variable {α : Type} {width height column row : Nat} {border ground : Color} {title : String}
  {lines : List (List Spot)}

/-- What is between has a place among what is between. -/
theorem along_between {size k j : Nat} (h : along size k = .between j) :
    k = j + 1 ∧ k + 1 < size := by
  unfold along at h
  split at h
  · cases h
  · split at h
    · cases h
      omega
    · cases h

/-- What is no border is inside. -/
theorem inside_of_border?_eq_none (h : border? width height title column row = none) :
    (1 ≤ column ∧ column + 1 < width) ∧ 1 ≤ row ∧ row + 1 < height := by
  unfold border? at h
  split at h <;> cases h
  rename_i j k columnIn rowIn
  have := along_between columnIn
  have := along_between rowIn
  omega

theorem border?_inside (hc : column + 2 < width) (hr : row + 2 < height) :
    border? width height title (column + 1) (row + 1) = none := by
  unfold border? along
  rw [if_neg (Nat.succ_ne_zero _), if_neg (Nat.succ_ne_zero _), if_pos hc, if_pos hr]

theorem getElem?_enclosed (first last : α) {l : List α} {size k : Nat}
    (length : l.length + 2 = size) (h : k < size) :
    (first :: l ++ [last])[k]? =
      match along size k with
      | .first => some first
      | .between k => l[k]?
      | .last => some last := by
  unfold along
  rcases k with _ | k
  · rfl
  · show (l ++ [last])[k]? = _
    rw [if_neg (Nat.succ_ne_zero k), List.getElem?_append]
    by_cases inside : k < l.length
    · rw [if_pos inside, if_pos (by omega)]
      rfl
    · rw [if_neg inside, if_neg (by omega), show k - l.length = 0 by omega]
      rfl

/-- The elements that come first, and as many blanks as are missing. -/
theorem getElem?_fit (l : List α) (blank : α) {n k : Nat} (h : k < n) :
    (l.take n ++ List.replicate (n - l.length) blank)[k]? = some (l[k]?.getD blank) := by
  rw [List.getElem?_append, List.length_take]
  by_cases inside : k < l.length
  · rw [if_pos (by omega), List.getElem?_take_of_lt h, List.getElem?_eq_getElem inside]
    rfl
  · rw [if_neg (by omega), List.getElem?_eq_none (Nat.not_lt.mp inside), List.getElem?_replicate,
      if_pos (by omega)]
    rfl

theorem length_fit (l : List α) (blank : α) (n : Nat) :
    (l.take n ++ List.replicate (n - l.length) blank).length = n := by
  rw [List.length_append, List.length_take, List.length_replicate]
  omega

theorem length_enclosed (first last : α) {l : List α} {size : Nat} (length : l.length + 2 = size) :
    (first :: l ++ [last]).length = size := by
  simp [length]

/-- Between two edges there is room for two spots less. -/
theorem length_inner (wide : 2 ≤ width) (blank : Spot) (spots : List Spot) :
    (Spot.fit (width - 2) blank spots).length + 2 = width := by
  rw [Spot.fit, length_fit]
  omega

theorem sized_panel (wide : 2 ≤ width) (high : 2 ≤ height) :
    Sized width height (panel width height border ground title lines) := by
  refine ⟨length_enclosed _ _ ?_, fun line mem => ?_⟩
  · rw [List.length_map, length_fit]
    omega
  · rcases List.mem_append.mp mem with mem | mem
    · rcases List.mem_cons.mp mem with rfl | mem
      · exact length_enclosed _ _ (length_inner wide _ _)
      · obtain ⟨_, -, rfl⟩ := List.mem_map.mp mem
        exact length_enclosed _ _ (length_inner wide _ _)
    · cases List.mem_singleton.mp mem
      exact length_enclosed _ _ (by rw [List.length_replicate]; omega)

/-- **What a panel shows**: its border, and inside the border the lines from their beginning. -/
theorem at?_panel (hc : column < width) (hr : row < height) (wide : 2 ≤ width) (high : 2 ≤ height) :
    at? (panel width height border ground title lines) column row =
      match border? width height title column row with
      | some c => some { glyph := c, color := border }
      | none => some ((at? lines (column - 1) (row - 1)).getD { color := ground }) := by
  unfold at? panel border?
  dsimp only
  rw [getElem?_enclosed _ _ (by rw [List.length_map, length_fit]; omega) hr]
  cases rowIn : along height row with
  | first =>
    dsimp only
    rw [Option.bind_some, getElem?_enclosed _ _ (length_inner wide _ _) hc]
    cases columnIn : along width column with
    | first => rfl
    | last => rfl
    | between k =>
      have := along_between columnIn
      dsimp only
      rw [Spot.fit, getElem?_fit _ _ (by omega), Spot.text, List.getElem?_map]
      cases title.toList[k]? <;> rfl
  | last =>
    dsimp only
    rw [Option.bind_some, getElem?_enclosed _ _ (by rw [List.length_replicate]; omega) hc]
    cases columnIn : along width column with
    | first => rfl
    | last => rfl
    | between k =>
      have := along_between columnIn
      exact List.getElem?_replicate_of_lt (by omega)
  | between j =>
    have hj := along_between rowIn
    dsimp only
    rw [List.getElem?_map, getElem?_fit _ _ (by omega), Option.map_some, Option.bind_some,
      getElem?_enclosed _ _ (length_inner wide _ _) hc]
    cases columnIn : along width column with
    | first => rfl
    | last => rfl
    | between k =>
      have hk := along_between columnIn
      dsimp only
      rw [Spot.fit, getElem?_fit _ _ (by omega), hj.1, hk.1, Nat.add_sub_cancel, Nat.add_sub_cancel]
      cases lines[j]? <;> rfl

end Panel

/-! ## Four panels -/

/-- The box of a panel: its upper left corner, its size, the colour of its border and its title. -/
structure Box where
  column : Nat
  row : Nat
  width : Nat
  height : Nat
  color : Color
  title : String

/-- **The border of the box is whole**, corners and title included. -/
def Box.Intact (box : Box) (frame : List (List Spot)) : Prop :=
  ∀ column row c, column < box.width → row < box.height →
    border? box.width box.height box.title column row = some c →
      at? frame (box.column + column) (box.row + row) = some { glyph := c, color := box.color }

/-- The boxes of a frame whose left panels have a width. -/
def boxes (width height left : Nat) (s : Screen) : List Box := [
  ⟨0, 0, left, height - 3, .cyan,
    " Score " ++ s.score.text ++ "  Blocks " ++ Decimal.text s.blocks ++ " "⟩,
  ⟨0, height - 3, left, 3, .white, " Status "⟩,
  ⟨left, 0, width - left, height - 5, .green, " VM "⟩,
  ⟨left, height - 5, width - left, 5, .darkGray, " Help "⟩]

section Draw
variable {width height column row : Nat} {v : Viewer}

theorem leftWidth_bounds (wide : 4 ≤ width) :
    2 ≤ leftWidth width ∧ leftWidth width + 2 ≤ width := by
  unfold leftWidth
  omega

theorem sized_left (wide : 4 ≤ width) (high : 7 ≤ height) :
    Sized (leftWidth width) height (gamePanel (leftWidth width) (height - 3) v.game.screen ++
      statusPanel (leftWidth width) 3 v.status) := by
  have bounds := leftWidth_bounds wide
  exact (sized_panel bounds.1 (by omega)).append (sized_panel bounds.1 (by omega)) (by omega)

theorem sized_right (wide : 4 ≤ width) (high : 7 ≤ height) :
    Sized (width - leftWidth width) height
      (machinePanel (width - leftWidth width) (height - 5) v ++
        helpPanel (width - leftWidth width) 5) := by
  have bounds := leftWidth_bounds wide
  exact (sized_panel (by omega) (by omega)).append (sized_panel (by omega) (by omega)) (by omega)

theorem sized_draw (wide : 4 ≤ width) (high : 7 ≤ height) :
    Sized width height (draw width height v) := by
  have bounds := leftWidth_bounds wide
  exact (sized_left wide high).zipWith (sized_right wide high) (by omega)

/-- **Which panel shows a position of a frame.** -/
theorem at?_draw (wide : 4 ≤ width) (high : 7 ≤ height) :
    at? (draw width height v) column row =
      if column < leftWidth width then
        if row < height - 3 then
          at? (gamePanel (leftWidth width) (height - 3) v.game.screen) column row
        else at? (statusPanel (leftWidth width) 3 v.status) column (row - (height - 3))
      else
        if row < height - 5 then
          at? (machinePanel (width - leftWidth width) (height - 5) v) (column - leftWidth width) row
        else
          at? (helpPanel (width - leftWidth width) 5) (column - leftWidth width)
            (row - (height - 5)) := by
  have bounds := leftWidth_bounds wide
  have game : Sized (leftWidth width) (height - 3)
      (gamePanel (leftWidth width) (height - 3) v.game.screen) := sized_panel bounds.1 (by omega)
  have machine : Sized (width - leftWidth width) (height - 5)
      (machinePanel (width - leftWidth width) (height - 5) v) := sized_panel (by omega) (by omega)
  rw [← game.at?_append, ← machine.at?_append]
  exact (sized_left wide high).at?_zipWith (sized_right wide high)

/-- A box in which a panel of its size is shown is intact. -/
theorem Box.intact_of_shows {box : Box} {frame : List (List Spot)} {ground : Color}
    {lines : List (List Spot)} (block : List (List Spot))
    (isPanel : block = panel box.width box.height box.color ground box.title lines)
    (large : 2 ≤ box.width ∧ 2 ≤ box.height)
    (shows : ∀ column row, column < box.width → row < box.height →
      at? frame (box.column + column) (box.row + row) = at? block column row) :
    box.Intact frame := by
  intro column row c hc hr isBorder
  rw [shows column row hc hr, isPanel, at?_panel hc hr large.1 large.2, isBorder]

/-- **Every box of a frame is intact.** -/
theorem intact_of_mem_boxes (wide : 4 ≤ width) (high : 7 ≤ height) {box : Box}
    (mem : box ∈ boxes width height (leftWidth width) v.game.screen) :
    box.Intact (draw width height v) := by
  have bounds := leftWidth_bounds wide
  simp only [boxes, List.mem_cons, List.not_mem_nil, or_false] at mem
  rcases mem with rfl | rfl | rfl | rfl
  · refine Box.intact_of_shows (gamePanel (leftWidth width) (height - 3) v.game.screen) rfl
      ⟨by dsimp only; omega, by dsimp only; omega⟩ fun column row hc hr => ?_
    dsimp only at hc hr ⊢
    rw [at?_draw wide high, if_pos (by omega), if_pos (by omega), Nat.zero_add, Nat.zero_add]
  · refine Box.intact_of_shows (statusPanel (leftWidth width) 3 v.status) rfl
      ⟨by dsimp only; omega, by dsimp only; omega⟩ fun column row hc hr => ?_
    dsimp only at hc hr ⊢
    rw [at?_draw wide high, if_pos (by omega), if_neg (by omega), Nat.zero_add,
      Nat.add_sub_cancel_left]
  · refine Box.intact_of_shows (machinePanel (width - leftWidth width) (height - 5) v) rfl
      ⟨by dsimp only; omega, by dsimp only; omega⟩ fun column row hc hr => ?_
    dsimp only at hc hr ⊢
    rw [at?_draw wide high, if_neg (by omega), if_pos (by omega),
      Nat.add_sub_cancel_left, Nat.zero_add]
  · refine Box.intact_of_shows (helpPanel (width - leftWidth width) 5) rfl
      ⟨by dsimp only; omega, by dsimp only; omega⟩ fun column row hc hr => ?_
    dsimp only at hc hr ⊢
    rw [at?_draw wide high, if_neg (by omega), if_neg (by omega), Nat.add_sub_cancel_left,
      Nat.add_sub_cancel_left]

/-- **Outside the box of the status a frame does not depend on the status.** -/
theorem at?_draw_status (wide : 4 ≤ width) (high : 7 ≤ height) (status : ViewerStatus)
    (outside : ¬ (1 ≤ column ∧ column + 1 < leftWidth width ∧ row + 2 = height)) :
    at? (draw width height { v with status }) column row =
      at? (draw width height v) column row := by
  have bounds := leftWidth_bounds wide
  by_cases inFrame : column < width ∧ row < height
  · rw [at?_draw wide high, at?_draw wide high]
    split
    · split
      · rfl
      · -- The panel of the status is the only one that differs, and only within its border.
        rw [statusPanel, statusPanel, at?_panel (by omega) (by omega) bounds.1 (by omega),
          at?_panel (by omega) (by omega) bounds.1 (by omega)]
        cases isBorder : border? (leftWidth width) 3 " Status " column (row - (height - 3)) with
        | some c => rfl
        | none =>
          have := inside_of_border?_eq_none isBorder
          omega
    · rfl
  · rw [(sized_draw wide high).at?_eq_none inFrame, (sized_draw wide high).at?_eq_none inFrame]

end Draw

/-! ## The tiles -/

/-- **What the tiles look like**: glyph, colour, and whether they are bold. -/
inductive Looks : Tile → Spot → Prop
  | empty : Looks .empty { glyph := ' ', color := .reset, bold := false }
  | wall : Looks .wall { glyph := '|', color := .gray, bold := false }
  | block : Looks .block { glyph := '=', color := .magenta, bold := false }
  | paddle : Looks .paddle { glyph := '-', color := .green, bold := true }
  | ball : Looks .ball { glyph := 'o', color := .yellow, bold := true }

theorem looks_tile (t : Tile) : Looks t (tile t) := by
  cases t <;> constructor

namespace Looks
variable {t : Tile} {spot spot' : Spot}

/-- A tile has one look. -/
theorem unique (looks : Looks t spot) (looks' : Looks t spot') : spot = spot' := by
  cases looks <;> cases looks' <;> rfl

theorem glyph (looks : Looks t spot) : spot.glyph = t.glyph := by
  cases looks <;> rfl

end Looks

section Tiles
variable {s : Screen} {events : List Event} {x y : Nat}

theorem sized_rows (s : Screen) : Sized s.width s.height s.rows where
  rows_length := s.length_rows
  row_length _ mem := Screen.length_of_mem_rows mem

/-- **Rows and blanks beyond them show the tiles**, since there is no tile beyond the rows. -/
theorem tile_at?_rows (books : s.Books events) (hx : x < 2 ^ 63) (hy : y < 2 ^ 63) :
    (at? (s.rows.map (·.map tile)) x y).getD {} =
      tile (s.tileAt (Int64.ofNat x) (Int64.ofNat y)) := by
  have column : (Int64.ofNat x).toInt = x := Int64.toInt_ofNat_of_lt hx
  have row : (Int64.ofNat y).toInt = y := Int64.toInt_ofNat_of_lt hy
  rw [at?_map]
  by_cases within : s.Within (Int64.ofNat x) (Int64.ofNat y)
  · have there := books.rows_tile within
    rw [column, row, Int.toNat_natCast, Int.toNat_natCast] at there
    rw [at?, there]
    rfl
  · have nothing : s.tileAt (Int64.ofNat x) (Int64.ofNat y) = .empty :=
      Decidable.not_not.mp (mt books.within_of_ne_empty within)
    rw [(sized_rows s).at?_eq_none, nothing]
    · rfl
    · unfold Screen.Within at within
      omega

end Tiles

/-! ## The statement -/

/-- **The frame of a viewer shows its game, and no panel reaches another one.** -/
structure Faithful (width height left : Nat) (v : Viewer) (frame : List (List Spot)) : Prop where
  sized : Sized width height frame
  /-- Every position of the game's panel shows the tile that is there, whether the screen is smaller
  than the panel or larger. -/
  tiles : ∀ x y, x < left - 2 → y < height - 5 → ∃ spot, at? frame (x + 1) (y + 1) = some spot ∧
    Looks (v.game.screen.tileAt (Int64.ofNat x) (Int64.ofNat y)) spot ∧
    spot.glyph = (v.game.screen.tileAt (Int64.ofNat x) (Int64.ofNat y)).glyph
  borders : ∀ box ∈ boxes width height left v.game.screen, box.Intact frame
  /-- Another status is seen in the box of the status only. -/
  status : ∀ status column row, ¬ (1 ≤ column ∧ column + 1 < left ∧ row + 2 = height) →
    at? (draw width height { v with status }) column row = at? frame column row

theorem faithful_of_large {width height : Nat} {v : Viewer} {events : List Event}
    (wide : 4 ≤ width) (high : 7 ≤ height) (narrow : width < 2 ^ 63) (low : height < 2 ^ 63)
    (books : v.game.screen.Books events) :
    Faithful width height (leftWidth width) v (draw width height v) where
  sized := sized_draw wide high
  tiles x y hx hy := by
    have bounds := leftWidth_bounds wide
    have looks := looks_tile (v.game.screen.tileAt (Int64.ofNat x) (Int64.ofNat y))
    refine ⟨_, ?_, looks, looks.glyph⟩
    rw [at?_draw wide high, if_pos (by omega), if_pos (by omega), gamePanel,
      at?_panel (by omega) (by omega) bounds.1 (by omega), border?_inside (by omega) (by omega)]
    exact congrArg some (tile_at?_rows books (by omega) (by omega))
  borders _ mem := intact_of_mem_boxes wide high mem
  status status _ _ outside := at?_draw_status wide high status outside

/-- A tile is seen as it looks, whatever the status. -/
theorem Faithful.sees {width height left x y : Nat} {v : Viewer} {frame : List (List Spot)}
    {t : Tile} {spot : Spot} (faithful : Faithful width height left v frame)
    (status : ViewerStatus) (hx : x < left - 2) (hy : y < height - 5)
    (there : v.game.screen.tileAt (Int64.ofNat x) (Int64.ofNat y) = t) (looks : Looks t spot) :
    at? (draw width height { v with status }) (x + 1) (y + 1) = some spot := by
  obtain ⟨spot', shown, looks', -⟩ := faithful.tiles x y hx hy
  rw [there] at looks'
  rw [faithful.status status _ _ (by omega), shown, looks'.unique looks]

/-- The sizes of terminals, each with the width of the left panels. -/
def terminals : List (Nat × Nat × Nat) := [(80, 24, 56), (120, 40, 84), (40, 16, 28)]

/-- **A terminal shows the game as it is**, whatever the viewer shows besides it. -/
theorem frame_faithful {width height left : Nat} (size : (width, height, left) ∈ terminals)
    (v : Viewer) (drawn : v.game.Drawn) : Faithful width height left v (draw width height v) := by
  obtain ⟨events, drawn⟩ := drawn
  have books := drawn ▸ Screen.books_foldl events
  have large : 4 ≤ width ∧ 7 ≤ height ∧ width < 2 ^ 63 ∧ height < 2 ^ 63 ∧
      left = leftWidth width := by
    simp only [terminals, List.mem_cons, Prod.mk.injEq, List.not_mem_nil, or_false] at size
    unfold leftWidth
    omega
  obtain ⟨wide, high, narrow, low, rfl⟩ := large
  exact faithful_of_large wide high narrow low books

end Frame

/-! ## Viewers that are operated -/

/-- **Whatever is done with a viewer**, its screen is what events have drawn. -/
theorem Viewer.Operated.drawn {program : List Cell} {freePlay : Bool} {operations : List Operation}
    {v : Viewer} (operated : Operated program freePlay operations v) : v.game.Drawn := by
  obtain ⟨answers, watched⟩ := operated_iff.mp operated
  refine watched.stands.game.drawn ⟨[], ?_⟩
  cases freePlay <;> rfl

/-- The five tiles are seen side by side, and an error that is longer than the box of the status does
not change them. -/
theorem Frame.faithful_five_tiles :
    ∃ v, Viewer.Operated [104, 0, 104, 0, 104, 1, 104, 1, 104, 0, 104, 2, 104, 2, 104, 0, 104, 3,
        104, 3, 104, 0, 104, 4, 104, 4, 104, 0, 104, 0, 99] false [.toggleRunning, .tick] v ∧
      Faithful 40 16 28 v (draw 40 16 v) ∧
      ∃ frame, frame = draw 40 16 { v with status := .failed (.fault (.notRunning .halted)) } ∧
        at? frame 1 1 = some { glyph := '|', color := .gray, bold := false } ∧
        at? frame 2 1 = some { glyph := '=', color := .magenta, bold := false } ∧
        at? frame 3 1 = some { glyph := '-', color := .green, bold := true } ∧
        at? frame 4 1 = some { glyph := 'o', color := .yellow, bold := true } ∧
        at? frame 5 1 = some { glyph := ' ', color := .reset, bold := false } := by
  have ticked : ((Viewer.load [104, 0, 104, 0, 104, 1, 104, 1, 104, 0, 104, 2, 104, 2, 104, 0, 104,
      3, 104, 3, 104, 0, 104, 4, 104, 4, 104, 0, 104, 0, 99] false).toggleRunning.perform
      .tick 8).map (fun v =>
        let s := v.game.screen
        (s.tileAt 0 0, s.tileAt 1 0, s.tileAt 2 0, s.tileAt 3 0, s.tileAt 4 0)) =
      some (.wall, .block, .paddle, .ball, .empty) := by decide
  obtain ⟨v, tick, tiles⟩ := Option.map_eq_some_iff.mp ticked
  simp only [Prod.mk.injEq] at tiles
  obtain ⟨wall, block, paddle, ball, empty⟩ := tiles
  have operated := (Viewer.Operated.load.perform (o := .toggleRunning) ⟨0, rfl⟩).perform
    (o := .tick) ⟨8, tick⟩
  have faithful : Faithful 40 16 28 v (draw 40 16 v) :=
    frame_faithful (by decide) v operated.drawn
  refine ⟨v, operated, faithful, _, rfl, ?_, ?_, ?_, ?_, ?_⟩
  · exact faithful.sees _ (by decide) (by decide) wall .wall
  · exact faithful.sees _ (by decide) (by decide) block .block
  · exact faithful.sees _ (by decide) (by decide) paddle .paddle
  · exact faithful.sees _ (by decide) (by decide) ball .ball
  · exact faithful.sees _ (by decide) (by decide) empty .empty

end IntcodeMachine
