import IntcodeMachine.Proofs.Breakout.Bookkeeping
import IntcodeMachine.Proofs.Breakout.Sinks
import IntcodeMachine.Proofs.Text.Pieces

/-! # Reading a screen back from its text

The text of a screen has a line for every row and a last one for score and blocks.
Nobody who reads it is told how many rows there are, or how many columns; and an empty
screen, or one of blanks only, has little to go by.  Still `frame_reads_back` says that
the text tells all there is to know about the screen.

A text of lines that each end with a line feed has no other lines
(`Text.ended_injective`).  So a frame gives the lines of its screen, and these give the
rows, as glyphs are different, and the score, which ends at the first blank.  The width
of a screen without rows is zero, since what has been drawn has been drawn in some
column and some row.
-/
namespace IntcodeMachine

namespace Text
variable {lines lines' : List (List Char)}

/-- The text of lines that each end with a line feed. -/
def ended (lines : List (List Char)) : List Char := lines.flatMap (· ++ ['\n'])

theorem ended_cons (line : List Char) (lines : List (List Char)) :
    ended (line :: lines) = line ++ '\n' :: ended lines := by
  rw [ended, List.flatMap_cons, List.append_assoc]
  rfl

/-- What comes after the last line feed is empty. -/
theorem pieces_ended (inner : ∀ line ∈ lines, '\n' ∉ line) :
    pieces '\n' (ended lines) = lines ++ [[]] := by
  induction lines with
  | nil => rfl
  | cons line lines ih =>
    rw [List.forall_mem_cons] at inner
    rw [ended_cons, pieces_append_cons inner.1, ih inner.2]
    rfl

/-- **A text has one way to be lines with line feeds at their ends.** -/
theorem ended_injective (inner : ∀ line ∈ lines, '\n' ∉ line)
    (inner' : ∀ line ∈ lines', '\n' ∉ line) (same : ended lines = ended lines') :
    lines = lines' := by
  have pieces := congrArg (pieces '\n') same
  rw [pieces_ended inner, pieces_ended inner'] at pieces
  exact List.append_cancel_right pieces

end Text

namespace Screen
variable {s s' : Screen} {events events' : List Event} {clear : Bool}

/-! ## Lines -/

/-- The last line of a screen. -/
def footer (score : Cell) (blocks : Nat) : List Char :=
  ("Score: " ++ score.text ++ " Blocks remaining: " ++ Decimal.text blocks).toList

/-- The lines of a screen. -/
def lines (s : Screen) : List (List Char) :=
  s.rows.map (·.map Tile.glyph) ++ [footer s.score s.blocks]

theorem toList_frame (clear : Bool) (s : Screen) :
    (s.frame clear).toList =
      (if clear then clearSequence else "").toList ++ Text.ended s.lines := by
  rw [frame, String.toList_append, text]
  congr 1
  simp [Text.ended, lines, footer, glyphs, String.toList_join, List.flatMap_map]

theorem footer_eq (score : Cell) (blocks : Nat) :
    footer score blocks = "Score: ".toList ++ (Decimal.chars score.toInt ++
      ' ' :: ("Blocks remaining: ".toList ++ Decimal.chars blocks)) := by
  simp [footer, Cell.text, Decimal.text]

/-- **The score can be read off the last line**, whatever the number of blocks. -/
theorem score_eq_of_footer_eq {score score' : Cell} {blocks blocks' : Nat}
    (same : footer score blocks = footer score' blocks') : score = score' := by
  rw [footer_eq, footer_eq] at same
  have chars := Text.before_first_inj (Json.not_mem_chars (by decide) _)
    (Json.not_mem_chars (by decide) _) (List.append_cancel_left same)
  exact Int64.toInt_inj.mp (Json.chars_injective chars)

/-- There is no line feed inside a line. -/
theorem feed_not_mem_lines {line : List Char} (mem : line ∈ s.lines) : '\n' ∉ line := by
  rcases List.mem_append.mp mem with mem | mem
  · obtain ⟨row, -, rfl⟩ := List.mem_map.mp mem
    intro mem
    obtain ⟨tile, -, glyph⟩ := List.mem_map.mp mem
    cases tile <;> cases glyph
  · cases List.mem_singleton.mp mem
    rw [footer_eq]
    simp only [List.mem_append, List.mem_cons, not_or]
    exact ⟨by decide, Json.not_mem_chars (by decide) _, by decide, by decide,
      Json.not_mem_chars (by decide) _⟩

/-- **The blocks can be counted in the text.** -/
theorem count_glyphs (books : Books events s) :
    (s.rows.map (·.map Tile.glyph)).flatten.count '=' = s.blocks := by
  rw [← List.map_flatten, ← books.count_rows]
  exact List.count_map_of_injective _ _ (fun _ _ => Tile.glyph_injective) .block

theorem length_lines (s : Screen) : s.lines.length = s.height + 1 := by
  rw [lines, List.length_append, List.length_map, length_rows]
  rfl

theorem take_lines (s : Screen) : s.lines.take s.height = s.rows.map (·.map Tile.glyph) :=
  List.take_left' (by rw [List.length_map, length_rows])

/-- **A line shows the glyphs of a row.** -/
theorem lines_getElem? (books : Books events s) {y : Nat} (hy : y < s.height) :
    s.lines[y]? = some ((List.range s.width).map fun x =>
      (s.tileAt (Int64.ofNat x) (Int64.ofNat y)).glyph) := by
  have inRows : y < (s.rows.map (·.map Tile.glyph)).length := by
    rw [List.length_map, length_rows]
    exact hy
  rw [lines, List.getElem?_append_left inRows, List.getElem?_map, books.rows_eq,
    List.getElem?_map, List.getElem?_range hy]
  simp only [Option.map_some, List.map_map]
  rfl

/-! ## Screens that look the same -/

/-- **The screens have the same size, the same score, and the same tile everywhere.** -/
structure Alike (s s' : Screen) : Prop where
  width : s.width = s'.width
  height : s.height = s'.height
  score : s.score = s'.score
  tiles : ∀ x y, s.tileAt x y = s'.tileAt x y

/-- What has been drawn in a column has been drawn in a row. -/
theorem Books.width_eq_zero (books : Books events s) (none : s.height = 0) : s.width = 0 := by
  rcases books.width.2 with zero | ⟨x, y, drawn, -⟩
  · exact zero
  · have low : y.toInt < s.height := books.height.1 _ ⟨x, y, drawn, rfl⟩
    have visible : 0 ≤ y.toInt := drawn.1.2.1
    omega

/-- Screens that look the same have the same lines. -/
theorem Alike.lines_eq (alike : Alike s s') (books : Books events s) (books' : Books events' s') :
    s.lines = s'.lines := by
  have rows : s.rows = s'.rows := by
    rw [books.rows_eq, books'.rows_eq, alike.width, alike.height]
    simp only [alike.tiles]
  have blocks : s.blocks = s'.blocks := by
    rw [← books.count_rows, ← books'.count_rows, rows]
  rw [lines, lines, rows, blocks, alike.score]

/-- **Lines decide the screen** that they are the lines of. -/
theorem alike_of_lines_eq (books : Books events s) (books' : Books events' s')
    (same : s.lines = s'.lines) : Alike s s' := by
  obtain ⟨glyphs, last⟩ := List.append_inj' same
    (by rw [List.length_singleton, List.length_singleton])
  have rows : s.rows = s'.rows :=
    List.map_injective_iff.mpr (List.map_injective_iff.mpr fun _ _ => Tile.glyph_injective) glyphs
  have height : s.height = s'.height := by rw [← length_rows, ← length_rows, rows]
  have width : s.width = s'.width := by
    rcases Nat.eq_zero_or_pos s.height with none | some
    · rw [books.width_eq_zero none, books'.width_eq_zero (height ▸ none)]
    · obtain ⟨row, mem⟩ := List.exists_mem_of_length_pos (s.length_rows ▸ some)
      rw [← length_of_mem_rows mem, ← length_of_mem_rows (rows ▸ mem)]
  refine ⟨width, height, score_eq_of_footer_eq (List.singleton_inj.mp last), fun x y => ?_⟩
  have size : s.Within x y ↔ s'.Within x y := by rw [Within, Within, width, height]
  by_cases within : s.Within x y
  · have tile := books.rows_tile within
    rw [rows, books'.rows_tile (size.mp within)] at tile
    exact (Option.some.inj tile).symm
  · -- There is nothing outside of either screen.
    rw [Decidable.not_not.mp (mt books.within_of_ne_empty within),
      Decidable.not_not.mp (mt books'.within_of_ne_empty (mt size.mpr within))]

/-! ## The statement -/

/-- **The frame of a screen consists of these lines**, each with a line feed at its end and none
inside. -/
structure Printed (clear : Bool) (s : Screen) (lines : List (List Char)) : Prop where
  frame : (s.frame clear).toList =
    (if clear then clearSequence else "").toList ++ Text.ended lines
  inner : ∀ line ∈ lines, '\n' ∉ line
  length : lines.length = s.height + 1
  row : ∀ y < s.height, ∃ glyphs, lines[y]? = some glyphs ∧ glyphs.length = s.width ∧
    ∀ x < s.width, glyphs[x]? = some (s.tileAt (Int64.ofNat x) (Int64.ofNat y)).glyph
  /-- The last line tells the score, and how many block glyphs there are above it. -/
  last : lines[s.height]? =
    some (footer s.score ((lines.take s.height).flatten.count '='))

theorem Books.printed (books : Books events s) (clear : Bool) : Printed clear s s.lines where
  frame := toList_frame clear s
  inner _ mem := feed_not_mem_lines mem
  length := s.length_lines
  row y hy := by
    refine ⟨_, lines_getElem? books hy, by rw [List.length_map, List.length_range], fun x hx => ?_⟩
    rw [List.getElem?_map, List.getElem?_range hx]
    rfl
  last := by
    have below : (s.rows.map (·.map Tile.glyph)).length = s.height := by
      rw [List.length_map, length_rows]
    rw [take_lines, count_glyphs books, lines, List.getElem?_append_right (by omega), below,
      Nat.sub_self]
    rfl

theorem frame_eq_iff (books : Books events s) (books' : Books events' s') :
    s.frame clear = s'.frame clear ↔ Alike s s' := by
  constructor
  · intro same
    have texts := congrArg String.toList same
    rw [toList_frame, toList_frame] at texts
    exact alike_of_lines_eq books books' (Text.ended_injective (fun _ => feed_not_mem_lines)
      (fun _ => feed_not_mem_lines) (List.append_cancel_left texts))
  · intro alike
    refine String.toList_inj.mp ?_
    rw [toList_frame, toList_frame, alike.lines_eq books books']

/-- **A screen can be read back from its text.**  After any events the renderer writes a frame whose
lines are the rows and one for score and blocks, and two screens have the same frame exactly if they
look the same. -/
theorem frame_reads_back (clear : Bool) (events events' : List Event) :
    let s : Screen := events.foldl Screen.after {}
    let s' : Screen := events'.foldl Screen.after {}
    (∀ written, (Renderer.text clear).render { written } s =
      (.ok (), { written := written ++ s.frame clear })) ∧
    (∃ lines, Printed clear s lines) ∧
    (s.frame clear = s'.frame clear ↔ Alike s s') := by
  have books := books_foldl events
  have books' := books_foldl events'
  intro s s'
  exact ⟨fun written => Renderer.render_of_fits rfl (Sink.fits_of_unlimited rfl),
    ⟨s.lines, books.printed clear⟩, frame_eq_iff books books'⟩

/-- Two rows of two tiles. -/
example : ([.draw 0 0 .wall, .draw 1 0 .ball, .draw 0 1 .block, .draw 1 1 .paddle, .score 12].foldl
    Screen.after {}).frame false = "|o\n=-\nScore: 12 Blocks remaining: 1\n" := by decide

end Screen
end IntcodeMachine
