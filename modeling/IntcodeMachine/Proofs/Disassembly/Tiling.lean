import IntcodeMachine.Proofs.Disassembly.Execution
import IntcodeMachine.Proofs.Listing.Rendering

/-! # A disassembly accounts for every cell

The listing of an image goes through it with a stride that the cells decide, and
its last instruction may reach beyond the end.  Nevertheless its lines tile the
image (`Tiles`): they follow on from each other, and their cells, one line after
the other, are the image.  The sweep is described by a relation with one case for
each of its rounds (`Sweeps`), from which all this is read off by induction.

The cells can be found again in the text, because the only semicolon of a line is
the one in front of them (`row_eq`): no text of an entry contains one, nor a line
end (`plain_entry`).  So the image can be read back from the listing of any image
(`readBack`), and different images have different listings.
-/
namespace IntcodeMachine.Disassembly

variable {m : Memory} {address : Nat} {image cells : List Cell} {ls : List Line} {l : Line}

/-! ## The sweep -/

/-- **The lines of a sweep** through cells, the first of which has an address. -/
inductive Sweeps (m : Memory) : Nat → List Cell → List Line → Prop
  | done (address : Nat) : Sweeps m address [] []
  | line {address : Nat} {cells : List Cell} {ls : List Line} (some : cells ≠ [])
      (rest : Sweeps m (address + (entryAt m address).width)
        (cells.drop (entryAt m address).width) ls) :
      Sweeps m address cells
        (⟨address, entryAt m address, cells.take (entryAt m address).width⟩ :: ls)

theorem sweep_sweeps (found : List Line) (address : Nat) (cells : List Cell) :
    ∃ ls, sweep m found address cells = found.reverse ++ ls ∧ Sweeps m address cells ls := by
  fun_induction sweep m found address cells with
  | case1 found address => exact ⟨[], (List.append_nil _).symm, .done address⟩
  | case2 found address cell cells entry ih =>
    obtain ⟨ls, swept, sweeps⟩ := ih
    refine ⟨_, ?_, .line (List.cons_ne_nil _ _) sweeps⟩
    rw [swept, List.reverse_cons, List.append_assoc]
    rfl

namespace Sweeps

theorem address_eq (sweeps : Sweeps m address cells ls) (first : ls.head? = some l) :
    l.address = address := by
  cases sweeps with
  | done => cases first
  | line =>
    cases first
    rfl

theorem chain (sweeps : Sweeps m address cells ls) :
    ls.IsChain fun l l' => l'.address = l.address + l.entry.width := by
  induction sweeps with
  | done => exact .nil
  | @line address cells ls _ rest ih =>
    cases ls with
    | nil => exact .singleton _
    | cons l' ls => exact .cons_cons (rest.address_eq rfl) ih

theorem entry_eq (sweeps : Sweeps m address cells ls) (mem : l ∈ ls) :
    l.entry = entryAt m l.address := by
  induction sweeps with
  | done => cases mem
  | line _ _ ih =>
    rcases List.mem_cons.mp mem with rfl | mem
    · rfl
    · exact ih mem

theorem cells_ne_nil (sweeps : Sweeps m address cells ls) (mem : l ∈ ls) : l.cells ≠ [] := by
  induction sweeps with
  | done => cases mem
  | @line address cells _ some _ ih =>
    rcases List.mem_cons.mp mem with rfl | mem
    · have := (entryAt m address).width_pos
      simp only [ne_eq, List.take_eq_nil_iff, not_or]
      exact ⟨by omega, some⟩
    · exact ih mem

/-- The cells of a line are those at its address, as far as there are any. -/
theorem cells_eq (sweeps : Sweeps m address cells ls) (here : cells = image.drop address)
    (mem : l ∈ ls) : l.cells = (image.drop l.address).take l.entry.width := by
  induction sweeps with
  | done => cases mem
  | line _ _ ih =>
    rcases List.mem_cons.mp mem with rfl | mem
    · rw [here]
    · exact ih (by rw [here, List.drop_drop]) mem

theorem flatMap_cells (sweeps : Sweeps m address cells ls) : ls.flatMap Line.cells = cells := by
  induction sweeps with
  | done => rfl
  | line _ _ ih => rw [List.flatMap_cons, ih, List.take_append_drop]

/-- There are not more lines than cells. -/
theorem length_le (sweeps : Sweeps m address cells ls) : ls.length ≤ cells.length := by
  induction sweeps with
  | done => exact Nat.le_refl _
  | @line address cells _ some _ ih =>
    have := (entryAt m address).width_pos
    have := List.length_pos_iff.mpr some
    rw [List.length_drop] at ih
    rw [List.length_cons]
    omega

end Sweeps

/-- **The lines tile the image.** -/
structure Tiles (image : List Cell) (ls : List Line) : Prop where
  /-- The first line is at address zero, -/
  first : ∀ l, ls.head? = some l → l.address = 0
  /-- and each line is followed by the one after its entry. -/
  next : ls.IsChain fun l l' => l'.address = l.address + l.entry.width
  /-- A line shows the entry at its address, -/
  entry : ∀ l ∈ ls, l.entry = entryAt (.ofImage image) l.address
  /-- and takes the cells that the entry takes, as far as the image has them. -/
  cells : ∀ l ∈ ls, l.cells = (image.drop l.address).take l.entry.width
  /-- No cell is left out, and none is taken twice. -/
  all : ls.flatMap Line.cells = image
  /-- The sweep ends. -/
  length : ls.length ≤ image.length

theorem lines_sweeps (image : List Cell) : Sweeps (.ofImage image) 0 image (lines image) := by
  obtain ⟨ls, swept, sweeps⟩ := sweep_sweeps (m := .ofImage image) [] 0 image
  rw [lines, swept]
  exact sweeps

theorem tiles_lines (image : List Cell) : Tiles image (lines image) := by
  have sweeps := lines_sweeps image
  exact
    { first := fun _ => sweeps.address_eq
      next := sweeps.chain
      entry := fun _ => sweeps.entry_eq
      cells := fun _ => sweeps.cells_eq rfl
      all := sweeps.flatMap_cells
      length := sweeps.length_le }

/-- What an entry of an image is made from: its cells, and zeros after its end. -/
theorem cellAt_ofImage (image : List Cell) {address : Nat} (h : address < Memory.addressCount) :
    cellAt (.ofImage image) address = image.getD address 0 := by
  have small : (UInt64.ofNat address).toNat = address :=
    UInt64.toNat_ofNat_of_lt' (Nat.lt_trans h (by decide))
  rw [cellAt, if_pos h, Memory.cellAt_ofImage image (small.symm ▸ h), small]

/-! ## Text without semicolons and line ends -/

/-- There is neither a semicolon nor a line end in the text. -/
def Plain (text : List Char) : Prop := ∀ c ∈ text, c ≠ ';' ∧ c ≠ '\n' ∧ c ≠ '\r'

instance (text : List Char) : Decidable (Plain text) := List.decidableBAll ..

theorem Plain.append {text text' : List Char} (h : Plain text) (h' : Plain text') :
    Plain (text ++ text') :=
  fun c hc => (List.mem_append.mp hc).elim (h c) (h' c)

theorem plain_digits (n : Nat) : Plain (Decimal.digits n) := by
  intro c hc
  have digit := Nat.isDigit_of_mem_toDigits (by decide) (by decide) hc
  refine ⟨?_, ?_, ?_⟩ <;> rintro rfl <;> cases digit

theorem plain_replicate {c : Char} (h : Plain [c]) (n : Nat) : Plain (List.replicate n c) := by
  intro d hd
  rw [List.eq_of_mem_replicate hd]
  exact h c List.mem_cons_self

theorem plain_chars (n : Int) : Plain (Decimal.chars n) := by
  unfold Decimal.chars
  split
  · have sign : Plain ['-'] := by decide
    exact sign.append (plain_digits _)
  · exact plain_digits _

theorem plain_cell (c : Cell) : Plain c.text.toList := by
  rw [Cell.text, Decimal.text, String.toList_ofList]
  exact plain_chars _

theorem plain_decimal_padded (width n : Nat) : Plain (Decimal.padded width n) :=
  (plain_replicate (by decide) _).append (plain_digits n)

theorem plain_padded {text : String} (h : Plain text.toList) (width : Nat) :
    Plain (padded width text).toList := by
  rw [toList_padded]
  exact h.append (plain_replicate (by decide) _)

theorem plain_intercalate {separator : List Char} (h : Plain separator) {texts : List (List Char)}
    (plain : ∀ text ∈ texts, Plain text) : Plain (separator.intercalate texts) := by
  induction texts with
  | nil => exact fun _ hc => by cases hc
  | cons text texts ih =>
    have plain := List.forall_mem_cons.mp plain
    cases texts with
    | nil =>
      rw [List.intercalate_singleton]
      exact plain.1
    | cons next more =>
      rw [List.intercalate_cons_cons]
      exact (plain.1.append h).append (ih plain.2)

theorem plain_bracketed {opening text : String} (h : Plain opening.toList)
    (h' : Plain text.toList) : Plain (opening ++ text ++ "]").toList := by
  rw [String.toList_append, String.toList_append]
  exact (h.append h').append (by decide)

theorem plain_operand (o : Operand) : Plain o.text.toList := by
  unfold Operand.text
  split
  · exact plain_bracketed (by decide) (plain_cell _)
  · exact plain_cell _
  · split
    · refine plain_bracketed (by decide) ?_
      rw [Decimal.text, String.toList_ofList]
      exact plain_chars _
    · exact plain_bracketed (by decide) (plain_cell _)

theorem plain_entry (e : Entry) : Plain e.text.toList := by
  cases e with
  | data raw =>
    rw [Entry.text, String.toList_append]
    exact Plain.append (by decide) (plain_cell raw)
  | instruction opcode operands =>
    have mnemonic : Plain opcode.mnemonic.toList := by cases opcode <;> decide
    rw [text_instruction]
    split
    · exact mnemonic
    · rw [String.toList_append, String.toList_intercalate]
      refine (plain_padded mnemonic 4).append (plain_intercalate (by decide) ?_)
      simpa using fun o _ => plain_operand o

theorem plain_format (cells : List Cell) : Plain (Listing.format cells).toList := by
  rw [Listing.format, String.toList_intercalate]
  refine plain_intercalate (by decide) ?_
  simpa using fun c _ => plain_cell c

/-! ## Rows -/

/-- A line without the line feed at its end: address, entry and cells. -/
def Line.row (l : Line) : List Char :=
  Decimal.padded 5 l.address ++ ": ".toList ++ (padded 24 l.entry.text).toList ++ " ; ".toList ++
    (Listing.format l.cells).toList

theorem toList_text (l : Line) : l.text.toList = l.row ++ ['\n'] := by
  simp [Line.text, Line.row, Listing.format]

/-- What stands after the first semicolon of a row. -/
def afterSemicolon (row : List Char) : List Char := (row.dropWhile (· ≠ ';')).tail

/-- **A row has one semicolon, and the cells stand after it.** -/
theorem row_eq (l : Line) : ∃ before, Plain before ∧
    l.row = before ++ ';' :: ' ' :: (Listing.format l.cells).toList := by
  refine ⟨Decimal.padded 5 l.address ++ ": ".toList ++ (padded 24 l.entry.text).toList ++ [' '],
    ?_, ?_⟩
  · have colon : Plain ": ".toList := by decide
    have address := (plain_decimal_padded 5 l.address).append colon
    exact (address.append (plain_padded (plain_entry _) 24)).append (by decide)
  · simp [Line.row]

theorem Plain.not_mem {text : List Char} (h : Plain text) :
    ';' ∉ text ∧ '\n' ∉ text ∧ '\r' ∉ text :=
  ⟨fun mem => (h _ mem).1 rfl, fun mem => (h _ mem).2.1 rfl, fun mem => (h _ mem).2.2 rfl⟩

theorem count_row (l : Line) : l.row.count ';' = 1 := by
  obtain ⟨before, plain, h⟩ := row_eq l
  rw [h, List.count_append, List.count_eq_zero.mpr plain.not_mem.1, List.count_cons_self,
    List.count_cons_of_ne (by decide), List.count_eq_zero.mpr (plain_format l.cells).not_mem.1]

theorem afterSemicolon_row (l : Line) :
    afterSemicolon l.row = ' ' :: (Listing.format l.cells).toList := by
  obtain ⟨before, plain, h⟩ := row_eq l
  rw [afterSemicolon, h, List.dropWhile_append_of_pos]
  · simp
  · intro c hc
    simpa using (plain c hc).1

/-- The lines of the text are the rows. -/
theorem lines_flatMap_row (ls : List Line) :
    Text.lines (ls.flatMap fun l => l.text.toList) = ls.map Line.row := by
  induction ls with
  | nil => rfl
  | cons l ls ih =>
    obtain ⟨before, plain, h⟩ := row_eq l
    have inner : '\n' ∉ l.row := by
      simp [h, plain.not_mem.2.1, (plain_format l.cells).not_mem.2.1]
    have bare : l.row.getLast? ≠ some '\r' := by
      intro last
      have mem := List.mem_of_getLast? last
      simp [h, plain.not_mem.2.2, (plain_format l.cells).not_mem.2.2] at mem
    rw [List.flatMap_cons, toList_text, List.append_assoc, List.singleton_append,
      Text.lines_append_feed inner, Text.chomp_of_bare bare, ih, List.map_cons]

/-! ## Reading a listing back -/

/-- The cells after the semicolon are a listing of the line's cells. -/
theorem parse_row (some : l.cells ≠ []) :
    Listing.parse (String.ofList (afterSemicolon l.row)) = .ok l.cells := by
  have spread := Listing.spread_format some Text.allBlank_nil
  rw [List.append_nil] at spread
  refine Listing.parse_of_renders ⟨_, spread.cons_blank (c := ' ') (by decide), ?_⟩
  rw [String.toList_ofList, afterSemicolon_row]
  exact .refl _

/-- The cells after the semicolons in the rows of a listing, one row after the other. -/
def readBack (text : String) : Option (List Cell) :=
  ((Text.lines (text.toList.drop header.length)).mapM fun row =>
    (Listing.parse (String.ofList (afterSemicolon row))).toOption).map List.flatten

theorem lines_listing (image : List Cell) :
    Text.lines ((listing image).toList.drop header.length) = (lines image).map Line.row := by
  rw [listing, String.toList_append, List.drop_left' String.length_toList, String.toList_join,
    List.flatMap_map]
  exact lines_flatMap_row _

/-- **An image can be read back from its listing.** -/
theorem readBack_listing (image : List Cell) : readBack (listing image) = some image := by
  have sweeps := lines_sweeps image
  have rows : (lines image).mapM ((fun row =>
      (Listing.parse (String.ofList (afterSemicolon row))).toOption) ∘ Line.row) =
      some ((lines image).map Line.cells) := by
    refine mapM_eq_some_map fun l mem => ?_
    rw [Function.comp_apply, parse_row (sweeps.cells_ne_nil mem)]
    rfl
  rw [readBack, lines_listing, List.mapM_map, rows, Option.map_some, ← List.flatMap_def,
    sweeps.flatMap_cells]

/-! ## The statement -/

/-- **A disassembly accounts for every cell of an image.**  After its header there is one row for
each of the lines that tile the image, which show what its memory has at their addresses, and zeros
after its end.  The cells after the only semicolon of a row are those of its line, so the image is
read back from the text, and no other image has the same listing. -/
theorem listing_accounts (image : List Cell) :
    ∃ ls : List Line,
      Tiles image ls ∧
      (∀ address, address < Memory.addressCount →
        cellAt (.ofImage image) address = image.getD address 0) ∧
      (∃ rest, listing image = header ++ rest ∧ Text.lines rest.toList = ls.map Line.row) ∧
      (∀ l ∈ ls, l.row.count ';' = 1 ∧
        Listing.parse (String.ofList (afterSemicolon l.row)) = .ok l.cells) ∧
      readBack (listing image) = some image ∧
      ∀ image', listing image' = listing image → image' = image := by
  have sweeps := lines_sweeps image
  refine ⟨lines image, tiles_lines image, fun _ => cellAt_ofImage image, ⟨_, rfl, ?_⟩,
    fun l mem => ⟨count_row l, parse_row (sweeps.cells_ne_nil mem)⟩, readBack_listing image, ?_⟩
  · rw [String.toList_join, List.flatMap_map]
    exact lines_flatMap_row _
  · intro image' same
    have read := readBack_listing image'
    rw [same, readBack_listing image] at read
    exact (Option.some.inj read).symm

end IntcodeMachine.Disassembly
