import IntcodeMachine.Listing
import IntcodeMachine.Proofs.Text.Literal
import IntcodeMachine.Proofs.Text.Pieces
import Mathlib.Data.List.Forall2

/-! # The grammar of listings

What a source is cut into is said by relations: its lines without the comments give
the body (`Body`), and what stands between the commas of the body, without the
blanks around it, are the items (`Items`), where an empty one after the last comma
does not count.  Every source has one body and one sequence of items.

`parse` then has three answers (`Answers`): there is nothing but blanks; or all
items are literals of cells, and the cells are the image; or the first item that is
no such literal is reported with its position.  Both of the latter are read off
`readItems` by induction on the items (`readItems_eq_ok`, `readItems_eq_error`).
-/
namespace IntcodeMachine.Listing

open Text Decimal

variable {source text line : List Char} {found : List (List Char)}

/-! ## From source to items -/

/-- The first character of the line that is not blank is `#`. -/
def Comment (line : List Char) : Prop :=
  ∃ before after, line = before ++ '#' :: after ∧ AllBlank before

theorem isComment_iff : isComment line = true ↔ Comment line := by
  rw [isComment, beq_iff_eq]
  constructor
  · intro h
    obtain ⟨before, split, blank, -⟩ := exists_trimStart line
    obtain ⟨after, rest⟩ := List.head?_eq_some_iff.mp h
    exact ⟨before, after, by rw [← rest]; exact split, blank⟩
  · rintro ⟨before, after, rfl, blank⟩
    rw [trimStart_append blank]
    rfl

instance (line : List Char) : Decidable (Comment line) := decidable_of_iff _ isComment_iff

/-- **The body of a source**: the lines that are not comments, joined by line feeds. -/
def Body (source text : List Char) : Prop :=
  ∃ found, Lines source found ∧ text = ['\n'].intercalate (found.filter fun line => ¬ Comment line)

/-- **The items of a body**: what stands between commas, without the blanks around it. If the last
of them is empty, it is none. -/
def Items (text : List Char) (items : List (List Char)) : Prop :=
  ∃ trimmed, List.Forall₂ Trims (text.splitOn ',') trimmed ∧
    (trimmed = items ++ [[]] ∨ trimmed = items ∧ trimmed.getLast? ≠ some [])

theorem filter_comment (found : List (List Char)) :
    (found.filter fun line => ¬ Comment line) = found.filter (!isComment ·) := by
  refine List.filter_congr fun line _ => ?_
  rw [Bool.eq_iff_iff]
  simp [← isComment_iff]

theorem body_iff : Body source text ↔ body source = text := by
  unfold Body body
  constructor
  · rintro ⟨found, lines, rfl⟩
    rw [lines_iff.mp lines, filter_comment]
  · rintro rfl
    exact ⟨lines source, lines_iff.mpr rfl, by rw [filter_comment]⟩

theorem forall₂_trims_iff {texts : List (List Char)} :
    List.Forall₂ Trims texts found ↔ texts.map trim = found := by
  induction texts generalizing found with
  | nil => simp [eq_comm]
  | cons text texts ih => cases found <;> simp [ih, trims_iff]

theorem items_iff {its : List (List Char)} (body : body source = text) :
    Items text its ↔ items source = its := by
  unfold Items items
  simp only [forall₂_trims_iff, body, pieces_eq_splitOn]
  constructor
  · rintro ⟨trimmed, rfl, h | ⟨h, last⟩⟩
    · rw [h, List.getLast?_concat, if_pos rfl, List.dropLast_concat]
    · rw [if_neg last, h]
  · intro h
    refine ⟨_, rfl, ?_⟩
    split at h
    · rename_i last
      obtain ⟨before, split⟩ := List.getLast?_eq_some_iff.mp last
      rw [split, List.dropLast_concat] at h
      exact .inl (h ▸ split)
    · rename_i last
      exact .inr ⟨h, last⟩

/-- **There is no item exactly if the body is all blank.** -/
theorem items_eq_nil_iff : items source = [] ↔ AllBlank (body source) := by
  have only : (pieces ',' (body source)).map trim = [[]] ↔ AllBlank (body source) := by
    rw [← trim_eq_nil_iff]
    constructor
    · intro h
      obtain ⟨piece, single, blank⟩ := List.map_eq_singleton_iff.mp h
      have joined : [','].intercalate ((body source).splitOn ',') = body source :=
        List.intercalate_splitOn ','
      rw [← pieces_eq_splitOn, single] at joined
      rw [← joined]
      simpa using blank
    · intro h
      -- A blank text has no comma, hence one piece.
      have none : ',' ∉ body source := fun comma =>
        absurd (trim_eq_nil_iff.mp h ',' comma) (by decide)
      rw [pieces_of_not_mem none, List.map_singleton, h]
  rw [← only]
  have some : (pieces ',' (body source)).map trim ≠ [] := by simp [pieces_ne_nil]
  unfold items
  simp only
  split
  · rename_i last
    obtain ⟨before, split⟩ := List.getLast?_eq_some_iff.mp last
    rw [split, List.dropLast_concat]
    cases before <;> simp
  · rename_i last
    exact iff_of_false some fun h => last (by rw [h]; rfl)

/-! ## From items to an image -/

/-- The item is the literal of a cell. -/
def IsCell (item : List Char) : Prop := ∃ cell : Cell, Literal item cell.toInt

/-- The items are the literals of these cells, one after the other. -/
def Denote (items : List (List Char)) (image : List Cell) : Prop :=
  List.Forall₂ (fun item cell => Literal item cell.toInt) items image

theorem isCell_of_read {item : List Char} {cell : Cell} (h : read item = .ok cell) : IsCell item :=
  ⟨cell, read_eq_ok.mp h⟩

theorem not_isCell_iff {item : List Char} :
    ¬ IsCell item ↔ ∃ cause, read item = .error cause := by
  constructor
  · intro h
    cases result : read item with
    | ok cell => exact absurd (isCell_of_read result) h
    | error cause => exact ⟨cause, rfl⟩
  · rintro ⟨cause, h⟩ ⟨cell, literal⟩
    rw [read_eq_ok.mpr literal] at h
    cases h

/-- **The items are read if all are literals of cells.** -/
theorem readItems_eq_ok {before image : List Cell} {position : Nat} {its : List (List Char)} :
    readItems before position its = .ok image ↔
      ∃ cells, Denote its cells ∧ image = before.reverse ++ cells := by
  unfold Denote
  induction its generalizing before position with
  | nil => simp [readItems, eq_comm]
  | cons item its ih =>
    rw [readItems]
    cases result : read item with
    | error cause =>
      refine iff_of_false (fun h => by cases h) ?_
      rintro ⟨cells, denote, -⟩
      cases denote with
      | cons literal _ => exact not_isCell_iff.mpr ⟨cause, result⟩ ⟨_, literal⟩
    | ok cell =>
      simp only [ih, List.reverse_cons, List.append_assoc, List.singleton_append]
      constructor
      · rintro ⟨cells, denote, rfl⟩
        exact ⟨cell :: cells, .cons (read_eq_ok.mp result) denote, rfl⟩
      · rintro ⟨cells, denote, rfl⟩
        cases denote with
        | @cons _ other _ cells literal denote =>
          obtain rfl : cell = other :=
            Except.ok.inj (result.symm.trans (read_eq_ok.mpr literal))
          exact ⟨cells, denote, rfl⟩

/-- **Otherwise the first item that is not decides**, with its position. -/
theorem readItems_eq_error {cells : List Cell} {position : Nat} {its : List (List Char)}
    {e : ListingError} :
    readItems cells position its = .error e ↔
      ∃ before item after cause, its = before ++ item :: after ∧ (∀ i ∈ before, IsCell i) ∧
        read item = .error cause ∧ e = .notInteger (position + before.length) item cause := by
  induction its generalizing cells position with
  | nil => simp [readItems]
  | cons first its ih =>
    rw [readItems]
    cases result : read first with
    | error cause =>
      simp only [Except.error.injEq]
      constructor
      · rintro rfl
        exact ⟨[], first, its, cause, rfl, by simp, result, rfl⟩
      · rintro ⟨before, item, after, cause', split, cells, failed, rfl⟩
        cases before with
        | nil =>
          obtain ⟨rfl, -⟩ := List.cons.inj split
          cases result.symm.trans failed
          rfl
        | cons i before =>
          obtain ⟨rfl, -⟩ := List.cons.inj split
          exact absurd (cells first List.mem_cons_self) (not_isCell_iff.mpr ⟨cause, result⟩)
    | ok cell =>
      simp only [ih]
      constructor
      · rintro ⟨before, item, after, cause, rfl, cells, failed, rfl⟩
        refine ⟨first :: before, item, after, cause, rfl, ?_, failed, ?_⟩
        · exact List.forall_mem_cons.mpr ⟨isCell_of_read result, cells⟩
        · rw [List.length_cons, Nat.add_assoc, Nat.add_comm 1]
      · rintro ⟨before, item, after, cause, split, cells, failed, rfl⟩
        cases before with
        | nil =>
          obtain ⟨rfl, -⟩ := List.cons.inj split
          cases result.symm.trans failed
        | cons i before =>
          obtain ⟨rfl, rfl⟩ := List.cons.inj split
          refine ⟨before, item, after, cause, rfl, ?_, failed, ?_⟩
          · exact (List.forall_mem_cons.mp cells).2
          · rw [List.length_cons, Nat.add_assoc, Nat.add_comm 1]

/-! ## The statement -/

theorem parse_of_items_eq_nil {source : String} (h : items source.toList = []) :
    parse source = .error .empty := by
  rw [parse, h]

theorem parse_of_items {source : String} (h : items source.toList ≠ []) :
    parse source = readItems [] 1 (items source.toList) := by
  unfold parse
  split
  · contradiction
  · rfl

/-- **What a listing with this body and these items is read as.** -/
structure Answers (text : List Char) (items : List (List Char))
    (result : Except ListingError (List Cell)) : Prop where
  /-- There is nothing but blanks. -/
  empty : result = .error .empty ↔ AllBlank text
  /-- All items are literals of cells, and these are the image. -/
  accepted : ∀ image, result = .ok image ↔
    (∃ c ∈ text, isBlank c = false) ∧ Denote items image
  /-- The item at this position, counted from one, is the first that is no literal of a cell. -/
  refused : ∀ position item, (∃ cause, result = .error (.notInteger position item cause)) ↔
    ∃ before after, items = before ++ item :: after ∧ position = before.length + 1 ∧
      (∀ i ∈ before, IsCell i) ∧ ¬ IsCell item
  /-- There is no other answer. -/
  total : result = .error .empty ∨ (∃ image, result = .ok image) ∨
    ∃ position item cause, result = .error (.notInteger position item cause)

theorem answers_parse (source : String) :
    Answers (body source.toList) (items source.toList) (parse source) := by
  have nonblank : (∃ c ∈ body source.toList, isBlank c = false) ↔ items source.toList ≠ [] := by
    rw [Ne, items_eq_nil_iff]
    simp
  by_cases none : items source.toList = []
  · rw [parse_of_items_eq_nil none, none]
    refine ⟨iff_of_true rfl (items_eq_nil_iff.mp none), fun image => ?_, fun position item => ?_,
      .inl rfl⟩
    · exact iff_of_false (fun h => by cases h) fun h => nonblank.mp h.1 none
    · refine iff_of_false (fun ⟨_, h⟩ => by cases h) fun ⟨before, after, h, _⟩ => ?_
      simp at h
  · rw [parse_of_items none]
    refine ⟨?_, fun image => ?_, fun position item => ?_, ?_⟩
    · rw [← items_eq_nil_iff, readItems_eq_error]
      refine iff_of_false ?_ none
      rintro ⟨_, _, _, _, -, -, -, h⟩
      cases h
    · rw [readItems_eq_ok, nonblank]
      simp [none]
    · simp only [readItems_eq_error, not_isCell_iff]
      constructor
      · rintro ⟨cause, before, _, after, _, split, cells, failed, h⟩
        cases h
        exact ⟨before, after, split, Nat.add_comm .., cells, cause, failed⟩
      · rintro ⟨before, after, split, rfl, cells, cause, failed⟩
        exact ⟨cause, before, item, after, cause, split, cells, failed, by rw [Nat.add_comm]⟩
    · cases result : readItems [] 1 (items source.toList) with
      | ok image => exact .inr (.inl ⟨image, rfl⟩)
      | error e =>
        obtain ⟨_, item, _, cause, -, -, -, rfl⟩ := readItems_eq_error.mp result
        exact .inr (.inr ⟨_, item, cause, rfl⟩)

/-- **A listing is read by its grammar.**  It has one body and one sequence of items, and these
decide the answer: empty, the image whose cells the items are literals of, or the first item that is
no literal of a cell. -/
theorem parse_follows_grammar (source : String) :
    (∃ text items, Body source.toList text ∧ Items text items) ∧
      ∀ text items, Body source.toList text → Items text items →
        Answers text items (parse source) := by
  constructor
  · exact ⟨_, _, body_iff.mpr rfl, (items_iff rfl).mpr rfl⟩
  · intro text its body_eq items_eq
    have body_eq := body_iff.mp body_eq
    obtain rfl := (items_iff body_eq).mp items_eq
    exact body_eq ▸ answers_parse source

/-- The commas of the comment are not counted, and the sign and the zero of the third item are no
offence. -/
theorem grammar_refuses_fourth_item :
    let text := "1, +2,\n-03,x,4".toList
    let items := ["1".toList, "+2".toList, "-03".toList, "x".toList, "4".toList]
    Body "# 9,9\n1, +2,\r\n-03,x,4".toList text ∧ Items text items ∧
      ∃ cause, parse "# 9,9\n1, +2,\r\n-03,x,4" = .error (.notInteger 4 "x".toList cause) := by
  intro text items
  have body : Body "# 9,9\n1, +2,\r\n-03,x,4".toList text := body_iff.mpr (by decide)
  have cut : Items text items := (items_iff (body_iff.mp body)).mpr (by decide)
  have answers := (parse_follows_grammar "# 9,9\n1, +2,\r\n-03,x,4").2 text items body cut
  refine ⟨body, cut, (answers.refused 4 "x".toList).mpr ?_⟩
  refine ⟨items.take 3, ["4".toList], rfl, rfl, ?_, ?_⟩
  · have cells : (items.take 3).all (fun i => (read i).isOk) = true := by decide
    intro i hi
    have := List.all_eq_true.mp cells i hi
    cases h : read i with
    | ok cell => exact isCell_of_read h
    | error cause =>
      rw [h] at this
      cases this
  · exact not_isCell_iff.mpr ⟨.invalidDigit, by decide⟩

end IntcodeMachine.Listing
