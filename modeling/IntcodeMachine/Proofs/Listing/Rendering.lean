import IntcodeMachine.Proofs.Listing.Grammar

/-! # Every rendering of an image is read as that image

An image can be written in many ways: with signs, superfluous zeros, blanks around
the numbers and a comma at the end (`Spread`), and with comment lines put in at the
beginnings of lines (`Commented`).  All of them are read as the image
(`renderings_parse`), so the shortest one is, and the file it is saved in.

Comments are found line by line and items comma by comma, so neither structure is a
part of the other.  What links them is `Thinned`: to take the lines of a text and
join them again only takes blanks away, and comment lines leave nothing behind
(`thinned_body`).  A spread image stays one when blanks are taken away
(`Spread.thinned`), because no number has a blank in it.
-/
namespace IntcodeMachine.Listing

open Text Decimal

variable {text thin source line item piece : List Char} {image : List Cell} {cell : Cell} {c : Char}

/-! ## Renderings -/

/-- **The text is the integer in decimal**, with any number of zeros in front and, unless it is
negative, a plus sign if one likes. -/
def Written (n : Int) (item : List Char) : Prop :=
  ∃ sign zeros, item = sign ++ (List.replicate zeros '0' ++ Nat.toDigits 10 n.natAbs) ∧
    (n < 0 ∧ sign = ['-'] ∨ 0 ≤ n ∧ (sign = [] ∨ sign = ['+']))

/-- The text is the integer with any blanks around it. -/
def Padded (cell : Cell) (piece : List Char) : Prop :=
  ∃ before item after, piece = before ++ (item ++ after) ∧ Written cell.toInt item ∧
    AllBlank before ∧ AllBlank after

/-- **The text is the image without comments**: the integers, blanks around them, commas between
them, and possibly one at the end. -/
inductive Spread : List Cell → List Char → Prop
  | last {cell : Cell} {piece : List Char} (padded : Padded cell piece) : Spread [cell] piece
  | trailing {cell : Cell} {piece blanks : List Char} (padded : Padded cell piece)
      (blank : AllBlank blanks) : Spread [cell] (piece ++ ',' :: blanks)
  | cons {cell : Cell} {image : List Cell} {piece text : List Char} (padded : Padded cell piece)
      (rest : Spread image text) : Spread (cell :: image) (piece ++ ',' :: text)

/-- **The second text is the first one with comment lines put in** at the beginnings of lines or at
the end. -/
inductive Commented : List Char → List Char → Prop
  | rest {line : List Char} (inner : '\n' ∉ line) : Commented line line
  | line {line text source : List Char} (inner : '\n' ∉ line) (more : Commented text source) :
      Commented (line ++ '\n' :: text) (line ++ '\n' :: source)
  | comment {line text source : List Char} (inner : '\n' ∉ line) (comment : Comment line)
      (more : Commented text source) : Commented text (line ++ '\n' :: source)
  | lastComment {line : List Char} (inner : '\n' ∉ line) (comment : Comment line) :
      Commented [] line

/-- **The source is a rendering of the image.** -/
def Renders (image : List Cell) (source : List Char) : Prop :=
  ∃ text, Spread image text ∧ Commented text source

/-! ## Numbers -/

theorem not_blank_of_isDigit (h : c.isDigit = true) : isBlank c = false := by
  simp only [Char.isDigit, Bool.and_eq_true, decide_eq_true_eq] at h
  have lower : 48 ≤ c.toNat := UInt32.le_iff_toNat_le.mp h.1
  have upper : c.toNat ≤ 57 := UInt32.le_iff_toNat_le.mp h.2
  simp [isBlank]
  omega

theorem allDigits_zeros (zeros n : Nat) :
    AllDigits (List.replicate zeros '0' ++ Nat.toDigits 10 n) := by
  refine ⟨by simp [Nat.toDigits_ne_nil], fun d h => ?_⟩
  rcases List.mem_append.mp h with h | h
  · rw [List.eq_of_mem_replicate h]
    rfl
  · exact Nat.isDigit_of_mem_toDigits (by decide) (by decide) h

theorem ofDigitChars_zeros (zeros n : Nat) :
    Nat.ofDigitChars 10 (List.replicate zeros '0' ++ Nat.toDigits 10 n) 0 = n := by
  rw [Nat.ofDigitChars_append, Nat.ofDigitChars_replicate_zero, Nat.mul_zero,
    Nat.ofDigitChars_ten_toDigits]

/-- What is written is a literal. -/
theorem Written.literal {n : Int} (h : Written n item) : Literal item n := by
  obtain ⟨sign, zeros, rfl, ⟨negative, rfl⟩ | ⟨nonneg, rfl | rfl⟩⟩ := h
  · have := Literal.minus (allDigits_zeros zeros n.natAbs)
    rwa [ofDigitChars_zeros, show -(n.natAbs : Int) = n by omega] at this
  · have := Literal.unsigned (allDigits_zeros zeros n.natAbs)
    rwa [ofDigitChars_zeros, show (n.natAbs : Int) = n by omega] at this
  · have := Literal.plus (allDigits_zeros zeros n.natAbs)
    rwa [ofDigitChars_zeros, show (n.natAbs : Int) = n by omega] at this

/-- A literal has no blanks, commas or comment signs in it. -/
theorem solid_of_literal {n : Int} (h : Literal item n) :
    ∀ c ∈ item, isBlank c = false ∧ c ≠ ',' ∧ c ≠ '#' := by
  have digits : ∀ {ds}, AllDigits ds → ∀ c ∈ ds, isBlank c = false ∧ c ≠ ',' ∧ c ≠ '#' := by
    intro ds h c hc
    have digit := h.2 c hc
    refine ⟨not_blank_of_isDigit digit, ?_, ?_⟩ <;> rintro rfl <;> cases digit
  cases h with
  | unsigned h => exact digits h
  | plus h => exact List.forall_mem_cons.mpr ⟨by decide, digits h⟩
  | minus h => exact List.forall_mem_cons.mpr ⟨by decide, digits h⟩

theorem ne_nil_of_literal {n : Int} (h : Literal item n) : item ≠ [] := by
  cases h with
  | unsigned digits => exact digits.1
  | _ => exact List.cons_ne_nil _ _

/-! ## Taking blanks away -/

/-- **The second text is the first one without some of its blanks.** -/
inductive Thinned : List Char → List Char → Prop
  | nil : Thinned [] []
  | keep {text thin : List Char} (c : Char) (rest : Thinned text thin) :
      Thinned (c :: text) (c :: thin)
  | drop {text thin : List Char} {c : Char} (blank : isBlank c = true) (rest : Thinned text thin) :
      Thinned (c :: text) thin

theorem Thinned.refl (text : List Char) : Thinned text text := by
  induction text with
  | nil => exact .nil
  | cons c text ih => exact .keep c ih

theorem Thinned.append {text' thin' : List Char} (h : Thinned text thin)
    (h' : Thinned text' thin') : Thinned (text ++ text') (thin ++ thin') := by
  induction h with
  | nil => exact h'
  | keep c _ ih => exact .keep c ih
  | drop blank _ ih => exact .drop blank ih

theorem Thinned.exists_append {text' : List Char} (h : Thinned (text ++ text') thin) :
    ∃ left right, thin = left ++ right ∧ Thinned text left ∧ Thinned text' right := by
  induction text generalizing thin with
  | nil => exact ⟨[], thin, rfl, .nil, h⟩
  | cons c text ih =>
    cases h with
    | keep _ rest =>
      obtain ⟨left, right, rfl, first, second⟩ := ih rest
      exact ⟨c :: left, right, rfl, .keep c first, second⟩
    | drop blank rest =>
      obtain ⟨left, right, rfl, first, second⟩ := ih rest
      exact ⟨left, right, rfl, .drop blank first, second⟩

/-- A character that is no blank stays where it is. -/
theorem Thinned.exists_cons (h : Thinned (c :: text) thin) (solid : isBlank c = false) :
    ∃ rest, thin = c :: rest ∧ Thinned text rest := by
  cases h with
  | keep _ rest => exact ⟨_, rfl, rest⟩
  | drop blank =>
    rw [solid] at blank
    cases blank

theorem Thinned.allBlank (h : Thinned text thin) (blank : AllBlank text) : AllBlank thin := by
  induction h with
  | nil => exact blank
  | keep c _ ih =>
    have blank := List.forall_mem_cons.mp blank
    exact List.forall_mem_cons.mpr ⟨blank.1, ih blank.2⟩
  | drop _ _ ih => exact ih (List.forall_mem_cons.mp blank).2

theorem Thinned.eq_of_solid (h : Thinned text thin) (solid : ∀ c ∈ text, isBlank c = false) :
    thin = text := by
  induction h with
  | nil => rfl
  | keep c _ ih => rw [ih (List.forall_mem_cons.mp solid).2]
  | drop blank =>
    rw [(List.forall_mem_cons.mp solid).1] at blank
    cases blank

theorem thinned_chomp (line : List Char) : Thinned line (chomp line) := by
  rcases chomp_cases line with ⟨h, -⟩ | h
  · rw [h]
    exact .refl line
  · have : Thinned (chomp line ++ ['\r']) (chomp line ++ []) :=
      (Thinned.refl _).append (.drop (by decide) .nil)
    rwa [← h, List.append_nil] at this

theorem Padded.thinned (h : Padded cell piece) (thinned : Thinned piece thin) :
    Padded cell thin := by
  obtain ⟨before, item, after, rfl, written, blank, blank'⟩ := h
  obtain ⟨left, rest, rfl, first, thinned⟩ := thinned.exists_append
  obtain ⟨middle, right, rfl, second, third⟩ := thinned.exists_append
  obtain rfl := second.eq_of_solid fun c h => (solid_of_literal written.literal c h).1
  exact ⟨left, middle, right, rfl, written, first.allBlank blank, third.allBlank blank'⟩

/-- **A spread image stays one when blanks are taken away.** -/
theorem Spread.thinned (h : Spread image text) (thinned : Thinned text thin) :
    Spread image thin := by
  induction h generalizing thin with
  | last padded => exact .last (padded.thinned thinned)
  | trailing padded blank =>
    obtain ⟨left, rest, rfl, first, thinned⟩ := thinned.exists_append
    obtain ⟨right, rfl, second⟩ := thinned.exists_cons (by decide)
    exact .trailing (padded.thinned first) (second.allBlank blank)
  | cons padded _ ih =>
    obtain ⟨left, rest, rfl, first, thinned⟩ := thinned.exists_append
    obtain ⟨right, rfl, second⟩ := thinned.exists_cons (by decide)
    exact .cons (padded.thinned first) (ih second)

/-! ## Comments -/

theorem AllBlank.not_mem (blank : AllBlank text) (solid : isBlank c = false) : c ∉ text := by
  intro h
  rw [blank c h] at solid
  cases solid

theorem Padded.not_mem (h : Padded cell piece) (solid : isBlank c = false)
    (sign : c = ',' ∨ c = '#') : c ∉ piece := by
  obtain ⟨before, item, after, rfl, written, blank, blank'⟩ := h
  intro mem
  rcases List.mem_append.mp mem with mem | mem
  · exact AllBlank.not_mem blank solid mem
  rcases List.mem_append.mp mem with mem | mem
  · have := solid_of_literal written.literal c mem
    exact sign.elim this.2.1 this.2.2
  · exact AllBlank.not_mem blank' solid mem

theorem Spread.no_comment (h : Spread image text) : '#' ∉ text := by
  induction h with
  | last padded => exact padded.not_mem (by decide) (.inr rfl)
  | trailing padded blank =>
    have := padded.not_mem (c := '#') (by decide) (.inr rfl)
    simp [this, AllBlank.not_mem blank (c := '#') (by decide)]
  | cons padded _ ih =>
    have := padded.not_mem (c := '#') (by decide) (.inr rfl)
    simp [this, ih]

theorem isComment_of_no_comment (h : '#' ∉ line) : isComment line = false := by
  rw [← Bool.not_eq_true, isComment_iff]
  rintro ⟨before, after, rfl, -⟩
  simp at h

/-- A comment is one with or without the carriage return at its end. -/
theorem Comment.chomp (h : Comment line) : Comment (chomp line) := by
  obtain ⟨before, after, rfl, blank⟩ := h
  rcases chomp_cases (before ++ '#' :: after) with ⟨h, -⟩ | h
  · rw [h]
    exact ⟨before, after, rfl, blank⟩
  · rcases List.eq_nil_or_concat after with rfl | ⟨after, d, rfl⟩
    · have := congrArg List.getLast? h
      simp at this
    · have : before ++ '#' :: after ++ [d] =
          Text.chomp (before ++ '#' :: after.concat d) ++ ['\r'] := by
        rw [← h]
        simp
      exact ⟨before, after, (List.append_inj_left' this rfl).symm, blank⟩

/-- The body of a source that begins with a comment line is that of the rest. -/
theorem body_comment (inner : '\n' ∉ line) (comment : Comment line) (source : List Char) :
    body (line ++ '\n' :: source) = body source := by
  rw [body, lines_append_feed inner, List.filter_cons_of_neg]
  · rfl
  · simp [isComment_iff.mpr comment.chomp]

theorem body_lastComment (inner : '\n' ∉ line) (comment : Comment line) : body line = [] := by
  have some : line ≠ [] := by
    obtain ⟨before, after, rfl, -⟩ := comment
    simp
  rw [body, lines_of_not_mem inner some, List.filter_cons_of_neg]
  · rfl
  · simp [isComment_iff.mpr comment]

/-- A line that is no comment is the first of the body. -/
theorem body_line (inner : '\n' ∉ line) (plain : '#' ∉ line) (source : List Char) :
    ∃ tail, body (line ++ '\n' :: source) = chomp line ++ tail ∧
      (tail = '\n' :: body source ∨ tail = [] ∧ body source = []) := by
  have no_comment : '#' ∉ chomp line := by
    rcases chomp_cases line with ⟨h, -⟩ | h
    · rwa [h]
    · exact fun mem => plain (h ▸ List.mem_append_left _ mem)
  rw [body, lines_append_feed inner,
    List.filter_cons_of_pos (by simp [isComment_of_no_comment no_comment])]
  cases h : (lines source).filter (!isComment ·) with
  | nil => exact ⟨[], by simp, .inr ⟨rfl, by rw [body, h]; rfl⟩⟩
  | cons next more =>
    refine ⟨'\n' :: body source, ?_, .inl rfl⟩
    rw [body, h, List.intercalate_cons_cons, List.append_assoc]
    rfl

theorem body_rest (inner : '\n' ∉ line) (plain : '#' ∉ line) : body line = line := by
  by_cases none : line = []
  · rw [none]
    rfl
  · rw [body, lines_of_not_mem inner none]
    simp [isComment_of_no_comment plain]

/-- **The body of a source with comments is the text without them, less some blanks.**  The
induction is on the lines. -/
theorem thinned_body (h : Commented text source) (plain : '#' ∉ text) :
    Thinned text (body source) := by
  induction h with
  | rest inner =>
    rw [body_rest inner plain]
    exact .refl _
  | @line line text source inner _ ih =>
    have plain : '#' ∉ line ∧ '#' ∉ text := by simpa using plain
    obtain ⟨tail, h, rfl | ⟨rfl, nothing⟩⟩ := body_line inner plain.1 source
    · rw [h]
      exact (thinned_chomp line).append (.keep '\n' (ih plain.2))
    · have := ih plain.2
      rw [nothing] at this
      rw [h]
      exact (thinned_chomp line).append (.drop (by decide) this)
  | comment inner comment _ ih =>
    rw [body_comment inner comment]
    exact ih plain
  | lastComment inner comment =>
    rw [body_lastComment inner comment]
    exact .nil

/-! ## Items -/

theorem Padded.exists_trims (h : Padded cell piece) :
    ∃ item, Trims piece item ∧ Literal item cell.toInt := by
  obtain ⟨before, item, after, rfl, written, blank, blank'⟩ := h
  have solid := solid_of_literal written.literal
  exact ⟨item, ⟨before, after, (List.append_assoc ..).symm, blank, blank',
    fun c h => (solid c (List.mem_of_head? h)).1, fun c h => (solid c (List.mem_of_getLast? h)).1⟩,
    written.literal⟩

/-- The pieces of a spread image are its integers and blanks. -/
theorem Spread.items (h : Spread image text) :
    ∃ its, Items text its ∧ Denote its image ∧ its ≠ [] := by
  induction h with
  | last padded =>
    obtain ⟨item, trims, literal⟩ := padded.exists_trims
    refine ⟨[item], ⟨[item], ?_, .inr ⟨rfl, ?_⟩⟩, .cons literal .nil, by simp⟩
    · rw [← pieces_eq_splitOn, pieces_of_not_mem (padded.not_mem (by decide) (.inl rfl))]
      exact .cons trims .nil
    · simpa using ne_nil_of_literal literal
  | trailing padded blank =>
    obtain ⟨item, trims, literal⟩ := padded.exists_trims
    refine ⟨[item], ⟨[item, []], ?_, .inl rfl⟩, .cons literal .nil, by simp⟩
    rw [← pieces_eq_splitOn, pieces_append_cons (padded.not_mem (by decide) (.inl rfl)),
      pieces_of_not_mem (AllBlank.not_mem blank (by decide))]
    exact .cons trims (.cons (trims_iff.mpr (trim_eq_nil_of_blank blank)) .nil)
  | cons padded _ ih =>
    obtain ⟨item, trims, literal⟩ := padded.exists_trims
    obtain ⟨its, ⟨trimmed, all, last⟩, denote, some⟩ := ih
    refine ⟨item :: its, ⟨item :: trimmed, ?_, ?_⟩, .cons literal denote, by simp⟩
    · rw [← pieces_eq_splitOn, pieces_append_cons (padded.not_mem (by decide) (.inl rfl)),
        pieces_eq_splitOn]
      exact .cons trims all
    · rcases last with rfl | ⟨rfl, last⟩
      · exact .inl rfl
      · refine .inr ⟨rfl, ?_⟩
        rwa [List.getLast?_cons_of_ne_nil some]

/-- **A rendering of an image is read as the image.** -/
theorem parse_of_renders {source : String} (h : Renders image source.toList) :
    parse source = .ok image := by
  obtain ⟨text, spread, commented⟩ := h
  have thinned := thinned_body commented spread.no_comment
  obtain ⟨its, cut, denote, some⟩ := (spread.thinned thinned).items
  rw [items_iff rfl] at cut
  rw [parse_of_items (cut ▸ some), cut, readItems_eq_ok]
  exact ⟨image, denote, rfl⟩

/-! ## Saved listings -/

/-- No comment need be put in. -/
theorem Commented.refl (text : List Char) : Commented text text := by
  induction text using induction_lines with
  | last line inner => exact .rest inner
  | feed line rest inner ih => exact .line inner ih

theorem written_chars (n : Int) : Written n (chars n) := by
  unfold chars
  by_cases negative : n < 0
  · rw [if_pos negative]
    exact ⟨['-'], 0, rfl, .inl ⟨negative, rfl⟩⟩
  · rw [if_neg negative]
    exact ⟨[], 0, rfl, .inr ⟨Int.not_lt.mp negative, .inl rfl⟩⟩

/-- The shortest listing, and with it any blanks at its end, is the image without comments. -/
theorem spread_format (some : image ≠ []) {blanks : List Char} (blank : AllBlank blanks) :
    Spread image ((format image).toList ++ blanks) := by
  have padded : ∀ (cell : Cell) after, AllBlank after →
      Padded cell (cell.text.toList ++ after) := by
    intro cell after blank
    refine ⟨[], chars cell.toInt, after, ?_, written_chars _, allBlank_nil, blank⟩
    rw [Cell.text, Decimal.text, String.toList_ofList]
    rfl
  unfold format
  rw [String.toList_intercalate]
  induction image with
  | nil => contradiction
  | cons cell image ih =>
    cases image with
    | nil => simpa using Spread.last (padded cell blanks blank)
    | cons next image =>
      have := Spread.cons (padded cell [] allBlank_nil) (ih (by simp))
      simpa [List.intercalate_cons_cons] using this

theorem Padded.cons_blank (h : Padded cell piece) (blank : isBlank c = true) :
    Padded cell (c :: piece) := by
  obtain ⟨before, item, after, rfl, written, blank', blank''⟩ := h
  exact ⟨c :: before, item, after, rfl, written, List.forall_mem_cons.mpr ⟨blank, blank'⟩, blank''⟩

/-- A blank in front of a spread image leaves it one. -/
theorem Spread.cons_blank (h : Spread image text) (blank : isBlank c = true) :
    Spread image (c :: text) := by
  cases h with
  | last padded => exact .last (padded.cons_blank blank)
  | trailing padded blank' => exact .trailing (padded.cons_blank blank) blank'
  | cons padded rest => exact .cons (padded.cons_blank blank) rest

theorem load_toUTF8 (source : String) : load (.ok source.toUTF8) = parse source := by
  have decodes : decodeText source.toUTF8 = .ok source := by
    rw [decodeText, String.fromUTF8?, String.toUTF8_eq_toByteArray, dif_pos source.isValidUTF8]
    rfl
  rw [load, Except.bind]
  simp only [decodes]

/-- **Whatever way an image is written, it is read again.**  Its shortest listing and the file this
is saved in are two ways among all its renderings.  The empty image alone has none. -/
theorem renderings_parse (image : List Cell) :
    (image ≠ [] →
      parse (format image) = .ok image ∧ load (.ok (file image).toUTF8) = .ok image ∧
        ∀ source : String, Renders image source.toList → parse source = .ok image) ∧
      (image = [] →
        parse (format image) = .error .empty ∧ load (.ok (file image).toUTF8) = .error .empty) := by
  refine ⟨fun some => ⟨?_, ?_, fun source h => parse_of_renders h⟩, ?_⟩
  · have spread := spread_format some allBlank_nil
    rw [List.append_nil] at spread
    exact parse_of_renders ⟨_, spread, .refl _⟩
  · have spread : Spread image ((format image).toList ++ ['\n']) := 
      spread_format some (allBlank_of_all rfl)
    rw [load_toUTF8]
    refine parse_of_renders ⟨_, spread, ?_⟩
    rw [file, String.toList_append]
    exact .refl _
  · rintro rfl
    rw [load_toUTF8]
    exact ⟨by decide, by decide⟩

/-- A rendering with comments before, between and after the numbers, two kinds of line ends, and
more signs, zeros, blanks and commas than are needed. -/
theorem rendering_with_three_comments :
    let source := "# 1, 2\r\n +003 ,\n  # 9,9\n\t-7\r\n,\n#"
    Renders [3, -7] source.toList ∧ parse source = .ok [3, -7] := by
  intro source
  have three : Padded 3 " +003 ".toList :=
    ⟨[' '], "+003".toList, [' '], by decide, ⟨['+'], 2, by decide, .inr ⟨by decide, .inr rfl⟩⟩,
      allBlank_of_all rfl, allBlank_of_all rfl⟩
  have seven : Padded (-7) "\n\t-7\r\n".toList :=
    ⟨"\n\t".toList, "-7".toList, "\r\n".toList, by decide,
      ⟨['-'], 0, by decide, .inl ⟨by decide, rfl⟩⟩, allBlank_of_all rfl, allBlank_of_all rfl⟩
  have spread : Spread [3, -7] " +003 ,\n\t-7\r\n,\n".toList :=
    .cons three (.trailing seven (allBlank_of_all rfl : AllBlank ['\n']))
  -- The lines of the source, from the last one to the first.
  have final : Commented [] ['#'] := .lastComment (by decide) ⟨[], [], rfl, allBlank_nil⟩
  have lines : Commented "\t-7\r\n,\n".toList "\t-7\r\n,\n#".toList :=
    .line (by decide : '\n' ∉ "\t-7\r".toList) (.line (by decide : '\n' ∉ [',']) final)
  have inner : Commented "\t-7\r\n,\n".toList "  # 9,9\n\t-7\r\n,\n#".toList :=
    .comment (by decide : '\n' ∉ "  # 9,9".toList)
      ⟨[' ', ' '], " 9,9".toList, by decide, allBlank_of_all rfl⟩ lines
  have outer : Commented " +003 ,\n\t-7\r\n,\n".toList
      " +003 ,\n  # 9,9\n\t-7\r\n,\n#".toList :=
    .line (by decide : '\n' ∉ " +003 ,".toList) inner
  have first : source.toList =
      "# 1, 2\r".toList ++ '\n' :: " +003 ,\n  # 9,9\n\t-7\r\n,\n#".toList := by decide
  have commented : Commented " +003 ,\n\t-7\r\n,\n".toList source.toList := by
    rw [first]
    exact .comment (by decide) ⟨[], " 1, 2\r".toList, by decide, allBlank_nil⟩ outer
  have renders : Renders [3, -7] source.toList := ⟨_, spread, commented⟩
  exact ⟨renders, ((renderings_parse [3, -7]).1 (by decide)).2.2 source renders⟩

end IntcodeMachine.Listing
