import IntcodeMachine.Text.Pieces

/-! # Pieces, lines and trimmed text

What the cuts of a text are, apart from how they are found.  The pieces of a text
are those of `List.splitOn`, so that they joined again give the text
(`List.intercalate_splitOn`), and texts that have been joined can be told apart again
(`intercalate_inj`).  Its lines are described by `Lines`, from line end to line end, and
what is left of a text without the blanks around it by `Trims`.  Both relations are
functions, those that `lines` and `trim` compute (`lines_iff`, `trims_iff`).
-/
namespace IntcodeMachine.Text

variable {text line rest item : List Char} {c : Char}

/-! ## Pieces -/

theorem extendFirst_eq_modifyHead {found : List (List Char)} (h : found ≠ []) :
    extendFirst c found = found.modifyHead (List.cons c) := by
  cases found with
  | nil => contradiction
  | cons first found => rfl

theorem pieces_eq_splitOn (separator : Char) (text : List Char) :
    pieces separator text = text.splitOn separator := by
  induction text with
  | nil => rfl
  | cons c text ih =>
    simp only [pieces_cons, ih, List.splitOn_eq_splitOnP, List.splitOnP_cons_eq_if_modifyHead]
    by_cases h : c = separator
    · simp [h]
    · rw [if_neg h, if_neg (by simp [h]),
        extendFirst_eq_modifyHead (List.splitOnP_ne_nil _ _)]

theorem pieces_of_not_mem {separator : Char} (h : separator ∉ text) :
    pieces separator text = [text] := by
  calc
    pieces separator text = ([separator].intercalate [text]).splitOn separator := by
      rw [pieces_eq_splitOn, List.intercalate_singleton]
    _ = [text] := List.splitOn_intercalate separator (by simpa using h) (by simp)

/-- The first piece ends at the first separator. -/
theorem pieces_append_cons {separator : Char} (h : separator ∉ text) (rest : List Char) :
    pieces separator (text ++ separator :: rest) = text :: pieces separator rest := by
  rw [pieces_eq_splitOn, List.splitOn_eq_splitOnP, List.splitOnP_append_cons _ _ (by simp),
    ← List.splitOn_eq_splitOnP, ← List.splitOn_eq_splitOnP, ← pieces_eq_splitOn,
    ← pieces_eq_splitOn, pieces_of_not_mem h]
  rfl

/-- What comes before the first separator is decided by the text. -/
theorem before_first_inj {text' rest' : List Char} (h : c ∉ text) (h' : c ∉ text')
    (same : text ++ c :: rest = text' ++ c :: rest') : text = text' := by
  have pieces := congrArg (pieces c) same
  rw [pieces_append_cons h, pieces_append_cons h'] at pieces
  exact (List.cons.inj pieces).1

theorem intercalate_cons (separator first : List Char) (more : List (List Char)) :
    separator.intercalate (first :: more) = first ++ more.flatMap (separator ++ ·) := by
  induction more generalizing first with
  | nil => rw [List.intercalate_singleton, List.flatMap_nil, List.append_nil]
  | cons next more ih =>
    rw [List.intercalate_cons_cons, ih, List.flatMap_cons, List.append_assoc, List.append_assoc]

/-- Texts that are joined by a separator and something after it are the pieces between the
separators, with that in front of all but the first. -/
theorem pieces_intercalate {gap first : List Char} {more : List (List Char)} (h : c ∉ gap)
    (inner : ∀ text ∈ first :: more, c ∉ text) :
    pieces c ((c :: gap).intercalate (first :: more)) = first :: more.map (gap ++ ·) := by
  rw [intercalate_cons]
  induction more generalizing first with
  | nil =>
    rw [List.flatMap_nil, List.append_nil]
    exact pieces_of_not_mem (inner first List.mem_cons_self)
  | cons next more ih =>
    simp only [List.forall_mem_cons] at inner ih
    have next_inner : c ∉ gap ++ next := by simp [h, inner.2.1]
    rw [List.flatMap_cons, List.cons_append, List.cons_append, pieces_append_cons inner.1,
      ih ⟨next_inner, inner.2.2⟩]
    rfl

/-- **Joined texts can be told apart**, if no separator is in them. -/
theorem intercalate_inj {gap first first' : List Char} {more more' : List (List Char)}
    (h : c ∉ gap) (inner : ∀ text ∈ first :: more, c ∉ text)
    (inner' : ∀ text ∈ first' :: more', c ∉ text)
    (same : (c :: gap).intercalate (first :: more) = (c :: gap).intercalate (first' :: more')) :
    first :: more = first' :: more' := by
  have pieces := congrArg (pieces c) same
  rw [pieces_intercalate h inner, pieces_intercalate h inner'] at pieces
  obtain ⟨rfl, rest⟩ := List.cons.inj pieces
  rw [(List.map_inj_right fun _ _ => List.append_cancel_left).mp rest]

/-! ## Lines -/

/-- **The lines of a text.**  A line ends at a line feed, or at a carriage return and a line feed,
or with the text if this does not end at a line end. -/
inductive Lines : List Char → List (List Char) → Prop
  | nil : Lines [] []
  | last {line : List Char} (inner : '\n' ∉ line) (some : line ≠ []) : Lines line [line]
  | feed {line rest : List Char} {more : List (List Char)} (inner : '\n' ∉ line)
      (bare : line.getLast? ≠ some '\r') (lines : Lines rest more) :
      Lines (line ++ '\n' :: rest) (line :: more)
  | returnFeed {line rest : List Char} {more : List (List Char)} (inner : '\n' ∉ line)
      (lines : Lines rest more) : Lines (line ++ '\r' :: '\n' :: rest) (line :: more)

theorem chomp_of_bare (bare : line.getLast? ≠ some '\r') : chomp line = line := if_neg bare

theorem chomp_append_return (line : List Char) : chomp (line ++ ['\r']) = line := by
  rw [chomp, if_pos (by simp), List.dropLast_concat]

/-- What `chomp` takes away is nothing or a carriage return. -/
theorem chomp_cases (line : List Char) :
    (chomp line = line ∧ line.getLast? ≠ some '\r') ∨ line = chomp line ++ ['\r'] := by
  by_cases h : line.getLast? = some '\r'
  · obtain ⟨before, rfl⟩ := List.getLast?_eq_some_iff.mp h
    exact .inr (by rw [chomp_append_return])
  · exact .inl ⟨chomp_of_bare h, h⟩

theorem lines_of_not_mem (inner : '\n' ∉ line) (some : line ≠ []) : lines line = [line] := by
  simp [lines, pieces_of_not_mem inner, some]

theorem lines_append_feed (inner : '\n' ∉ line) (rest : List Char) :
    lines (line ++ '\n' :: rest) = chomp line :: lines rest := by
  obtain ⟨first, more, h⟩ := List.exists_cons_of_ne_nil (pieces_ne_nil '\n' rest)
  simp [lines, pieces_append_cons inner, h]

/-- A text is one line without a line feed, or such a line in front of the rest of the text. -/
@[elab_as_elim]
theorem induction_lines {P : List Char → Prop} (text : List Char)
    (last : ∀ line, '\n' ∉ line → P line)
    (feed : ∀ line rest, '\n' ∉ line → P rest → P (line ++ '\n' :: rest)) : P text := by
  induction h : text.length using Nat.strongRecOn generalizing text with
  | ind n ih =>
    subst h
    by_cases mem : '\n' ∈ text
    · obtain ⟨line, rest, rfl, inner⟩ := List.eq_append_cons_of_mem mem
      exact feed line rest inner (ih rest.length (by simp; omega) rest rfl)
    · exact last text mem

/-- Every text has the lines that are found in it. -/
theorem lines_lines (text : List Char) : Lines text (lines text) := by
  induction text using induction_lines with
  | last line inner =>
    by_cases none : line = []
    · exact none ▸ .nil
    · exact lines_of_not_mem inner none ▸ .last inner none
  | feed line rest inner lines =>
    rw [lines_append_feed inner]
    rcases chomp_cases line with ⟨h, bare⟩ | h
    · rw [h]
      exact .feed inner bare lines
    · have inner' : '\n' ∉ chomp line := fun mem => inner (by rw [h]; simp [mem])
      have := Lines.returnFeed inner' lines
      rwa [← List.singleton_append, ← List.append_assoc, ← h] at this

theorem Lines.eq_lines {found : List (List Char)} (h : Lines text found) : lines text = found := by
  induction h with
  | nil => rfl
  | last inner some => exact lines_of_not_mem inner some
  | feed inner bare _ ih => rw [lines_append_feed inner, chomp_of_bare bare, ih]
  | @returnFeed line rest _ inner _ ih =>
    have inner' : '\n' ∉ line ++ ['\r'] := by simp [inner]
    have := lines_append_feed inner' rest
    rwa [List.append_assoc, List.singleton_append, chomp_append_return, ih] at this

/-- **A text has exactly one sequence of lines.** -/
theorem lines_iff {found : List (List Char)} : Lines text found ↔ lines text = found :=
  ⟨Lines.eq_lines, fun h => h ▸ lines_lines text⟩

/-! ## Blanks at the ends -/

/-- There is nothing in the text but blanks. -/
abbrev AllBlank (text : List Char) : Prop := ∀ c ∈ text, isBlank c = true

theorem allBlank_nil : AllBlank [] := fun _ h => by cases h

theorem allBlank_of_all (h : text.all isBlank = true) : AllBlank text := List.all_eq_true.mp h

theorem AllBlank.reverse (blank : AllBlank text) : AllBlank text.reverse :=
  fun c h => blank c (List.mem_reverse.mp h)

/-- **`item` is the text without the blanks at its ends.** -/
def Trims (text item : List Char) : Prop :=
  ∃ before after, text = before ++ item ++ after ∧ AllBlank before ∧ AllBlank after ∧
    (∀ c, item.head? = some c → isBlank c = false) ∧
    ∀ c, item.getLast? = some c → isBlank c = false

theorem trimStart_append {before : List Char} (blank : AllBlank before) (text : List Char) :
    trimStart (before ++ text) = trimStart text :=
  List.dropWhile_append_of_pos blank

theorem trimStart_of_head? (h : ∀ c, text.head? = some c → isBlank c = false) :
    trimStart text = text := by
  cases text with
  | nil => rfl
  | cons c text => exact List.dropWhile_cons_of_neg (by simp [h c rfl])

/-- The blanks at the start of a text, and the rest, which does not start with one. -/
theorem exists_trimStart (text : List Char) :
    ∃ before, text = before ++ trimStart text ∧ AllBlank before ∧
      ∀ c, (trimStart text).head? = some c → isBlank c = false := by
  refine ⟨text.takeWhile isBlank, List.takeWhile_append_dropWhile.symm, fun c h => ?_,
    fun c h => ?_⟩
  · exact List.all_eq_true.mp List.all_takeWhile c h
  · have := List.head?_dropWhile_not isBlank text
    rw [trimStart] at h
    rwa [h] at this

theorem trimEnd_eq_reverse (text : List Char) : trimEnd text = (trimStart text.reverse).reverse :=
  rfl

theorem trimEnd_append {after : List Char} (blank : AllBlank after) (text : List Char) :
    trimEnd (text ++ after) = trimEnd text := by
  rw [trimEnd_eq_reverse, List.reverse_append, trimStart_append blank.reverse]
  rfl

theorem trimEnd_of_getLast? (h : ∀ c, text.getLast? = some c → isBlank c = false) :
    trimEnd text = text := by
  rw [trimEnd_eq_reverse, trimStart_of_head? (by simpa using h), List.reverse_reverse]

theorem exists_trimEnd (text : List Char) :
    ∃ after, text = trimEnd text ++ after ∧ AllBlank after ∧
      ∀ c, (trimEnd text).getLast? = some c → isBlank c = false := by
  obtain ⟨before, split, blank, head⟩ := exists_trimStart text.reverse
  refine ⟨before.reverse, ?_, blank.reverse, fun c h => head c ?_⟩
  · rw [trimEnd_eq_reverse, ← List.reverse_append, ← split, List.reverse_reverse]
  · rwa [trimEnd_eq_reverse, List.getLast?_reverse] at h

theorem trim_eq_nil_of_blank (blank : AllBlank text) : trim text = [] := by
  have := trimStart_append blank []
  rw [List.append_nil] at this
  rw [trim, this]
  rfl

/-- The text that is left begins and ends with no blank. -/
theorem trims_trim (text : List Char) : Trims text (trim text) := by
  obtain ⟨before, split, blank, head⟩ := exists_trimStart text
  obtain ⟨after, split', blank', last⟩ := exists_trimEnd (trimStart text)
  refine ⟨before, after, ?_, blank, blank', fun c h => head c ?_, last⟩
  · rw [trim, List.append_assoc, ← split', ← split]
  · -- The start of a text stays when something is cut off its end.
    rw [trim] at h
    rw [split', List.head?_append, h]
    rfl

theorem Trims.eq_trim (h : Trims text item) : trim text = item := by
  obtain ⟨before, after, rfl, blank, blank', head, last⟩ := h
  cases item with
  | nil =>
    refine trim_eq_nil_of_blank fun c h => ?_
    rw [List.append_nil, List.mem_append] at h
    exact h.elim (blank c) (blank' c)
  | cons d item =>
    have start : trimStart (d :: item ++ after) = d :: item ++ after :=
      trimStart_of_head? fun c h => head c h
    rw [trim, List.append_assoc, trimStart_append blank, start, trimEnd_append blank',
      trimEnd_of_getLast? last]

/-- **A text has exactly one rest without blanks at its ends.** -/
theorem trims_iff : Trims text item ↔ trim text = item :=
  ⟨Trims.eq_trim, fun h => h ▸ trims_trim text⟩

/-- Nothing is left of a text exactly if it is all blank. -/
theorem trim_eq_nil_iff : trim text = [] ↔ AllBlank text := by
  constructor
  · intro h
    obtain ⟨before, after, split, blank, blank', -⟩ := trims_trim text
    rw [h, List.append_nil] at split
    intro c hc
    rw [split, List.mem_append] at hc
    exact hc.elim (blank c) (blank' c)
  · exact trim_eq_nil_of_blank

end IntcodeMachine.Text
