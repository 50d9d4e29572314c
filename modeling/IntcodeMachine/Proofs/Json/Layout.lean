import IntcodeMachine.Json.Writer
import IntcodeMachine.Proofs.Json.Numbers

/-! # Cutting a layout into lexemes

The text of a layout is cut into the lexemes of the layout again, in either style
(`lexemes?_layout`).  What can come between is a word that goes on: digits
followed by digits are one number.  A layout that may end in a word is therefore
`Readable`, cut correctly before any text that does not go on with a word, while
one that ends in something else is `Closed`, cut correctly before any text.
`Readable.append` puts a readable layout in front of a closed one that begins with
no word, and by it, going through the items from the first to the last, a list of
items with commas between them is closed by its bracket (`closed_intercalate`).

All this is about `Plain` values: their numbers are integers, and their strings
need no escapes.
-/
namespace IntcodeMachine.Json

/-- **Text that a string holds as it is**, with no character that has to be escaped. -/
def PlainText (text : List Char) : Prop := ∀ c ∈ text, c ≠ '"' ∧ c ≠ '\\' ∧ 0x20 ≤ c.toNat

instance (text : List Char) : Decidable (PlainText text) := List.decidableBAll _ text

theorem plainText_digits (n : Nat) : PlainText (Decimal.digits n) := by
  intro c h
  have digit := Char.isDigit_iff_toNat.mp (isDigit_of_mem_digits h)
  refine ⟨?_, ?_, by have : '0'.toNat = 0x30 := rfl; omega⟩
  · rintro rfl
    exact absurd digit (by decide)
  · rintro rfl
    exact absurd digit (by decide)

/-- **A value with no numbers but integers and no strings but plain ones.** -/
inductive Plain : Json → Prop
  | null : Plain .null
  | bool (value : Bool) : Plain (.bool value)
  | number (z : Int) : Plain (.number (Decimal.chars z))
  | string {text : List Char} (plain : PlainText text) : Plain (.string text)
  | array {items : List Json} (plain : ∀ v ∈ items, Plain v) : Plain (.array items)
  | object {fields : List (List Char × Json)} (keys : ∀ f ∈ fields, PlainText f.1)
      (plain : ∀ f ∈ fields, Plain f.2) : Plain (.object fields)

/-- The lexeme of a part, unless it is a gap. -/
def Part.lexeme? : Part → Option Lexeme
  | .gap _ => none
  | .lexeme l => some l

/-- The lexemes of a layout. -/
def lexemesOf (parts : List Part) : List Lexeme := parts.filterMap Part.lexeme?

/-- The text of a layout. -/
def charsOf (parts : List Part) : List Char := parts.flatMap Part.chars

/-- The text does not go on with a word. -/
def EndsWord (rest : List Char) : Prop := ∀ c ∈ rest.head?, isWordChar c = false

/-- **The layout is cut into its lexemes** before any text that goes on in this way. -/
def CutBefore (goesOn : List Char → Prop) (parts : List Part) : Prop :=
  ∀ found rest, goesOn rest →
    lexemesFrom .gap found (charsOf parts ++ rest) =
      lexemesFrom .gap ((lexemesOf parts).reverse ++ found) rest

/-- The layout is cut into its lexemes before any text that does not go on with a word. -/
abbrev Readable (parts : List Part) : Prop := CutBefore EndsWord parts

/-- The layout is cut into its lexemes before any text. -/
abbrev Closed (parts : List Part) : Prop := CutBefore (fun _ => True) parts

/-- The layout begins with something else than a word. -/
def Separates (parts : List Part) : Prop := ∀ rest, EndsWord (charsOf parts ++ rest)

variable {a b : List Part} {found : List Lexeme} {text rest : List Char}

/-! ## Single lexemes -/

theorem lexemesFrom_cons {state : Scan} {c : Char} :
    lexemesFrom state found (c :: rest) =
      match scan state c found with
      | some (state, found) => lexemesFrom state found rest
      | none => none := rfl

theorem lexemesFrom_space {c : Char} (space : isSpace c = true) :
    lexemesFrom .gap found (c :: rest) = lexemesFrom .gap found rest := by
  rw [lexemesFrom_cons, scan, begin, if_pos space]

theorem lexemesFrom_spaces (spaces : ∀ c ∈ text, isSpace c = true) :
    lexemesFrom .gap found (text ++ rest) = lexemesFrom .gap found rest := by
  induction text with
  | nil => rfl
  | cons c text ih =>
    rw [List.cons_append, lexemesFrom_space (spaces c List.mem_cons_self)]
    exact ih fun d hd => spaces d (List.mem_cons_of_mem c hd)

/-- Plain text is scanned up to the quote that ends it. -/
theorem lexemesFrom_string {chars : List Char} (plain : PlainText text) :
    lexemesFrom (.string chars) found (text ++ '"' :: rest) =
      lexemesFrom .gap (.string (chars.reverse ++ text) :: found) rest := by
  induction text generalizing chars with
  | nil =>
    rw [List.append_nil]
    rfl
  | cons c text ih =>
    obtain ⟨no_quote, no_escape, no_control⟩ := plain c List.mem_cons_self
    rw [List.cons_append, lexemesFrom_cons, scan, if_neg no_quote, if_neg no_escape,
      if_neg (Nat.not_lt.mpr no_control)]
    simp only
    rw [ih fun d hd => plain d (List.mem_cons_of_mem c hd), List.reverse_cons, List.append_assoc]
    rfl

theorem begin_word {c : Char} (word : isWordChar c = true) :
    begin c found = some (.word [c], found) := by
  rw [begin, if_neg, if_neg, if_pos word]
  · rintro rfl
    cases word
  · intro space
    simp only [isSpace, Bool.or_eq_true, beq_iff_eq] at space
    rcases space with ((rfl | rfl) | rfl) | rfl <;> cases word

/-- A word that has begun ends where no more word characters follow. -/
theorem lexemesFrom_endsWord {chars : List Char} (ends : EndsWord rest) :
    lexemesFrom (.word chars) found rest =
      lexemesFrom .gap (.word chars.reverse :: found) rest := by
  cases rest with
  | nil => rfl
  | cons c rest =>
    have begins : scan (.word chars) c found = begin c (.word chars.reverse :: found) := by
      rw [scan, if_neg (Bool.eq_false_iff.mp (ends c rfl))]
    rw [lexemesFrom_cons, lexemesFrom_cons, begins]
    rfl

/-- **A word is the lexeme** up to where a character follows that belongs to no word. -/
theorem lexemesFrom_word {chars : List Char} (word : ∀ c ∈ text, isWordChar c = true)
    (ends : EndsWord rest) :
    lexemesFrom (.word chars) found (text ++ rest) =
      lexemesFrom .gap (.word (chars.reverse ++ text) :: found) rest := by
  induction text generalizing chars with
  | nil =>
    rw [List.append_nil]
    exact lexemesFrom_endsWord ends
  | cons c text ih =>
    rw [List.cons_append, lexemesFrom_cons, scan, if_pos (word c List.mem_cons_self)]
    simp only
    rw [ih fun d hd => word d (List.mem_cons_of_mem c hd), List.reverse_cons, List.append_assoc]
    rfl

theorem readable_word (all : text.all isWordChar = true) (nonempty : text ≠ []) :
    Readable [.lexeme (.word text)] := by
  intro found rest ends
  have word := List.all_eq_true.mp all
  obtain ⟨c, text, rfl⟩ := List.exists_cons_of_ne_nil nonempty
  rw [charsOf, List.flatMap_singleton, Part.chars, Lexeme.chars, List.cons_append,
    lexemesFrom_cons, scan, begin_word (word c List.mem_cons_self)]
  simp only
  exact lexemesFrom_word (fun d hd => word d (List.mem_cons_of_mem c hd)) ends

theorem closed_string (plain : PlainText text) : Closed [.lexeme (.string text)] := by
  intro found rest _
  rw [charsOf, List.flatMap_singleton, Part.chars, Lexeme.chars, List.cons_append,
    List.cons_append, List.append_assoc]
  exact lexemesFrom_string plain

/-- Punctuation is a lexeme of its own. -/
theorem closed_punctuation {l : Lexeme} {c : Char} (chars : l.chars = [c])
    (begins : ∀ found, begin c found = some (.gap, l :: found)) : Closed [.lexeme l] := by
  intro found rest _
  rw [charsOf, List.flatMap_singleton, Part.chars, chars, List.singleton_append,
    lexemesFrom_cons, scan, begins]
  rfl

theorem closed_gap (spaces : ∀ c ∈ text, isSpace c = true) : Closed [.gap text] := by
  intro found rest _
  rw [charsOf, List.flatMap_singleton, Part.chars]
  exact lexemesFrom_spaces spaces

/-! ## Layouts one after the other -/

theorem closed_nil : Closed [] := fun _ _ _ => rfl

theorem lexemesOf_append : lexemesOf (a ++ b) = lexemesOf a ++ lexemesOf b :=
  List.filterMap_append

theorem charsOf_append : charsOf (a ++ b) = charsOf a ++ charsOf b := List.flatMap_append

theorem Closed.readable (closed : Closed a) : Readable a := fun found rest _ =>
  closed found rest trivial

/-- A layout can follow another one if the first is cut before it. -/
theorem CutBefore.append {goesOn goesOn' : List Char → Prop} (first : CutBefore goesOn a)
    (second : CutBefore goesOn' b) (fits : ∀ rest, goesOn' rest → goesOn (charsOf b ++ rest)) :
    CutBefore goesOn' (a ++ b) := by
  intro found rest after
  rw [charsOf_append, List.append_assoc, first _ _ (fits rest after), second _ _ after,
    lexemesOf_append, List.reverse_append, List.append_assoc]

theorem Closed.append {goesOn : List Char → Prop} (first : Closed a) (second : CutBefore goesOn b) :
    CutBefore goesOn (a ++ b) := CutBefore.append first second fun _ _ => trivial

theorem Readable.append (first : Readable a) (second : Closed b) (separates : Separates b) :
    Closed (a ++ b) := CutBefore.append first second fun rest _ => separates rest

/-! ## Brackets -/

/-- Items with something between them and something behind that both begin with no word. -/
theorem closed_intercalate {separator last : List Part} (between : Closed separator)
    (apart : Separates separator) (behind : Closed last) (apart' : Separates last)
    {first : List Part} {more : List (List Part)}
    (items : ∀ parts ∈ first :: more, Readable parts) :
    Closed (separator.intercalate (first :: more) ++ last) := by
  have readable : Readable first := items first List.mem_cons_self
  induction more generalizing first with
  | nil =>
    rw [List.intercalate_singleton]
    exact readable.append behind apart'
  | cons second more ih =>
    -- The separator ends the first item, and nothing in the separator can go on.
    have items' : ∀ parts ∈ second :: more, Readable parts := fun parts h =>
      items parts (List.mem_cons_of_mem first h)
    rw [List.intercalate_cons_cons, List.append_assoc, List.append_assoc]
    refine readable.append (between.append (ih items' (items' second List.mem_cons_self))) ?_
    intro rest
    rw [charsOf_append, List.append_assoc]
    exact apart _

theorem closed_line (style : Style) (depth : Nat) : Closed (style.line depth) := by
  cases style with
  | compact => exact closed_nil
  | indented =>
    refine closed_gap fun c h => ?_
    rcases List.mem_cons.mp h with rfl | h
    · rfl
    · rw [(List.mem_replicate.mp h).2]
      rfl

theorem closed_colon (style : Style) : Closed style.colon := by
  have colon : Closed [.lexeme .colon] := closed_punctuation rfl fun _ => rfl
  cases style with
  | compact => exact colon
  | indented => exact colon.append (closed_gap (List.all_eq_true.mp rfl))

/-- A line does not go on with a word, nor does what stands in its place in the compact style. -/
theorem separates_line_append (style : Style) (depth : Nat) (separates : Separates a) :
    Separates (style.line depth ++ a) := by
  cases style with
  | compact => exact separates
  | indented =>
    intro rest c h
    cases h
    rfl

theorem closed_enclose {style : Style} {depth : Nat} {first last : Lexeme}
    {inside : List (List Part)} (opens : Closed [.lexeme first]) (closes : Closed [.lexeme last])
    (separates : Separates [.lexeme last]) (items : ∀ parts ∈ inside, Readable parts) :
    Closed (style.enclose depth first last inside) := by
  cases inside with
  | nil => exact opens.append closes
  | cons parts more =>
    have comma : Closed (.lexeme .comma :: style.line (depth + 1)) :=
      Closed.append (closed_punctuation rfl fun _ => rfl) (closed_line style _)
    have apart : Separates (.lexeme .comma :: style.line (depth + 1)) := by
      intro rest c h
      cases h
      rfl
    have tail := closed_intercalate comma apart ((closed_line style depth).append closes)
      (separates_line_append style depth separates) items
    have whole := opens.append ((closed_line style (depth + 1)).append tail)
    simpa only [Style.enclose, List.nil_append, List.cons_append, List.append_assoc] using whole

/-! ## Values -/

theorem readable_layout (style : Style) {v : Json} (plain : v.Plain) (depth : Nat) :
    Readable (layout style depth v) := by
  induction plain generalizing depth with
  | null =>
    rw [layout]
    exact readable_word rfl (List.cons_ne_nil _ _)
  | bool value =>
    cases value <;> rw [layout] <;> exact readable_word rfl (List.cons_ne_nil _ _)
  | number z =>
    rw [layout]
    exact readable_word (List.all_eq_true.mpr fun _ => isWordChar_of_mem_chars) (chars_ne_nil z)
  | string plain =>
    rw [layout]
    exact (closed_string plain).readable
  | array _ ih =>
    rw [layout]
    refine (closed_enclose ?_ ?_ ?_ (List.forall_mem_map.mpr fun v h => ih v h _)).readable
    · exact closed_punctuation rfl fun _ => rfl
    · exact closed_punctuation rfl fun _ => rfl
    · rintro rest c ⟨⟩
      rfl
  | object keys _ ih =>
    rw [layout]
    refine (closed_enclose ?_ ?_ ?_ (List.forall_mem_map.mpr fun f h => ?_)).readable
    · exact closed_punctuation rfl fun _ => rfl
    · exact closed_punctuation rfl fun _ => rfl
    · rintro rest c ⟨⟩
      rfl
    · have key : Closed (.lexeme (.string f.1) :: style.colon) :=
        Closed.append (closed_string (keys f h)) (closed_colon style)
      exact key.append (ih f h _)

/-- **The text of a layout is cut into its lexemes.** -/
theorem lexemes?_layout {style : Style} {v : Json} (plain : v.Plain) (depth : Nat) :
    lexemes? (charsOf (layout style depth v)) = some (lexemesOf (layout style depth v)) := by
  have cut := readable_layout style plain depth [] [] fun _ h => nomatch h
  rw [List.append_nil, List.append_nil] at cut
  rw [lexemes?, cut, lexemesFrom, List.reverse_reverse]

end IntcodeMachine.Json
