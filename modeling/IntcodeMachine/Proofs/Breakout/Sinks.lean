import IntcodeMachine.Breakout.Play
import IntcodeMachine.Proofs.Json.Numbers

/-! # Text in a sink

A renderer writes a screen in pieces, and each of them may be the one that a sink has no
room for.  How a text is cut into pieces does not matter, since a sink takes one character
after another (`take_append`, `writeAll_eq_write`).  So a frame, which is the text of all
pieces (`join_pieces`), either fits and is written as a whole (`render_of_fits`), or it
does not and its beginning is written, up to the last byte that there is room for
(`render_of_full`).  That these bytes are whole characters is because a frame has no
others than those of one byte (`ascii_frame`).
-/
namespace IntcodeMachine

/-! ## Characters of one byte -/

namespace Text

/-- All characters of the text have one byte. -/
def Ascii (text : String) : Prop := ∀ c ∈ text.toList, c.utf8Size = 1

instance (text : String) : Decidable (Ascii text) :=
  List.decidableBAll (fun c : Char => c.utf8Size = 1) text.toList

/-- The first characters of a text, of this number. -/
def beginning (n : Nat) (text : String) : String := String.ofList (text.toList.take n)

variable {text text' : String} {cs : List Char} {n : Nat}

theorem utf8ByteSize_ofList (ascii : ∀ c ∈ cs, c.utf8Size = 1) :
    (String.ofList cs).utf8ByteSize = cs.length := by
  induction cs with
  | nil => rfl
  | cons c cs ih =>
    rw [List.forall_mem_cons] at ascii
    rw [String.ofList_cons, String.utf8ByteSize_append, String.utf8ByteSize_singleton, ascii.1,
      ih ascii.2, List.length_cons, Nat.add_comm]

namespace Ascii

theorem utf8ByteSize (ascii : Ascii text) : text.utf8ByteSize = text.toList.length := by
  rw [← utf8ByteSize_ofList ascii, String.ofList_toList]

theorem append (ascii : Ascii text) (ascii' : Ascii text') : Ascii (text ++ text') := by
  intro c mem
  rw [String.toList_append] at mem
  exact (List.mem_append.mp mem).elim (ascii c) (ascii' c)

theorem join {texts : List String} (ascii : ∀ text ∈ texts, Ascii text) :
    Ascii (String.join texts) := by
  intro c mem
  rw [String.toList_join] at mem
  obtain ⟨text, among, mem⟩ := List.mem_flatMap.mp mem
  exact ascii text among c mem

theorem decimal (z : Int) : Ascii (Decimal.text z) := by
  intro c mem
  rw [Decimal.text, String.toList_ofList] at mem
  rcases Json.isDigit_of_mem_chars mem with rfl | digit
  · decide
  · have low : c.val ≤ 57 := by
      simp only [Char.isDigit, Bool.and_eq_true, decide_eq_true_eq] at digit
      exact digit.2
    exact Char.utf8Size_eq_one_iff.mpr (UInt32.le_trans low (by decide))

/-- **A beginning has as many bytes as characters.** -/
theorem utf8ByteSize_beginning (ascii : Ascii text) (long : n ≤ text.utf8ByteSize) :
    (beginning n text).utf8ByteSize = n := by
  rw [beginning, utf8ByteSize_ofList fun c mem => ascii c (List.mem_of_mem_take mem),
    List.length_take, ← ascii.utf8ByteSize, Nat.min_eq_left long]

end Ascii

/-- A beginning that ends in the first of two texts, -/
theorem beginning_append_of_le (ascii : Ascii text) (le : n ≤ text.utf8ByteSize) :
    beginning n (text ++ text') = beginning n text := by
  rw [ascii.utf8ByteSize] at le
  rw [beginning, String.toList_append, List.take_append_of_le_length le, beginning]

/-- and one that ends in the second. -/
theorem beginning_append_of_ge (ascii : Ascii text) (ge : text.utf8ByteSize ≤ n) :
    beginning n (text ++ text') = text ++ beginning (n - text.utf8ByteSize) text' := by
  have all : text.toList.take n = text.toList := List.take_of_length_le (ascii.utf8ByteSize ▸ ge)
  rw [beginning, String.toList_append, List.take_append, all, String.ofList_append,
    String.ofList_toList, ← ascii.utf8ByteSize, beginning]

end Text

/-! ## Frames -/

namespace Screen

/-- A screen as text: a line for each row, and one for score and blocks. -/
def text (s : Screen) : String :=
  String.join (s.rows.map fun row => glyphs row ++ "\n") ++
    "Score: " ++ s.score.text ++ " Blocks remaining: " ++ Decimal.text s.blocks ++ "\n"

/-- The text by which a screen is shown, perhaps after clearing the terminal. -/
def frame (clear : Bool) (s : Screen) : String :=
  (if clear then clearSequence else "") ++ s.text

variable (clear : Bool) (s : Screen)

/-- **The pieces make up the frame.** -/
theorem join_pieces : String.join (s.pieces clear) = s.frame clear := by
  rw [pieces, frame, text, String.join_append, String.join_append]
  cases clear <;> simp [String.join_cons, String.append_assoc]

theorem ascii_glyphs (row : List Tile) : Text.Ascii (glyphs row) := by
  intro c mem
  rw [glyphs, String.toList_ofList] at mem
  obtain ⟨tile, -, rfl⟩ := List.mem_map.mp mem
  cases tile <;> decide

theorem ascii_frame : Text.Ascii (s.frame clear) := by
  have feed : Text.Ascii "\n" := by decide
  have rows : Text.Ascii (String.join (s.rows.map fun row => glyphs row ++ "\n")) := by
    refine .join fun line mem => ?_
    obtain ⟨row, -, rfl⟩ := List.mem_map.mp mem
    exact (ascii_glyphs row).append feed
  have first : Text.Ascii (if clear then clearSequence else "") := by cases clear <;> decide
  have score : Text.Ascii "Score: " := by decide
  have blocks : Text.Ascii " Blocks remaining: " := by decide
  exact first.append (((((rows.append score).append (.decimal _)).append blocks).append
    (.decimal _)).append feed)

/-- There is no frame without a line. -/
theorem frame_pos : 0 < (s.frame clear).utf8ByteSize := by
  have feed : "\n".utf8ByteSize = 1 := rfl
  rw [frame, text, String.utf8ByteSize_append, String.utf8ByteSize_append, feed]
  omega

end Screen

/-! ## Sinks -/

namespace Sink
variable {s : Sink} {text text' : String} {c : Char} {cs : List Char} {n : Nat}

/-- There is room for the text. -/
def Fits (s : Sink) (text : String) : Prop := ∀ n, s.limit = some n → text.utf8ByteSize ≤ n

/-- The sink with a text added. -/
def add (s : Sink) (text : String) : Sink :=
  { s with limit := s.limit.map (· - text.utf8ByteSize), written := s.written ++ text }

/-- The sink with a text added by which it has become full. -/
def fill (s : Sink) (text : String) : Sink :=
  { s with limit := some 0, written := s.written ++ text }

theorem fits_of_unlimited (unlimited : s.limit = none) : s.Fits text := by
  intro n limit
  rw [unlimited] at limit
  cases limit

theorem fits_iff_of_limit (limit : s.limit = some n) :
    s.Fits text ↔ text.utf8ByteSize ≤ n := by
  unfold Fits
  rw [limit]
  constructor
  · intro room
    exact room n rfl
  · rintro le _ ⟨⟩
    exact le

theorem unlimited_add (unlimited : s.limit = none) : (s.add text).limit = none := by
  rw [add, unlimited]
  rfl

theorem limit_add (limit : s.limit = some n) :
    (s.add text).limit = some (n - text.utf8ByteSize) := by
  rw [add, limit]
  rfl

/-- There is room for two texts if there is for one, and then for the other. -/
theorem fits_append : s.Fits (text ++ text') ↔ s.Fits text ∧ (s.add text).Fits text' := by
  cases limit : s.limit with
  | none =>
    have first : s.Fits text := fits_of_unlimited limit
    have others : (s.add text).Fits text' := fits_of_unlimited (unlimited_add limit)
    exact iff_of_true (fits_of_unlimited limit) ⟨first, others⟩
  | some n =>
    rw [fits_iff_of_limit limit, fits_iff_of_limit limit, fits_iff_of_limit (limit_add limit),
      String.utf8ByteSize_append]
    omega

theorem add_empty (s : Sink) : s.add "" = s := by simp [add]

theorem add_add (s : Sink) (text text' : String) :
    (s.add text).add text' = s.add (text ++ text') := by
  simp [add, String.append_assoc, Nat.sub_sub, Function.comp_def]

theorem fill_add (s : Sink) (text text' : String) :
    (s.add text).fill text' = s.fill (text ++ text') := by
  simp [add, fill, String.append_assoc]

/-! ### Characters -/

theorem fits_singleton_iff :
    s.Fits (String.singleton c) ↔ s.limit.any (· < c.utf8Size) = false := by
  cases limit : s.limit with
  | none => exact ⟨fun _ => rfl, fun _ => fits_of_unlimited limit⟩
  | some n => simp [fits_iff_of_limit limit]

theorem take_cons_of_fits (room : s.Fits (String.singleton c)) :
    s.take (c :: cs) = (s.add (String.singleton c)).take cs := by
  rw [take, if_neg (by rw [fits_singleton_iff.mp room]; decide), add,
    String.utf8ByteSize_singleton, String.append_singleton]

theorem take_cons_of_not_fits (full : ¬ s.Fits (String.singleton c)) :
    s.take (c :: cs) = (.error .sinkFull, s.fill "") := by
  rw [take, if_pos (Bool.not_eq_false _ ▸ mt fits_singleton_iff.mpr full), fill, String.append_empty]

/-- **Some characters and then others are taken as all of them are.** -/
theorem take_append (s : Sink) (cs cs' : List Char) :
    s.take (cs ++ cs') = andThen (s.take cs) fun s => s.take cs' := by
  induction cs generalizing s with
  | nil => rfl
  | cons c cs ih =>
    rw [List.cons_append]
    by_cases room : s.Fits (String.singleton c)
    · rw [take_cons_of_fits room, take_cons_of_fits room]
      exact ih _
    · rw [take_cons_of_not_fits room, take_cons_of_not_fits room]
      rfl

/-- Characters that there is room for are taken. -/
theorem take_of_fits (room : s.Fits (String.ofList cs)) :
    s.take cs = (.ok (), s.add (String.ofList cs)) := by
  induction cs generalizing s with
  | nil => rw [String.ofList_nil, add_empty, take]
  | cons c cs ih =>
    rw [String.ofList_cons] at room ⊢
    obtain ⟨first, others⟩ := fits_append.mp room
    rw [take_cons_of_fits first, ih others, add_add]

/-- **A sink becomes full with as many characters as there is room for**, of one byte each. -/
theorem take_of_full (ascii : ∀ c ∈ cs, c.utf8Size = 1) (limit : s.limit = some n)
    (full : n < cs.length) :
    s.take cs = (.error .sinkFull, s.fill (String.ofList (cs.take n))) := by
  induction cs generalizing s n with
  | nil => exact absurd full (Nat.not_lt_zero n)
  | cons c cs ih =>
    rw [List.forall_mem_cons] at ascii
    have size : (String.singleton c).utf8ByteSize = 1 := by
      rw [String.utf8ByteSize_singleton, ascii.1]
    cases n with
    | zero =>
      refine take_cons_of_not_fits fun room => ?_
      have := room 0 limit
      omega
    | succ n =>
      have room : s.Fits (String.singleton c) :=
        (fits_iff_of_limit limit).mpr (by omega)
      have limit' : (s.add (String.singleton c)).limit = some n := by
        rw [limit_add limit, size, Nat.add_sub_cancel]
      rw [take_cons_of_fits room, ih ascii.2 limit' (Nat.lt_of_succ_lt_succ full), fill_add,
        List.take_succ_cons, String.ofList_cons]

/-! ### Texts -/

/-- **Writing in pieces is writing at once.** -/
theorem writeAll_eq_write (s : Sink) (texts : List String) :
    s.writeAll texts = s.write (String.join texts) := by
  induction texts generalizing s with
  | nil => rfl
  | cons text texts ih =>
    rw [writeAll, String.join_cons, write, write, String.toList_append, take_append]
    simp only [ih, write]

theorem write_of_fits (room : s.Fits text) : s.write text = (.ok (), s.add text) := by
  have fits : s.Fits (String.ofList text.toList) := by rwa [String.ofList_toList]
  have taken := take_of_fits fits
  rwa [String.ofList_toList] at taken

theorem write_of_full (ascii : Text.Ascii text) (limit : s.limit = some n)
    (full : n < text.utf8ByteSize) :
    s.write text = (.error .sinkFull, s.fill (Text.beginning n text)) :=
  take_of_full ascii limit (ascii.utf8ByteSize ▸ full)

end Sink

/-! ## Screens in a sink -/

namespace Renderer
variable {clear : Bool} {sink : Sink} {s : Screen} {n : Nat}

theorem render_text (clear : Bool) (sink : Sink) (s : Screen) :
    (text clear).render sink s = Sink.andThen (sink.write (s.frame clear)) Sink.flush := by
  show Sink.andThen (sink.writeAll (s.pieces clear)) Sink.flush = _
  rw [Sink.writeAll_eq_write, Screen.join_pieces]

/-- A frame that there is room for is shown. -/
theorem render_of_fits (sound : sink.flushFails = false) (room : sink.Fits (s.frame clear)) :
    (text clear).render sink s = (.ok (), sink.add (s.frame clear)) := by
  have flushes : (sink.add (s.frame clear)).flushFails = false := sound
  rw [render_text, Sink.write_of_fits room]
  simp only [Sink.andThen, Sink.flush, flushes]
  rfl

/-- **Of a frame that there is no room for the beginning is shown**, which makes the sink full. -/
theorem render_of_full (limit : sink.limit = some n) (full : n < (s.frame clear).utf8ByteSize) :
    (text clear).render sink s =
      (.error .sinkFull, sink.fill (Text.beginning n (s.frame clear))) := by
  rw [render_text, Sink.write_of_full (s.ascii_frame clear) limit full]
  rfl

/-- Nothing is shown in a sink that is full. -/
theorem render_full (limit : sink.limit = some 0) :
    (text clear).render sink s = (.error .sinkFull, sink) := by
  have none : sink.fill (Text.beginning 0 (s.frame clear)) = sink := by
    rw [Sink.fill, Text.beginning, List.take_zero, String.ofList_nil, String.append_empty, ← limit]
  rw [render_of_full limit (s.frame_pos clear), none]

end Renderer
end IntcodeMachine
