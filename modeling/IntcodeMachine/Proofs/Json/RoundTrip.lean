import IntcodeMachine.Proofs.Json.Layout

/-! # Reading what has been written

The lexemes of a layout are put together to the value it is the layout of, so a
plain value can be read from its text, in either style (`parse?_write`).

The induction is on the value.  What carries it is that the lexemes of a value can
stand anywhere: read where a value is expected, inside any open arrays and objects
and before any other lexemes, they complete this value and nothing else
(`Completes`).  The items of an array are then completed from the first to the
last, the array that is open having one more each time.
-/
namespace IntcodeMachine.Json

/-- **The lexemes complete a value** wherever one is expected. -/
def Completes (lexemes : List Lexeme) (v : Json) : Prop :=
  ∀ stack rest, valueFrom .value stack (lexemes ++ rest) = valueFrom (.complete v) stack rest

variable {stack : List Frame} {rest : List Lexeme}

theorem valueFrom_of_build {phase phase' : Phase} {stack' : List Frame} {l : Lexeme}
    (built : build phase stack l = some (phase', stack')) :
    valueFrom phase stack (l :: rest) = valueFrom phase' stack' rest := by
  rw [valueFrom, built]

theorem completes_word {chars : List Char} {v : Json} (word : ofWord? chars = some v) :
    Completes [.word chars] v :=
  fun stack _ => valueFrom_of_build (by rw [build, beginValue, word]; rfl)

theorem completes_string (text : List Char) : Completes [.string text] (.string text) :=
  fun _ _ => rfl

/-! ## Arrays -/

section Items
variable {lexemes : Json → List Lexeme}

/-- Items and the end of the array, after those found already, which are in reverse order. -/
theorem completes_items {v : Json} {items : List Json} (found : List Json)
    (completes : ∀ w ∈ v :: items, Completes (lexemes w) w) :
    valueFrom .value (.array found :: stack)
        ([.comma].intercalate ((v :: items).map lexemes) ++ .closeArray :: rest) =
      valueFrom (.complete (.array (found.reverse ++ v :: items))) stack rest := by
  induction items generalizing v found with
  | nil =>
    rw [List.map_singleton, List.intercalate_singleton, completes v List.mem_cons_self,
      valueFrom_of_build rfl, List.reverse_cons]
  | cons w items ih =>
    -- The comma puts the first item into the open array, whose next one is then expected.
    have completes' := fun x hx => completes x (List.mem_cons_of_mem v hx)
    rw [List.map_cons, List.map_cons, List.intercalate_cons_cons, List.append_assoc,
      List.append_assoc, completes v List.mem_cons_self, List.singleton_append,
      valueFrom_of_build rfl, ← List.map_cons, ih _ completes', List.reverse_cons,
      List.append_assoc]
    rfl

/-- No value begins with the end of an array. -/
theorem Completes.begins {lexemes : List Lexeme} {v : Json} (completes : Completes lexemes v) :
    ∃ l more, lexemes = l :: more ∧ l ≠ .closeArray := by
  have ends := completes [] []
  cases lexemes with
  | nil => cases ends
  | cons l more =>
    refine ⟨l, more, rfl, ?_⟩
    rintro rfl
    cases ends

/-- Nor does a list of values, so that the first of them is read like any other. -/
theorem valueFrom_firstItem {v : Json} {items : List Json}
    (completes : ∀ w ∈ v :: items, Completes (lexemes w) w) :
    valueFrom .firstItem stack ([.comma].intercalate ((v :: items).map lexemes) ++ rest) =
      valueFrom .value (.array [] :: stack)
        ([.comma].intercalate ((v :: items).map lexemes) ++ rest) := by
  obtain ⟨l, more, begins, other⟩ := (completes v List.mem_cons_self).begins
  have first : build .firstItem stack l = build .value (.array [] :: stack) l := by
    cases l <;> first | contradiction | rfl
  cases items with
  | nil =>
    rw [List.map_singleton, List.intercalate_singleton, begins, List.cons_append, valueFrom, first,
      valueFrom]
  | cons w items =>
    rw [List.map_cons, List.map_cons, List.intercalate_cons_cons, begins, List.append_assoc,
      List.append_assoc, List.cons_append, valueFrom, first, valueFrom]

theorem completes_array {items : List Json} (completes : ∀ v ∈ items, Completes (lexemes v) v) :
    Completes (.openArray :: [.comma].intercalate (items.map lexemes) ++ [.closeArray])
      (.array items) := by
  intro stack rest
  rw [List.cons_append, List.cons_append, List.append_assoc, List.singleton_append,
    valueFrom_of_build rfl]
  cases items with
  | nil => rfl
  | cons v items =>
    rw [valueFrom_firstItem completes, completes_items [] completes]
    rfl

/-! ## Objects -/

/-- The lexemes of a field. -/
def lexemesOfField (lexemes : Json → List Lexeme) (f : List Char × Json) : List Lexeme :=
  .string f.1 :: .colon :: lexemes f.2

theorem completes_field {f : List Char × Json} {found : List (List Char × Json)}
    (completes : Completes (lexemes f.2) f.2) :
    valueFrom (.key found) stack (lexemesOfField lexemes f ++ rest) =
      valueFrom (.complete f.2) (.object found f.1 :: stack) rest := by
  rw [lexemesOfField, List.cons_append, List.cons_append, valueFrom_of_build rfl,
    valueFrom_of_build rfl, completes]

/-- Fields and the end of the object, likewise. -/
theorem completes_fields {f : List Char × Json} {fields : List (List Char × Json)}
    (found : List (List Char × Json)) (completes : ∀ g ∈ f :: fields, Completes (lexemes g.2) g.2) :
    valueFrom (.key found) stack
        ([.comma].intercalate ((f :: fields).map (lexemesOfField lexemes)) ++
          .closeObject :: rest) =
      valueFrom (.complete (.object (found.reverse ++ f :: fields))) stack rest := by
  induction fields generalizing f found with
  | nil =>
    rw [List.map_singleton, List.intercalate_singleton,
      completes_field (completes f List.mem_cons_self), valueFrom_of_build rfl, List.reverse_cons]
  | cons g fields ih =>
    have completes' := fun x hx => completes x (List.mem_cons_of_mem f hx)
    rw [List.map_cons, List.map_cons, List.intercalate_cons_cons, List.append_assoc,
      List.append_assoc, completes_field (completes f List.mem_cons_self), List.singleton_append,
      valueFrom_of_build rfl, ← List.map_cons, ih _ completes', List.reverse_cons,
      List.append_assoc]
    rfl

theorem completes_object {fields : List (List Char × Json)}
    (completes : ∀ f ∈ fields, Completes (lexemes f.2) f.2) :
    Completes
      (.openObject :: [.comma].intercalate (fields.map (lexemesOfField lexemes)) ++ [.closeObject])
      (.object fields) := by
  intro stack rest
  rw [List.cons_append, List.cons_append, List.append_assoc, List.singleton_append,
    valueFrom_of_build rfl]
  cases fields with
  | nil => rfl
  | cons f fields =>
    -- A first key is read like any other one.
    refine Eq.trans ?_ (completes_fields [] completes)
    cases fields <;> rfl

end Items

/-! ## Layouts -/

variable {style : Style} {depth : Nat}

theorem lexemesOf_line : lexemesOf (style.line depth) = [] := by cases style <;> rfl

theorem lexemesOf_colon : lexemesOf style.colon = [.colon] := by cases style <;> rfl

theorem lexemesOf_intercalate {separator : List Part} {inside : List (List Part)} :
    lexemesOf (separator.intercalate inside) =
      (lexemesOf separator).intercalate (inside.map lexemesOf) := by
  induction inside with
  | nil => rfl
  | cons parts more ih =>
    cases more with
    | nil => simp only [List.map_singleton, List.intercalate_singleton]
    | cons parts' more =>
      rw [List.intercalate_cons_cons, lexemesOf_append, lexemesOf_append, ih]
      simp only [List.map_cons, List.intercalate_cons_cons]

theorem lexemesOf_enclose {first last : Lexeme} {inside : List (List Part)} :
    lexemesOf (style.enclose depth first last inside) =
      first :: [.comma].intercalate (inside.map lexemesOf) ++ [last] := by
  have lexeme (l : Lexeme) (parts : List Part) :
      lexemesOf (.lexeme l :: parts) = l :: lexemesOf parts := rfl
  cases inside with
  | nil => rfl
  | cons parts more =>
    simp only [Style.enclose, List.cons_append, List.append_assoc, lexeme, lexemesOf_append,
      lexemesOf_line, lexemesOf_intercalate, List.nil_append]
    rfl

theorem ofWord?_chars (z : Int) : ofWord? (Decimal.chars z) = some (.number (Decimal.chars z)) := by
  have other (name : List Char) (h : isNumber name = false) : Decimal.chars z ≠ name := by
    rintro rfl
    exact Bool.noConfusion (h.symm.trans (isNumber_chars z))
  rw [ofWord?, if_neg (other _ rfl), if_neg (other _ rfl), if_neg (other _ rfl),
    if_pos (isNumber_chars z)]

/-- **The lexemes of a layout complete its value.** -/
theorem completes_layout (style : Style) {v : Json} (plain : v.Plain) (depth : Nat) :
    Completes (lexemesOf (layout style depth v)) v := by
  induction plain generalizing depth with
  | null =>
    rw [layout]
    exact completes_word rfl
  | bool value =>
    cases value <;> rw [layout] <;> exact completes_word rfl
  | number z =>
    rw [layout]
    exact completes_word (ofWord?_chars z)
  | string =>
    rw [layout]
    exact completes_string _
  | array _ ih =>
    rw [layout, lexemesOf_enclose, List.map_map]
    exact completes_array fun v h => ih v h (depth + 1)
  | @object fields _ _ ih =>
    have field (f : List Char × Json) :
        lexemesOf (.lexeme (.string f.1) :: style.colon ++ layout style (depth + 1) f.2) =
          lexemesOfField (fun v => lexemesOf (layout style (depth + 1) v)) f := by
      rw [List.cons_append, lexemesOfField, ← List.singleton_append, lexemesOf_append,
        lexemesOf_append, lexemesOf_colon]
      rfl
    rw [layout, lexemesOf_enclose, List.map_map]
    simp only [Function.comp_def, field]
    exact completes_object fun f h => ih f h (depth + 1)

/-- **A plain value can be read from its text.** -/
theorem parse?_write {v : Json} (plain : v.Plain) (style : Style) :
    parse? (v.write style) = some v := by
  have value := completes_layout style plain 0 [] []
  rw [List.append_nil] at value
  rw [parse?, write, String.toList_ofList, ← charsOf, lexemes?_layout plain]
  exact value

end IntcodeMachine.Json
