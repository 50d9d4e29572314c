import IntcodeMachine.Proofs.Json.RoundTrip
import IntcodeMachine.Proofs.Returning
import IntcodeMachine.Snapshot.Basic
import Mathlib.Data.List.Nodup

/-! # Snapshots that read back

A type has lawful snapshots if the JSON of each value is plain and decodes to this
value (`Lawful`); its snapshots can then be read from their text, in either style
(`read?_write`).  Lawfulness goes from the parts of a value to the whole.  This
module has one lemma for each kind of encoding: numbers, lists, values that may be
missing, names and records.

For a record it matters that the names of its fields differ, for each field is
searched for by its name (`find?_entries`).  A missing value is written as null,
which must not be the JSON of a value as well (`lawful_option`).
-/
namespace IntcodeMachine.Snapshot

open Json (Plain PlainText)

/-- **Values are encoded as plain JSON, from which they are decoded again.** -/
class Lawful (α : Type) [Snapshot α] : Prop where
  plain_encode (a : α) : (encode a).Plain
  decode?_encode (a : α) : decode? (encode a) = some a

export Lawful (plain_encode decode?_encode)
attribute [simp] plain_encode decode?_encode

variable {α : Type}

/-- **A value can be read from its text.** -/
theorem read?_write [Snapshot α] [Lawful α] (style : Json.Style) (a : α) :
    read? (write style a) = some a := by
  rw [read?, write, Json.parse?_write (plain_encode a)]
  exact decode?_encode a

/-! ## Numbers -/

theorem decodeInt?_encodeInt (n : Int) : decodeInt? (encodeInt n) = some n := Json.integer?_chars n

theorem decodeBelow?_encodeInt {limit n : Nat} (h : n < limit) :
    decodeBelow? limit (encodeInt n) = some n := by
  rw [decodeBelow?, decodeInt?_encodeInt]
  exact if_pos ⟨Int.natCast_nonneg n, Int.ofNat_lt.mpr h⟩

instance : Lawful Cell where
  plain_encode c := .number c.toInt
  decode?_encode c := by
    change (decodeInt? (encodeInt c.toInt) >>= Cell.ofInt?) = some c
    rw [decodeInt?_encodeInt]
    exact Cell.ofInt?_toInt c

instance : Lawful UInt64 where
  plain_encode n := .number n.toNat
  decode?_encode n := by
    change (decodeBelow? UInt64.size (encodeInt n.toNat)).map UInt64.ofNat = some n
    rw [decodeBelow?_encodeInt n.toNat_lt_size, Option.map_some, UInt64.ofNat_toNat]

instance : Lawful UInt8 where
  plain_encode n := .number n.toNat
  decode?_encode n := by
    change (decodeBelow? UInt8.size (encodeInt n.toNat)).map UInt8.ofNat = some n
    rw [decodeBelow?_encodeInt n.toNat_lt_size, Option.map_some, UInt8.ofNat_toNat]

/-! ## Options and lists -/

section Parts
variable [Snapshot α] [Lawful α]

/-- Values may be missing if none is written as null. -/
theorem lawful_option (given : ∀ a : α, encode a ≠ .null) : Lawful (Option α) where
  plain_encode
    | some a => plain_encode a
    | none => .null
  decode?_encode
    | none => rfl
    | some a => by
      have decodes : decode? (encode a) = some a := decode?_encode a
      have not_null := given a
      change (decode? (encode a) : Option (Option α)) = some (some a)
      generalize encode a = j at decodes not_null
      cases j with
      | null => contradiction
      | _ => exact congrArg (Option.map some) decodes

instance : Lawful (List α) where
  plain_encode items := .array (List.forall_mem_map.mpr fun a _ => plain_encode a)
  decode?_encode items := by
    change (items.map encode).mapM decode? = some items
    rw [List.mapM_map]
    exact mapM_eq_some_self fun a _ => decode?_encode a

instance : Lawful (Array α) where
  plain_encode items := plain_encode items.toList
  decode?_encode items := by
    change (decode? (encode items.toList)).map List.toArray = some items
    rw [decode?_encode, Option.map_some, Array.toArray_toList]

end Parts

/-! ## Names -/

/-- Plain text is the text of the string that holds it. -/
theorem textFrom_plain {text found : List Char} (plain : PlainText text) :
    Json.textFrom found text = some (found.reverse ++ text) := by
  induction text generalizing found with
  | nil => rw [Json.textFrom, List.append_nil]
  | cons c text ih =>
    have no_escape : c ≠ '\\' := (plain c List.mem_cons_self).2.1
    rw [Json.textFrom, if_neg no_escape, ih fun d hd => plain d (List.mem_cons_of_mem c hd),
      List.reverse_cons, List.append_assoc]
    · rfl
    all_goals
      intros
      contradiction

theorem text?_plain {text : List Char} (plain : PlainText text) : Json.text? text = some text :=
  textFrom_plain plain

/-- **A value can be found by its name** among values with different names. -/
theorem decodeName?_encodeName {all : List α} {name : α → String} (distinct : (all.map name).Nodup)
    {a : α} (plain : PlainText (name a).toList) (mem : a ∈ all) :
    decodeName? all name (encodeName (name a)) = some a := by
  have text : nameOf? (encodeName (name a)) = some (name a).toList := text?_plain plain
  rw [decodeName?, text]
  let named (b : α) : Bool := (name b).toList == (name a).toList
  change all.find? named = some a
  obtain ⟨b, found⟩ : ∃ b, all.find? named = some b :=
    Option.isSome_iff_exists.mp (List.find?_isSome.mpr ⟨a, mem, beq_self_eq_true _⟩)
  have same : (name b).toList = (name a).toList :=
    beq_iff_eq.mp (List.find?_some (p := named) found)
  rw [found, List.inj_on_of_nodup_map distinct (List.mem_of_find?_eq_some found) mem
    (String.toList_injective same)]

/-- Types whose values are written as names. -/
theorem lawful_of_names [Snapshot α] {all : List α} {name : α → String}
    (encodes : ∀ a : α, encode a = encodeName (name a))
    (decodes : ∀ j, decode? j = decodeName? all name j) (complete : ∀ a, a ∈ all)
    (distinct : (all.map name).Nodup) (plain : ∀ a ∈ all, PlainText (name a).toList) :
    Lawful α where
  plain_encode a := encodes a ▸ .string (plain a (complete a))
  decode?_encode a := by
    rw [encodes, decodes, decodeName?_encodeName distinct (plain a (complete a)) (complete a)]

/-! ## Records -/

variable {fields : List Field} {entries : List (String × Json)}

theorem plain_encodeRecord (names : ∀ e ∈ entries, PlainText e.1.toList)
    (plain : ∀ e ∈ entries, e.2.Plain) : (encodeRecord entries).Plain :=
  .object (List.forall_mem_map.mpr names) (List.forall_mem_map.mpr plain)

theorem filter_entries {key : String} {value : Json} (distinct : (entries.map (·.1)).Nodup)
    (given : (key, value) ∈ entries) : entries.filter (·.1 == key) = [(key, value)] := by
  induction entries with
  | nil => cases given
  | cons e entries ih =>
    obtain ⟨fresh, distinct⟩ := List.nodup_cons.mp distinct
    rcases List.mem_cons.mp given with rfl | given
    · have others : entries.filter (·.1 == key) = [] := List.filter_eq_nil_iff.mpr fun e he same =>
        fresh (List.mem_map.mpr ⟨e, he, beq_iff_eq.mp same⟩)
      simp only [List.filter_cons, beq_self_eq_true, if_true, others]
    · have other : e.1 ≠ key := fun same =>
        fresh (List.mem_map.mpr ⟨(key, value), given, same.symm⟩)
      simp only [List.filter_cons, beq_iff_eq, if_neg other, ih distinct given]

/-- **Of entries with different names, the one with the name of a field gives its value.** -/
theorem find?_entries {f : Field} {value : Json} (distinct : (entries.map (·.1)).Nodup)
    (given : (f.name, value) ∈ entries) :
    f.find? (entries.map fun (name, value) => (name.toList, value)) = some value := by
  have same (e : String × Json) : (e.1.toList == f.name.toList) = (e.1 == f.name) := by
    rw [Bool.eq_iff_iff, beq_iff_eq, beq_iff_eq, String.toList_inj]
  rw [Field.find?, List.filter_map]
  simp only [Function.comp_def, same, filter_entries distinct given, List.map_singleton]

theorem mapM_find? {given : List (List Char × Json)}
    (names : entries.map (·.1) = fields.map (·.name))
    (finds : ∀ (f : Field) value, (f.name, value) ∈ entries → f.find? given = some value) :
    fields.mapM (·.find? given) = some (entries.map (·.2)) := by
  induction fields generalizing entries with
  | nil =>
    cases entries with
    | nil => rfl
    | cons => cases names
  | cons f fields ih =>
    cases entries with
    | nil => cases names
    | cons e entries =>
      obtain ⟨(same : e.1 = f.name), names⟩ := List.cons.inj names
      have first : f.find? given = some e.2 := finds f e.2 (same ▸ List.mem_cons_self)
      rw [List.mapM_cons, first, ih names fun g value h => finds g value (List.mem_cons_of_mem e h)]
      rfl

/-- **A record can be read back.** -/
theorem decodeRecord?_encodeRecord (names : entries.map (·.1) = fields.map (·.name))
    (distinct : (fields.map (·.name)).Nodup)
    (plain_names : ∀ name ∈ fields.map (·.name), PlainText name.toList) :
    decodeRecord? fields (encodeRecord entries) = some (entries.map (·.2)) := by
  rw [← names] at distinct plain_names
  have plain := List.forall_mem_map.mp plain_names
  let given : List (List Char × Json) := entries.map fun (name, value) => (name.toList, value)
  let text (e : List Char × Json) : Option (List Char × Json) :=
    (Json.text? e.1).map fun name => (name, e.2)
  have texts : given.mapM text = some given := by
    refine mapM_eq_some_self (List.forall_mem_map.mpr fun e he => ?_)
    simp only [text, text?_plain (plain e he), Option.map_some]
  change (given.mapM text >>= fun named => fields.mapM (·.find? named)) = _
  rw [texts]
  exact mapM_find? names fun f value h => find?_entries distinct h

end IntcodeMachine.Snapshot
