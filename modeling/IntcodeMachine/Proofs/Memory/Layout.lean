import IntcodeMachine.Proofs.Memory.TotalMap
import IntcodeMachine.Proofs.Snapshot.Lossless
import Mathlib.Data.Set.Card

/-! # How memory is laid out

The array and the map of a memory do not overlap: the array ends at `denseLimit` at the
latest, and all keys of the map are at or beyond it (`LaidOut`).  Everything that can be
done with a memory keeps this, so it holds of every memory there is
(`Built.laidOut`), though not of one that is restored from any text whatever.

It is what makes the inspection of a memory right.  The size looks at the array only if
the map is empty, and the number of cells that are not zero is the sum of two numbers.
Both look at the addresses that are stored, each of them once (`stored`); no other
address reads as anything but zero (`mem_stored_of_ne_zero`), and a memory of size `n`
has none at `n` or beyond (`LaidOut.toNat_lt`).
-/
namespace IntcodeMachine
namespace Memory

variable {m m' : Memory} {a : UInt64} {value : Cell}

/-! ## The layout -/

/-- **The array and the map keep to their sides of the limit**, and every key is an address that a
cell can hold. -/
structure LaidOut (m : Memory) : Prop where
  dense_le : m.dense.size ≤ denseLimit.toNat
  le_key : ∀ key ∈ m.sparse, denseLimit.toNat ≤ key.toNat
  key_lt : ∀ key ∈ m.sparse, key.toNat < addressCount

theorem laidOut_empty : LaidOut empty where
  dense_le := Nat.zero_le _
  le_key _ mem := absurd mem Std.ExtTreeMap.not_mem_empty
  key_lt _ mem := absurd mem Std.ExtTreeMap.not_mem_empty

/-- The keys that an image gives are places of its tail. -/
theorem laidOut_ofImage (image : List Cell) : LaidOut (ofImage image) := by
  have key : ∀ a ∈ (ofImage image).sparse, denseLimit.toNat ≤ a.toNat ∧ a.toNat < addressCount := by
    intro a mem
    rw [ofImage, Std.ExtTreeMap.mem_ofList, List.contains_iff_mem, List.mem_map] at mem
    obtain ⟨⟨b, v⟩, mem, rfl⟩ := mem
    obtain ⟨-, inside, beyond, -⟩ := mem_entries.mp mem
    exact ⟨beyond, inside⟩
  refine ⟨?_, fun a mem => (key a mem).1, fun a mem => (key a mem).2⟩
  show (image.take denseLimit.toNat).toArray.size ≤ _
  rw [List.size_toArray, List.length_take]
  omega

theorem LaidOut.set (laidOut : LaidOut m) (inside : a.toNat < addressCount) (value : Cell) :
    LaidOut (m.set a value) := by
  obtain ⟨dense, sparse⟩ := m
  unfold Memory.set
  by_cases near : a < denseLimit
  · simp only [if_pos near]
    refine ⟨?_, laidOut.le_key, laidOut.key_lt⟩
    show (setGrowing dense a.toNat value).size ≤ _
    have : dense.size ≤ denseLimit.toNat := laidOut.dense_le
    have := UInt64.lt_iff_toNat_lt.mp near
    rw [size_setGrowing]
    omega
  · simp only [if_neg near]
    have far : denseLimit.toNat ≤ a.toNat := Nat.not_lt.mp (mt UInt64.lt_iff_toNat_lt.mpr near)
    refine ⟨laidOut.dense_le, fun key mem => ?_, fun key mem => ?_⟩
    · rcases Std.ExtTreeMap.mem_insert.mp mem with same | mem
      · obtain rfl := Std.LawfulEqCmp.eq_of_compare same
        exact far
      · exact laidOut.le_key key mem
    · rcases Std.ExtTreeMap.mem_insert.mp mem with same | mem
      · obtain rfl := Std.LawfulEqCmp.eq_of_compare same
        exact inside
      · exact laidOut.key_lt key mem

/-! ## All that is done with a memory -/

/-- What can be done with a memory from outside. -/
inductive Access
  | read (address : Cell)
  | write (address value : Cell)
  | dump (start count : UInt64)
deriving DecidableEq

/-- What an access answers. -/
inductive Reply
  | read (result : Except AddressError Cell)
  | written (result : Except AddressError Unit)
  | dumped (cells : List (UInt64 × Cell))

/-- The answer of an access, and the memory after it. -/
def access (m : Memory) : Access → Reply × Memory
  | .read address => (.read (m.read address), m)
  | .write address value =>
    let (result, m) := m.put address value
    (.written result, m)
  | .dump start count => (.dumped (m.dump start count), m)

/-- **The memories there are**: an empty one or that of an image, after any accesses, and restored
from its own snapshot at any time. -/
inductive Built : Memory → Prop
  | empty : Built empty
  | ofImage (image : List Cell) : Built (ofImage image)
  | access {m : Memory} (before : Built m) (o : Access) : Built (m.access o).2
  | restore {m m' : Memory} {style : Json.Style} (before : Built m)
      (reads : Snapshot.read? (Snapshot.write style m) = some m') : Built m'

/-- One access keeps the layout. -/
theorem LaidOut.access (laidOut : LaidOut m) (o : Access) : LaidOut (m.access o).2 := by
  cases o with
  | read | dump => exact laidOut
  | write address value =>
    show LaidOut (m.put address value).2
    by_cases negative : address < 0
    · rw [put_negative negative]
      exact laidOut
    · have nonneg := Int64.not_lt.mp negative
      rw [put_nonneg nonneg]
      exact laidOut.set (addressOf_lt (addressOf_nonneg nonneg)) value

/-- **Every memory is laid out so.** -/
theorem Built.laidOut (built : Built m) : LaidOut m := by
  induction built with
  | empty => exact laidOut_empty
  | ofImage image => exact laidOut_ofImage image
  | access _ o ih => exact ih.access o
  | restore _ reads ih =>
    obtain rfl := Option.some.inj ((Snapshot.read?_write _ _).symm.trans reads)
    exact ih

/-! ## The size -/

theorem size_of_maxKey?_eq_some {last : UInt64} (h : m.sparse.maxKey? = some last) :
    m.size = last.toNat + 1 := by
  rw [size, h]

theorem size_of_maxKey?_eq_none (h : m.sparse.maxKey? = none) : m.size = m.dense.size := by
  rw [size, h]

/-- **A write makes the size large enough for its address**, and no larger. -/
theorem LaidOut.size_set (laidOut : LaidOut m) (a : UInt64) (value : Cell) :
    (m.set a value).size = max m.size (a.toNat + 1) := by
  have dense_le := laidOut.dense_le
  obtain ⟨dense, sparse⟩ := m
  unfold Memory.set
  by_cases near : a < denseLimit
  · have := UInt64.lt_iff_toNat_lt.mp near
    simp only [if_pos near]
    cases h : sparse.maxKey? with
    | none =>
      rw [size_of_maxKey?_eq_none h, size_of_maxKey?_eq_none h]
      exact size_setGrowing dense a.toNat value
    | some last =>
      -- The last key is beyond the limit, and so beyond the address.
      have := laidOut.le_key last (Std.ExtTreeMap.maxKey?_mem h)
      rw [size_of_maxKey?_eq_some h, size_of_maxKey?_eq_some h]
      omega
  · have : denseLimit.toNat ≤ a.toNat := Nat.not_lt.mp (mt UInt64.lt_iff_toNat_lt.mpr near)
    simp only [if_neg near]
    have inserted := Std.ExtTreeMap.maxKey?_insert (t := sparse) (k := a) (v := value)
    rw [size_of_maxKey?_eq_some inserted]
    cases h : sparse.maxKey? with
    | none =>
      rw [size_of_maxKey?_eq_none h]
      show a.toNat + 1 = max dense.size (a.toNat + 1)
      have : dense.size ≤ denseLimit.toNat := dense_le
      omega
    | some last =>
      rw [size_of_maxKey?_eq_some h]
      simp only [Option.elim_some]
      split
      · rename_i le
        have := UInt64.le_iff_toNat_le.mp (Std.LawfulLECmp.isLE_iff_le.mp le)
        omega
      · rename_i lt
        have := mt Std.LawfulLECmp.isLE_iff_le.mpr lt
        rw [UInt64.le_iff_toNat_le] at this
        omega

/-! ## The stored addresses -/

/-- The addresses of all cells that are stored: those of the array, and the keys of the map. -/
def stored (m : Memory) : List UInt64 :=
  (List.range m.dense.size).map UInt64.ofNat ++ m.sparse.keys

namespace LaidOut

/-- The array reads as itself. -/
theorem toList_dense (laidOut : LaidOut m) :
    m.dense.toList = (List.range m.dense.size).map fun i => m.cellAt (UInt64.ofNat i) := by
  refine List.ext_getElem (by simp) fun i h h' => ?_
  have inside : i < m.dense.size := by simpa using h
  have limit := laidOut.dense_le
  have small : denseLimit.toNat < UInt64.size := by decide
  have address : (UInt64.ofNat i).toNat = i := UInt64.toNat_ofNat_of_lt' (by omega)
  have near : UInt64.ofNat i < denseLimit := UInt64.lt_iff_toNat_lt.mpr (by omega)
  rw [List.getElem_map, List.getElem_range, cellAt, if_pos near, address, Array.getElem_toList,
    Array.getElem_eq_getD]

/-- Every entry of the map reads as itself. -/
theorem cellAt_of_mem_toList (laidOut : LaidOut m) {entry : UInt64 × Cell}
    (mem : entry ∈ m.sparse.toList) : m.cellAt entry.1 = entry.2 := by
  obtain ⟨key, value⟩ := entry
  have found := Std.ExtTreeMap.mem_toList_iff_getElem?_eq_some.mp mem
  have far := laidOut.le_key key (Std.ExtTreeMap.mem_iff_isSome_getElem?.mpr (by rw [found]; rfl))
  rw [cellAt, if_neg fun near => Nat.not_lt.mpr far (UInt64.lt_iff_toNat_lt.mp near),
    Std.ExtTreeMap.getD_eq_getD_getElem?, found]
  rfl

/-- An address of the array is none of the map. -/
theorem nodup_stored (laidOut : LaidOut m) : m.stored.Nodup := by
  have limit := laidOut.dense_le
  have small : denseLimit.toNat < UInt64.size := by decide
  have address : ∀ i ∈ List.range m.dense.size, (UInt64.ofNat i).toNat = i := fun i mem => by
    have := List.mem_range.mp mem
    exact UInt64.toNat_ofNat_of_lt' (by omega)
  refine List.nodup_append.mpr ⟨?_, ?_, ?_⟩
  · refine List.Nodup.map_on (fun i hi j hj same => ?_) List.nodup_range
    rw [← address i hi, same, address j hj]
  · exact Std.ExtTreeMap.nodup_keys
  · intro a near b far same
    obtain ⟨i, hi, rfl⟩ := List.mem_map.mp near
    have := laidOut.le_key b (Std.ExtTreeMap.mem_keys.mp far)
    have := address i hi
    have := List.mem_range.mp hi
    rw [← same] at *
    omega

theorem nonZeroCount_eq (laidOut : LaidOut m) :
    m.nonZeroCount = m.stored.countP fun a => m.cellAt a != 0 := by
  have far : m.sparse.toList.countP (·.2 != 0) = m.sparse.keys.countP fun a => m.cellAt a != 0 := by
    rw [← Std.ExtTreeMap.map_fst_toList_eq_keys, List.countP_map]
    refine List.countP_congr fun entry mem => ?_
    rw [Function.comp, laidOut.cellAt_of_mem_toList mem]
  rw [nonZeroCount, ← Array.countP_toList, far, laidOut.toList_dense, List.countP_map, stored,
    List.countP_append, List.countP_map]
  rfl

end LaidOut

/-- **What is not stored reads as zero.** -/
theorem mem_stored_of_ne_zero (h : m.cellAt a ≠ 0) : a ∈ m.stored := by
  unfold cellAt at h
  by_cases near : a < denseLimit
  · rw [if_pos near] at h
    refine List.mem_append_left _ (List.mem_map.mpr ⟨a.toNat, List.mem_range.mpr ?_, ?_⟩)
    · refine Nat.lt_of_not_le fun beyond => h ?_
      rw [Array.getD_eq_getD_getElem?, Array.getElem?_eq_none beyond]
      rfl
    · exact UInt64.ofNat_toNat
  · rw [if_neg near] at h
    refine List.mem_append_right _ (Std.ExtTreeMap.mem_keys.mpr ?_)
    exact Decidable.not_not.mp fun absent => h (Std.ExtTreeMap.getD_eq_fallback absent)

theorem toNat_lt_size_of_mem (mem : a ∈ m.sparse) : a.toNat < m.size := by
  cases h : m.sparse.maxKey? with
  | none =>
    rw [Std.ExtTreeMap.maxKey?_eq_none_iff.mp h] at mem
    exact absurd mem Std.ExtTreeMap.not_mem_empty
  | some last =>
    have le := (Std.ExtTreeMap.maxKey?_eq_some_iff_mem_and_forall.mp h).2 a mem
    have := UInt64.le_iff_toNat_le.mp (Std.LawfulLECmp.isLE_iff_le.mp le)
    rw [size_of_maxKey?_eq_some h]
    omega

namespace LaidOut

theorem dense_le_size (laidOut : LaidOut m) : m.dense.size ≤ m.size := by
  cases h : m.sparse.maxKey? with
  | none => exact Nat.le_of_eq (size_of_maxKey?_eq_none h).symm
  | some last =>
    have mem := Std.ExtTreeMap.maxKey?_mem h
    have := toNat_lt_size_of_mem mem
    have := laidOut.le_key last mem
    have := laidOut.dense_le
    omega

/-- **A stored address is below the size**, and one that a cell can hold. -/
theorem toNat_lt (laidOut : LaidOut m) (mem : a ∈ m.stored) :
    a.toNat < m.size ∧ a.toNat < addressCount := by
  rcases List.mem_append.mp mem with near | far
  · obtain ⟨i, hi, rfl⟩ := List.mem_map.mp near
    have := List.mem_range.mp hi
    have := laidOut.dense_le_size
    have := laidOut.dense_le
    have : denseLimit.toNat < addressCount := by decide
    have : addressCount < UInt64.size := by decide
    rw [UInt64.toNat_ofNat_of_lt' (by omega)]
    omega
  · have mem := Std.ExtTreeMap.mem_keys.mp far
    exact ⟨toNat_lt_size_of_mem mem, laidOut.key_lt a mem⟩

/-- Every address at the size or beyond it reads as zero. -/
theorem cellAt_of_size_le (laidOut : LaidOut m) (beyond : m.size ≤ a.toNat) : m.cellAt a = 0 := by
  refine Decidable.not_not.mp fun other => ?_
  have := (laidOut.toNat_lt (mem_stored_of_ne_zero other)).1
  omega

theorem isEmpty_iff (laidOut : LaidOut m) : m.isEmpty = true ↔ m.size = 0 := by
  rw [isEmpty, Bool.and_eq_true, Array.isEmpty_iff_size_eq_zero, Std.ExtTreeMap.isEmpty_iff]
  constructor
  · rintro ⟨dense, sparse⟩
    rw [size_of_maxKey?_eq_none (Std.ExtTreeMap.maxKey?_eq_none_iff.mpr sparse), dense]
  · intro none
    have := laidOut.dense_le_size
    refine ⟨by omega, Std.ExtTreeMap.maxKey?_eq_none_iff.mp ?_⟩
    cases h : m.sparse.maxKey? with
    | none => rfl
    | some last =>
      rw [size_of_maxKey?_eq_some h] at none
      omega

end LaidOut

/-! ## The number of cells that are not zero -/

/-- The stored addresses that read as something else than zero. -/
def inUse (m : Memory) : List UInt64 := m.stored.filter fun a => m.cellAt a != 0

/-- The cells that give an address at which there is something else than zero. -/
def nonZeroAddresses (m : Memory) : Set Cell := {c | ∃ value, m.read c = .ok value ∧ value ≠ 0}

/-- The cell that gives an address. -/
theorem addressOf_ofNat_toNat (inside : a.toNat < addressCount) :
    addressOf (Int64.ofNat a.toNat) = .ok a := by
  rw [addressOf_ofNat inside, UInt64.ofNat_toNat]

/-- **The count is that of the addresses that read as something else than zero.** -/
theorem LaidOut.encard_nonZeroAddresses (laidOut : LaidOut m) :
    m.nonZeroAddresses.encard = m.nonZeroCount := by
  have inside : ∀ a ∈ m.inUse, a.toNat < addressCount := fun a mem =>
    (laidOut.toNat_lt (List.mem_filter.mp mem).1).2
  have cells : m.nonZeroAddresses = {c | c ∈ m.inUse.map fun a => Int64.ofNat a.toNat} := by
    ext c
    simp only [nonZeroAddresses, Set.mem_ofPred_eq, List.mem_map]
    constructor
    · rintro ⟨value, read, other⟩
      obtain ⟨a, address⟩ : ∃ a, addressOf c = .ok a :=
        ⟨_, addressOf_eq_ok.mpr ⟨(read_eq_ok.mp read).1, rfl⟩⟩
      rw [read_of_addressOf address] at read
      obtain rfl := Except.ok.inj read
      have mem : a ∈ m.inUse := List.mem_filter.mpr ⟨mem_stored_of_ne_zero other, by simpa using other⟩
      exact ⟨a, mem, addressOf_injective (addressOf_ofNat_toNat (inside a mem)) address⟩
    · rintro ⟨a, mem, rfl⟩
      refine ⟨m.cellAt a, read_of_addressOf (addressOf_ofNat_toNat (inside a mem)), ?_⟩
      simpa using (List.mem_filter.mp mem).2
  have nodup : (m.inUse.map fun a => Int64.ofNat a.toNat).Nodup := by
    refine List.Nodup.map_on (fun a ha b hb same => ?_) (laidOut.nodup_stored.filter _)
    have address := addressOf_ofNat_toNat (inside a ha)
    rw [same, addressOf_ofNat_toNat (inside b hb)] at address
    exact (Except.ok.inj address).symm
  rw [cells, ← List.coe_toFinset, Set.encard_coe_eq_coe_finsetCard, List.toFinset_card_of_nodup nodup,
    List.length_map, inUse, ← List.countP_eq_length_filter, ← laidOut.nonZeroCount_eq]

/-! ## The statement -/

/-- **What the inspection of a memory reports.** -/
structure Reports (m : Memory) : Prop extends LaidOut m where
  /-- A snapshot is read as the memory itself. -/
  restores : ∀ style, Snapshot.read? (Snapshot.write style m) = some m
  /-- A write that is done makes the size just large enough, -/
  size_write : ∀ address value m', m.put address value = (.ok (), m') →
    m'.size = max m.size (address.toInt.toNat + 1)
  /-- and nothing else changes it. -/
  size_other : ∀ o, (∀ address value, o = .write address value → (m.put address value).1 ≠ .ok ()) →
    (m.access o).2.size = m.size
  read_beyond : ∀ address : Cell, 0 ≤ address → m.size ≤ address.toInt.toNat →
    m.read address = .ok 0
  isEmpty_iff : m.isEmpty = true ↔ m.size = 0
  dense_reads : m.dense.toList.map Except.ok =
    (List.range m.dense.size).map fun i => m.read (Int64.ofNat i)
  /-- The first number of the summary is that of the addresses that read as something else than
  zero. -/
  summary : ∃ count : Nat, m.nonZeroAddresses.encard = count ∧
    m.summary = "Memory \x7b non_zero_cells: " ++ Decimal.text count ++
      ", dense_cells: " ++ Decimal.text m.dense.size ++
      ", sparse_cells: " ++ Decimal.text m.sparse.size ++ " \x7d"

theorem put_eq_ok {address : Cell} (h : m.put address value = (.ok (), m')) :
    addressOf address = .ok (UInt64.ofNat address.toInt.toNat) ∧
      m' = m.set (UInt64.ofNat address.toInt.toNat) value := by
  by_cases negative : address < 0
  · rw [put_negative negative] at h
    cases h
  · have nonneg := addressOf_nonneg (Int64.not_lt.mp negative)
    obtain ⟨-, same⟩ := addressOf_eq_ok.mp nonneg
    rw [put_nonneg (Int64.not_lt.mp negative)] at h
    rw [← same]
    exact ⟨nonneg, (Prod.mk.inj h).2.symm⟩

/-- **The inspection of a memory reports what is the case**: how many cells there are, whether there
are any, what the array holds and how many cells are not zero. -/
theorem reports_what_is_stored (built : m.Built) : m.Reports := by
  have laidOut := built.laidOut
  exact
    { laidOut with
      restores := fun style => Snapshot.read?_write style m
      size_write := by
        intro address value m' done
        obtain ⟨address_eq, rfl⟩ := put_eq_ok done
        rw [laidOut.size_set, toNat_ofNat_toInt (addressOf_eq_ok.mp address_eq).1]
      size_other := by
        intro o refused
        cases o with
        | read | dump => rfl
        | write address value =>
          have negative : address < 0 := by
            refine Decidable.not_not.mp fun nonneg => refused address value rfl ?_
            rw [put_nonneg (Int64.not_lt.mp nonneg)]
          show (m.put address value).2.size = m.size
          rw [put_negative negative]
      read_beyond := by
        intro address nonneg beyond
        obtain ⟨nonneg', same⟩ := addressOf_eq_ok.mp (addressOf_nonneg nonneg)
        rw [read_nonneg nonneg, same, laidOut.cellAt_of_size_le]
        rwa [toNat_ofNat_toInt nonneg']
      isEmpty_iff := laidOut.isEmpty_iff
      dense_reads := by
        rw [laidOut.toList_dense, List.map_map]
        refine List.map_congr_left fun i hi => ?_
        have := List.mem_range.mp hi
        have := laidOut.dense_le
        have : denseLimit.toNat < addressCount := by decide
        rw [read_of_addressOf (addressOf_ofNat (by omega))]
        rfl
      summary := ⟨m.nonZeroCount, laidOut.encard_nonZeroAddresses, rfl⟩ }

/-- A zero written beyond the limit, after which the memory is restored. It counts for the size, and
not among the cells that are not zero. -/
theorem reports_written_zero :
    ∃ m : Memory, m.Built ∧ m.size = 5000001 ∧ m.read 5000001 = .ok 0 ∧ m.isEmpty ≠ true ∧
      m.nonZeroAddresses.encard = 2 := by
  have image := reports_what_is_stored (.ofImage [4, 5])
  have two : (ofImage [4, 5]).size = 2 :=
    size_of_maxKey?_eq_none (Std.ExtTreeMap.maxKey?_eq_none_iff.mpr Std.ExtTreeMap.ofList_nil)
  have built : ((ofImage [4, 5]).access (.write 5000000 0)).2.Built := .access (.ofImage [4, 5]) _
  have restored := built.restore ((reports_what_is_stored built).restores .compact)
  have size : ((ofImage [4, 5]).access (.write 5000000 0)).2.size = 5000001 :=
    (image.size_write 5000000 0 _ rfl).trans (by rw [two]; decide)
  have reports := reports_what_is_stored restored
  refine ⟨_, restored, size, reports.read_beyond 5000001 (by decide) ?_, fun none => ?_, ?_⟩
  · rw [size]
    decide
  · rw [reports.isEmpty_iff.mp none] at size
    cases size
  · rw [reports.encard_nonZeroAddresses]
    rfl

end Memory
end IntcodeMachine
