import IntcodeMachine.Memory.Basic
import Std.Data.ExtTreeMap.Lemmas

/-! # What memory reads as

Cells are kept in an array and in a map, and a restored memory may keep in either
of them what belongs to the other.  None of this can be read: an address reads as
what was written to it last (`cellAt_set`, `read_set`), and an image reads as
itself, followed by zeros for ever (`cellAt_ofImage`).  The second statement holds
on both sides of `denseLimit`, where the tail of a long image is cut off and its
zeros are left out.

Addresses are cells that are not negative (`addressOf_eq_ok`).  `view` is what
memory holds at an integer, so that a statement about a program need not mention
how an address is represented.
-/
namespace IntcodeMachine
namespace Memory

/-! ## Addresses -/

theorem toNat_ofNat_toInt {c : Cell} (h : 0 ≤ c.toInt) :
    (UInt64.ofNat c.toInt.toNat).toNat = c.toInt.toNat := by
  have := Cell.le_greatest c
  unfold Cell.greatest at this
  exact UInt64.toNat_ofNat_of_lt' (by unfold UInt64.size; omega)

theorem addressOf_eq_ok {c : Cell} {a : UInt64} :
    addressOf c = .ok a ↔ 0 ≤ c.toInt ∧ a = UInt64.ofNat c.toInt.toNat := by
  unfold addressOf
  split
  · rename_i negative
    have : c.toInt < 0 := Int64.lt_iff_toInt_lt.mp negative
    simp only [reduceCtorEq, false_iff, not_and]
    omega
  · rename_i h
    have nonneg : 0 ≤ c.toInt := by
      rw [Int64.lt_iff_toInt_lt] at h
      exact Int.not_lt.mp h
    have hc : c.toUInt64 = UInt64.ofNat c.toInt.toNat := by
      apply UInt64.toNat_inj.mp
      rw [Int64.toNat_toUInt64_of_le (Int64.le_iff_toInt_le.mpr nonneg), toNat_ofNat_toInt nonneg]
      rfl
    rw [Except.ok.injEq, hc]
    exact ⟨fun e => ⟨nonneg, e.symm⟩, fun e => e.2.symm⟩

/-- Different cells lead to different addresses. -/
theorem addressOf_injective {c d : Cell} {a : UInt64} (hc : addressOf c = .ok a)
    (hd : addressOf d = .ok a) : c = d := by
  obtain ⟨nonnegc, ec⟩ := addressOf_eq_ok.mp hc
  obtain ⟨nonnegd, ed⟩ := addressOf_eq_ok.mp hd
  have := congrArg UInt64.toNat (ec.symm.trans ed)
  rw [toNat_ofNat_toInt nonnegc, toNat_ofNat_toInt nonnegd] at this
  exact Int64.toInt_inj.mp (by omega)

theorem addressOf_lt {c : Cell} {a : UInt64} (h : addressOf c = .ok a) :
    a.toNat < addressCount := by
  obtain ⟨nonneg, rfl⟩ := addressOf_eq_ok.mp h
  have := Cell.le_greatest c
  unfold Cell.greatest at this
  rw [toNat_ofNat_toInt nonneg]
  unfold addressCount
  omega

/-! ## Writing -/

theorem getD_setGrowing (cells : Array Cell) (index : Nat) (value : Cell) (n : Nat) :
    (setGrowing cells index value).getD n 0 = if n = index then value else cells.getD n 0 := by
  unfold setGrowing
  split
  · rename_i inside
    simp only [Array.getD_eq_getD_getElem?, Array.getElem?_set]
    split
    · rename_i same
      rw [if_pos same.symm, Option.getD_some]
    · rename_i other
      rw [if_neg (Ne.symm other)]
  · rename_i outside
    simp only [Array.getD_eq_getD_getElem?, Array.getElem?_push, Array.size_append,
      Array.size_replicate]
    -- The zeros that fill the gap reach exactly up to the cell that is pushed.
    rw [show cells.size + (index - cells.size) = index by omega]
    split
    · rfl
    · rw [Array.getElem?_append]
      split
      · rfl
      · rename_i beyond
        rw [show cells[n]? = none from Array.getElem?_eq_none (by omega), Array.getElem?_replicate]
        split <;> rfl

/-- **A write is read at its own address and at no other.** -/
theorem cellAt_set (m : Memory) (a b : UInt64) (value : Cell) :
    (m.set a value).cellAt b = if b = a then value else m.cellAt b := by
  unfold set cellAt
  by_cases ha : a < denseLimit
  · simp only [if_pos ha]
    by_cases hb : b < denseLimit
    · simp only [if_pos hb, getD_setGrowing, UInt64.toNat_inj]
    · have : b ≠ a := fun e => hb (e ▸ ha)
      simp only [if_neg hb, if_neg this]
  · simp only [if_neg ha]
    by_cases hb : b < denseLimit
    · have : b ≠ a := fun e => ha (e ▸ hb)
      simp only [if_pos hb, if_neg this]
    · simp only [if_neg hb, Std.ExtTreeMap.getD_insert, Std.LawfulEqCmp.compare_eq_iff_eq,
        eq_comm (a := a)]

theorem read_of_addressOf {m : Memory} {c : Cell} {a : UInt64} (h : addressOf c = .ok a) :
    m.read c = .ok (m.cellAt a) := by
  rw [read, h]
  rfl

theorem read_set (m : Memory) {t : Cell} {a : UInt64} (h : addressOf t = .ok a) (value c : Cell) :
    (m.set a value).read c = if c = t then .ok value else m.read c := by
  cases hc : addressOf c with
  | error e =>
    have : c ≠ t := fun he => by simp [he, h] at hc
    rw [if_neg this, read, read, hc]
    rfl
  | ok b =>
    rw [read_of_addressOf hc, read_of_addressOf hc, cellAt_set]
    by_cases he : c = t
    · have : b = a := Except.ok.inj (hc.symm.trans (he ▸ h))
      rw [if_pos this, if_pos he]
    · have : b ≠ a := fun e => he (addressOf_injective hc (e ▸ h))
      rw [if_neg this, if_neg he]

/-! ## Integers as addresses -/

/-- What memory holds at an integer. -/
def view (m : Memory) (n : Int) : Cell := m.cellAt (UInt64.ofNat n.toNat)

theorem read_eq_ok {m : Memory} {c v : Cell} :
    m.read c = .ok v ↔ 0 ≤ c.toInt ∧ v = m.view c.toInt := by
  cases h : addressOf c with
  | error e =>
    have : ¬ 0 ≤ c.toInt := fun nonneg => by
      simp [addressOf_eq_ok.mpr ⟨nonneg, rfl⟩] at h
    rw [read, h]
    simp [Except.map, this]
  | ok a =>
    obtain ⟨nonneg, rfl⟩ := addressOf_eq_ok.mp h
    rw [read_of_addressOf h, Except.ok.injEq]
    exact ⟨fun e => ⟨nonneg, e.symm⟩, fun e => e.2.symm⟩

/-! ## Images -/

theorem entry_eq_some {v w : Cell} {n : Nat} {a : UInt64} :
    entry? (v, n) = some (a, w) ↔ v ≠ 0 ∧ n < addressCount ∧ n = a.toNat ∧ w = v := by
  unfold entry?
  dsimp only
  split
  · rename_i left
    simp only [reduceCtorEq, false_iff]
    rintro ⟨hv, hn, -⟩
    exact left.elim hv (Nat.not_le.mpr hn)
  · rename_i kept
    obtain ⟨hv, hn⟩ := not_or.mp kept
    have hn : n < addressCount := Nat.not_le.mp hn
    have small : (UInt64.ofNat n).toNat = n :=
      UInt64.toNat_ofNat_of_lt' (Nat.lt_trans hn (by decide))
    constructor
    · intro he
      obtain ⟨rfl, rfl⟩ := Prod.mk.inj (Option.some.inj he)
      exact ⟨hv, hn, small.symm, rfl⟩
    · rintro ⟨-, -, rfl, rfl⟩
      rw [UInt64.ofNat_toNat]

/-- The entries of the tail of an image that starts at address `n`. -/
theorem mem_entries {tail : List Cell} {n : Nat} {a : UInt64} {v : Cell} :
    (a, v) ∈ (tail.zipIdx n).filterMap entry? ↔
      v ≠ 0 ∧ a.toNat < addressCount ∧ n ≤ a.toNat ∧ tail[a.toNat - n]? = some v := by
  rw [List.mem_filterMap]
  constructor
  · rintro ⟨⟨w, k⟩, hk, he⟩
    obtain ⟨hne, hlt, rfl, rfl⟩ := entry_eq_some.mp he
    exact ⟨hne, hlt, List.mk_mem_zipIdx_iff_le_and_getElem?_sub.mp hk⟩
  · rintro ⟨hne, hlt, hk⟩
    exact ⟨(v, a.toNat), List.mk_mem_zipIdx_iff_le_and_getElem?_sub.mpr hk,
      entry_eq_some.mpr ⟨hne, hlt, rfl, rfl⟩⟩

/-- The tail of an image has one entry at most for an address. -/
theorem pairwise_entries (tail : List Cell) (n : Nat) :
    ((tail.zipIdx n).filterMap entry?).Pairwise fun x y => ¬ compare x.1 y.1 = .eq := by
  have sorted : (tail.zipIdx n).Pairwise fun x y => x.2 < y.2 := by
    refine List.pairwise_map.mp ?_
    rw [List.zipIdx_map_snd]
    exact List.pairwise_lt_range'
  refine List.Pairwise.filterMap _ ?_ sorted
  rintro ⟨v, k⟩ ⟨w, l⟩ hkl ⟨a, v'⟩ ha ⟨b, w'⟩ hb he
  obtain ⟨-, -, rfl, -⟩ := entry_eq_some.mp ha
  obtain ⟨-, -, rfl, -⟩ := entry_eq_some.mp hb
  -- Equal keys would be equal positions, and positions increase.
  obtain rfl : a = b := Std.LawfulEqCmp.eq_of_compare he
  exact Nat.lt_irrefl _ hkl

/-- **An image reads as itself, and as zero beyond its end**, on both sides of the limit. -/
theorem cellAt_ofImage (image : List Cell) {a : UInt64} (h : a.toNat < addressCount) :
    (ofImage image).cellAt a = image.getD a.toNat 0 := by
  unfold cellAt ofImage
  by_cases ha : a < denseLimit
  · have : a.toNat < denseLimit.toNat := UInt64.lt_iff_toNat_lt.mp ha
    simp only [if_pos ha, Array.getD_eq_getD_getElem?, List.getElem?_toArray, List.getElem?_take,
      if_pos this, List.getD_eq_getElem?_getD]
  · have hle : denseLimit.toNat ≤ a.toNat := Nat.not_lt.mp (mt UInt64.lt_iff_toNat_lt.mpr ha)
    simp only [if_neg ha, List.getD_eq_getElem?_getD]
    have tail : (image.drop denseLimit.toNat)[a.toNat - denseLimit.toNat]? = image[a.toNat]? := by
      rw [List.getElem?_drop, Nat.add_sub_cancel' hle]
    -- A zero has no entry, so the two cases find their cell in different ways.
    by_cases hv : (image[a.toNat]?).getD 0 = 0
    · rw [hv]
      refine Std.ExtTreeMap.getD_ofList_of_contains_eq_false ?_
      rw [← Bool.not_eq_true, List.contains_iff_mem, List.mem_map]
      rintro ⟨⟨b, v⟩, hmem, rfl⟩
      obtain ⟨hne, -, -, hs⟩ := mem_entries.mp hmem
      rw [tail.symm.trans hs, Option.getD_some] at hv
      exact hne hv
    · obtain ⟨v, hs⟩ : ∃ v, image[a.toNat]? = some v := by
        cases hs : image[a.toNat]? with
        | none => simp [hs] at hv
        | some v => exact ⟨v, rfl⟩
      rw [hs, Option.getD_some] at hv ⊢
      exact Std.ExtTreeMap.getD_ofList_of_mem Std.ReflCmp.compare_self
        (pairwise_entries _ _) (mem_entries.mpr ⟨hv, h, hle, tail.trans hs⟩)

end Memory
end IntcodeMachine
