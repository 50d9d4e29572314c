import IntcodeMachine.Proofs.Memory.Reads

/-! # Memory is a total map

Behind its array and its map, memory is a total map from the cells that are not
negative to cells: an address reads as the last value written to it, or as what it
read as before (`read_afterWrites`, by induction on the writes), and the order of
writes to two addresses leaves no trace (`set_comm`).  The second statement is one
about memories and not about reads only: the array is filled up with zeros to the
larger of two addresses, whichever comes first, and a map does not remember the
order of its entries.

Nothing is assumed about the memory at the start, so a restored one may have a long
array or low keys in its map.
-/
namespace IntcodeMachine
namespace Memory

/-! ## Sequences of writes -/

/-- What a write does to a memory that is kept: the answer, and the memory afterwards, which is the
same one if the write is refused. -/
def put (m : Memory) (address value : Cell) : Except AddressError Unit × Memory :=
  match m.write address value with
  | .ok written => (.ok (), written)
  | .error e => (.error e, m)

/-- The memory after writes of values to addresses, one after the other. -/
def afterWrites (m : Memory) (writes : List (Cell × Cell)) : Memory :=
  writes.foldl (fun m w => (m.put w.1 w.2).2) m

/-- The value that is written last to an address. -/
def lastTo (address : Cell) (writes : List (Cell × Cell)) : Option Cell :=
  (writes.reverse.find? fun w => w.1 = address).map Prod.snd

@[simp] theorem afterWrites_nil (m : Memory) : m.afterWrites [] = m := rfl

@[simp] theorem afterWrites_cons (m : Memory) (address value : Cell)
    (writes : List (Cell × Cell)) :
    m.afterWrites ((address, value) :: writes) = (m.put address value).2.afterWrites writes := rfl

/-- The last of several writes is one of the later ones, if these have one to the address. -/
theorem lastTo_cons (a address value : Cell) (writes : List (Cell × Cell)) :
    lastTo a ((address, value) :: writes) =
      (lastTo a writes).or (if address = a then some value else none) := by
  unfold lastTo
  rw [List.reverse_cons, List.find?_append, Option.map_or]
  by_cases h : address = a <;> simp [h]

variable {m : Memory} {a b : Cell}

theorem addressOf_negative (h : a < 0) : addressOf a = .error ⟨a⟩ := if_pos h

theorem addressOf_nonneg (h : 0 ≤ a) : addressOf a = .ok a.toUInt64 := if_neg (Int64.not_lt.mpr h)

/-- **A write to a negative address is refused and changes nothing.** -/
theorem put_negative (h : a < 0) (value : Cell) : m.put a value = (.error ⟨a⟩, m) := by
  rw [put, write, addressOf_negative h]
  rfl

theorem put_nonneg (h : 0 ≤ a) (value : Cell) :
    m.put a value = (.ok (), m.set a.toUInt64 value) := by
  rw [put, write, addressOf_nonneg h]
  rfl

theorem read_negative (h : a < 0) : m.read a = .error ⟨a⟩ := by
  rw [read, addressOf_negative h]
  rfl

/-- Memory is total: every address can be read. -/
theorem read_nonneg (h : 0 ≤ a) : m.read a = .ok (m.cellAt a.toUInt64) :=
  read_of_addressOf (addressOf_nonneg h)

/-- One write is read at its address and at no other. -/
theorem read_put (h : 0 ≤ a) (address value : Cell) :
    (m.put address value).2.read a = if address = a then .ok value else m.read a := by
  by_cases negative : address < 0
  · have : address ≠ a := fun e => Int64.not_lt.mpr h (e ▸ negative)
    rw [put_negative negative, if_neg this]
  · rw [put_nonneg (Int64.not_lt.mp negative),
      read_set m (addressOf_nonneg (Int64.not_lt.mp negative))]
    by_cases same : address = a
    · rw [if_pos same.symm, if_pos same]
    · rw [if_neg (Ne.symm same), if_neg same]

/-- **After any writes an address reads as the last of them to it**, and as before if there was
none. -/
theorem read_afterWrites (h : 0 ≤ a) (writes : List (Cell × Cell)) :
    (m.afterWrites writes).read a =
      match lastTo a writes with
      | some value => .ok value
      | none => m.read a := by
  induction writes generalizing m with
  | nil => rfl
  | cons w writes ih =>
    obtain ⟨address, value⟩ := w
    rw [afterWrites_cons, ih, lastTo_cons]
    cases lastTo a writes with
    | some later => rfl
    | none =>
      show (m.put address value).2.read a = _
      rw [read_put h]
      by_cases same : address = a
      · rw [if_pos same, if_pos same]
        rfl
      · rw [if_neg same, if_neg same]
        rfl

/-! ## The order of writes -/

theorem size_setGrowing (cells : Array Cell) (index : Nat) (value : Cell) :
    (setGrowing cells index value).size = max cells.size (index + 1) := by
  unfold setGrowing
  split
  · rw [Array.size_set]
    omega
  · rw [Array.size_push, Array.size_append, Array.size_replicate]
    omega

/-- An array grows to the same size and with the same zeros in either order. -/
theorem setGrowing_comm (cells : Array Cell) {i j : Nat} (different : i ≠ j) (v w : Cell) :
    setGrowing (setGrowing cells i v) j w = setGrowing (setGrowing cells j w) i v := by
  have reads : ∀ n, (setGrowing (setGrowing cells i v) j w).getD n 0 =
      (setGrowing (setGrowing cells j w) i v).getD n 0 := by
    intro n
    rw [getD_setGrowing, getD_setGrowing, getD_setGrowing, getD_setGrowing]
    by_cases hi : n = i
    · rw [if_pos hi, if_pos hi, if_neg (by omega)]
    · rw [if_neg hi, if_neg hi]
  refine Array.ext ?_ fun n h h' => ?_
  · rw [size_setGrowing, size_setGrowing, size_setGrowing, size_setGrowing]
    omega
  · have := reads n
    rwa [← Array.getElem_eq_getD, ← Array.getElem_eq_getD] at this

/-- **Writes to two addresses can be exchanged**, and the memory is the same one. -/
theorem set_comm (m : Memory) {a b : UInt64} (different : a ≠ b) (v w : Cell) :
    (m.set a v).set b w = (m.set b w).set a v := by
  have indices : a.toNat ≠ b.toNat := fun e => different (UInt64.toNat_inj.mp e)
  unfold set
  by_cases ha : a < denseLimit <;> by_cases hb : b < denseLimit
  · simp only [if_pos ha, if_pos hb, setGrowing_comm _ indices]
  · simp only [if_pos ha, if_neg hb]
  · simp only [if_neg ha, if_pos hb]
  · simp only [if_neg ha, if_neg hb]
    congr 1
    refine Std.ExtTreeMap.ext_getElem? fun k => ?_
    simp only [Std.ExtTreeMap.getElem?_insert, Std.LawfulEqCmp.compare_eq_iff_eq]
    by_cases ka : a = k
    · rw [if_neg (fun kb => different (ka.trans kb.symm)), if_pos ka, if_pos ka]
    · rw [if_neg ka, if_neg ka]

theorem afterWrites_comm (m : Memory) (different : a ≠ b) (v w : Cell) :
    m.afterWrites [(a, v), (b, w)] = m.afterWrites [(b, w), (a, v)] := by
  simp only [afterWrites_cons, afterWrites_nil]
  by_cases ha : a < 0
  · rw [put_negative ha, put_negative ha]
  by_cases hb : b < 0
  · rw [put_negative hb, put_negative hb]
  have ha := Int64.not_lt.mp ha
  have hb := Int64.not_lt.mp hb
  have addresses : a.toUInt64 ≠ b.toUInt64 := fun e =>
    different (addressOf_injective (addressOf_nonneg ha) (e ▸ addressOf_nonneg hb))
  rw [put_nonneg ha, put_nonneg hb, put_nonneg ha, put_nonneg hb]
  exact set_comm m addresses v w

/-! ## Dumps -/

/-- The cell that gives an address. -/
theorem addressOf_ofNat {n : Nat} (h : n < addressCount) :
    addressOf (Int64.ofNat n) = .ok (UInt64.ofNat n) := by
  have value : (Int64.ofNat n).toInt = n := Int64.toInt_ofNat_of_lt h
  exact addressOf_eq_ok.mpr ⟨by omega, by rw [value, Int.toNat_natCast]⟩

/-- **A dump lists the addresses in order with what they read as.** -/
theorem dump_eq (m : Memory) {start count : UInt64}
    (inside : start.toNat + count.toNat ≤ addressCount) :
    (m.dump start count).map (fun e => (e.1.toNat, Except.ok e.2)) =
      (List.range count.toNat).map fun i =>
        (start.toNat + i, m.read (Int64.ofNat (start.toNat + i))) := by
  have small : addressCount ≤ UInt64.size - 1 := by decide
  have stop : min (start.toNat + count.toNat) (UInt64.size - 1) - start.toNat = count.toNat := by
    omega
  simp only [dump, stop, List.range'_eq_map_range, List.map_map]
  refine List.map_congr_left fun i hi => ?_
  have address : start.toNat + i < addressCount := by
    have := List.mem_range.mp hi
    omega
  show ((UInt64.ofNat (start.toNat + i)).toNat,
    Except.ok (m.cellAt (UInt64.ofNat (start.toNat + i)))) = _
  rw [UInt64.toNat_ofNat_of_lt' (by omega), read_of_addressOf (addressOf_ofNat address)]

/-! ## The statement -/

/-- **What makes a memory a total map from addresses to cells.** -/
structure ActsAsMap (m : Memory) : Prop where
  /-- No negative cell is an address, whatever has been written. -/
  read_refused : ∀ writes a, a < 0 → (m.afterWrites writes).read a = .error ⟨a⟩
  /-- Every other cell is one. -/
  read_total : ∀ a, 0 ≤ a → ∃ value, m.read a = .ok value
  /-- It reads as the last value written to it, or as it did before the writes. -/
  read_latest : ∀ writes a, 0 ≤ a → (m.afterWrites writes).read a =
    match lastTo a writes with
    | some value => .ok value
    | none => m.read a
  /-- A write to a negative cell is refused and leaves the memory as it is. -/
  write_refused : ∀ a value, a < 0 → m.put a value = (.error ⟨a⟩, m)
  /-- Any other write is done. -/
  write_done : ∀ a value, 0 ≤ a → (m.put a value).1 = .ok ()
  /-- Writes to two addresses in either order leave the same memory. -/
  write_comm : ∀ a b v w, a ≠ b → m.afterWrites [(a, v), (b, w)] = m.afterWrites [(b, w), (a, v)]
  /-- A dump lists what the addresses read as. -/
  dump_reads : ∀ start count : UInt64, start.toNat + count.toNat ≤ addressCount →
    (m.dump start count).map (fun e => (e.1.toNat, Except.ok e.2)) =
      (List.range count.toNat).map fun i =>
        (start.toNat + i, m.read (Int64.ofNat (start.toNat + i)))

/-- **Every memory is a total map from the cells that are not negative to cells**, however its cells
are kept, and that of an image is the image followed by zeros. -/
theorem refines_total_map (m : Memory) :
    m.ActsAsMap ∧
      ∀ image a, 0 ≤ a → (ofImage image).read a = .ok (image.getD a.toInt.toNat 0) := by
  refine ⟨?_, fun image a h => ?_⟩
  · exact
      { read_refused := fun _ _ h => read_negative h
        read_total := fun _ h => ⟨_, read_nonneg h⟩
        read_latest := fun writes _ h => read_afterWrites h writes
        write_refused := fun _ value h => put_negative h value
        write_done := fun _ value h => by rw [put_nonneg h]
        write_comm := fun _ _ v w different => m.afterWrites_comm different v w
        dump_reads := fun _ _ inside => m.dump_eq inside }
  · have address := addressOf_nonneg h
    have index : a.toUInt64.toNat = a.toInt.toNat := by
      obtain ⟨nonneg, e⟩ := addressOf_eq_ok.mp address
      rw [e, toNat_ofNat_toInt nonneg]
    rw [read_of_addressOf address, cellAt_ofImage image (addressOf_lt address), index]

/-- A long gap in the array, a cell beyond the limit, a refused write and a second write to the same
address. -/
theorem total_map_of_four_writes :
    let m := ofImage [4, 5]
    let writes : List (Cell × Cell) := [(10, 42), (-1, 3), (5000000, -9), (10, 7)]
    (m.afterWrites writes).read 10 = .ok 7 ∧ (m.afterWrites writes).read 5000000 = .ok (-9) ∧
      (m.afterWrites writes).read 1 = .ok 5 ∧ (m.afterWrites writes).read 2 = .ok 0 ∧
      (m.afterWrites writes).read (-1) = .error ⟨-1⟩ ∧ m.put (-1) 3 = (.error ⟨-1⟩, m) ∧
      m.afterWrites [(10, 42), (3, 8)] = m.afterWrites [(3, 8), (10, 42)] := by
  intro m writes
  obtain ⟨acts, image⟩ := refines_total_map m
  refine ⟨acts.read_latest writes 10 (by decide), acts.read_latest writes 5000000 (by decide),
    ?_, ?_, acts.read_refused writes (-1) (by decide), acts.write_refused (-1) 3 (by decide),
    acts.write_comm 10 3 42 8 (by decide)⟩
  · exact (acts.read_latest writes 1 (by decide)).trans (image [4, 5] 1 (by decide))
  · exact (acts.read_latest writes 2 (by decide)).trans (image [4, 5] 2 (by decide))

end Memory
end IntcodeMachine
