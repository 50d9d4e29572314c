import IntcodeMachine.Cell
import IntcodeMachine.Text.Decimal
import Std.Data.ExtTreeMap

/-!
# Memory

Memory is a cell for every address, zero until written. Addresses are unsigned
64-bit integers; those below `denseLimit` are kept in an array that grows when
it is written, the others in an ordered map, so that one write far away costs
one entry. Two memories are equal when arrays and maps are: a zero that was
written is not the same as no entry, although it reads the same.
-/
namespace IntcodeMachine

/-- An address that no cell has: it is negative. -/
structure AddressError where
  address : Cell
deriving DecidableEq, Repr

/-- The wording of an address error. -/
def AddressError.message (e : AddressError) : String :=
  "invalid memory address " ++ e.address.text

/-- A memory: its first cells, and the cells written at or beyond the limit. -/
structure Memory where
  dense : Array Cell := #[]
  sparse : Std.ExtTreeMap UInt64 Cell := ∅
deriving DecidableEq

namespace Memory

/-- Addresses below this one belong to the array. -/
def denseLimit : UInt64 := 1048576

/-- The memory in which nothing has been written. -/
def empty : Memory := {}

/-- The number of addresses that a cell can hold. -/
def addressCount : Nat := 9223372036854775808

/-- The entry for a cell of an image at or beyond the limit. Zeros have none, nor has a cell that no
address leads to. -/
def entry? : Cell × Nat → Option (UInt64 × Cell)
  | (value, address) =>
    if value = 0 ∨ addressCount ≤ address then none else some (UInt64.ofNat address, value)

/-- The memory that starts with the cells of an image. -/
def ofImage (image : List Cell) : Memory where
  dense := (image.take denseLimit.toNat).toArray
  sparse := .ofList (((image.drop denseLimit.toNat).zipIdx denseLimit.toNat).filterMap entry?)

/-- What an address reads as. -/
def cellAt (m : Memory) (address : UInt64) : Cell :=
  if address < denseLimit then m.dense.getD address.toNat 0 else m.sparse.getD address 0

/-- The array with one cell set, grown by zeros as far as needed. -/
def setGrowing (cells : Array Cell) (index : Nat) (value : Cell) : Array Cell :=
  if h : index < cells.size then cells.set index value
  else (cells ++ Array.replicate (index - cells.size) 0).push value

/-- The memory after `value` has been written at an address. -/
def set (m : Memory) (address : UInt64) (value : Cell) : Memory :=
  let ⟨dense, sparse⟩ := m
  if address < denseLimit then ⟨setGrowing dense address.toNat value, sparse⟩
  else ⟨dense, sparse.insert address value⟩

/-- A cell used as an address. -/
def addressOf (c : Cell) : Except AddressError UInt64 :=
  if c < 0 then .error ⟨c⟩ else .ok c.toUInt64

/-- Reads at the address a cell gives. -/
def read (m : Memory) (address : Cell) : Except AddressError Cell :=
  (addressOf address).map m.cellAt

/-- Writes at the address a cell gives. -/
def write (m : Memory) (address value : Cell) : Except AddressError Memory :=
  (addressOf address).map (m.set · value)

/-! ## Inspection -/

/-- One more than the last address in use, where the array counts only if the map is empty. -/
def size (m : Memory) : Nat :=
  match m.sparse.maxKey? with
  | some last => last.toNat + 1
  | none => m.dense.size

/-- Nothing has been stored. -/
def isEmpty (m : Memory) : Bool := m.dense.isEmpty && m.sparse.isEmpty

/-- The cells at `count` addresses from `start` on; the last of all addresses is never reached. -/
def dump (m : Memory) (start count : UInt64) : List (UInt64 × Cell) :=
  let stop := min (start.toNat + count.toNat) (UInt64.size - 1)
  (List.range' start.toNat (stop - start.toNat)).map fun n =>
    (UInt64.ofNat n, m.cellAt (UInt64.ofNat n))

/-- The number of stored cells that are not zero. -/
def nonZeroCount (m : Memory) : Nat :=
  m.dense.countP (· != 0) + m.sparse.toList.countP (·.2 != 0)

/-- A summary of what is stored, on one line. -/
def summary (m : Memory) : String :=
  "Memory \x7b non_zero_cells: " ++ Decimal.text m.nonZeroCount ++
    ", dense_cells: " ++ Decimal.text m.dense.size ++
    ", sparse_cells: " ++ Decimal.text m.sparse.size ++ " \x7d"

end Memory
end IntcodeMachine
