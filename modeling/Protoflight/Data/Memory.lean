import Mathlib.Data.Int.Notation
import Mathlib.Data.List.Basic
import Mathlib.Logic.Function.Basic
import Mathlib.Tactic.Basic

/-!
# Byte memory

Memory is seen through pointers: what a pointer points to is the function that
gives the byte at each distance from it. A block of allocated memory also knows
its size, and may be addressed with a negative distance, since a wrong offset
computed in signed arithmetic is one.
-/

namespace Protoflight

/-- The bytes of a 16-bit integer on a little-endian machine. -/
def leBytes16 (n : UInt16) : List UInt8 := [n.toUInt8, (n / 256).toUInt8]

/-- The bytes of a 32-bit integer on a little-endian machine. -/
def leBytes32 (n : UInt32) : List UInt8 :=
  [n.toUInt8, (n / 256).toUInt8, (n / 65536).toUInt8, (n / 16777216).toUInt8]

/-- A 16-bit integer is read back from its bytes. -/
theorem leBytes16_eq (n : UInt16) : n.toUInt8.toUInt16 + (n / 256).toUInt8.toUInt16 * 256 = n := by
  apply UInt16.toNat_inj.mp
  simp only [UInt16.toNat_add, UInt16.toNat_mul, UInt16.toNat_div, UInt8.toNat_toUInt16,
    UInt16.toNat_toUInt8, UInt16.reduceToNat]
  have := n.toNat_lt
  omega

/-- A 32-bit integer is read back from its bytes. -/
theorem leBytes32_eq (n : UInt32) : n.toUInt8.toUInt32 + (n / 256).toUInt8.toUInt32 * 256 +
    (n / 65536).toUInt8.toUInt32 * 65536 + (n / 16777216).toUInt8.toUInt32 * 16777216 = n := by
  apply UInt32.toNat_inj.mp
  simp only [UInt32.toNat_add, UInt32.toNat_mul, UInt32.toNat_div, UInt8.toNat_toUInt32,
    UInt32.toNat_toUInt8, UInt32.reduceToNat]
  have := n.toNat_lt
  omega

/-- The bytes from a pointer on. -/
abbrev Memory := ℕ → UInt8

namespace Memory

/-- The first `n` bytes, as a list. -/
def take (memory : Memory) (n : ℕ) : List UInt8 := (List.range n).map memory

@[simp] theorem length_take (memory : Memory) (n : ℕ) : (memory.take n).length = n := by
  simp [take]

/-- Lists of bytes agree when all their bytes do. -/
theorem take_congr {memory memory' : Memory} {n : ℕ} (h : ∀ j < n, memory j = memory' j) :
    memory.take n = memory'.take n := by
  apply List.map_congr_left
  intro j hj
  exact h j (List.mem_range.mp hj)

/-- `memcpy`: the first `n` bytes come from the source. -/
def copy (memory source : Memory) (n : ℕ) : Memory :=
  fun j => if j < n then source j else memory j

theorem copy_of_lt (memory source : Memory) {n j : ℕ} (h : j < n) :
    memory.copy source n j = source j := if_pos h

theorem copy_of_le (memory source : Memory) {n j : ℕ} (h : n ≤ j) :
    memory.copy source n j = memory j := if_neg (Nat.not_lt.mpr h)

/-- Copying makes the first bytes those of the source. -/
theorem take_copy (memory source : Memory) (n : ℕ) :
    (memory.copy source n).take n = source.take n :=
  take_congr fun _ hj => copy_of_lt memory source hj

/-- An object in memory: its bytes, and what lies after it. -/
def ofBytes (bytes : List UInt8) (beyond : Memory) : Memory :=
  fun j => if h : j < bytes.length then bytes[j] else beyond (j - bytes.length)

/-- The first bytes of an object are its own. -/
theorem take_ofBytes (bytes : List UInt8) (beyond : Memory) :
    (ofBytes bytes beyond).take bytes.length = bytes := by
  apply List.ext_getElem
  · simp
  · intro j hj hj'
    simp [take, ofBytes, hj']

/-- An object made of the first bytes of a memory has these bytes. -/
theorem ofBytes_take_of_lt (memory beyond : Memory) {n j : ℕ} (h : j < n) :
    ofBytes (memory.take n) beyond j = memory j := by
  simp [ofBytes, take, h]

/-- The 16-bit integer at an offset, on a little-endian machine. -/
def read16 (memory : Memory) (offset : ℕ) : UInt16 :=
  (memory offset).toUInt16 + (memory (offset + 1)).toUInt16 * 256

/-- The 32-bit integer at an offset, on a little-endian machine. -/
def read32 (memory : Memory) (offset : ℕ) : UInt32 :=
  (memory offset).toUInt32 + (memory (offset + 1)).toUInt32 * 256 +
    (memory (offset + 2)).toUInt32 * 65536 + (memory (offset + 3)).toUInt32 * 16777216

section Fields

variable (xs ys : List UInt8) (beyond : Memory)

/-- After the first bytes of an object, the rest of it follows. -/
theorem ofBytes_append (j : ℕ) :
    ofBytes (xs ++ ys) beyond (xs.length + j) = ofBytes ys beyond j := by
  unfold ofBytes
  by_cases hj : j < ys.length
  · rw [dif_pos (by rw [List.length_append]; omega), dif_pos hj,
      List.getElem_append_right (Nat.le_add_right _ _)]
    simp
  · rw [dif_neg (by rw [List.length_append]; omega), dif_neg hj]
    congr 1
    rw [List.length_append]
    omega

theorem read16_append (offset : ℕ) :
    (ofBytes (xs ++ ys) beyond).read16 (xs.length + offset) =
      (ofBytes ys beyond).read16 offset := by
  simp only [read16, Nat.add_assoc, ofBytes_append]

theorem read32_append (offset : ℕ) :
    (ofBytes (xs ++ ys) beyond).read32 (xs.length + offset) =
      (ofBytes ys beyond).read32 offset := by
  simp only [read32, Nat.add_assoc, ofBytes_append]

theorem read16_leBytes16 (n : UInt16) : (ofBytes (leBytes16 n ++ ys) beyond).read16 0 = n := by
  simpa [read16, ofBytes, leBytes16] using leBytes16_eq n

theorem read32_leBytes32 (n : UInt32) : (ofBytes (leBytes32 n ++ ys) beyond).read32 0 = n := by
  simpa [read32, ofBytes, leBytes32] using leBytes32_eq n

/-- An array of 32-bit integers is read back from its bytes. -/
theorem read32_flatMap (ns : List UInt32) {i : ℕ} (hi : i < ns.length) :
    (ofBytes (ns.flatMap leBytes32) beyond).read32 (4 * i) = ns[i] := by
  induction ns generalizing i with
  | nil => cases hi
  | cons n ns ih =>
    rw [List.flatMap_cons]
    cases i with
    | zero => exact read32_leBytes32 _ beyond n
    | succ i =>
      have hoffset : 4 * (i + 1) = (leBytes32 n).length + 4 * i := Nat.add_comm (4 * i) 4
      rw [hoffset, read32_append, ih (Nat.lt_of_succ_lt_succ hi), List.getElem_cons_succ]

end Fields

end Memory

/-- A block of allocated memory, addressed from its start. -/
structure Block where
  /-- The number of bytes allocated. -/
  size : ℕ
  /-- The byte at each distance from the start, inside the block or not. -/
  bytes : ℤ → UInt8

namespace Block

/-- The range of `n` bytes at an offset lies inside the block. -/
def Contains (block : Block) (offset : ℤ) (n : ℕ) : Prop := 0 ≤ offset ∧ offset + n ≤ block.size

/-- The bytes from an offset of the block on. -/
def read (block : Block) (offset : ℤ) : Memory := fun j => block.bytes (offset + j)

/-- `memcpy` of `n` bytes to an offset of the block. -/
def write (block : Block) (offset : ℤ) (source : Memory) (n : ℕ) : Block :=
  { block with
    bytes := fun j =>
      if offset ≤ j ∧ j < offset + n then source (j - offset).toNat else block.bytes j }

@[simp] theorem write_size (block : Block) (offset : ℤ) (source : Memory) (n : ℕ) :
    (block.write offset source n).size = block.size := rfl

/-- What was written at an offset is read there. -/
theorem take_read_write (block : Block) (offset : ℤ) (source : Memory) (n : ℕ) :
    ((block.write offset source n).read offset).take n = source.take n := by
  apply Memory.take_congr
  intro j hj
  simp only [read, write]
  rw [if_pos (by omega)]
  congr 1
  omega

/-- Writing leaves alone every range of bytes that ends before the written one
or starts after it. -/
theorem take_read_write_of_disjoint (block : Block) {offset offset' : ℤ} (source : Memory)
    {n n' : ℕ} (h : offset' + n' ≤ offset ∨ offset + n ≤ offset') :
    ((block.write offset source n).read offset').take n' = (block.read offset').take n' := by
  apply Memory.take_congr
  intro j hj
  simp only [read, write]
  rw [if_neg (by omega)]

end Block

/-- An access to a word of memory, by its index. -/
inductive WordAccess where
  | read (index : ℕ)
  | write (index : ℕ)
  deriving DecidableEq, Repr

/-- The word that an access is to. -/
def WordAccess.index : WordAccess → ℕ
  | .read index => index
  | .write index => index

/-- An array of 32-bit words, and the accesses made to it so far. -/
structure Words where
  /-- The word at each index. -/
  word : ℕ → UInt32
  /-- The accesses, in their order. -/
  accesses : List WordAccess

namespace Words

/-- The array after a word was read. -/
def read (words : Words) (index : ℕ) : Words :=
  { words with accesses := words.accesses ++ [.read index] }

/-- Write a word. -/
def write (words : Words) (index : ℕ) (value : UInt32) : Words where
  word := Function.update words.word index value
  accesses := words.accesses ++ [.write index]

/-- Write a word, if there is anything to write. -/
def write? (words : Words) (index : ℕ) : Option UInt32 → Words
  | some value => words.write index value
  | none => words

@[simp] theorem read_word (words : Words) (index : ℕ) :
    (words.read index).word = words.word := rfl

@[simp] theorem write_word_self (words : Words) (index : ℕ) (value : UInt32) :
    (words.write index value).word index = value := Function.update_self ..

theorem mem_accesses_write? (words : Words) (index : ℕ) (value : Option UInt32)
    {access : WordAccess} (h : access ∈ words.accesses) :
    access ∈ (words.write? index value).accesses := by
  cases value with
  | none => exact h
  | some value => exact List.mem_append_left _ h

end Words

end Protoflight
