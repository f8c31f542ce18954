import Mathlib.Data.List.Basic
import Mathlib.Data.Nat.ModEq

/-!
# Circular buffers

A ring of `n` slots is read from one offset and written at another. This file
describes what such a ring holds, as a list, and how that list changes when the
reader or the writer advances by one slot. Slots are arbitrary functions of
their index, so any storage layout can be read as a ring.
-/

namespace Protoflight.Ring

variable {α : Type*}

/-- The `c` elements of a ring of `n` slots, in order, starting at slot `r`. -/
def contents (n r c : ℕ) (slots : ℕ → α) : List α :=
  (List.range c).map fun i => slots ((r + i) % n)

@[simp] theorem contents_zero (n r : ℕ) (slots : ℕ → α) : contents n r 0 slots = [] := rfl

@[simp] theorem length_contents (n r c : ℕ) (slots : ℕ → α) :
    (contents n r c slots).length = c := by
  simp [contents]

/-- Only the slots between the reader and the writer matter. -/
theorem contents_congr {n r c : ℕ} {slots slots' : ℕ → α}
    (h : ∀ i < c, slots ((r + i) % n) = slots' ((r + i) % n)) :
    contents n r c slots = contents n r c slots' := by
  apply List.map_congr_left
  intro i hi
  exact h i (List.mem_range.mp hi)

/-- The element in the slot after the last one comes last. -/
theorem contents_succ (n r c : ℕ) (slots : ℕ → α) :
    contents n r (c + 1) slots = contents n r c slots ++ [slots ((r + c) % n)] := by
  simp [contents, List.range_succ]

/-- The element in the first slot comes first, and the ring of the remaining
elements starts one slot later. -/
theorem contents_eq_cons (n r c : ℕ) (slots : ℕ → α) :
    contents n r (c + 1) slots = slots (r % n) :: contents n ((r + 1) % n) c slots := by
  simp only [contents, List.range_succ_eq_map, List.map_cons, List.map_map, Nat.add_zero]
  congr 1
  apply List.map_congr_left
  intro i _
  simp only [Function.comp, Nat.succ_eq_add_one, Nat.mod_add_mod]
  congr 2
  omega

/-- Two positions of one ring that are less than `n` apart name different slots. -/
theorem add_mod_inj {n r i j : ℕ} (hi : i < n) (hj : j < n) (h : (r + i) % n = (r + j) % n) :
    i = j :=
  Nat.ModEq.eq_of_lt_of_lt (Nat.ModEq.add_left_cancel' r h) hi hj

/-- In a ring that is not full, the slot at the writer holds no element. -/
theorem writer_not_mem {n r c : ℕ} (hc : c < n) : (r + c) % n ∉ contents n r c id := by
  intro hmem
  obtain ⟨i, hi, heq⟩ := List.mem_map.mp hmem
  have hic : i < c := List.mem_range.mp hi
  have := add_mod_inj (by omega) hc heq
  omega

/-- Rewriting the slot at the writer appends its new element, provided the slots
already held keep theirs. -/
theorem contents_push {n r c : ℕ} {slots slots' : ℕ → α}
    (hheld : ∀ i < c, slots' ((r + i) % n) = slots ((r + i) % n)) :
    contents n r (c + 1) slots' = contents n r c slots ++ [slots' ((r + c) % n)] := by
  rw [contents_succ, contents_congr hheld]

end Protoflight.Ring
