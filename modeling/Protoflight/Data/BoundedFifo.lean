import Mathlib.Data.List.Basic

/-!
# Bounded first-in first-out queues of strings

The purpose of a message queue, stated without any storage: it keeps at most
`capacity` strings of at most `limit` symbols, hands them out in the order in
which it took them, and refuses what it has no room for.
-/

namespace Protoflight

/-- A queue of strings that carries its own bounds. -/
structure BoundedFifo (β : Type*) where
  /-- The most strings held at a time. -/
  capacity : ℕ
  /-- The most symbols in one string. -/
  limit : ℕ
  /-- The strings held, the next one to hand out first. -/
  elements : List (List β)
  /-- The queue never holds more strings than its capacity. -/
  length_le : elements.length ≤ capacity
  /-- No string held is longer than the limit. -/
  limited : ∀ x ∈ elements, x.length ≤ limit

namespace BoundedFifo

variable {β : Type*}

/-- A queue that holds nothing. -/
def empty (capacity limit : ℕ) : BoundedFifo β :=
  ⟨capacity, limit, [], Nat.zero_le _, by simp⟩

/-- The queue has room for the string, and the string is short enough. -/
def Accepts (f : BoundedFifo β) (x : List β) : Prop :=
  x.length ≤ f.limit ∧ f.elements.length < f.capacity

instance (f : BoundedFifo β) (x : List β) : Decidable (f.Accepts x) :=
  inferInstanceAs (Decidable (_ ∧ _))

/-- Append an accepted string. -/
def push (f : BoundedFifo β) (x : List β) (h : f.Accepts x) : BoundedFifo β where
  capacity := f.capacity
  limit := f.limit
  elements := f.elements ++ [x]
  length_le := by
    have := h.2
    simp only [List.length_append, List.length_singleton]
    omega
  limited := by
    intro y hy
    rcases List.mem_append.mp hy with hy | hy
    · exact f.limited y hy
    · rw [List.mem_singleton.mp hy]
      exact h.1

/-- Drop the oldest string, if there is one. -/
def pop (f : BoundedFifo β) : BoundedFifo β where
  capacity := f.capacity
  limit := f.limit
  elements := f.elements.tail
  length_le := by
    have := f.length_le
    simp only [List.length_tail]
    omega
  limited := fun y hy => f.limited y (List.mem_of_mem_tail hy)

/-- Offer a string: an accepted one is appended, a refused one changes nothing. -/
def offer (f : BoundedFifo β) (x : List β) : BoundedFifo β :=
  if h : f.Accepts x then f.push x h else f

@[simp] theorem elements_empty (capacity limit : ℕ) :
    (empty capacity limit : BoundedFifo β).elements = [] := rfl

@[simp] theorem elements_push (f : BoundedFifo β) (x : List β) (h : f.Accepts x) :
    (f.push x h).elements = f.elements ++ [x] := rfl

@[simp] theorem elements_pop (f : BoundedFifo β) : f.pop.elements = f.elements.tail := rfl

theorem offer_of_accepts {f : BoundedFifo β} {x : List β} (h : f.Accepts x) :
    f.offer x = f.push x h := dif_pos h

theorem offer_of_not_accepts {f : BoundedFifo β} {x : List β} (h : ¬f.Accepts x) :
    f.offer x = f := dif_neg h

theorem elements_offer (f : BoundedFifo β) (x : List β) :
    (f.offer x).elements = f.elements ++ if f.Accepts x then [x] else [] := by
  by_cases h : f.Accepts x
  · rw [offer_of_accepts h, if_pos h, elements_push]
  · rw [offer_of_not_accepts h, if_neg h, List.append_nil]

@[simp] theorem limit_offer (f : BoundedFifo β) (x : List β) : (f.offer x).limit = f.limit := by
  unfold offer
  split <;> rfl

/-- Offering the same string again and again appends some copies of it, and at least one when it
is accepted at first. -/
theorem elements_foldl_offer (f : BoundedFifo β) (x : List β) (n : ℕ) :
    ∃ k, ((List.replicate n x).foldl offer f).elements = f.elements ++ List.replicate k x ∧
      (0 < k ↔ 0 < n ∧ f.Accepts x) := by
  induction n generalizing f with
  | zero => exact ⟨0, by simp, by simp⟩
  | succ n ih =>
    rw [List.replicate_succ, List.foldl_cons]
    by_cases haccepts : f.Accepts x
    · obtain ⟨k, helements, -⟩ := ih (f.offer x)
      refine ⟨k + 1, ?_, by simp [haccepts]⟩
      rw [helements, elements_offer, if_pos haccepts, List.append_assoc, List.replicate_succ]
      rfl
    · obtain ⟨k, helements, hpos⟩ := ih f
      exact ⟨k, by rw [offer_of_not_accepts haccepts, helements], by simp [hpos, haccepts]⟩

/-- The string is all that is added. -/
theorem mem_elements_foldl_offer (f : BoundedFifo β) (x : List β) (n : ℕ) (y : List β) :
    y ∈ ((List.replicate n x).foldl offer f).elements ↔
      y ∈ f.elements ∨ 0 < n ∧ f.Accepts x ∧ y = x := by
  obtain ⟨k, helements, hpos⟩ := f.elements_foldl_offer x n
  rw [helements, List.mem_append, List.mem_replicate, ← Nat.pos_iff_ne_zero, hpos, and_assoc]

end BoundedFifo

end Protoflight
