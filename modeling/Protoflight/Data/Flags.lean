import Mathlib.Algebra.Group.Nat.Defs
import Mathlib.Tactic.Common

/-!
# Words of flags

A word with one bit for each flag, and such a word in two halves. Nothing here depends on what
the flags mean.
-/

namespace Protoflight.Flags

variable {w : ℕ}

/-- The flag is set in a word. -/
def IsSet (flags : BitVec w) (i : ℕ) : Prop := flags.getLsbD i = true

instance (flags : BitVec w) (i : ℕ) : Decidable (IsSet flags i) :=
  inferInstanceAs (Decidable (_ = _))

@[simp] theorem not_isSet_zero (i : ℕ) : ¬IsSet (0#w) i := by
  simp [IsSet]

/-- A word has no flag beyond its width. -/
theorem not_isSet_of_le {flags : BitVec w} {i : ℕ} (h : w ≤ i) : ¬IsSet flags i := by
  simp [IsSet, BitVec.getLsbD_of_ge flags i h]

@[simp] theorem isSet_or (flags flags' : BitVec w) (i : ℕ) :
    IsSet (flags ||| flags') i ↔ IsSet flags i ∨ IsSet flags' i := by
  simp [IsSet]

/-- The word with a single flag. -/
theorem isSet_one_shiftLeft {k : ℕ} (hk : k < w) (i : ℕ) : IsSet (1#w <<< k) i ↔ i = k := by
  rw [IsSet, ← BitVec.twoPow_eq, BitVec.getLsbD_twoPow, decide_eq_true hk, Bool.true_and,
    decide_eq_true_eq]
  exact eq_comm

/-- A word is made out by its flags. -/
theorem eq_of_isSet_iff {flags flags' : BitVec w} (h : ∀ i, IsSet flags i ↔ IsSet flags' i) :
    flags = flags' :=
  BitVec.eq_of_getLsbD_eq fun i _ => Bool.eq_iff_iff.mpr (h i)

/-- A word that keeps those flags of another for which a condition holds is the same word exactly if
the condition holds for all of its flags. -/
theorem eq_iff_of_kept {kept flags : BitVec w} {p : ℕ → Prop}
    (h : ∀ i, IsSet kept i ↔ IsSet flags i ∧ p i) :
    kept = flags ↔ ∀ i, IsSet flags i → p i := by
  constructor
  · rintro rfl i hset
    exact ((h i).mp hset).2
  · intro hall
    refine eq_of_isSet_iff fun i => ⟨fun hset => ((h i).mp hset).1, fun hset => ?_⟩
    exact (h i).mpr ⟨hset, hall i hset⟩

section Halves

/-- The word with two halves. -/
def joinHalves (upper lower : UInt32) : UInt64 := upper.toUInt64 <<< 32 ||| lower.toUInt64

theorem toNat_joinHalves (upper lower : UInt32) :
    (joinHalves upper lower).toNat = upper.toNat * 2 ^ 32 + lower.toNat := by
  have hupper := upper.toNat_lt
  have hshift : (upper.toUInt64 <<< 32).toNat = upper.toNat <<< 32 := by
    rw [UInt64.toNat_shiftLeft, UInt32.toNat_toUInt64, show (32 : UInt64).toNat % 64 = 32 from rfl,
      Nat.shiftLeft_eq]
    exact Nat.mod_eq_of_lt (by omega)
  rw [joinHalves, UInt64.toNat_or, hshift, UInt32.toNat_toUInt64,
    ← Nat.shiftLeft_add_eq_or_of_lt lower.toNat_lt, Nat.shiftLeft_eq]

/-- A word has one upper and one lower half. -/
theorem joinHalves_eq_iff (upper lower : UInt32) (word : UInt64) :
    joinHalves upper lower = word ↔ upper = (word >>> 32).toUInt32 ∧ lower = word.toUInt32 := by
  have hupper := upper.toNat_lt
  have hlower := lower.toNat_lt
  have hword := word.toNat_lt
  have hshift : (word >>> 32).toNat = word.toNat / 2 ^ 32 := by
    rw [UInt64.toNat_shiftRight, show (32 : UInt64).toNat % 64 = 32 from rfl,
      Nat.shiftRight_eq_div_pow]
  rw [← UInt64.toNat_inj, ← UInt32.toNat_inj, ← UInt32.toNat_inj, toNat_joinHalves,
    UInt64.toNat_toUInt32, UInt64.toNat_toUInt32, hshift]
  omega

/-- The lower half has the flags below 32, and the upper half those from there on. -/
theorem isSet_joinHalves (upper lower : UInt32) (i : ℕ) :
    IsSet (joinHalves upper lower).toBitVec i ↔
      if i < 32 then IsSet lower.toBitVec i else IsSet upper.toBitVec (i - 32) := by
  by_cases hi : i < 32
  · have hlt : i < 64 := by omega
    simp [IsSet, joinHalves, hi, hlt]
  · have hlower : lower.toBitVec.getLsbD i = false := BitVec.getLsbD_of_ge _ _ (by omega)
    by_cases hlt : i < 64
    · simp [IsSet, joinHalves, hi, hlt, hlower]
    · have hupper : upper.toBitVec.getLsbD (i - 32) = false := BitVec.getLsbD_of_ge _ _ (by omega)
      simp [IsSet, joinHalves, hi, hlt, hupper]

end Halves

end Protoflight.Flags
