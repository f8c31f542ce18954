import Mathlib.Data.Nat.Notation
import Mathlib.Tactic.Common
import Protoflight.Os.Types

/-!
# Semaphores

`os_sem_create`, `os_sem_give` and `os_sem_take`, on semaphores whose value has the bound
that POSIX gives it: `sem_post` fails there.
-/

namespace Protoflight

/-- `SEM_VALUE_MAX` -/
def semValueMax : ℕ := 2147483647

/-- `OS_Sem`: an unnamed semaphore of POSIX. -/
structure Sem where
  value : ℕ
  value_le : value ≤ semValueMax

/-- A semaphore without units. -/
def Sem.empty : Sem := ⟨0, Nat.zero_le semValueMax⟩

/-- `sem_init` with a value of zero, which is no larger than the bound. -/
def semInit (_ : Sem) : ℤ × Sem := (0, .empty)

/-- `sem_post`, which fails with `EOVERFLOW` at the bound. -/
def semPost (sem : Sem) : ℤ × Sem :=
  if h : sem.value < semValueMax then (0, ⟨sem.value + 1, h⟩) else (-1, sem)

/-- `os_sem_create`, of what the pointer points to or of NULL. -/
def osSemCreate (sem : Option Sem) : OsResult × Option Sem :=
  match sem with
  | none => (.nullPointer, none)
  | some sem =>
    let (retCode, sem) := semInit sem
    (if retCode < 0 then .error else .okay, some sem)

/-- `os_sem_give`, of what the pointer points to or of NULL. -/
def osSemGive (sem : Option Sem) : OsResult × Option Sem :=
  match sem with
  | none => (.nullPointer, none)
  | some sem =>
    let (retCode, sem) := semPost sem
    (if retCode < 0 then .error else .okay, some sem)

/-- `os_sem_take` without a timeout, unless it is interrupted: nothing while there is no unit. -/
def Sem.take (sem : Sem) : Option Sem :=
  if sem.value = 0 then none
  else some ⟨sem.value - 1, Nat.le_trans (Nat.sub_le sem.value 1) sem.value_le⟩

/-- Giving succeeds exactly below the bound. -/
theorem osSemGive_some (sem : Sem) : osSemGive (some sem) =
    (if sem.value < semValueMax then .okay else .error, some (semPost sem).2) := by
  by_cases hlt : sem.value < semValueMax
  · simp [osSemGive, semPost, hlt]
  · simp [osSemGive, semPost, hlt]

/-- Below the bound, giving adds a unit. -/
theorem semPost_value (sem : Sem) : (semPost sem).2.value = min (sem.value + 1) semValueMax := by
  have hle := sem.value_le
  unfold semPost
  split <;> dsimp only <;> omega

/-- Taking needs a unit, and removes it. -/
theorem Sem.take_eq_some {sem taken : Sem} (h : sem.take = some taken) :
    sem.value = taken.value + 1 := by
  unfold take at h
  split at h
  next => cases h
  next hpos =>
    cases h
    dsimp only
    omega

theorem Sem.exists_take {sem : Sem} (h : 0 < sem.value) : ∃ taken, sem.take = some taken :=
  ⟨_, if_neg (Nat.pos_iff_ne_zero.mp h)⟩

end Protoflight
