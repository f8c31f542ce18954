import Mathlib.Data.Int.Notation

/-!
# Types and constants of the operating system abstraction

The result codes, the clock constants and the time type that the functions of
the abstraction share.
-/

namespace Protoflight

/-- `OS_RESULT_ENUM`: the result of a function of the abstraction. -/
inductive OsResult where
  | invalid
  | okay
  | nullPointer
  | timeout
  | msgSizeError
  | maxTimersReached
  | error
  | invalidArguments
  | queueCreateError
  deriving DecidableEq, Repr

/-- The value of a result code. -/
def OsResult.code : OsResult → Int32
  | .invalid => 0
  | .okay => 1
  | .nullPointer => 2
  | .timeout => 3
  | .msgSizeError => 4
  | .maxTimersReached => 5
  | .error => 6
  | .invalidArguments => 7
  | .queueCreateError => 8

/-- `OS_TASK_STATUS_ENUM`: the status of a task. -/
inductive OsTaskStatus where
  | invalid
  | okay
  | taskUnknown
  | taskCrashed
  deriving DecidableEq, Repr

/-- `os_task_status`, which does not look at its task. -/
def osTaskStatus : OsTaskStatus := .okay

/-- `OS_Timeout`: a timeout in ticks of the system clock. -/
abbrev OsTimeout := Int32

/-- `OS_TIMEOUT_NO_WAIT` -/
def osTimeoutNoWait : OsTimeout := 0

/-- `OS_CONFIG_CLOCK_RATE` -/
def osConfigClockRate : Int32 := 1000

/-- `OS_NANOSECONDS_PER_SECOND` -/
def osNanosecondsPerSecond : Int32 := 1000000000

/-- `OS_CONFIG_CLOCK_TICK_NANOSECONDS` -/
def osConfigClockTickNanoseconds : Int32 := osNanosecondsPerSecond / osConfigClockRate

/-- `struct timespec`, whose fields are 64-bit integers. -/
structure Timespec where
  /-- Whole seconds. -/
  tvSec : Int64
  /-- Nanoseconds. -/
  tvNsec : Int64
  deriving DecidableEq, Repr, Inhabited

/-- `ETIMEDOUT` -/
def etimedout : ℤ := 110

@[simp] theorem etimedout_ne_zero : etimedout ≠ 0 := by decide

theorem toNat_ne_of_ne {m n : UInt32} (h : m ≠ n) : m.toNat ≠ n.toNat := mt UInt32.toNat_inj.mp h

theorem toNat_pos_of_ne_zero {n : UInt32} (h : n ≠ 0) : 0 < n.toNat :=
  Nat.pos_of_ne_zero (toNat_ne_of_ne h)

/-- Counting one more below a bound does not wrap. -/
theorem toNat_add_one_of_lt {n bound : UInt32} (h : n < bound) :
    (n + 1).toNat = n.toNat + 1 := by
  have hbound := bound.toNat_lt
  rw [UInt32.lt_iff_toNat_lt] at h
  rw [UInt32.toNat_add]
  exact Nat.mod_eq_of_lt (show n.toNat + 1 < 2 ^ 32 by omega)

/-- Counting one more below a bound stays within the bound. -/
theorem add_one_le_of_lt {n bound : UInt32} (h : n < bound) : n + 1 ≤ bound := by
  rw [UInt32.le_iff_toNat_le, toNat_add_one_of_lt h]
  exact h

end Protoflight
