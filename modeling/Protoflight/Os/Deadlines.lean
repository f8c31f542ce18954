import Mathlib.Algebra.Group.Int.Defs
import Mathlib.Algebra.Group.Nat.Defs
import Protoflight.Os.Timeouts
import Protoflight.Os.Timer

/-!
# Deadlines and durations

Every call with a timeout multiplies it out to nanoseconds, splits these into seconds and
nanoseconds, and passes them to a timed primitive of POSIX, by themselves or added to a
clock reading. This is written out at each of them: the product is one of the type `int`
everywhere, the parts are signed at some and unsigned at others, and nothing is carried
from the nanoseconds to the seconds.
-/

namespace Protoflight

section Delay

/-- The deadline of `os_task_delay`. -/
def osTaskDelayDeadline (now : Timespec) (timeout : OsTimeout) : Timespec :=
  let timeoutNs := (timeout * osConfigClockTickNanoseconds).toInt64.toUInt64
  { tvSec := (now.tvSec.toUInt64 + timeoutNs / 1000000000).toInt64
    tvNsec := (now.tvNsec.toUInt64 + timeoutNs % 1000000000).toInt64 }

/-- What the primitives return to `os_task_delay`. -/
structure OsTaskDelayAnswers where
  /-- What `clock_gettime` writes. Its code is overwritten. -/
  now : Timespec
  /-- `clock_nanosleep`, one call after another. After the last one the task sleeps. An absolute
  sleep does not write the time that is left. -/
  nanosleeps (deadline : Timespec) : List ℤ

/-- The loop of `os_task_delay`: the code of the call that ends it, or nothing while the task
sleeps. -/
def osNanosleeps : List ℤ → Option ℤ
  | [] => none
  | retCode :: rest => if retCode = eintr then osNanosleeps rest else some retCode

/-- `os_task_delay`, whose results are returned as a task status. -/
def osTaskDelay (timeout : OsTimeout) (env : OsTaskDelayAnswers) : Option OsResult := do
  let retCode ← osNanosleeps (env.nanosleeps (osTaskDelayDeadline env.now timeout))
  return if retCode ≠ 0 then .error else .okay

end Delay

section Sites

/-- The nanoseconds from zero to a time. -/
def Timespec.total (time : Timespec) : ℤ := time.tvSec.toInt * 1000000000 + time.tvNsec.toInt

/-- The nanoseconds of a time are fewer than those of a second. -/
def Timespec.Normalized (time : Timespec) : Prop :=
  0 ≤ time.tvNsec.toInt ∧ time.tvNsec.toInt < 1000000000

instance (time : Timespec) : Decidable time.Normalized := inferInstanceAs (Decidable (_ ∧ _))

/-- `EINVAL` -/
def einval : ℤ := 22

/-- The error of a timed primitive of POSIX because of the time that it is passed, if there is
one. -/
def Timespec.refusal (time : Timespec) : Option ℤ := if time.Normalized then none else some einval

/-- A delay whose deadline is refused is reported as an error: it does not wait at all. -/
theorem osTaskDelay_refused {timeout : OsTimeout} {env : OsTaskDelayAnswers}
    (hnanosleeps : ∀ deadline : Timespec, ∀ e ∈ deadline.refusal, env.nanosleeps deadline = [e])
    (hinvalid : ¬(osTaskDelayDeadline env.now timeout).Normalized) :
    osTaskDelay timeout env = some .error := by
  have hrefused := hnanosleeps (osTaskDelayDeadline env.now timeout) einval (if_neg hinvalid)
  rw [osTaskDelay, hrefused]
  rfl

/-- A call that passes a time made out of a timeout to a primitive. -/
inductive OsTimedSite where
  /-- `os_queue_send` of `os_queue_portable.c` -/
  | queueSend
  /-- `os_queue_receive` of `os_queue_portable.c` -/
  | queueReceive
  /-- `os_queue_send` of `os_queue.c` -/
  | queueSendRt
  /-- `os_queue_receive` of `os_queue.c` -/
  | queueReceiveRt
  /-- `os_mutex_take` -/
  | mutexTake
  /-- `os_sem_take` -/
  | semTake
  /-- `os_task_delay` -/
  | taskDelay
  /-- `os_timer_start` -/
  | timerStart
  deriving DecidableEq, Repr

namespace OsTimedSite

/-- The time that is passed to the primitive where the clock shows `now`. -/
def passes : OsTimedSite → Timespec → OsTimeout → Timespec
  | .queueSend, now, timeout => osQueueSendDeadline now timeout
  | .semTake, now, timeout => osSemTakeDeadline now timeout
  | .taskDelay, now, timeout => osTaskDelayDeadline now timeout
  | .timerStart, _, timeout => osTimerStartInterval timeout
  | .queueReceive, _, timeout | .queueSendRt, _, timeout | .queueReceiveRt, _, timeout
  | .mutexTake, _, timeout => osQueueReceiveDeadline timeout

/-- The call reads the clock. -/
def ReadsClock : OsTimedSite → Prop
  | .queueSend | .semTake | .taskDelay => True
  | .timerStart | .queueReceive | .queueSendRt | .queueReceiveRt | .mutexTake => False

instance : ∀ site : OsTimedSite, Decidable site.ReadsClock
  | .queueSend | .semTake | .taskDelay => isTrue trivial
  | .timerStart | .queueReceive | .queueSendRt | .queueReceiveRt | .mutexTake => isFalse id

/-- The duration that is derived from a timeout: the time that is passed where the clock shows
zero. -/
def duration (site : OsTimedSite) (timeout : OsTimeout) : Timespec := site.passes ⟨0, 0⟩ timeout

/-- A call that reads the clock adds the parts of the duration to those of the reading. -/
theorem passes_of_readsClock {site : OsTimedSite} (h : site.ReadsClock) (now : Timespec)
    (timeout : OsTimeout) : site.passes now timeout =
      ⟨now.tvSec + (site.duration timeout).tvSec, now.tvNsec + (site.duration timeout).tvNsec⟩ := by
  cases site with
  | queueSend => simp [duration, passes, osQueueSendDeadline]
  | semTake => simp [duration, passes, osSemTakeDeadline]
  | taskDelay => simp [duration, passes, osTaskDelayDeadline]
  | timerStart | queueReceive | queueSendRt | queueReceiveRt | mutexTake => exact h.elim

/-- The others pass on the duration. -/
theorem passes_of_not_readsClock {site : OsTimedSite} (h : ¬site.ReadsClock) (now : Timespec)
    (timeout : OsTimeout) : site.passes now timeout = site.duration timeout := by
  cases site with
  | queueSend | semTake | taskDelay => exact absurd trivial h
  | timerStart | queueReceive | queueSendRt | queueReceiveRt | mutexTake => rfl

/-- The two calls of a portable queue. -/
def ofQueueCall : OsQueueCall → OsTimedSite
  | .send .. => .queueSend
  | .receive .. => .queueReceive

/-- There are two conversions. -/
theorem duration_eq (site : OsTimedSite) (timeout : OsTimeout) :
    site.duration timeout = osQueueReceiveDeadline timeout ∨
      site.duration timeout = osTimerStartInterval timeout := by
  have hsecond : osNanosecondsPerSecond.toInt64.toUInt64 = 1000000000 := by decide
  cases site with
  | queueSend | taskDelay =>
    right
    simp [duration, passes, osQueueSendDeadline, osTaskDelayDeadline, osTimerStartInterval, hsecond]
  | semTake =>
    left
    simp [duration, passes, osSemTakeDeadline, osQueueReceiveDeadline]
  | timerStart => exact .inr rfl
  | queueReceive | queueSendRt | queueReceiveRt | mutexTake => exact .inl rfl

end OsTimedSite

/-- The deadline of an event, if it is a lock attempt or a wait. -/
def Event.deadline? {A C D : Type} : Event A C D → Option D
  | .lock deadline | .wait _ deadline => some deadline
  | _ => none

/-- The timeout that a call is passed. -/
def OsQueueCall.timeout : OsQueueCall → OsTimeout
  | .send _ _ _ timeout | .receive _ _ _ timeout => timeout

/-- The lock attempt and the wait of a call on a portable queue have the deadline of the call, and
no other. -/
theorem OsQueueCall.deadline_of_mem_trace (call : OsQueueCall) (env : QueueAnswers) (data : OsQueue)
    (hold : ℕ) : ∀ event ∈ (call.program.run queueMonitor env (.start data hold)).2.trace,
      ∀ deadline ∈ event.1.deadline?,
        deadline = (OsTimedSite.ofQueueCall call).passes env.now call.timeout := by
  have hdeadline : (call.critical env).deadline =
      (OsTimedSite.ofQueueCall call).passes env.now call.timeout := by
    cases call <;> rfl
  rw [← hdeadline]
  have harrived : ∀ event ∈ (call.arrived (.start data hold)).trace,
      ∀ deadline ∈ event.1.deadline?, deadline = (call.critical env).deadline := by
    cases call <;> simp [arrived, Local.start, Event.deadline?]
  by_cases hattempts : call.Attempts env data
  · rcases outcome (s := .start data hold) hattempts with ⟨-, -, hstate⟩ | ⟨-, -, -, -, hstate⟩ |
      ⟨-, -, -, hstate⟩
    · rw [hstate, Local.lock_trace]
      simpa [or_imp, forall_and, Event.deadline?] using harrived
    · rw [hstate, QueueSection.waited, QueueSection.counted]
      simpa [or_imp, forall_and, Event.deadline?] using harrived
    · rw [hstate, QueueSection.finished, QueueSection.ready]
      split
      · rw [QueueSection.waited, QueueSection.counted]
        simpa [or_imp, forall_and, Event.deadline?] using harrived
      · rw [QueueSection.counted]
        simpa [or_imp, forall_and, Event.deadline?] using harrived
  · rcases (refused (s := .start data hold) hattempts).2 with hstate | hstate
    · rw [hstate]
      simp [Local.start]
    · rw [hstate]
      simp [Local.start, Event.deadline?]

end Sites

section Conversions

/-- The product of all conversions. -/
theorem toInt_nanoseconds (timeout : OsTimeout) :
    (timeout * osConfigClockTickNanoseconds).toInt = (timeout.toInt * 1000000).bmod (2 ^ 32) := by
  rw [Int32.toInt_mul]
  rfl

/-- The product is exact up to 2147 ticks. -/
theorem toInt_nanoseconds_of_le {timeout : OsTimeout} (hnonneg : 0 ≤ timeout.toInt)
    (hle : timeout.toInt ≤ 2147) :
    (timeout * osConfigClockTickNanoseconds).toInt = timeout.toInt * 1000000 := by
  rw [toInt_nanoseconds]
  exact Int.bmod_eq_of_le (by omega) (by omega)

/-- The signed conversion splits the product towards zero. -/
theorem osQueueReceiveDeadline_parts (timeout : OsTimeout) :
    (osQueueReceiveDeadline timeout).tvSec.toInt =
        (timeout * osConfigClockTickNanoseconds).toInt.tdiv 1000000000 ∧
      (osQueueReceiveDeadline timeout).tvNsec.toInt =
        (timeout * osConfigClockTickNanoseconds).toInt.tmod 1000000000 := by
  constructor
  · rw [osQueueReceiveDeadline, Int32.toInt_toInt64, Int32.toInt_div_of_ne_right _ _ (by decide)]
    rfl
  · rw [osQueueReceiveDeadline, Int32.toInt_toInt64, Int32.toInt_mod]
    rfl

/-- A signed number as an unsigned one. -/
theorem toNat_toUInt64 (n : Int64) : (n.toUInt64.toNat : ℤ) = n.toInt % 2 ^ 64 := by
  have hlt := n.toUInt64.toNat_lt
  have hbmod : n.toInt = (n.toUInt64.toNat : ℤ).bmod (2 ^ 64) := BitVec.toInt_eq_toNat_bmod ..
  rw [hbmod, Int.emod_def, Int.bmod_def]
  omega

/-- A small unsigned number as a signed one. -/
theorem toInt_toInt64_of_lt {n : UInt64} (h : n.toNat < 2 ^ 63) : n.toInt64.toInt = n.toNat := by
  rw [← UInt64.ofNat_toNat (x := n), UInt64.toInt64_ofNat', Int64.toInt_ofNat_of_lt h,
    UInt64.ofNat_toNat]

/-- The unsigned conversion splits the product modulo 2^64. -/
theorem osTimerStartInterval_parts (timeout : OsTimeout) :
    (osTimerStartInterval timeout).tvSec.toInt =
        (timeout * osConfigClockTickNanoseconds).toInt % 2 ^ 64 / 1000000000 ∧
      (osTimerStartInterval timeout).tvNsec.toInt =
        (timeout * osConfigClockTickNanoseconds).toInt % 2 ^ 64 % 1000000000 := by
  have hsecond : osNanosecondsPerSecond.toInt64.toUInt64 = 1000000000 := by decide
  have hunsigned := toNat_toUInt64 (timeout * osConfigClockTickNanoseconds).toInt64
  rw [Int32.toInt_toInt64] at hunsigned
  have hlt := (timeout * osConfigClockTickNanoseconds).toInt64.toUInt64.toNat_lt
  have hdiv := UInt64.toNat_div (timeout * osConfigClockTickNanoseconds).toInt64.toUInt64 1000000000
  have hmod := UInt64.toNat_mod (timeout * osConfigClockTickNanoseconds).toInt64.toUInt64 1000000000
  simp only [UInt64.reduceToNat] at hdiv hmod
  constructor
  · rw [osTimerStartInterval, hsecond, toInt_toInt64_of_lt (by omega), hdiv, Int.natCast_ediv,
      hunsigned]
    rfl
  · rw [osTimerStartInterval, hsecond, toInt_toInt64_of_lt (by omega), hmod, Int.natCast_emod,
      hunsigned]
    rfl

end Conversions

section Durations

namespace OsTimedSite

/-- The duration is that of so many ticks, split into seconds and nanoseconds. -/
def Exact (site : OsTimedSite) (timeout : OsTimeout) : Prop :=
  (site.duration timeout).tvSec.toInt = timeout.toInt * 1000000 / 1000000000 ∧
    (site.duration timeout).tvNsec.toInt = timeout.toInt * 1000000 % 1000000000

/-- The total of a duration is the product, as a signed or as an unsigned number. -/
theorem total_duration (site : OsTimedSite) (timeout : OsTimeout) :
    (site.duration timeout).total = (timeout * osConfigClockTickNanoseconds).toInt ∨
      (site.duration timeout).total = (timeout * osConfigClockTickNanoseconds).toInt % 2 ^ 64 := by
  unfold Timespec.total
  rcases site.duration_eq timeout with h | h
  · left
    obtain ⟨hsec, hnsec⟩ := osQueueReceiveDeadline_parts timeout
    rw [h, hsec, hnsec]
    exact Int.tdiv_mul_add_tmod _ _
  · right
    obtain ⟨hsec, hnsec⟩ := osTimerStartInterval_parts timeout
    rw [h, hsec, hnsec]
    exact Int.ediv_mul_add_emod _ _

/-- Up to 2147 ticks the duration is exact. -/
theorem exact_of_le (site : OsTimedSite) {timeout : OsTimeout} (hnonneg : 0 ≤ timeout.toInt)
    (hle : timeout.toInt ≤ 2147) : site.Exact timeout := by
  have hproduct := toInt_nanoseconds_of_le hnonneg hle
  unfold Exact
  rcases site.duration_eq timeout with h | h
  · obtain ⟨hsec, hnsec⟩ := osQueueReceiveDeadline_parts timeout
    rw [h, hsec, hnsec, hproduct, Int.tdiv_eq_ediv_of_nonneg (by omega),
      Int.tmod_eq_emod_of_nonneg (by omega)]
    exact ⟨rfl, rfl⟩
  · obtain ⟨hsec, hnsec⟩ := osTimerStartInterval_parts timeout
    rw [h, hsec, hnsec, hproduct, Int.emod_eq_of_lt (by omega) (by omega)]
    exact ⟨rfl, rfl⟩

/-- An exact duration has the nanoseconds of its ticks. -/
theorem Exact.total_eq {site : OsTimedSite} {timeout : OsTimeout} (h : site.Exact timeout) :
    (site.duration timeout).total = timeout.toInt * 1000000 := by
  rw [Timespec.total, h.1, h.2]
  exact Int.ediv_mul_add_emod _ _

/-- For longer timeouts it is not: the product does not fit. -/
theorem le_of_exact {site : OsTimedSite} {timeout : OsTimeout} (h : site.Exact timeout) :
    timeout.toInt ≤ 2147 := by
  have htotal := h.total_eq
  have hlt : timeout.toInt < 2 ^ 31 := timeout.toInt_lt
  -- the product is between -2^31 and 2^31, and a negative one is huge as an unsigned number
  have hupper := (timeout * osConfigClockTickNanoseconds).toInt_lt
  have hlower := (timeout * osConfigClockTickNanoseconds).le_toInt
  rcases site.total_duration timeout with hsigned | hunsigned
  · omega
  · rcases Int.lt_or_le (timeout * osConfigClockTickNanoseconds).toInt 0 with hneg | hpos
    · rw [← Int.add_emod_right, Int.emod_eq_of_lt (by omega) (by omega)] at hunsigned
      omega
    · rw [Int.emod_eq_of_lt hpos (by omega)] at hunsigned
      omega

/-- The durations of two timeouts, the first of which is no longer than the second, are exact and in
this order exactly if the second is at most 2147 ticks. -/
theorem os_durations_exact_iff (site : OsTimedSite) (timeout₁ timeout₂ : OsTimeout)
    (hnonneg : 0 ≤ timeout₁.toInt) (hle : timeout₁.toInt ≤ timeout₂.toInt) :
    (site.Exact timeout₁ ∧ site.Exact timeout₂ ∧
      (site.duration timeout₁).total ≤ (site.duration timeout₂).total) ↔
        timeout₂.toInt ≤ 2147 := by
  constructor
  · rintro ⟨-, hexact, -⟩
    exact le_of_exact hexact
  · intro hshort
    have hexact₁ := site.exact_of_le hnonneg (by omega)
    have hexact₂ := site.exact_of_le (show 0 ≤ timeout₂.toInt by omega) hshort
    refine ⟨hexact₁, hexact₂, ?_⟩
    rw [hexact₁.total_eq, hexact₂.total_eq]
    omega

/-- A timeout of ten ticks and one of a second, of a semaphore. -/
theorem os_durations_exact_iff_second :
    semTake.Exact 10 ∧ semTake.Exact 1000 ∧
      (semTake.duration 10).total ≤ (semTake.duration 1000).total :=
  (os_durations_exact_iff semTake 10 1000 (by decide) (by decide)).mpr (by decide)

/-- A timeout of three seconds is shorter than one of two seconds. -/
theorem os_durations_exact_not :
    ¬∀ (site : OsTimedSite) (timeout₁ timeout₂ : OsTimeout), 0 ≤ timeout₁.toInt →
      timeout₁.toInt ≤ timeout₂.toInt → site.Exact timeout₁ ∧ site.Exact timeout₂ ∧
        (site.duration timeout₁).total ≤ (site.duration timeout₂).total := by
  intro h
  obtain ⟨-, -, hle⟩ := h semTake 2000 3000 (by decide) (by decide)
  exact absurd hle (by decide)

end OsTimedSite

end Durations

section Deadlines

namespace OsTimedSite

/-- The parts of a deadline that is counted from the clock reading: the nanoseconds are not carried
to the seconds. -/
theorem passes_parts {site : OsTimedSite} (hclock : site.ReadsClock) {now : Timespec}
    (hnow : now.Normalized) {timeout : OsTimeout} (hnonneg : 0 ≤ timeout.toInt)
    (hle : timeout.toInt ≤ 2147) :
    (site.passes now timeout).tvSec.toInt =
        (now.tvSec.toInt + timeout.toInt / 1000).bmod (2 ^ 64) ∧
      (site.passes now timeout).tvNsec.toInt =
        now.tvNsec.toInt + timeout.toInt % 1000 * 1000000 := by
  obtain ⟨hsec, hnsec⟩ := site.exact_of_le hnonneg hle
  obtain ⟨hpos, hlt⟩ := hnow
  rw [passes_of_readsClock hclock, Int64.toInt_add, Int64.toInt_add, hsec, hnsec]
  constructor
  · congr 2
    omega
  · rw [Int.bmod_eq_of_le (by omega) (by omega)]
    omega

/-- The deadline that a call passes is a valid time, so that no primitive refuses it, and is its
timeout from now on. -/
structure DeadlineRight (site : OsTimedSite) (now : Timespec) (timeout : OsTimeout) : Prop where
  valid : (site.passes now timeout).Normalized
  accepted : (site.passes now timeout).refusal = none
  total : (site.passes now timeout).total = now.total + timeout.toInt * 1000000

/-- Seconds that cannot be told wrap to fewer. -/
theorem le_bmod_iff {seconds : ℤ} (hlower : -2 ^ 63 ≤ seconds) (hupper : seconds < 2 ^ 64) :
    seconds ≤ seconds.bmod (2 ^ 64) ↔ seconds < 2 ^ 63 := by
  constructor
  · intro hle
    by_contra hoverflow
    have hwrapped : seconds.bmod (2 ^ 64) = seconds - 2 ^ 64 := by
      rw [Int.bmod_def]
      omega
    omega
  · intro hfits
    exact Int.le_of_eq (Int.bmod_eq_of_le (by omega) (by omega)).symm

/-- A deadline that is counted from the clock reading is right exactly if its seconds can be told
and its nanoseconds make out no second. -/
theorem os_deadlines_right_iff (site : OsTimedSite) (hclock : site.ReadsClock) (now : Timespec)
    (hnow : now.Normalized) (timeout : OsTimeout) (hnonneg : 0 ≤ timeout.toInt)
    (hle : timeout.toInt ≤ 2147) :
    site.DeadlineRight now timeout ↔ now.tvSec.toInt + timeout.toInt / 1000 < 2 ^ 63 ∧
      now.tvNsec.toInt + timeout.toInt % 1000 * 1000000 < 1000000000 := by
  obtain ⟨hsec, hnsec⟩ := passes_parts hclock hnow hnonneg hle
  have hlower := now.tvSec.le_toInt
  have hupper := now.tvSec.toInt_lt
  have hpos := hnow.1
  constructor
  · rintro ⟨hvalid, -, htotal⟩
    rw [Timespec.Normalized, hnsec] at hvalid
    rw [Timespec.total, Timespec.total, hsec, hnsec] at htotal
    exact ⟨(le_bmod_iff (by omega) (by omega)).mp (by omega), hvalid.2⟩
  · rintro ⟨hfits, hcarry⟩
    rw [Int.bmod_eq_of_le (by omega) (by omega)] at hsec
    have hvalid : (site.passes now timeout).Normalized := by
      rw [Timespec.Normalized, hnsec]
      omega
    refine ⟨hvalid, if_pos hvalid, ?_⟩
    rw [Timespec.total, Timespec.total, hsec, hnsec]
    omega

/-- A delay of ten ticks at the beginning of a second. -/
theorem os_deadlines_right_iff_ten_ticks : taskDelay.DeadlineRight ⟨5, 0⟩ 10 :=
  (os_deadlines_right_iff taskDelay trivial ⟨5, 0⟩ (by decide) 10 (by decide) (by decide)).mpr
    (by decide)

/-- The same delay at the end of a second: the deadline has more nanoseconds than a second. -/
theorem os_deadlines_right_not :
    ¬∀ (site : OsTimedSite) (now : Timespec) (timeout : OsTimeout), site.ReadsClock →
      now.Normalized → 0 ≤ timeout.toInt → timeout.toInt ≤ 2147 →
        site.DeadlineRight now timeout := by
  intro h
  have hright := h taskDelay ⟨5, 995000000⟩ 10 trivial (by decide) (by decide) (by decide)
  exact absurd hright.valid (by decide)

/-- The calls that may report a timeout: those on queues, mutexes and semaphores. -/
abbrev Blocking : Type := { site : OsTimedSite // site ≠ .taskDelay ∧ site ≠ .timerStart }

/-- The deadline that a call passes is no earlier than its timeout from now on. A primitive times
out when the clock has come to the deadline, so no timeout is reported before. -/
structure Waits (site : OsTimedSite) (now : Timespec) (timeout : OsTimeout) : Prop where
  deadline : now.total + timeout.toInt * 1000000 ≤ (site.passes now timeout).total
  timedOut : ∀ later : Timespec, (site.passes now timeout).total ≤ later.total →
    timeout.toInt * 1000000 ≤ later.total - now.total

/-- A call waits for its timeout exactly if it reads the clock, and the seconds of its deadline can
be told, or if the clock is not past zero. -/
theorem os_timeouts_waited_iff (call : Blocking) (now : Timespec) (hnow : now.Normalized)
    (timeout : OsTimeout) (hpos : 1 ≤ timeout.toInt) (hle : timeout.toInt ≤ 2147) :
    call.1.Waits now timeout ↔
      if call.1.ReadsClock then now.tvSec.toInt + timeout.toInt / 1000 < 2 ^ 63
      else now.total ≤ 0 := by
  obtain ⟨site, -⟩ := call
  have hdeadline : site.Waits now timeout ↔
      now.total + timeout.toInt * 1000000 ≤ (site.passes now timeout).total := by
    refine ⟨Waits.deadline, fun h => ⟨h, fun later hlater => ?_⟩⟩
    omega
  rw [hdeadline]
  by_cases hclock : site.ReadsClock
  · obtain ⟨hsec, hnsec⟩ := passes_parts hclock hnow (by omega) hle
    have hlower := now.tvSec.le_toInt
    have hupper := now.tvSec.toInt_lt
    rw [if_pos hclock, ← le_bmod_iff (by omega) (by omega), Timespec.total, Timespec.total, hsec,
      hnsec]
    -- the nanoseconds are the same on both sides
    omega
  · rw [if_neg hclock, passes_of_not_readsClock hclock,
      (site.exact_of_le (by omega) hle).total_eq]
    omega

/-- A semaphore is waited for. -/
theorem os_timeouts_waited_iff_semaphore : semTake.Waits ⟨5, 0⟩ 10 :=
  (os_timeouts_waited_iff ⟨semTake, by decide⟩ ⟨5, 0⟩ (by decide) 10 (by decide)
    (by decide)).mpr (by decide)

/-- A receive from a message queue passes on the timeout by itself, which has long passed. -/
theorem os_timeouts_waited_not :
    ¬∀ (call : Blocking) (now : Timespec) (timeout : OsTimeout), now.Normalized →
      1 ≤ timeout.toInt → timeout.toInt ≤ 2147 → call.1.Waits now timeout := by
  intro h
  have hwaits := h ⟨queueReceive, by decide⟩ ⟨5, 0⟩ 10 (by decide) (by decide) (by decide)
  exact absurd hwaits.deadline (by decide)

end OsTimedSite

end Deadlines

end Protoflight
