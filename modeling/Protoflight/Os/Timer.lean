import Mathlib.Tactic.Common
import Protoflight.Os.Types

/-!
# Starting a timer

`os_timer_start`, with the primitives of POSIX timers and signals that it calls. These
return zero, or -1 for a failure.
-/

namespace Protoflight

/-- `OS_Timer`, with callbacks of type `G`. The timer of the kernel is part of the world. -/
structure OsTimer (G : Type) where
  signal : Int32
  callback : Option G
  argument : UInt64
  timeout : OsTimeout

/-- What the primitives return to `os_timer_start`. -/
structure OsTimerAnswers where
  sigaddset : ℤ
  sigaction : ℤ
  timerSettime : ℤ

/-- The primitives return zero or -1. -/
structure OsTimerAnswers.Conventional (env : OsTimerAnswers) : Prop where
  sigaddset : env.sigaddset = 0 ∨ env.sigaddset = -1
  sigaction : env.sigaction = 0 ∨ env.sigaction = -1
  timerSettime : env.timerSettime = 0 ∨ env.timerSettime = -1

/-- None of the primitives fails. -/
structure OsTimerAnswers.AllSucceed (env : OsTimerAnswers) : Prop where
  sigaddset : env.sigaddset = 0
  sigaction : env.sigaction = 0
  timerSettime : env.timerSettime = 0

/-- The interval that `os_timer_start` makes out of a timeout. -/
def osTimerStartInterval (timeout : OsTimeout) : Timespec :=
  let nanoseconds := (timeout * osConfigClockTickNanoseconds).toInt64.toUInt64
  let second := osNanosecondsPerSecond.toInt64.toUInt64
  { tvSec := (nanoseconds / second).toInt64
    tvNsec := (nanoseconds % second).toInt64 }

/-- What `timer_settime` arms the timer of the kernel with when it returns a code: a time
of zero disarms it. -/
def timerSettime (code : ℤ) (interval : Timespec) : Option Timespec :=
  if code = 0 ∧ interval ≠ ⟨0, 0⟩ then some interval else none

variable {G : Type}

/-- `os_timer_start`, of what the pointer `timer` points to or of NULL. The second
component is what it points to afterwards, the third the interval that the timer has been
armed with, if it has. -/
def osTimerStart (timer : Option (OsTimer G)) (callback : Option G) (argument : UInt64)
    (timeout : OsTimeout) (env : OsTimerAnswers) :
    OsResult × Option (OsTimer G) × Option Timespec := Id.run do
  let mut result := OsResult.okay
  let mut timer := timer
  let mut armed := none
  if timer.isNone ∨ callback.isNone then
    result := .nullPointer
  if result = .okay then
    timer := timer.map fun timer =>
      { timer with callback := callback, argument := argument, timeout := timeout }
    if env.sigaddset < 0 then
      result := .error
  if result = .okay then
    if env.sigaction < 0 then
      result := .error
  if result = .okay then
    armed := timerSettime env.timerSettime (osTimerStartInterval timeout)
    if env.timerSettime < 0 then
      result := .error
  return (result, timer, armed)

/-- Starting sets the timer whether or not it succeeds; its timer of the kernel is set only after
the handler of the signal has been. -/
theorem osTimerStart_some (timer : OsTimer G) (callback : G) (argument : UInt64)
    (timeout : OsTimeout) (env : OsTimerAnswers) :
    osTimerStart (some timer) (some callback) argument timeout env =
      (if env.sigaddset < 0 ∨ env.sigaction < 0 ∨ env.timerSettime < 0 then .error else .okay,
        some { timer with callback := some callback, argument := argument, timeout := timeout },
        if env.sigaddset < 0 ∨ env.sigaction < 0 then none
        else timerSettime env.timerSettime (osTimerStartInterval timeout)) := by
  unfold osTimerStart
  by_cases hset : env.sigaddset < 0
  · simp [hset]
  · by_cases haction : env.sigaction < 0
    · simp [hset, haction]
    · by_cases hsettime : env.timerSettime < 0 <;> simp [hset, haction, hsettime]

/-- A timer that is started for a time above zero is armed, and reported as started, exactly
if none of the primitives fails. -/
theorem osTimerStart_eq (timer : OsTimer G) (callback : G) (argument : UInt64)
    (timeout : OsTimeout) {env : OsTimerAnswers} (henv : env.Conventional)
    (htimeout : osTimerStartInterval timeout ≠ ⟨0, 0⟩) :
    ∃ timer', osTimerStart (some timer) (some callback) argument timeout env =
      (.okay, timer', some (osTimerStartInterval timeout)) ∧ env.AllSucceed ∨
      osTimerStart (some timer) (some callback) argument timeout env = (.error, timer', none) ∧
        ¬env.AllSucceed := by
  refine ⟨some { timer with callback := some callback, argument := argument, timeout := timeout },
    ?_⟩
  rw [osTimerStart_some]
  obtain ⟨hset, haction, hsettime⟩ := henv
  by_cases hall : env.AllSucceed
  · left
    exact ⟨by simp [timerSettime, hall.sigaddset, hall.sigaction, hall.timerSettime, htimeout],
      hall⟩
  · right
    have hfails : env.sigaddset < 0 ∨ env.sigaction < 0 ∨ env.timerSettime < 0 := by
      by_contra hnone
      exact hall ⟨by omega, by omega, by omega⟩
    refine ⟨?_, hall⟩
    rw [if_pos hfails]
    split
    · rfl
    · rw [timerSettime, if_neg fun h => by omega]

end Protoflight
