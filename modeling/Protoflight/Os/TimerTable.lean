import Mathlib.Data.Nat.Notation
import Mathlib.Logic.Function.Basic
import Protoflight.Os.Timer

/-!
# The table of the timers

`os_timer_create` gives each timer a signal of its own and notes the timer in a table. What it
compares with the last signal is the number of timers so far, which is not a signal. A write
outside the table is a fault.
-/

namespace Protoflight

/-- `OS_MAX_TIMERS` -/
def osMaxTimers : ℕ := 32

/-- The signals that are free for applications. -/
structure RealTimeSignals where
  /-- `SIGRTMIN` -/
  sigrtmin : Int32
  /-- `SIGRTMAX` -/
  sigrtmax : Int32
  sigrtmin_pos : 0 < sigrtmin.toInt
  sigrtmin_le : sigrtmin.toInt ≤ sigrtmax.toInt

/-- How many signals these are. -/
def RealTimeSignals.count (S : RealTimeSignals) : ℤ := S.sigrtmax.toInt - S.sigrtmin.toInt + 1

/-- `OS_Timer`, with what tells its timer of the kernel. -/
structure OsTimerObject (G : Type) extends OsTimer G where
  /-- The field `timer`. -/
  timer : ℕ

/-- The data of `os_timer.c`, and the timers that it works on. -/
structure OsTimers (G : Type) where
  /-- `gvOS_currentSignal` -/
  currentSignal : Int32
  /-- `gvOS_timers`: the array of `OS_MAX_TIMERS` pointers, each of them an address or nothing
  for NULL. -/
  timers : ℕ → Option ℕ
  /-- The timer objects, by their address. -/
  objects : ℕ → OsTimerObject G
  /-- The interval that a timer of the kernel is armed with, if it is. -/
  armed : ℕ → Option Timespec

/-- A write outside the table of the timers, with its index. -/
inductive OsTimerFault where
  | timers (index : ℤ)
  deriving DecidableEq, Repr

variable {G : Type}

namespace OsTimers

/-- The index is inside the table. -/
def InRange (index : Int32) : Prop := 0 ≤ index.toInt ∧ index.toInt < osMaxTimers

instance (index : Int32) : Decidable (InRange index) := inferInstanceAs (Decidable (_ ∧ _))

/-- Assign `gvOS_timers[index]`. -/
def setTimer (s : OsTimers G) (index : Int32) (timer : ℕ) : Except OsTimerFault (OsTimers G) :=
  if InRange index then
    pure { s with timers := Function.update s.timers index.toInt.toNat (some timer) }
  else throw (.timers index.toInt)

/-- The object at an address becomes another one. -/
def setObject (s : OsTimers G) (timer : ℕ) (object : OsTimerObject G) : OsTimers G :=
  { s with objects := Function.update s.objects timer object }

/-- Nothing has been created yet, and the objects are filled with zeroes. -/
def initial : OsTimers G where
  currentSignal := 0
  timers _ := none
  objects _ := { signal := 0, callback := none, argument := 0, timeout := 0, timer := 0 }
  armed _ := none

end OsTimers

/-- What `timer_create` returns, and the timer of the kernel that there is if this is zero. -/
structure TimerCreateAnswer where
  retCode : ℤ
  timer : ℕ

section Create

variable (S : RealTimeSignals)

/-- `os_timer_create`, of the timer at an address or of NULL. -/
def osTimerCreate (timer : Option ℕ) (answer : TimerCreateAnswer) (s : OsTimers G) :
    Except OsTimerFault (OsResult × OsTimers G) := do
  match timer with
  | none => return (.nullPointer, s)
  | some timer =>
    if s.currentSignal = S.sigrtmax then
      return (.maxTimersReached, s)
    else if answer.retCode = 0 then
      let created : OsTimers G := { s with armed := Function.update s.armed answer.timer none }
      let noted ← (created.setObject timer
        { s.objects timer with
          timer := answer.timer
          signal := s.currentSignal + S.sigrtmin }).setTimer s.currentSignal timer
      return (.okay, { noted with currentSignal := noted.currentSignal + 1 })
    else
      return (.error, s)

/-- The timers after one more has been created. -/
def OsTimers.created (s : OsTimers G) (timer : ℕ) (answer : TimerCreateAnswer) : OsTimers G where
  currentSignal := s.currentSignal + 1
  timers := Function.update s.timers s.currentSignal.toInt.toNat (some timer)
  objects := Function.update s.objects timer
    { s.objects timer with timer := answer.timer, signal := s.currentSignal + S.sigrtmin }
  armed := Function.update s.armed answer.timer none

variable {S} {timer : ℕ} {answer : TimerCreateAnswer} {s : OsTimers G}

/-- The call creates a timer, unless there is no room for it in the table. -/
def RealTimeSignals.Creates (S : RealTimeSignals) (currentSignal : Int32)
    (answer : TimerCreateAnswer) : Prop :=
  currentSignal ≠ S.sigrtmax ∧ answer.retCode = 0

instance (currentSignal : Int32) (answer : TimerCreateAnswer) :
    Decidable (S.Creates currentSignal answer) := inferInstanceAs (Decidable (_ ∧ _))

theorem osTimerCreate_created (hcreates : S.Creates s.currentSignal answer)
    (hrange : OsTimers.InRange s.currentSignal) :
    osTimerCreate S (some timer) answer s = .ok (.okay, s.created S timer answer) := by
  simp only [osTimerCreate, if_neg hcreates.1, if_pos hcreates.2, OsTimers.setTimer, if_pos hrange]
  rfl

theorem osTimerCreate_fault (hcreates : S.Creates s.currentSignal answer)
    (hrange : ¬OsTimers.InRange s.currentSignal) :
    osTimerCreate S (some timer) answer s = .error (.timers s.currentSignal.toInt) := by
  simp only [osTimerCreate, if_neg hcreates.1, if_pos hcreates.2, OsTimers.setTimer,
    if_neg hrange]
  rfl

/-- A call that creates no timer leaves everything as it is. -/
theorem osTimerCreate_refused (hcreates : ¬S.Creates s.currentSignal answer) :
    osTimerCreate S (some timer) answer s =
      .ok (if s.currentSignal = S.sigrtmax then .maxTimersReached else .error, s) := by
  by_cases hlast : s.currentSignal = S.sigrtmax
  · simp only [osTimerCreate, if_pos hlast]
    rfl
  · have hcode : answer.retCode ≠ 0 := fun hcode => hcreates ⟨hlast, hcode⟩
    simp only [osTimerCreate, if_neg hlast, if_neg hcode]
    rfl

end Create

section Signals

variable {S : RealTimeSignals}

/-- The signal is free for applications. -/
def RealTimeSignals.Free (S : RealTimeSignals) (signal : Int32) : Prop :=
  S.sigrtmin.toInt ≤ signal.toInt ∧ signal.toInt ≤ S.sigrtmax.toInt

/-- A call of `os_timer_create`, with what `timer_create` returns to it. -/
structure OsTimerCreation where
  timer : Option ℕ
  answer : TimerCreateAnswer

/-- What a call is promised to do, after so many timers have been created. -/
structure SafeCreation (S : RealTimeSignals) (created : ℕ) (timer : Option ℕ) (s : OsTimers G)
    (result : OsResult) (s' : OsTimers G) : Prop where
  counter : s'.currentSignal.toInt ≤ osMaxTimers
  free : ∀ p, timer = some p → result = .okay → S.Free (s'.objects p).signal
  usedUp : ∀ p, timer = some p → osMaxTimers ≤ created ∨ S.count ≤ created →
    result = .maxTimersReached ∧ s' = s

/-- Call after call, no write is outside the table, and each call keeps the promise. -/
def CreatesSafely (S : RealTimeSignals) : List OsTimerCreation → ℕ → OsTimers G → Prop
  | [], _, _ => True
  | call :: calls, created, s => ∃ result s',
    osTimerCreate S call.timer call.answer s = .ok (result, s') ∧
      SafeCreation S created call.timer s result s' ∧
      CreatesSafely S calls (created + if result = .okay then 1 else 0) s'

/-- A call on a timer is made only while there is a free signal for it. -/
def WithinSignals (S : RealTimeSignals) : List OsTimerCreation → ℕ → Prop
  | [], _ => True
  | call :: calls, created => (call.timer ≠ none → created < S.count) ∧
    WithinSignals S calls
      (created + if call.timer ≠ none ∧ call.answer.retCode = 0 then 1 else 0)

instance : ∀ (calls : List OsTimerCreation) (created : ℕ), Decidable (WithinSignals S calls created)
  | [], _ => isTrue trivial
  | call :: calls, created =>
    have := instDecidableWithinSignals calls
      (created + if call.timer ≠ none ∧ call.answer.retCode = 0 then 1 else 0)
    inferInstanceAs (Decidable (_ ∧ _))

/-- The last signal is not below the number of the signals. -/
theorem RealTimeSignals.count_le (S : RealTimeSignals) : S.count ≤ S.sigrtmax.toInt := by
  have hpos := S.sigrtmin_pos
  unfold count
  omega

theorem RealTimeSignals.count_eq_iff (S : RealTimeSignals) :
    S.count = S.sigrtmax.toInt ↔ S.sigrtmin = 1 := by
  rw [← Int32.toInt_inj]
  unfold count
  constructor
  · intro h
    change S.sigrtmin.toInt = 1
    omega
  · intro h
    change S.sigrtmin.toInt = 1 at h
    omega

variable {s : OsTimers G} {created : ℕ}

/-- The signal that goes with a number of timers is free if there are more signals. -/
theorem RealTimeSignals.free_of_lt {index : Int32} (hindex : index.toInt = created)
    (hlt : created < S.count) : S.Free (index + S.sigrtmin) := by
  have hmax := S.sigrtmax.toInt_lt
  have hpos := S.sigrtmin_pos
  have hcount : S.count = S.sigrtmax.toInt - S.sigrtmin.toInt + 1 := rfl
  have hsignal : (index + S.sigrtmin).toInt = created + S.sigrtmin.toInt := by
    rw [Int32.toInt_add, hindex]
    exact Int.bmod_eq_of_le (by omega) (by omega)
  unfold Free
  omega

/-- Counting a timer does not wrap while there is a signal for it. -/
theorem RealTimeSignals.toInt_add_one {index : Int32} (hindex : index.toInt = created)
    (hlt : created < S.count) : (index + 1).toInt = created + 1 := by
  have hmax := S.sigrtmax.toInt_lt
  have hcount := S.count_le
  rw [Int32.toInt_add, hindex]
  change (created + 1 : ℤ).bmod (2 ^ 32) = created + 1
  exact Int.bmod_eq_of_le (by omega) (by omega)

/-- While there is a free signal, a call on a timer does what it is promised to do. -/
theorem osTimerCreate_of_lt (hfew : S.count ≤ osMaxTimers)
    (hcounter : s.currentSignal.toInt = created) (hlt : created < S.count) (timer : ℕ)
    (answer : TimerCreateAnswer) :
    ∃ result s', osTimerCreate S (some timer) answer s = .ok (result, s') ∧
      SafeCreation S created (some timer) s result s' ∧
      (result = .okay ↔ answer.retCode = 0) ∧
      s'.currentSignal.toInt = (created + if answer.retCode = 0 then 1 else 0 : ℕ) := by
  have hcount := S.count_le
  have hne : s.currentSignal ≠ S.sigrtmax := by
    intro heq
    rw [← heq] at hcount
    omega
  have hroom : ¬(osMaxTimers ≤ created ∨ S.count ≤ created) := by omega
  by_cases hcode : answer.retCode = 0
  · have hrange : OsTimers.InRange s.currentSignal := by
      unfold OsTimers.InRange
      omega
    have hnext := RealTimeSignals.toInt_add_one hcounter hlt
    refine ⟨.okay, s.created S timer answer, osTimerCreate_created ⟨hne, hcode⟩ hrange,
      ⟨?_, ?_, fun p _ hused => absurd hused hroom⟩, by simp [hcode], ?_⟩
    · change (s.currentSignal + 1).toInt ≤ osMaxTimers
      omega
    · rintro p hp -
      cases hp
      simp only [OsTimers.created, Function.update_self]
      exact RealTimeSignals.free_of_lt hcounter hlt
    · rw [if_pos hcode]
      exact_mod_cast hnext
  · have hrefused : ¬S.Creates s.currentSignal answer := fun h => hcode h.2
    refine ⟨.error, s, by rw [osTimerCreate_refused hrefused, if_neg hne],
      ⟨by omega, fun _ _ => nofun, fun p _ hused => absurd hused hroom⟩, by simp [hcode],
      by simp [hcode, hcounter]⟩

/-- Once the free signals are used up, a call on a timer is refused as promised exactly if the
number of the signals is the last signal. -/
theorem osTimerCreate_of_eq (hcounter : s.currentSignal.toInt = created)
    (heq : created = S.count) (timer : ℕ) (answer : TimerCreateAnswer) :
    (∃ result s', osTimerCreate S (some timer) answer s = .ok (result, s') ∧
      result = .maxTimersReached ∧ s' = s) ↔ S.sigrtmin = 1 := by
  have hlast : s.currentSignal = S.sigrtmax ↔ S.sigrtmin = 1 := by
    rw [← S.count_eq_iff, ← Int32.toInt_inj, hcounter, heq]
  rw [← hlast]
  constructor
  · rintro ⟨result, s', hcall, rfl, rfl⟩
    by_cases hcreates : S.Creates s'.currentSignal answer
    · by_cases hrange : OsTimers.InRange s'.currentSignal
      · rw [osTimerCreate_created hcreates hrange] at hcall
        cases hcall
      · rw [osTimerCreate_fault hcreates hrange] at hcall
        cases hcall
    · rw [osTimerCreate_refused hcreates] at hcall
      obtain ⟨hresult, -⟩ := Prod.mk.inj (Except.ok.inj hcall)
      by_contra hne
      rw [if_neg hne] at hresult
      cases hresult
  · intro hlast
    have hrefused : ¬S.Creates s.currentSignal answer := fun h => h.1 hlast
    exact ⟨_, _, osTimerCreate_refused hrefused, if_pos hlast, rfl⟩

/-- While the numbers of the timers and of the signals are not exceeded, calls are safe from here on
exactly if those on timers stay within the signals, or the signals begin at one. -/
theorem createsSafely_iff (hfew : S.count ≤ osMaxTimers) (calls : List OsTimerCreation)
    (hcounter : s.currentSignal.toInt = created) (hle : created ≤ S.count) :
    CreatesSafely S calls created s ↔ S.sigrtmin = 1 ∨ WithinSignals S calls created := by
  induction calls generalizing s created with
  | nil => simp [CreatesSafely, WithinSignals]
  | cons call calls ih =>
    obtain ⟨timer, answer⟩ := call
    have hcounterLe : s.currentSignal.toInt ≤ osMaxTimers := by omega
    rw [CreatesSafely, WithinSignals]
    cases timer with
    | none =>
      have ih := ih hcounter hle
      simp only [ne_eq, not_true_eq_false, false_and, false_implies, true_and, if_false,
        Nat.add_zero]
      rw [← ih]
      constructor
      · rintro ⟨result, s', hcall, -, hrest⟩
        cases hcall
        exact hrest
      · intro hrest
        exact ⟨.nullPointer, s, rfl, ⟨hcounterLe, by simp, by simp⟩, hrest⟩
    | some timer =>
      rcases Int.lt_or_eq_of_le hle with hlt | heq
      · obtain ⟨result, s', hcall, hsafe, hokay, hcounter'⟩ :=
          osTimerCreate_of_lt hfew hcounter hlt timer answer
        have hle' : ((created + if answer.retCode = 0 then 1 else 0 : ℕ) : ℤ) ≤ S.count := by
          split <;> push_cast <;> omega
        have ih := ih hcounter' hle'
        simp only [ne_eq, reduceCtorEq, not_false_eq_true, true_and, hlt, true_implies]
        rw [← ih, hcall]
        simp only [← hokay]
        constructor
        · rintro ⟨result', t, heq, -, hrest⟩
          cases heq
          exact hrest
        · exact fun hrest => ⟨result, s', rfl, hsafe, hrest⟩
      · have hused : osMaxTimers ≤ created ∨ S.count ≤ created := .inr (Int.le_of_eq heq.symm)
        have hrefused := osTimerCreate_of_eq hcounter heq timer answer
        constructor
        · rintro ⟨result, s', hcall, hsafe, -⟩
          obtain ⟨hresult, hstate⟩ := hsafe.usedUp timer rfl hused
          exact .inl (hrefused.mp ⟨result, s', hcall, hresult, hstate⟩)
        · rintro (hfirst | ⟨hwithin, -⟩)
          · obtain ⟨result, s', hcall, rfl, rfl⟩ := hrefused.mpr hfirst
            refine ⟨_, _, hcall, ⟨hcounterLe, fun _ _ => nofun, fun _ _ _ => ⟨rfl, rfl⟩⟩, ?_⟩
            exact (ih hcounter hle).mpr (.inl hfirst)
          · have hlt := hwithin (by simp)
            omega

/-- Calls of `os_timer_create` are safe exactly if none on a timer follows once the free signals are
used up, or if the signals begin at one. -/
theorem os_timers_created_safely_iff (S : RealTimeSignals) (hfew : S.count ≤ osMaxTimers)
    (calls : List OsTimerCreation) (s : OsTimers G) (hstart : s.currentSignal = 0) :
    CreatesSafely S calls 0 s ↔ S.sigrtmin = 1 ∨ WithinSignals S calls 0 := by
  have hcount : (0 : ℤ) ≤ S.count := by
    have hle := S.sigrtmin_le
    unfold RealTimeSignals.count
    omega
  exact createsSafely_iff hfew calls (by rw [hstart]; rfl) hcount

/-- The signals of Linux. -/
def linuxSignals : RealTimeSignals := ⟨34, 64, by decide, by decide⟩

/-- A call whose `timer_create` fails, then calls that create a timer for each of the 31 signals,
and a call on NULL. -/
theorem os_timers_created_safely_iff_linux :
    CreatesSafely linuxSignals
      (⟨some 0, ⟨-1, 0⟩⟩ :: (List.range 31).map (fun i => ⟨some i, ⟨0, i⟩⟩) ++ [⟨none, ⟨0, 0⟩⟩]) 0
      (.initial : OsTimers Unit) :=
  (os_timers_created_safely_iff linuxSignals (by decide) _ _ rfl).mpr (.inr (by decide))

/-- After 31 timers there is no signal left, and the next call on a timer passes signal 65 to
`timer_create`. -/
theorem os_timers_created_safely_not :
    ¬∀ (S : RealTimeSignals) (calls : List OsTimerCreation), S.count ≤ osMaxTimers →
      CreatesSafely S calls 0 (.initial : OsTimers Unit) := by
  intro h
  have hsafe := h linuxSignals (List.replicate 32 ⟨some 0, ⟨0, 7⟩⟩) (by decide)
  rw [createsSafely_iff (by decide) _ rfl (by decide)] at hsafe
  exact absurd hsafe (by decide)

end Signals

end Protoflight
