import Mathlib.Data.List.Nodup
import Protoflight.Os.TimerTable

/-!
# The signals of the timers

Runs of `os_timer_create`, `os_timer_start`, `os_timer_stop` and of `os_timer_function`, which
handles the signals of all timers. The table leads from a signal to the object of its timer.
-/

namespace Protoflight

variable {G : Type}

section Functions

/-- `timer_settime` sets a timer of the kernel if it returns zero. -/
def OsTimers.setTime (s : OsTimers G) (timer : ℕ) (retCode : ℤ) (interval : Timespec) :
    OsTimers G :=
  if retCode = 0 then
    { s with armed := Function.update s.armed timer (timerSettime retCode interval) }
  else s

/-- `timer_settime` is called by `os_timer_start`. -/
def OsTimerAnswers.Sets (answers : OsTimerAnswers) : Prop :=
  0 ≤ answers.sigaddset ∧ 0 ≤ answers.sigaction

instance (answers : OsTimerAnswers) : Decidable answers.Sets := inferInstanceAs (Decidable (_ ∧ _))

/-- `os_timer_start` of the timer at an address or of NULL, with a callback. -/
def OsTimers.startTimer (timer : Option ℕ) (callback : G) (argument : UInt64)
    (timeout : OsTimeout) (answers : OsTimerAnswers) (s : OsTimers G) : OsResult × OsTimers G :=
  match timer with
  | none => ((osTimerStart none (some callback) argument timeout answers).1, s)
  | some timer =>
    let (result, object, _) :=
      osTimerStart (some (s.objects timer).toOsTimer) (some callback) argument timeout answers
    let started := s.setObject timer
      { s.objects timer with toOsTimer := object.getD (s.objects timer).toOsTimer }
    (result,
      if answers.Sets then
        started.setTime (s.objects timer).timer answers.timerSettime (osTimerStartInterval timeout)
      else started)

/-- `os_timer_stop` of the timer at an address or of NULL, with what `timer_settime` returns. -/
def osTimerStop (timer : Option ℕ) (retCode : ℤ) (s : OsTimers G) : OsResult × OsTimers G :=
  match timer with
  | none => (.nullPointer, s)
  | some timer =>
    (if retCode = -1 then .error else .okay, s.setTime (s.objects timer).timer retCode ⟨0, 0⟩)

theorem OsTimers.setTime_eq (s : OsTimers G) (timer : ℕ) (retCode : ℤ) (interval : Timespec) :
    ∃ armed, s.setTime timer retCode interval = { s with armed := armed } := by
  unfold setTime
  split
  · exact ⟨_, rfl⟩
  · exact ⟨s.armed, rfl⟩

/-- Stopping sets nothing but the timer of the kernel. -/
theorem osTimerStop_eq (timer : Option ℕ) (retCode : ℤ) (s : OsTimers G) :
    ∃ armed, (osTimerStop timer retCode s).2 = { s with armed := armed } := by
  cases timer with
  | none => exact ⟨s.armed, rfl⟩
  | some timer => exact s.setTime_eq (s.objects timer).timer retCode ⟨0, 0⟩

/-- Starting sets the object, and nothing else but the timer of the kernel. -/
theorem OsTimers.startTimer_eq (timer : ℕ) (callback : G) (argument : UInt64)
    (timeout : OsTimeout) (answers : OsTimerAnswers) (s : OsTimers G) :
    ∃ armed, (s.startTimer (some timer) callback argument timeout answers).2 =
      { s with
        objects := Function.update s.objects timer { s.objects timer with
          callback := some callback, argument := argument, timeout := timeout }
        armed := armed } := by
  unfold startTimer
  simp only [osTimerStart_some, Option.getD_some]
  split
  · exact setTime_eq _ _ _ _
  · exact ⟨s.armed, rfl⟩

variable (S : RealTimeSignals)

/-- `os_timer_function`, with what the callback returns that it calls and what `timer_settime`
returns then. The first component lists the callbacks that are called, with their arguments. -/
def osTimerFunction (signal : Int32) (restartRequested : Bool) (retCode : ℤ) (s : OsTimers G) :
    List (G × UInt64) × OsTimers G :=
  let timerIndex := signal - S.sigrtmin
  if OsTimers.InRange timerIndex then
    match s.timers timerIndex.toInt.toNat with
    | none => ([], s)
    | some timer =>
      match (s.objects timer).callback with
      | none => ([], s)
      | some callback =>
        ([(callback, (s.objects timer).argument)],
          if restartRequested then s else (osTimerStop (some timer) retCode s).2)
  else ([], s)

/-- A signal sets nothing but the timer of the kernel. -/
theorem osTimerFunction_eq (signal : Int32) (restartRequested : Bool) (retCode : ℤ)
    (s : OsTimers G) :
    ∃ armed, (osTimerFunction S signal restartRequested retCode s).2 =
      { s with armed := armed } := by
  unfold osTimerFunction
  dsimp only
  split
  · split
    · exact ⟨s.armed, rfl⟩
    · split
      · exact ⟨s.armed, rfl⟩
      · cases restartRequested with
        | true => exact ⟨s.armed, rfl⟩
        | false => exact osTimerStop_eq _ retCode s
  · exact ⟨s.armed, rfl⟩

end Functions

section Runs

/-- A call of a function of the timers, or a signal. -/
inductive OsTimerCall (G : Type) where
  | create (timer : Option ℕ) (answer : TimerCreateAnswer)
  | start (timer : Option ℕ) (callback : G) (argument : UInt64) (timeout : OsTimeout)
    (answers : OsTimerAnswers)
  | stop (timer : Option ℕ) (retCode : ℤ)
  | delivered (signal : Int32) (restartRequested : Bool) (retCode : ℤ)

/-- A timer that has been created, with its timer of the kernel. -/
structure CreatedTimer where
  /-- The address of the object. -/
  timer : ℕ
  kernel : ℕ
  deriving DecidableEq

variable (S : RealTimeSignals)

namespace OsTimerCall

/-- What a call makes of the timers. -/
def run : OsTimerCall G → OsTimers G → Except OsTimerFault (OsTimers G)
  | .create timer answer, s => do
    let (_, s) ← osTimerCreate S timer answer s
    return s
  | .start timer callback argument timeout answers, s =>
    return (s.startTimer timer callback argument timeout answers).2
  | .stop timer retCode, s => return (osTimerStop timer retCode s).2
  | .delivered signal restartRequested retCode, s =>
    return (osTimerFunction S signal restartRequested retCode s).2

/-- Calls one after another. -/
def runAll : List (OsTimerCall G) → OsTimers G → Except OsTimerFault (OsTimers G)
  | [], s => return s
  | call :: calls, s => do
    let s ← call.run S s
    runAll calls s

/-- The timer that a call creates, if it creates one. -/
def created (currentSignal : Int32) : OsTimerCall G → List CreatedTimer
  | .create (some timer) answer =>
    if S.Creates currentSignal answer then [⟨timer, answer.timer⟩] else []
  | .create none _ | .start .. | .stop .. | .delivered .. => []

/-- The timers that calls create one after another. -/
def createdAll : List (OsTimerCall G) → Int32 → List CreatedTimer
  | [], _ => []
  | call :: calls, currentSignal =>
    call.created S currentSignal ++
      createdAll calls (currentSignal + Int32.ofNat (call.created S currentSignal).length)

/-- The callback and the argument that a call sets for a timer, if it does. -/
def started (timer : ℕ) : OsTimerCall G → Option (G × UInt64)
  | .start (some started) callback argument _ _ =>
    if started = timer then some (callback, argument) else none
  | .create .. | .start none .. | .stop .. | .delivered .. => none

/-- The callback and the argument that have been set last for a timer. -/
def latestStart (timer : ℕ) (calls : List (OsTimerCall G)) : Option (G × UInt64) :=
  (calls.filterMap (started timer)).getLast?

end OsTimerCall

/-- The timers are different objects, no more than there is room for, and have different timers of
the kernel, as `timer_create` sees to. -/
structure DistinctTimers (created : List CreatedTimer) : Prop where
  timers : (created.map CreatedTimer.timer).Nodup
  kernels : (created.map CreatedTimer.kernel).Nodup
  length_le : created.length ≤ osMaxTimers

theorem DistinctTimers.of_append {created rest : List CreatedTimer}
    (h : DistinctTimers (created ++ rest)) : DistinctTimers created where
  timers := (List.nodup_append.mp (List.map_append ▸ h.timers)).1
  kernels := (List.nodup_append.mp (List.map_append ▸ h.kernels)).1
  length_le := by
    have hle := h.length_le
    rw [List.length_append] at hle
    omega

end Runs

section Invariant

open OsTimerCall

variable {S : RealTimeSignals}

/-- The table and the objects go with the timers that have been created and with the calls that
have been made. -/
structure OsTimers.Follows (S : RealTimeSignals) (created : List CreatedTimer)
    (calls : List (OsTimerCall G)) (s : OsTimers G) : Prop where
  counter : s.currentSignal = Int32.ofNat created.length
  table : ∀ i : ℕ, s.timers i = created[i]?.map CreatedTimer.timer
  signal : ∀ (i : ℕ) t, created[i]? = some t →
    (s.objects t.timer).signal = Int32.ofNat i + S.sigrtmin
  kernel : ∀ t ∈ created, (s.objects t.timer).timer = t.kernel
  callback : ∀ timer, (s.objects timer).callback = (latestStart timer calls).map Prod.fst
  argument : ∀ timer start, latestStart timer calls = some start →
    (s.objects timer).argument = start.2

theorem OsTimers.follows_initial : (OsTimers.initial : OsTimers G).Follows S [] [] where
  counter := rfl
  table _ := rfl
  signal _ _ := nofun
  kernel _ := nofun
  callback _ := rfl
  argument _ _ := nofun

/-- One more call counts for a timer if it starts it. -/
theorem OsTimerCall.latestStart_concat (timer : ℕ) (calls : List (OsTimerCall G))
    (call : OsTimerCall G) :
    latestStart timer (calls ++ [call]) = (call.started timer).or (latestStart timer calls) := by
  unfold latestStart
  rw [List.filterMap_append, List.getLast?_append]
  cases hstarted : call.started timer <;> simp [hstarted]

variable {created : List CreatedTimer} {calls : List (OsTimerCall G)} {s : OsTimers G}

/-- A call that creates no timer, leaves the table and the handles alone, and sets the callbacks
that it starts timers with. -/
theorem OsTimers.Follows.keeps (h : s.Follows S created calls) {call : OsTimerCall G}
    {s' : OsTimers G} (hcounter : s'.currentSignal = s.currentSignal)
    (htimers : s'.timers = s.timers)
    (hobjects : ∀ timer, (s'.objects timer).signal = (s.objects timer).signal ∧
      (s'.objects timer).timer = (s.objects timer).timer ∧
      ∀ start, call.started timer = some start →
        (s'.objects timer).callback = some start.1 ∧ (s'.objects timer).argument = start.2)
    (hothers : ∀ timer, call.started timer = none → s'.objects timer = s.objects timer) :
    s'.Follows S created (calls ++ [call]) where
  counter := hcounter.trans h.counter
  table i := by rw [htimers, h.table]
  signal i t hi := by rw [(hobjects t.timer).1, h.signal i t hi]
  kernel t hmem := by rw [(hobjects t.timer).2.1, h.kernel t hmem]
  callback timer := by
    rw [latestStart_concat]
    cases hstarted : call.started timer with
    | none => rw [hothers timer hstarted, h.callback, Option.none_or]
    | some start =>
      rw [((hobjects timer).2.2 start hstarted).1]
      rfl
  argument timer start hstart := by
    rw [latestStart_concat] at hstart
    cases hstarted : call.started timer with
    | none =>
      rw [hstarted, Option.none_or] at hstart
      rw [hothers timer hstarted, h.argument timer start hstart]
    | some started =>
      rw [hstarted] at hstart
      cases hstart
      exact ((hobjects timer).2.2 start hstarted).2

/-- A call that only sets timers of the kernel. -/
theorem OsTimers.Follows.keeps_armed (h : s.Follows S created calls) {call : OsTimerCall G}
    (hstarted : ∀ timer, call.started timer = none) (armed : ℕ → Option Timespec) :
    ({ s with armed := armed } : OsTimers G).Follows S created (calls ++ [call]) :=
  h.keeps rfl rfl (fun timer => ⟨rfl, rfl, fun start hsome => by
    rw [hstarted timer] at hsome
    cases hsome⟩) fun _ _ => rfl

theorem toNat_toInt_counter {n : ℕ} (hn : n ≤ osMaxTimers) : (Int32.ofNat n).toInt = n := by
  unfold osMaxTimers at hn
  exact Int32.toInt_ofNat_of_lt (by omega)

/-- A timer that is created is noted in the table, at the end. -/
theorem OsTimers.Follows.creates (h : s.Follows S created calls) {timer : ℕ}
    {answer : TimerCreateAnswer} (hnew : timer ∉ created.map CreatedTimer.timer)
    (hlength : created.length < osMaxTimers) :
    (s.created S timer answer).Follows S (created ++ [⟨timer, answer.timer⟩])
      (calls ++ [.create (some timer) answer]) := by
  have hindex : s.currentSignal.toInt.toNat = created.length := by
    rw [h.counter, toNat_toInt_counter (Nat.le_of_lt hlength)]
    rfl
  have hne : ∀ t ∈ created, t.timer ≠ timer := fun t hmem heq =>
    hnew (heq ▸ List.mem_map_of_mem hmem)
  have hstart : ∀ p, ((s.created S timer answer).objects p).callback = (s.objects p).callback ∧
      ((s.created S timer answer).objects p).argument = (s.objects p).argument := by
    intro p
    simp only [OsTimers.created]
    by_cases heq : p = timer
    · rw [heq, Function.update_self]
      exact ⟨rfl, rfl⟩
    · rw [Function.update_of_ne heq]
      exact ⟨rfl, rfl⟩
  have hstarted : ∀ p, latestStart p (calls ++ [.create (some timer) answer]) =
      latestStart p calls := fun p => by
    rw [latestStart_concat]
    rfl
  constructor
  case counter =>
    rw [List.length_append, List.length_singleton, Int32.ofNat_add, ← h.counter]
    rfl
  case table =>
    intro i
    simp only [OsTimers.created, hindex]
    rcases Nat.lt_trichotomy i created.length with hlt | rfl | hgt
    · rw [Function.update_of_ne (Nat.ne_of_lt hlt), h.table, List.getElem?_append_left hlt]
    · rw [Function.update_self, List.getElem?_concat_length]
      rfl
    · rw [Function.update_of_ne (Nat.ne_of_gt hgt), h.table,
        List.getElem?_eq_none (Nat.le_of_lt hgt),
        List.getElem?_eq_none (by rw [List.length_append, List.length_singleton]; omega)]
  case signal =>
    intro i t hi
    simp only [OsTimers.created]
    rcases Nat.lt_or_ge i created.length with hlt | hge
    · rw [List.getElem?_append_left hlt] at hi
      rw [Function.update_of_ne (hne t (List.mem_of_getElem? hi)), h.signal i t hi]
    · rw [List.getElem?_append_right hge, List.getElem?_singleton] at hi
      split at hi
      next hzero =>
        cases hi
        have hlast : i = created.length := by omega
        rw [Function.update_self, h.counter, hlast]
      next => cases hi
  case kernel =>
    intro t hmem
    simp only [OsTimers.created]
    rcases List.mem_append.mp hmem with hmem | hmem
    · rw [Function.update_of_ne (hne t hmem), h.kernel t hmem]
    · rw [List.mem_singleton.mp hmem, Function.update_self]
  case callback =>
    exact fun p => (hstart p).1.trans ((h.callback p).trans (hstarted p ▸ rfl))
  case argument =>
    exact fun p start hlatest => (hstart p).2.trans (h.argument p start (hstarted p ▸ hlatest))

/-- What a call does: it creates its timer, if it creates one, and the state goes with this. -/
theorem OsTimers.Follows.run (h : s.Follows S created calls) (call : OsTimerCall G)
    (hdistinct : DistinctTimers (created ++ call.created S s.currentSignal)) :
    ∃ s', call.run S s = .ok s' ∧
      s'.Follows S (created ++ call.created S s.currentSignal) (calls ++ [call]) := by
  cases call with
  | create timer answer =>
    have hkept : s.Follows S created (calls ++ [.create timer answer]) :=
      h.keeps_armed (fun _ => rfl) s.armed
    cases timer with
    | none =>
      rw [OsTimerCall.created, List.append_nil]
      exact ⟨s, rfl, hkept⟩
    | some timer =>
      rw [OsTimerCall.created] at hdistinct ⊢
      by_cases hcreates : S.Creates s.currentSignal answer
      · rw [if_pos hcreates] at hdistinct ⊢
        have hlength : created.length < osMaxTimers := by
          have hle := hdistinct.length_le
          rw [List.length_append, List.length_singleton] at hle
          omega
        have hnew : timer ∉ created.map CreatedTimer.timer := by
          have hnodup := hdistinct.timers
          rw [List.map_append] at hnodup
          exact fun hmem => (List.disjoint_of_nodup_append hnodup) hmem List.mem_cons_self
        have hrange : InRange s.currentSignal := by
          rw [InRange, h.counter, toNat_toInt_counter (Nat.le_of_lt hlength)]
          omega
        refine ⟨s.created S timer answer, ?_, h.creates hnew hlength⟩
        rw [OsTimerCall.run, osTimerCreate_created hcreates hrange]
        rfl
      · rw [if_neg hcreates, List.append_nil]
        refine ⟨s, ?_, hkept⟩
        rw [OsTimerCall.run, osTimerCreate_refused hcreates]
        rfl
  | start timer callback argument timeout answers =>
    rw [OsTimerCall.created, List.append_nil]
    refine ⟨_, rfl, ?_⟩
    cases timer with
    | none => exact h.keeps_armed (fun _ => rfl) s.armed
    | some timer =>
      obtain ⟨armed, harmed⟩ := s.startTimer_eq timer callback argument timeout answers
      rw [harmed]
      refine h.keeps rfl rfl (fun p => ?_) fun p hstarted => ?_
      · by_cases heq : timer = p
        · subst heq
          simp [OsTimerCall.started]
        · simp [OsTimerCall.started, heq, Function.update_of_ne (Ne.symm heq)]
      · have hne : p ≠ timer := by
          rintro rfl
          simp [OsTimerCall.started] at hstarted
        exact Function.update_of_ne hne _ _
  | stop timer retCode =>
    obtain ⟨armed, harmed⟩ := osTimerStop_eq timer retCode s
    rw [OsTimerCall.created, List.append_nil]
    exact ⟨_, rfl, harmed ▸ h.keeps_armed (fun _ => rfl) armed⟩
  | delivered signal restartRequested retCode =>
    obtain ⟨armed, harmed⟩ := osTimerFunction_eq S signal restartRequested retCode s
    rw [OsTimerCall.created, List.append_nil]
    exact ⟨_, rfl, harmed ▸ h.keeps_armed (fun _ => rfl) armed⟩

/-- What calls do one after another. -/
theorem OsTimers.Follows.runAll (h : s.Follows S created calls) (rest : List (OsTimerCall G))
    (hdistinct : DistinctTimers (created ++ createdAll S rest s.currentSignal)) :
    ∃ s', OsTimerCall.runAll S rest s = .ok s' ∧
      s'.Follows S (created ++ createdAll S rest s.currentSignal) (calls ++ rest) := by
  induction rest generalizing s created calls with
  | nil => exact ⟨s, rfl, by simpa [createdAll] using h⟩
  | cons call rest ih =>
    rw [createdAll, ← List.append_assoc] at hdistinct ⊢
    obtain ⟨s₁, hrun, hfollows⟩ := h.run call hdistinct.of_append
    have hcounter : s₁.currentSignal =
        s.currentSignal + Int32.ofNat (call.created S s.currentSignal).length := by
      rw [hfollows.counter, h.counter, List.length_append, Int32.ofNat_add]
    rw [← hcounter] at hdistinct ⊢
    obtain ⟨s', hrunAll, hfollows'⟩ := ih hfollows hdistinct
    refine ⟨s', ?_, ?_⟩
    · rw [OsTimerCall.runAll, hrun]
      exact hrunAll
    · rwa [List.append_assoc _ [call]] at hfollows'

end Invariant

section Dispatch

open OsTimerCall

variable {S : RealTimeSignals} {created : List CreatedTimer} {calls : List (OsTimerCall G)}
  {s : OsTimers G}

/-- The signal of a timer leads to the callback that it has been started with last. -/
theorem OsTimers.Follows.osTimerFunction_eq (h : s.Follows S created calls)
    (hlength : created.length ≤ osMaxTimers) {i : ℕ} {t : CreatedTimer}
    (hi : created[i]? = some t) (restartRequested : Bool) (retCode : ℤ) :
    osTimerFunction S (Int32.ofNat i + S.sigrtmin) restartRequested retCode s =
      match latestStart t.timer calls with
      | none => ([], s)
      | some latest =>
        ([latest], if restartRequested then s else s.setTime t.kernel retCode ⟨0, 0⟩) := by
  obtain ⟨hlt, -⟩ := List.getElem?_eq_some_iff.mp hi
  have hindex : (Int32.ofNat i).toInt = i := toNat_toInt_counter (by omega)
  have hrange : InRange (Int32.ofNat i) := by
    rw [InRange, hindex]
    omega
  have hentry : s.timers (Int32.ofNat i).toInt.toNat = some t.timer := by
    rw [hindex, Int.toNat_natCast, h.table, hi]
    rfl
  have hcallback := h.callback t.timer
  simp only [osTimerFunction, Int32.add_sub_cancel, if_pos hrange, hentry]
  cases hstart : latestStart t.timer calls with
  | none =>
    rw [hstart] at hcallback
    rw [hcallback]
    rfl
  | some start =>
    rw [hstart] at hcallback
    rw [hcallback]
    simp only [Option.map_some, h.argument t.timer start hstart, osTimerStop,
      h.kernel t (List.mem_of_getElem? hi)]

/-- Any other signal leads to no timer. -/
theorem OsTimers.Follows.osTimerFunction_foreign (h : s.Follows S created calls) {signal : Int32}
    (hforeign : ∀ i < created.length, signal ≠ Int32.ofNat i + S.sigrtmin)
    (restartRequested : Bool) (retCode : ℤ) :
    osTimerFunction S signal restartRequested retCode s = ([], s) := by
  by_cases hrange : InRange (signal - S.sigrtmin)
  · have hindex : Int32.ofNat (signal - S.sigrtmin).toInt.toNat = signal - S.sigrtmin := by
      obtain ⟨hpos, hlt⟩ := hrange
      rw [← Int32.toInt_inj, toNat_toInt_counter (by omega), Int.toNat_of_nonneg hpos]
    have hentry : s.timers (signal - S.sigrtmin).toInt.toNat = none := by
      rw [h.table, Option.map_eq_none_iff, List.getElem?_eq_none_iff]
      by_contra hlt
      refine hforeign _ (Nat.lt_of_not_le hlt) ?_
      rw [hindex, Int32.sub_add_cancel]
    simp only [osTimerFunction, if_pos hrange, hentry]
  · simp only [osTimerFunction, if_neg hrange]

/-- What is promised of the signal of a created timer: the callback that the timer has been started
with last is called with its argument, the timer is disarmed if this returns false, unless
`timer_settime` fails, and everything else stays as it is. -/
structure OsTimers.Serves (s : OsTimers G) (created : List CreatedTimer) (t : CreatedTimer)
    (latest : Option (G × UInt64)) (restartRequested : Bool) (retCode : ℤ)
    (invoked : List (G × UInt64)) (s' : OsTimers G) : Prop where
  invoked : invoked = latest.toList
  disarmed : latest.isSome → restartRequested = false → retCode = 0 → s'.armed t.kernel = none
  kept : latest = none ∨ restartRequested = true → s' = s
  others : ∀ other ∈ created, other ≠ t → s'.armed other.kernel = s.armed other.kernel
  rest : s' = { s with armed := s'.armed }

/-- The signal of a timer does what is promised of it. -/
theorem OsTimers.Follows.serves (h : s.Follows S created calls) (hdistinct : DistinctTimers created)
    {i : ℕ} {t : CreatedTimer} (hi : created[i]? = some t) (restartRequested : Bool)
    (retCode : ℤ) :
    let served := osTimerFunction S (Int32.ofNat i + S.sigrtmin) restartRequested retCode s
    s.Serves created t (latestStart t.timer calls) restartRequested retCode served.1 served.2 := by
  have hserved := h.osTimerFunction_eq hdistinct.length_le hi restartRequested retCode
  rw [hserved]
  cases latestStart t.timer calls with
  | none => exact ⟨rfl, nofun, fun _ => rfl, fun _ _ _ => rfl, rfl⟩
  | some latest =>
    cases restartRequested with
    | true => exact ⟨rfl, fun _ => nofun, fun _ => rfl, fun _ _ _ => rfl, rfl⟩
    | false =>
      refine ⟨rfl, fun _ _ hcode => ?_, by simp, fun other hmem hne => ?_, ?_⟩
      · simp [setTime, hcode, timerSettime]
      · have hkernel : other.kernel ≠ t.kernel := fun heq =>
          hne (List.inj_on_of_nodup_map hdistinct.kernels hmem (List.mem_of_getElem? hi) heq)
        by_cases hcode : retCode = 0
        · simp [setTime, hcode, Function.update_of_ne hkernel]
        · simp [setTime, hcode]
      · obtain ⟨armed, harmed⟩ := s.setTime_eq t.kernel retCode ⟨0, 0⟩
        simp only [harmed, Bool.false_eq_true, if_false]

/-- In every run that creates each timer once, and no more than there is room for, different timers
have different signals; the signal of a timer calls the callback that this has been started with
last, and disarms this timer alone if it is to be disarmed; and any other signal does nothing. -/
theorem os_timers_dispatched (S : RealTimeSignals) (calls : List (OsTimerCall G))
    (hdistinct : DistinctTimers (createdAll S calls 0)) :
    ∃ s, runAll S calls .initial = .ok s ∧
      (∀ t ∈ createdAll S calls 0, ∀ u ∈ createdAll S calls 0,
        (s.objects t.timer).signal = (s.objects u.timer).signal → t = u) ∧
      ∀ (signal : Int32) (restartRequested : Bool) (retCode : ℤ),
        (∀ t ∈ createdAll S calls 0, signal = (s.objects t.timer).signal →
          s.Serves (createdAll S calls 0) t (latestStart t.timer calls) restartRequested retCode
            (osTimerFunction S signal restartRequested retCode s).1
            (osTimerFunction S signal restartRequested retCode s).2) ∧
        ((∀ t ∈ createdAll S calls 0, signal ≠ (s.objects t.timer).signal) →
          osTimerFunction S signal restartRequested retCode s = ([], s)) := by
  obtain ⟨s, hrun, hfollows⟩ := OsTimers.follows_initial.runAll calls
    (show DistinctTimers ([] ++ createdAll S calls (OsTimers.initial : OsTimers G).currentSignal)
      from hdistinct)
  change s.Follows S (createdAll S calls 0) calls at hfollows
  refine ⟨s, hrun, fun t ht u hu heq => ?_, fun signal restartRequested retCode =>
    ⟨fun t ht hsignal => ?_, fun hforeign => ?_⟩⟩
  · obtain ⟨i, hi⟩ := List.mem_iff_getElem?.mp ht
    obtain ⟨j, hj⟩ := List.mem_iff_getElem?.mp hu
    obtain ⟨hilt, -⟩ := List.getElem?_eq_some_iff.mp hi
    obtain ⟨hjlt, -⟩ := List.getElem?_eq_some_iff.mp hj
    have hlength := hdistinct.length_le
    rw [hfollows.signal i t hi, hfollows.signal j u hj, Int32.add_left_inj, ← Int32.toInt_inj,
      toNat_toInt_counter (by omega), toNat_toInt_counter (by omega), Int.natCast_inj] at heq
    rw [heq, hj] at hi
    exact (Option.some.inj hi).symm
  · obtain ⟨i, hi⟩ := List.mem_iff_getElem?.mp ht
    rw [hsignal, hfollows.signal i t hi]
    exact hfollows.serves hdistinct hi restartRequested retCode
  · refine hfollows.osTimerFunction_foreign (fun i hi heq => ?_) restartRequested retCode
    have hsome := List.getElem?_eq_getElem hi
    exact hforeign _ (List.getElem_mem hi) (by rw [heq, hfollows.signal i _ hsome])

/-- Two timers are created, and the second one is started twice. -/
def twoTimers : List (OsTimerCall Bool) :=
  [.create (some 0) ⟨0, 7⟩, .create (some 1) ⟨0, 8⟩, .start (some 1) false 3 10 ⟨0, 0, 0⟩,
    .start (some 1) true 4 10 ⟨0, 0, 0⟩]

/-- Signal 35 calls the callback that the second timer has been started with last. -/
theorem os_timers_dispatched_two : ∃ s, runAll linuxSignals twoTimers .initial = .ok s ∧
    (osTimerFunction linuxSignals 35 false 0 s).1 = [(true, 4)] := by
  obtain ⟨s, hrun, -, hserved⟩ := os_timers_dispatched linuxSignals twoTimers
    ⟨by decide, by decide, by decide⟩
  cases hrun
  obtain ⟨hserves, -⟩ := hserved 35 false 0
  exact ⟨_, rfl, (hserves ⟨1, 8⟩ (by decide) rfl).invoked⟩

end Dispatch

end Protoflight
