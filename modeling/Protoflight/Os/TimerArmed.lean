import Mathlib.Data.List.Induction
import Protoflight.Os.TimerDispatch

/-!
# Which timers run

`os_timer_start` arms a timer of the kernel, which then sends its signal again and again;
`os_timer_stop` disarms it, and so does `os_timer_function` for a callback that returns false. The
calls for one timer do not disturb another one, so what a timer is armed with is told by the calls
that concern it.
-/

namespace Protoflight

variable {G : Type} (S : RealTimeSignals)

namespace OsTimerCall

/-- The timer that a call starts or stops, by its address. -/
def used : OsTimerCall G → Option ℕ
  | .start timer .. | .stop timer _ => timer
  | .create .. | .delivered .. => none

/-- The timers that are started or stopped have been created before. -/
def OnCreated : List (OsTimerCall G) → List CreatedTimer → Int32 → Prop
  | [], _, _ => True
  | call :: calls, created, currentSignal =>
    (∀ timer ∈ call.used, timer ∈ created.map CreatedTimer.timer) ∧
      OnCreated calls (created ++ call.created S currentSignal)
        (currentSignal + Int32.ofNat (call.created S currentSignal).length)

/-- What a call sets the timer at a place of the table to, if it does: to an interval, or to
nothing. -/
def sets (i : ℕ) (t : CreatedTimer) : OsTimerCall G → Option (Option Timespec)
  | .start timer _ _ timeout answers =>
    if timer = some t.timer ∧ answers.Sets ∧ answers.timerSettime = 0 then
      some (timerSettime 0 (osTimerStartInterval timeout))
    else none
  | .stop timer retCode => if timer = some t.timer ∧ retCode = 0 then some none else none
  | .delivered signal restartRequested retCode =>
    if signal = Int32.ofNat i + S.sigrtmin ∧ restartRequested = false ∧ retCode = 0 then some none
    else none
  | .create .. => none

/-- What the timer at a place of the table has been set to last. -/
def latestSetting (i : ℕ) (t : CreatedTimer) (calls : List (OsTimerCall G)) : Option Timespec :=
  (calls.filterMap (sets S i t)).getLast?.join

/-- One more call counts if it sets the timer. -/
theorem latestSetting_concat (i : ℕ) (t : CreatedTimer) (calls : List (OsTimerCall G))
    (call : OsTimerCall G) :
    latestSetting S i t (calls ++ [call]) = (call.sets S i t).getD (latestSetting S i t calls) := by
  unfold latestSetting
  rw [List.filterMap_append, List.getLast?_append]
  cases hsets : call.sets S i t <;> simp [hsets]

variable {S}

/-- A timer that has not been started has been set to nothing. -/
theorem latestSetting_of_unstarted {i : ℕ} {t : CreatedTimer} {calls : List (OsTimerCall G)}
    (h : latestStart t.timer calls = none) : latestSetting S i t calls = none := by
  induction calls using List.reverseRecOn with
  | nil => rfl
  | append_singleton calls call ih =>
    rw [latestStart_concat, Option.or_eq_none_iff] at h
    rw [latestSetting_concat, ih h.2]
    cases call with
    | create => rfl
    | start timer =>
      have hother : timer ≠ some t.timer := by
        rintro rfl
        simp [started] at h
      simp [sets, hother]
    | stop | delivered =>
      rw [sets]
      split <;> rfl

end OsTimerCall

open OsTimerCall

variable {S} {created : List CreatedTimer} {calls : List (OsTimerCall G)} {s s' : OsTimers G}

/-- The timers are armed as they have been set last, and none has been started that has not been
created. -/
structure OsTimers.ArmedBy (S : RealTimeSignals) (created : List CreatedTimer)
    (calls : List (OsTimerCall G)) (s : OsTimers G) : Prop where
  armed : ∀ (i : ℕ) t, created[i]? = some t → s.armed t.kernel = latestSetting S i t calls
  unstarted : ∀ timer ∉ created.map CreatedTimer.timer, latestStart timer calls = none

theorem DistinctTimers.eq_of_kernel (h : DistinctTimers created) {t u : CreatedTimer}
    (ht : t ∈ created) (hu : u ∈ created) (heq : t.kernel = u.kernel) : t = u :=
  List.inj_on_of_nodup_map h.kernels ht hu heq

theorem DistinctTimers.eq_of_timer (h : DistinctTimers created) {t u : CreatedTimer}
    (ht : t ∈ created) (hu : u ∈ created) (heq : t.timer = u.timer) : t = u :=
  List.inj_on_of_nodup_map h.timers ht hu heq

/-- Timers are told by their places in the table. -/
theorem DistinctTimers.eq_iff_place (h : DistinctTimers created) {i j : ℕ} {t u : CreatedTimer}
    (hi : created[i]? = some t) (hj : created[j]? = some u) : t = u ↔ i = j := by
  obtain ⟨hilt, higet⟩ := List.getElem?_eq_some_iff.mp hi
  obtain ⟨hjlt, hjget⟩ := List.getElem?_eq_some_iff.mp hj
  rw [← higet, ← hjget]
  exact (List.Nodup.of_map _ h.timers).getElem_inj_iff

/-- So are they by their signals. -/
theorem timerSignal_inj (S : RealTimeSignals) {i j : ℕ} (hi : i ≤ osMaxTimers)
    (hj : j ≤ osMaxTimers) :
    Int32.ofNat i + S.sigrtmin = Int32.ofNat j + S.sigrtmin ↔ i = j := by
  rw [Int32.add_left_inj, ← Int32.toInt_inj, toNat_toInt_counter hi, toNat_toInt_counter hj,
    Int.natCast_inj]

/-- A call that creates nothing, and sets the timers as it is to. -/
theorem OsTimers.ArmedBy.keeps (h : s.ArmedBy S created calls) {call : OsTimerCall G}
    (hused : ∀ timer ∈ call.used, timer ∈ created.map CreatedTimer.timer)
    (harmed : ∀ (i : ℕ) t, created[i]? = some t →
      s'.armed t.kernel = (call.sets S i t).getD (s.armed t.kernel)) :
    s'.ArmedBy S created (calls ++ [call]) where
  armed i t hi := by rw [harmed i t hi, latestSetting_concat, h.armed i t hi]
  unstarted timer htimer := by
    rw [latestStart_concat, h.unstarted timer htimer, Option.or_none]
    cases call with
    | create | stop | delivered => rfl
    | start started =>
      cases started with
      | none => rfl
      | some started =>
        have hne : started ≠ timer := by
          rintro rfl
          exact htimer (hused started rfl)
        exact if_neg hne

/-- Setting a timer of the kernel sets that of one timer. -/
theorem OsTimers.armed_setTime (hdistinct : DistinctTimers created) {t u : CreatedTimer}
    (ht : t ∈ created) (hu : u ∈ created) (retCode : ℤ) (interval : Timespec) :
    (s.setTime t.kernel retCode interval).armed u.kernel =
      if u = t ∧ retCode = 0 then timerSettime 0 interval else s.armed u.kernel := by
  unfold setTime
  by_cases hcode : retCode = 0
  · subst hcode
    by_cases hut : u = t
    · simp [hut]
    · have hkernel : u.kernel ≠ t.kernel := fun heq => hut (hdistinct.eq_of_kernel hu ht heq)
      simp [hut, Function.update_of_ne hkernel]
  · simp [hcode]

/-- A call for a created timer sets the timers as it is to. -/
theorem OsTimers.Follows.armed_used (h : s.Follows S created calls)
    (hdistinct : DistinctTimers created) (call : OsTimerCall G) {timer : ℕ}
    (hcall : call.used = some timer) (htimer : timer ∈ created.map CreatedTimer.timer) :
    ∃ s', call.run S s = .ok s' ∧ ∀ (i : ℕ) t, created[i]? = some t →
      s'.armed t.kernel = (call.sets S i t).getD (s.armed t.kernel) := by
  obtain ⟨u, hu, rfl⟩ := List.mem_map.mp htimer
  have hkernel := h.kernel u hu
  have hiff : ∀ t ∈ created, some u.timer = some t.timer ↔ t = u := fun t ht =>
    ⟨fun heq => hdistinct.eq_of_timer ht hu (Option.some.inj heq).symm, fun heq => heq ▸ rfl⟩
  cases call with
  | create | delivered => cases hcall
  | stop timer retCode =>
    cases hcall
    refine ⟨_, rfl, fun i t hi => ?_⟩
    have ht := List.mem_of_getElem? hi
    simp only [osTimerStop, hkernel, armed_setTime hdistinct hu ht, sets, hiff t ht]
    split <;> rfl
  | start timer callback argument timeout answers =>
    cases hcall
    refine ⟨_, rfl, fun i t hi => ?_⟩
    have ht := List.mem_of_getElem? hi
    simp only [startTimer, sets, hiff t ht]
    by_cases hsets : answers.Sets
    · rw [if_pos hsets, hkernel, armed_setTime hdistinct hu ht]
      by_cases hset : t = u ∧ answers.timerSettime = 0
      · rw [if_pos hset, if_pos ⟨hset.1, hsets, hset.2⟩, Option.getD_some]
      · rw [if_neg hset, if_neg fun h => hset ⟨h.1, h.2.2⟩]
        rfl
    · rw [if_neg hsets, if_neg fun h => hsets h.2.1]
      rfl

/-- A signal disarms its timer if the callback returns false, and no other one. -/
theorem OsTimers.Follows.armed_delivered (h : s.Follows S created calls)
    (harmed : s.ArmedBy S created calls) (hdistinct : DistinctTimers created) (signal : Int32)
    (restartRequested : Bool) (retCode : ℤ) (i : ℕ) (t : CreatedTimer)
    (hi : created[i]? = some t) :
    (osTimerFunction S signal restartRequested retCode s).2.armed t.kernel =
      ((OsTimerCall.delivered signal restartRequested retCode : OsTimerCall G).sets S i t).getD
        (s.armed t.kernel) := by
  have ht := List.mem_of_getElem? hi
  have hlength := hdistinct.length_le
  by_cases hown : ∃ j < created.length, signal = Int32.ofNat j + S.sigrtmin
  · obtain ⟨j, hj, rfl⟩ := hown
    have hu := List.getElem?_eq_getElem hj
    set u := created[j] with hudef
    have hsame : Int32.ofNat j + S.sigrtmin = Int32.ofNat i + S.sigrtmin ↔ t = u := by
      obtain ⟨hlt, -⟩ := List.getElem?_eq_some_iff.mp hi
      rw [timerSignal_inj S (by omega) (by omega), hdistinct.eq_iff_place hi hu, eq_comm]
    rw [h.osTimerFunction_eq hlength hu]
    simp only [sets, hsame]
    cases hlatest : latestStart u.timer calls with
    | none =>
      by_cases htu : t = u
      · -- a timer that has not been started is not armed
        have hnone : s.armed t.kernel = none := by
          rw [harmed.armed i t hi]
          exact latestSetting_of_unstarted (htu ▸ hlatest)
        simp only [hnone]
        split <;> rfl
      · simp [htu]
    | some latest =>
      cases restartRequested with
      | true => simp
      | false =>
        simp only [Bool.false_eq_true, if_false]
        rw [armed_setTime hdistinct (List.mem_of_getElem? hu) ht]
        simp only [true_and]
        split <;> rfl
  · have hforeign : ∀ j < created.length, signal ≠ Int32.ofNat j + S.sigrtmin := fun j hj heq =>
      hown ⟨j, hj, heq⟩
    obtain ⟨hlt, -⟩ := List.getElem?_eq_some_iff.mp hi
    rw [h.osTimerFunction_foreign hforeign]
    simp only [sets, hforeign i hlt, false_and, if_false]
    rfl

/-- A timer that is created is not armed yet. -/
theorem OsTimers.ArmedBy.creates (h : s.ArmedBy S created calls) {timer : ℕ}
    {answer : TimerCreateAnswer}
    (hdistinct : DistinctTimers (created ++ [⟨timer, answer.timer⟩])) :
    (s.created S timer answer).ArmedBy S (created ++ [⟨timer, answer.timer⟩])
      (calls ++ [.create (some timer) answer]) where
  armed i t hi := by
    rw [latestSetting_concat]
    change Function.update s.armed answer.timer none t.kernel = latestSetting S i t calls
    rcases Nat.lt_or_ge i created.length with hlt | hge
    · have hold := hi
      rw [List.getElem?_append_left hlt] at hold
      have hmem := List.mem_of_getElem? hold
      have hkernel : t.kernel ≠ answer.timer := by
        intro heq
        have hnodup := hdistinct.kernels
        rw [List.map_append] at hnodup
        exact List.disjoint_of_nodup_append hnodup (List.mem_map_of_mem hmem)
          (List.mem_singleton.mpr heq)
      rw [Function.update_of_ne hkernel, h.armed i t hold]
    · rw [List.getElem?_append_right hge, List.getElem?_singleton] at hi
      split at hi
      · cases hi
        have hnew : timer ∉ created.map CreatedTimer.timer := by
          have hnodup := hdistinct.timers
          rw [List.map_append] at hnodup
          exact fun hmem => List.disjoint_of_nodup_append hnodup hmem List.mem_cons_self
        rw [Function.update_self, latestSetting_of_unstarted (h.unstarted timer hnew)]
      · cases hi
  unstarted other hother := by
    rw [List.map_append, List.mem_append, not_or] at hother
    rw [latestStart_concat, h.unstarted other hother.1]
    rfl

/-- What a call does: it creates its timer, if it creates one, and sets the timers as it is to. -/
theorem OsTimers.ArmedBy.run (h : s.ArmedBy S created calls) (hfollows : s.Follows S created calls)
    (call : OsTimerCall G) (hdistinct : DistinctTimers (created ++ call.created S s.currentSignal))
    (hused : ∀ timer ∈ call.used, timer ∈ created.map CreatedTimer.timer)
    (hrun : call.run S s = .ok s') :
    s'.ArmedBy S (created ++ call.created S s.currentSignal) (calls ++ [call]) := by
  have hbefore := hdistinct.of_append
  cases call with
  | create timer answer =>
    have hkept : s.ArmedBy S created (calls ++ [.create timer answer]) :=
      h.keeps hused fun _ _ _ => rfl
    cases timer with
    | none =>
      cases hrun
      rwa [OsTimerCall.created, List.append_nil]
    | some timer =>
      rw [OsTimerCall.created] at hdistinct ⊢
      by_cases hcreates : S.Creates s.currentSignal answer
      · rw [if_pos hcreates] at hdistinct ⊢
        have hlength : created.length < osMaxTimers := by
          have hle := hdistinct.length_le
          rw [List.length_append, List.length_singleton] at hle
          omega
        have hrange : InRange s.currentSignal := by
          rw [InRange, hfollows.counter, toNat_toInt_counter (Nat.le_of_lt hlength)]
          omega
        rw [OsTimerCall.run, osTimerCreate_created hcreates hrange] at hrun
        cases hrun
        exact h.creates hdistinct
      · rw [OsTimerCall.run, osTimerCreate_refused hcreates] at hrun
        cases hrun
        rwa [if_neg hcreates, List.append_nil]
  | start timer callback argument timeout answers =>
    rw [OsTimerCall.created, List.append_nil]
    cases timer with
    | none =>
      cases hrun
      exact h.keeps hused fun _ _ _ => rfl
    | some timer =>
      obtain ⟨s₁, hrun₁, harmed⟩ := hfollows.armed_used hbefore
        (.start (some timer) callback argument timeout answers) rfl (hused timer rfl)
      cases hrun.symm.trans hrun₁
      exact h.keeps hused harmed
  | stop timer retCode =>
    rw [OsTimerCall.created, List.append_nil]
    cases timer with
    | none =>
      cases hrun
      exact h.keeps hused fun _ _ _ => rfl
    | some timer =>
      obtain ⟨s₁, hrun₁, harmed⟩ := hfollows.armed_used hbefore (.stop (some timer) retCode) rfl
        (hused timer rfl)
      cases hrun.symm.trans hrun₁
      exact h.keeps hused harmed
  | delivered signal restartRequested retCode =>
    rw [OsTimerCall.created, List.append_nil]
    cases hrun
    exact h.keeps hused (hfollows.armed_delivered h hbefore signal restartRequested retCode)

/-- What calls do one after another. -/
theorem OsTimers.ArmedBy.runAll (h : s.ArmedBy S created calls)
    (hfollows : s.Follows S created calls) (rest : List (OsTimerCall G))
    (hdistinct : DistinctTimers (created ++ createdAll S rest s.currentSignal))
    (hused : OnCreated S rest created s.currentSignal) :
    ∃ s', OsTimerCall.runAll S rest s = .ok s' ∧
      s'.Follows S (created ++ createdAll S rest s.currentSignal) (calls ++ rest) ∧
      s'.ArmedBy S (created ++ createdAll S rest s.currentSignal) (calls ++ rest) := by
  induction rest generalizing s created calls with
  | nil => exact ⟨s, rfl, by simpa [createdAll] using hfollows, by simpa [createdAll] using h⟩
  | cons call rest ih =>
    rw [createdAll, ← List.append_assoc] at hdistinct ⊢
    obtain ⟨s₁, hrun, hfollows₁⟩ := hfollows.run call hdistinct.of_append
    have harmed₁ := h.run hfollows call hdistinct.of_append hused.1 hrun
    have hcounter : s₁.currentSignal =
        s.currentSignal + Int32.ofNat (call.created S s.currentSignal).length := by
      rw [hfollows₁.counter, hfollows.counter, List.length_append, Int32.ofNat_add]
    have hrest := hused.2
    rw [← hcounter] at hdistinct hrest ⊢
    obtain ⟨s', hrunAll, hfollows', harmed'⟩ := ih harmed₁ hfollows₁ hdistinct hrest
    refine ⟨s', ?_, ?_, ?_⟩
    · rw [OsTimerCall.runAll, hrun]
      exact hrunAll
    · rwa [List.append_assoc _ [call]] at hfollows'
    · rwa [List.append_assoc _ [call]] at harmed'

/-- In every run that creates each timer once, no more of them than there is room for, and starts
and stops only timers that have been created: a timer is armed with the interval of the last start
of it that succeeded, unless a stop of it or a callback of it that returned false has disarmed it
since; and the signal of an armed timer calls its callback. -/
theorem os_timers_armed (S : RealTimeSignals) (calls : List (OsTimerCall G))
    (hdistinct : DistinctTimers (createdAll S calls 0)) (hused : OnCreated S calls [] 0) :
    ∃ s, runAll S calls .initial = .ok s ∧
      ∀ (i : ℕ) t, (createdAll S calls 0)[i]? = some t →
        s.armed t.kernel = latestSetting S i t calls ∧
        (s.armed t.kernel ≠ none → ∀ restartRequested retCode, ∃ latest,
          latestStart t.timer calls = some latest ∧
          (osTimerFunction S (s.objects t.timer).signal restartRequested retCode s).1 =
            [latest]) := by
  have hinitial : (OsTimers.initial : OsTimers G).ArmedBy S [] [] := ⟨nofun, fun _ _ => rfl⟩
  obtain ⟨s, hrun, hfollows, harmed⟩ := hinitial.runAll OsTimers.follows_initial calls
    (show DistinctTimers ([] ++ createdAll S calls (OsTimers.initial : OsTimers G).currentSignal)
      from hdistinct) hused
  change s.Follows S (createdAll S calls 0) calls at hfollows
  change s.ArmedBy S (createdAll S calls 0) calls at harmed
  refine ⟨s, hrun, fun i t hi => ⟨harmed.armed i t hi, fun hsome restartRequested retCode => ?_⟩⟩
  rw [harmed.armed i t hi] at hsome
  obtain ⟨latest, hlatest⟩ := Option.ne_none_iff_exists'.mp
    (mt latestSetting_of_unstarted hsome)
  refine ⟨latest, hlatest, ?_⟩
  rw [hfollows.signal i t hi, hfollows.osTimerFunction_eq hdistinct.length_le hi, hlatest]

/-- Two timers are created and started, and the callback of the second one returns false. -/
def secondEnds : List (OsTimerCall Bool) :=
  [.create (some 0) ⟨0, 7⟩, .create (some 1) ⟨0, 8⟩, .start (some 0) true 3 10 ⟨0, 0, 0⟩,
    .start (some 1) false 4 10 ⟨0, 0, 0⟩, .delivered 34 true 0, .delivered 35 false 0]

/-- The first timer runs on. -/
theorem os_timers_armed_first : ∃ s, runAll linuxSignals secondEnds .initial = .ok s ∧
    s.armed 7 = some ⟨0, 10000000⟩ ∧ s.armed 8 = none := by
  have hdistinct : DistinctTimers (createdAll linuxSignals secondEnds 0) :=
    ⟨by decide, by decide, by decide⟩
  have hused : OnCreated linuxSignals secondEnds [] 0 := by
    refine ⟨nofun, nofun, ?_, ?_, nofun, nofun, trivial⟩
    · rintro _ ⟨⟩
      decide
    · rintro _ ⟨⟩
      decide
  obtain ⟨s, hrun, harmed⟩ := os_timers_armed linuxSignals secondEnds hdistinct hused
  exact ⟨s, hrun, (harmed 0 ⟨0, 7⟩ rfl).1, (harmed 1 ⟨1, 8⟩ rfl).1⟩

end Protoflight
