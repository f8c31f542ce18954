import Mathlib.Algebra.GCDMonoid.Finset
import Mathlib.Algebra.GCDMonoid.Nat
import Protoflight.Fsw.TmProgress

/-!
# The major frame of the schedule

The slots in which tasks are scheduled repeat after the least common multiple of the periods of the
table, and after no other number of slots than its multiples.
-/

namespace Protoflight

variable {F W : Type}

section Slots

/-- A task that comes to be scheduled. -/
def TmTask.Schedules (task : TmTask F) : Prop :=
  task.type = .periodic ∧ task.heartbeatPeriod ≠ 0 ∨ task.type = .callback

instance (task : TmTask F) : Decidable task.Schedules := inferInstanceAs (Decidable (_ ∨ _))

/-- Its period tells in which slots it is scheduled. -/
theorem TmTask.statusIn_eq_schedule_iff (task : TmTask F) (n : ℕ) :
    task.statusIn n = .schedule ↔ task.Schedules ∧ task.schedulePeriod.toNat ∣ n := by
  unfold statusIn Schedules
  cases htype : task.type with
  | periodic =>
    dsimp only
    by_cases hdvd : task.schedulePeriod.toNat ∣ n
    · have hmod := Nat.mod_eq_zero_of_dvd hdvd
      by_cases hzero : task.heartbeatPeriod = 0
      · simp [hzero]
      · have hpos := toNat_pos_of_ne_zero hzero
        rw [if_neg (by omega), if_pos hdvd]
        simp [hzero, hdvd]
    · rw [if_neg hdvd]
      split <;> simp [hdvd]
  | callback =>
    by_cases hdvd : task.schedulePeriod.toNat ∣ n <;> simp [hdvd]
  | event =>
    dsimp only
    split <;> simp
  | monitor | invalid | other => simp

/-- In a run of slots, each of them tells the status of a task once. -/
theorem runSteps_slots (P : TmPlatform F W) {s : TmSystem F W} {index : ℕ}
    (hlt : index < tmMaxTasks) (hregistered : (s.tm.tasks index).Registered) {count : ℕ}
    {slots : List (List (TmEvent F))} {s' : TmSystem F W}
    (hrun : runSteps P (List.replicate count .slot) s = .ok (slots, s')) :
    slots.map (statuses index) =
      (List.range count).map fun n => [(s.tm.tasks index).statusIn (n + 1)] := by
  obtain ⟨slots', t, hrun', hstatuses⟩ := runSteps_statuses P hlt (inRange_slots count) s
  obtain ⟨rfl, rfl⟩ := Prod.mk.inj (Except.ok.inj (hrun.symm.trans hrun'))
  have hlatest : ∀ call : TmCall F, .register call ∈ List.replicate count TmStep.slot →
      call.index = index → call.entry = none := by
    intro call hmem
    cases List.eq_of_mem_replicate hmem
  have hafter := TmTask.runSteps_after hregistered.periodical hlatest 0
  rw [hregistered.after_zero, countP_isSlot_slots] at hafter
  rw [hstatuses, hafter, List.map_map]
  refine List.map_congr_left fun n _ => ?_
  rw [Function.comp_apply, Nat.zero_add, TmTask.statuses_scheduled]

theorem length_slots {P : TmPlatform F W} {s : TmSystem F W} {index : ℕ} (hlt : index < tmMaxTasks)
    (hregistered : (s.tm.tasks index).Registered) {count : ℕ} {slots : List (List (TmEvent F))}
    {s' : TmSystem F W} (hrun : runSteps P (List.replicate count .slot) s = .ok (slots, s')) :
    slots.length = count := by
  have hlength := congrArg List.length (runSteps_slots P hlt hregistered hrun)
  rwa [List.length_map, List.length_map, List.length_range] at hlength

/-- So it tells whether the task has been scheduled. -/
theorem schedule_mem_slot_iff {P : TmPlatform F W} {s : TmSystem F W} {index : ℕ}
    (hlt : index < tmMaxTasks) (hregistered : (s.tm.tasks index).Registered) {count : ℕ}
    {slots : List (List (TmEvent F))} {s' : TmSystem F W}
    (hrun : runSteps P (List.replicate count .slot) s = .ok (slots, s')) {n : ℕ}
    {events : List (TmEvent F)} (hevents : slots[n]? = some events) :
    .schedule ∈ statuses index events ↔
      (s.tm.tasks index).Schedules ∧ (s.tm.tasks index).schedulePeriod.toNat ∣ n + 1 := by
  obtain ⟨hn, -⟩ := List.getElem?_eq_some_iff.mp hevents
  rw [length_slots hlt hregistered hrun] at hn
  have hslot := congrArg (fun told => told[n]?) (runSteps_slots P hlt hregistered hrun)
  simp only [List.getElem?_map, hevents, List.getElem?_range hn, Option.map_some,
    Option.some.injEq] at hslot
  rw [hslot, List.mem_singleton, eq_comm, TmTask.statusIn_eq_schedule_iff]

end Slots

section Frame

/-- The number of slots after which the schedule repeats. -/
def majorFrame (tasks : ℕ → TmTask F) : ℕ :=
  ((Finset.range tmMaxTasks).filter fun index => (tasks index).Schedules).lcm fun index =>
    (tasks index).schedulePeriod.toNat

theorem majorFrame_dvd_iff {tasks : ℕ → TmTask F} {frame : ℕ} :
    majorFrame tasks ∣ frame ↔ ∀ index < tmMaxTasks, (tasks index).Schedules →
      (tasks index).schedulePeriod.toNat ∣ frame := by
  simp only [majorFrame, Finset.lcm_dvd_iff, Finset.mem_filter, Finset.mem_range, and_imp]

/-- From a number of slots on, the tasks are scheduled as they were before. -/
def RepeatsAfter (frame : ℕ) (slots : List (List (TmEvent F))) : Prop :=
  ∀ n earlier later, slots[n]? = some earlier → slots[n + frame]? = some later →
    ∀ index < tmMaxTasks,
      (.schedule ∈ statuses index earlier ↔ .schedule ∈ statuses index later)

/-- The slots in which the tasks are scheduled repeat after a number of slots exactly if this is a
multiple of the periods of all tasks that come to be scheduled. -/
theorem tm_major_frame_iff (P : TmPlatform F W) (s : TmSystem F W)
    (hregistered : ∀ index < tmMaxTasks, (s.tm.tasks index).Registered) (frame : ℕ) :
    (∀ count slots s', runSteps P (List.replicate count .slot) s = .ok (slots, s') →
      RepeatsAfter frame slots) ↔ majorFrame s.tm.tasks ∣ frame := by
  rw [majorFrame_dvd_iff]
  constructor
  · intro hrepeats index hlt hschedules
    have hentry := hregistered index hlt
    have hpos : 0 < (s.tm.tasks index).schedulePeriod.toNat :=
      toNat_pos_of_ne_zero (hentry.periodical (hschedules.imp And.left id))
    set p := (s.tm.tasks index).schedulePeriod.toNat with hp
    -- the slot of the first period, and the one that follows it by the frame
    obtain ⟨slots, s', hrun, -⟩ := runSteps_statuses P hlt (inRange_slots (p + frame)) s
    have hlength := length_slots hlt hentry hrun
    have hearlier := List.getElem?_eq_getElem (l := slots) (i := p - 1) (by omega)
    have hlater := List.getElem?_eq_getElem (l := slots) (i := p - 1 + frame) (by omega)
    have hsame := hrepeats _ slots s' hrun _ _ _ hearlier hlater index hlt
    rw [schedule_mem_slot_iff hlt hentry hrun hearlier,
      schedule_mem_slot_iff hlt hentry hrun hlater, ← hp] at hsame
    have hfirst : p ∣ p - 1 + 1 := by
      rw [Nat.sub_add_cancel hpos]
    have hnext : p ∣ p + frame := by
      have hdvd := (hsame.mp ⟨hschedules, hfirst⟩).2
      rwa [show p - 1 + frame + 1 = p + frame by omega] at hdvd
    exact (Nat.dvd_add_right (Nat.dvd_refl p)).mp hnext
  · intro hframe count slots s' hrun n earlier later hearlier hlater index hlt
    have hentry := hregistered index hlt
    rw [schedule_mem_slot_iff hlt hentry hrun hearlier,
      schedule_mem_slot_iff hlt hentry hrun hlater]
    refine and_congr_right fun hschedules => ?_
    rw [Nat.add_right_comm]
    exact (Nat.dvd_add_left (hframe index hlt hschedules)).symm

/-- A table with a periodic task of period three and a callback of period two. -/
def twoPeriods : TmSystem Unit Unit where
  tm := { emptyTable.tm with
    tasks :=
      Function.update
        (Function.update emptyTable.tm.tasks 70 (tmNewTask [] .periodic (some ()) 0 3 3 0 0))
        71 (tmNewTask [] .callback (some ()) 0 2 0 0 0) }
  os := ()

/-- An entry of that table is one of these or none. -/
theorem twoPeriods_cases (index : ℕ) :
    twoPeriods.tm.tasks index = tmNewTask [] .callback (some ()) 0 2 0 0 0 ∨
      twoPeriods.tm.tasks index = tmNewTask [] .periodic (some ()) 0 3 3 0 0 ∨
      twoPeriods.tm.tasks index = emptyTable.tm.tasks index := by
  change Function.update _ _ _ index = _ ∨ Function.update _ _ _ index = _ ∨
    Function.update _ _ _ index = _
  by_cases hcallback : index = 71
  · rw [hcallback, Function.update_self]
    exact .inl rfl
  · rw [Function.update_of_ne hcallback]
    by_cases hperiodic : index = 70
    · rw [hperiodic, Function.update_self]
      exact .inr (.inl rfl)
    · rw [Function.update_of_ne hperiodic]
      exact .inr (.inr rfl)

theorem twoPeriods_registered (index : ℕ) : (twoPeriods.tm.tasks index).Registered := by
  rcases twoPeriods_cases index with h | h | h <;> rw [h]
  · exact ⟨fun _ => by decide, rfl⟩
  · exact ⟨fun _ => by decide, rfl⟩
  · refine ⟨?_, rfl⟩
    rintro (h | h) <;> cases h

theorem majorFrame_twoPeriods : majorFrame twoPeriods.tm.tasks ∣ 6 := by
  refine majorFrame_dvd_iff.mpr fun index _ hschedules => ?_
  rcases twoPeriods_cases index with h | h | h
  · rw [h]
    decide
  · rw [h]
    decide
  · rw [h] at hschedules
    rcases hschedules with ⟨htype, -⟩ | htype <;> cases htype

/-- Its slots repeat after six. -/
theorem tm_major_frame_iff_six : majorFrame twoPeriods.tm.tasks ∣ 6 ∧ ∀ count slots s',
    runSteps givingPlatform (List.replicate count .slot) twoPeriods = .ok (slots, s') →
      RepeatsAfter 6 slots :=
  ⟨majorFrame_twoPeriods, (tm_major_frame_iff givingPlatform twoPeriods
    (fun index _ => twoPeriods_registered index) 6).mpr majorFrame_twoPeriods⟩

end Frame

end Protoflight
