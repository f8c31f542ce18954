import Mathlib.Data.List.Dedup
import Mathlib.Tactic.Linarith
import Protoflight.Fsw.FifoPlatform
import Protoflight.Fsw.MbRuns
import Protoflight.Fsw.Startup

/-!
# The bookkeeping of the task table

What the table holds, and what `num_tasks` counts, after the initialization of the
modules and further registrations. `main` registers itself before `tm_initialize` fills
the table with zeroes; a task that is registered again is counted again; and one whose
semaphore cannot be created is in the table without being counted.
-/

namespace Protoflight

variable {F Q V W : Type}

section Registrations

/-- A registration that has been made. -/
structure TmRegistration where
  index : ℕ
  type : TmTasktype
  /-- It has returned `TM_RESULT_OKAY`. -/
  okay : Bool

/-- The most recent registration of an index. -/
def latestRegistration (registrations : List TmRegistration) (index : ℕ) : Option TmRegistration :=
  registrations.reverse.find? fun r => r.index = index

/-- Make calls one after another, with the registrations that they are. -/
def TmCall.runAll (P : TmPlatform F W) :
    List (TmCall F) → TmSystem F W → Except TmFault (List TmRegistration × TmSystem F W)
  | [], s => return ([], s)
  | call :: calls, s => do
    let (result, s) ← call.run P s
    let (registrations, s) ← runAll P calls s
    return (⟨call.index, call.type, result = .okay⟩ :: registrations, s)

/-- The registrations that the initialization of the modules makes. `tm_initialize` and
`tlm_initialize` report a registration that has not returned `TM_RESULT_OKAY`. -/
def MainResults.registrations (results : MainResults) : List TmRegistration :=
  [⟨fswTaskIdMain.toInt.toNat, .monitor, results.main = .okay⟩,
    ⟨fswTaskIdTmScheduler.toInt.toNat, .periodic, results.tm ≠ .taskRegistrationError⟩,
    ⟨fswTaskIdTlm.toInt.toNat, .periodic, results.tlm ≠ .taskRegistrationError⟩]

/-- The table goes with the registrations made: an id whose most recent registration has
returned `TM_RESULT_OKAY` has its type, and `num_tasks` is the number of entries in use. -/
structure TmState.Kept (s : TmState F) (registrations : List TmRegistration) : Prop where
  types : ∀ index r, latestRegistration registrations index = some r → r.okay = true →
    (s.tasks index).type = r.type
  count : s.numTasks.toNat =
    (List.range tmMaxTasks).countP fun index => (s.tasks index).type ≠ .invalid

end Registrations

section Attempts

variable (P : TmPlatform F W)

/-- The index of a call that writes an entry, and whether it is counted. -/
def TmCall.attempt (os : W) (call : TmCall F) : List (ℕ × Bool) :=
  if call.entry.isSome then [(call.index, (call.created P os).1 = .okay)] else []

/-- The world after a call. -/
def TmCall.worldAfter (os : W) (call : TmCall F) : W :=
  if call.entry.isSome then (call.created P os).2 else os

/-- The calls that write an entry, and whether they are counted, as the creation of their
semaphores goes. -/
def TmCall.attempts : List (TmCall F) → W → List (ℕ × Bool)
  | [], _ => []
  | call :: calls, os => call.attempt P os ++ attempts calls (call.worldAfter P os)

/-- As many calls are counted, modulo 2^16, as there are indices with an entry. -/
def Balanced (attempts : List (ℕ × Bool)) : Prop :=
  attempts.countP Prod.snd % 2 ^ 16 = (attempts.map Prod.fst).dedup.length

instance (attempts : List (ℕ × Bool)) : Decidable (Balanced attempts) :=
  inferInstanceAs (Decidable (_ = _))

/-- The table holds the entries written and counts those to be counted. -/
structure TmState.Tracks (s : TmState F) (attempts : List (ℕ × Bool)) : Prop where
  inRange : ∀ index ∈ attempts.map Prod.fst, index < tmMaxTasks
  entries : ∀ index, (s.tasks index).type ≠ .invalid ↔ index ∈ attempts.map Prod.fst
  count : s.numTasks.toNat = attempts.countP Prod.snd % 2 ^ 16

/-- The count is right exactly if the calls balance. -/
theorem TmState.Tracks.count_iff {s : TmState F} {attempts : List (ℕ × Bool)}
    (h : s.Tracks attempts) :
    s.numTasks.toNat = (List.range tmMaxTasks).countP (fun index => (s.tasks index).type ≠ .invalid)
      ↔ Balanced attempts := by
  have hperm : ((List.range tmMaxTasks).filter fun index => (s.tasks index).type ≠ .invalid).Perm
      (attempts.map Prod.fst).dedup := by
    rw [List.perm_ext_iff_of_nodup (List.nodup_range.filter _) (List.nodup_dedup _)]
    intro index
    rw [List.mem_filter, List.mem_range, List.mem_dedup, decide_eq_true_eq, h.entries index]
    exact ⟨And.right, fun hmem => ⟨h.inRange index hmem, hmem⟩⟩
  have hcount : (List.range tmMaxTasks).countP (fun index => (s.tasks index).type ≠ .invalid) =
      (attempts.map Prod.fst).dedup.length := by
    rw [List.countP_eq_length_filter, hperm.length_eq]
  rw [h.count, hcount]
  rfl

/-- Counting one more, if it is due, goes modulo 2^16. -/
theorem toNat_counted {numTasks : UInt16} {n : ℕ} (h : numTasks.toNat = n % 2 ^ 16)
    (counted : Prop) [Decidable counted] :
    (if counted then numTasks + 1 else numTasks).toNat =
      (n + if counted then 1 else 0) % 2 ^ 16 := by
  split
  · rw [UInt16.toNat_add, h]
    exact Nat.mod_add_mod _ _ _
  · exact h

/-- Writing an entry tracks one more call. -/
theorem TmState.Tracks.written {s : TmState F} {attempts : List (ℕ × Bool)} (h : s.Tracks attempts)
    {call : TmCall F} {task : TmTask F} (hentry : call.entry = some task)
    (hrange : call.index < tmMaxTasks) (counted : Prop) [Decidable counted] :
    (call.written task counted s).Tracks (attempts ++ [(call.index, decide counted)]) where
  inRange := by
    intro index hmem
    rw [List.map_append, List.mem_append] at hmem
    rcases hmem with hmem | hmem
    · exact h.inRange index hmem
    · rwa [List.mem_singleton.mp hmem]
  entries := by
    intro index
    rw [List.map_append, List.mem_append, ← h.entries index]
    by_cases heq : call.index = index
    · subst heq
      have htype : task.type ≠ .invalid := by
        rw [TmCall.type_entry hentry]
        cases call <;> rintro ⟨⟩
      rw [call.written_tasks_self]
      exact iff_of_true htype (.inr (List.mem_singleton.mpr rfl))
    · rw [TmCall.written_tasks_of_ne heq]
      exact (or_iff_left fun hmem => heq (List.mem_singleton.mp hmem).symm).symm
  count := by
    rw [List.countP_append, List.countP_singleton]
    simp only [decide_eq_true_eq]
    exact toNat_counted h.count counted

end Attempts

section Runs

variable (P : TmPlatform F W)

/-- What one call does: it has its type if it returns `TM_RESULT_OKAY`, leaves the other
entries alone, and is tracked. -/
theorem TmCall.run_tracked (call : TmCall F) (hrange : TmState.InRange call.taskId)
    (s : TmSystem F W) :
    ∃ result s', call.run P s = .ok (result, s') ∧ s'.os = call.worldAfter P s.os ∧
      (result = .okay → (s'.tm.tasks call.index).type = call.type) ∧
      (∀ index, call.index ≠ index → s'.tm.tasks index = s.tm.tasks index) ∧
      ∀ before, s.tm.Tracks before → s'.tm.Tracks (before ++ call.attempt P s.os) := by
  cases hentry : call.entry with
  | none =>
    obtain ⟨result, hresult, hrun⟩ := run_refused P hentry
    refine ⟨result, s, hrun s, ?_, fun hokay => absurd hokay hresult, fun _ _ => rfl, ?_⟩
    · rw [worldAfter, hentry]
      rfl
    · intro before htracks
      rw [attempt, hentry]
      simpa using htracks
  | some task =>
    refine ⟨_, _, run_written P hentry hrange s, ?_, fun _ => ?_, fun index hne => ?_, ?_⟩
    · rw [worldAfter, hentry]
      rfl
    · rw [← type_entry hentry]
      exact congrArg TmTask.type (call.written_tasks_self _ _ _)
    · exact written_tasks_of_ne hne _ _ _
    · intro before htracks
      rw [attempt, hentry]
      exact htracks.written hentry (index_lt hrange) _

theorem latestRegistration_cons (r : TmRegistration) (registrations : List TmRegistration)
    (index : ℕ) : latestRegistration (r :: registrations) index =
      (latestRegistration registrations index).or (if r.index = index then some r else none) := by
  by_cases heq : r.index = index <;> simp [latestRegistration, List.find?_append, heq]

theorem latestRegistration_append (registrations registrations' : List TmRegistration)
    (index : ℕ) : latestRegistration (registrations ++ registrations') index =
      (latestRegistration registrations' index).or (latestRegistration registrations index) := by
  simp [latestRegistration, List.find?_append]

theorem latestRegistration_ne_none_iff {registrations : List TmRegistration} {index : ℕ} :
    latestRegistration registrations index ≠ none ↔
      index ∈ registrations.map TmRegistration.index := by
  simp [latestRegistration, List.find?_eq_none]

/-- What calls do one after another: an index that they register has the type that the last of
them says, and any other index keeps its entry. -/
theorem TmCall.runAll_tracked {calls : List (TmCall F)}
    (hrange : ∀ call ∈ calls, TmState.InRange call.taskId) (s : TmSystem F W) :
    ∃ registrations s', TmCall.runAll P calls s = .ok (registrations, s') ∧
      registrations.map TmRegistration.index = calls.map TmCall.index ∧
      (∀ index r, latestRegistration registrations index = some r → r.okay = true →
        (s'.tm.tasks index).type = r.type) ∧
      (∀ index, latestRegistration registrations index = none →
        s'.tm.tasks index = s.tm.tasks index) ∧
      ∀ before, s.tm.Tracks before → s'.tm.Tracks (before ++ TmCall.attempts P calls s.os) := by
  induction calls generalizing s with
  | nil =>
    refine ⟨[], s, rfl, rfl, by simp [latestRegistration], fun _ _ => rfl, fun before h => ?_⟩
    simpa [TmCall.attempts] using h
  | cons call calls ih =>
    obtain ⟨hcall, hrest⟩ := List.forall_mem_cons.mp hrange
    obtain ⟨result, s₁, hrun, hos, htype, hframe, htracks⟩ := call.run_tracked P hcall s
    obtain ⟨registrations, s', hruns, hindices, htypes, hframes, htracks'⟩ := ih hrest s₁
    refine ⟨⟨call.index, call.type, result = .okay⟩ :: registrations, s', ?_, ?_, ?_, ?_, ?_⟩
    · rw [TmCall.runAll, hrun]
      change TmCall.runAll P calls s₁ >>= _ = _
      rw [hruns]
      rfl
    · rw [List.map_cons, List.map_cons, hindices]
    · intro index r hlatest hokay
      rw [latestRegistration_cons, Option.or_eq_some_iff] at hlatest
      rcases hlatest with hlatest | ⟨hnone, hlatest⟩
      · exact htypes index r hlatest hokay
      · split at hlatest
        next heq =>
          cases hlatest
          subst heq
          rw [hframes _ hnone]
          exact htype (by simpa using hokay)
        next => cases hlatest
    · intro index hlatest
      rw [latestRegistration_cons, Option.or_eq_none_iff] at hlatest
      obtain ⟨hnone, hhead⟩ := hlatest
      rw [hframes index hnone]
      refine hframe index fun heq => ?_
      simp [heq] at hhead
    · intro before hbefore
      rw [TmCall.attempts, ← List.append_assoc, ← hos]
      exact htracks' _ (htracks before hbefore)

end Runs

section Main

variable (P : TmBootPlatform F V)

/-- The calls that write an entry from `tm_initialize` on, when `main` initializes the modules
and further calls follow. -/
def mainAttempts (tmSchedulerTask tlmTelemetryTask : F) (calls : List (TmCall F)) (os : V) :
    List (ℕ × Bool) :=
  TmCall.attempts P.toTmPlatform [schedulerCall tmSchedulerTask] os ++
    TmCall.attempts P.toTmPlatform (tlmCall tlmTelemetryTask :: calls) (bootWorld P os)

/-- The table after the calls of `main`: only the scheduler and the telemetry task are there. -/
theorem mainInitialize_tracked (B : Platform Q W) (tmSchedulerTask tlmTelemetryTask : F)
    (s : MainState F Q V W) :
    ∃ results s', mainInitialize P B tmSchedulerTask tlmTelemetryTask s = .ok (results, s') ∧
      results.main = .okay ∧
      (∀ index, (s'.tm.tm.tasks index).type =
        if index = fswTaskIdTmScheduler.toInt.toNat ∨ index = fswTaskIdTlm.toInt.toNat then
          .periodic
        else .invalid) ∧
      ∀ calls, s'.tm.tm.Tracks
        (TmCall.attempts P.toTmPlatform [schedulerCall tmSchedulerTask] s.tm.os ++
          (tlmCall tlmTelemetryTask).attempt P.toTmPlatform (bootWorld P s.tm.os)) ∧
        TmCall.attempts P.toTmPlatform calls s'.tm.os = TmCall.attempts P.toTmPlatform calls
          ((tlmCall tlmTelemetryTask).worldAfter P.toTmPlatform (bootWorld P s.tm.os)) := by
  obtain ⟨results, s', hmain, hresult, htm, hos⟩ :=
    mainInitialize_eq P B tmSchedulerTask tlmTelemetryTask s
  have hcleared : (TmState.cleared : TmState F).Tracks [] :=
    ⟨by simp, fun index => iff_of_false (fun h => h rfl) (by simp), rfl⟩
  refine ⟨results, s', hmain, hresult, fun index => ?_, fun calls => ⟨?_, ?_⟩⟩
  · rw [htm]
    by_cases htlm : (tlmCall tlmTelemetryTask).index = index
    · rw [← htlm, TmCall.written_tasks_self, if_pos (.inr rfl)]
      rfl
    · rw [TmCall.written_tasks_of_ne htlm]
      by_cases hscheduler : (schedulerCall tmSchedulerTask).index = index
      · rw [← hscheduler, TmCall.written_tasks_self, if_pos (.inl rfl)]
        rfl
      · rw [TmCall.written_tasks_of_ne hscheduler]
        refine (if_neg ?_).symm
        rintro (h | h)
        · exact hscheduler h.symm
        · exact htlm h.symm
  · rw [htm]
    have hscheduler := hcleared.written (entry_schedulerCall tmSchedulerTask)
      (show fswTaskIdTmScheduler.toInt.toNat < tmMaxTasks by decide)
      ((P.semCreate fswTaskIdTmScheduler.toInt.toNat s.tm.os).1 = .okay)
    exact hscheduler.written (entry_tlmCall tlmTelemetryTask)
      (show fswTaskIdTlm.toInt.toNat < tmMaxTasks by decide) _
  · rw [hos]
    rfl

/-- The scheduler and the telemetry task are registered as periodic ones. -/
theorem MainResults.type_of_latest (results : MainResults) {index : ℕ} {r : TmRegistration}
    (hne : fswTaskIdMain.toInt.toNat ≠ index)
    (h : latestRegistration results.registrations index = some r) :
    (if index = fswTaskIdTmScheduler.toInt.toNat ∨ index = fswTaskIdTlm.toInt.toNat then
      TmTasktype.periodic else .invalid) = r.type := by
  by_cases htlm : fswTaskIdTlm.toInt.toNat = index
  · rw [if_pos (.inr htlm.symm)]
    simp only [registrations, latestRegistration_cons, htlm, if_true] at h
    cases h
    rfl
  · by_cases hscheduler : fswTaskIdTmScheduler.toInt.toNat = index
    · rw [if_pos (.inl hscheduler.symm)]
      simp only [registrations, latestRegistration_cons, htlm, hscheduler, if_true, if_false] at h
      cases h
      rfl
    · simp only [registrations, latestRegistration_cons, htlm, hscheduler, hne, if_false] at h
      cases h

/-- `main` initializes the modules, further registrations follow, and the table goes with all of
them. -/
def MainState.KeepsTable (B : Platform Q W) (tmSchedulerTask tlmTelemetryTask : F)
    (calls : List (TmCall F)) (s : MainState F Q V W) : Prop :=
  ∃ results s₁ registrations s₂,
    mainInitialize P B tmSchedulerTask tlmTelemetryTask s = .ok (results, s₁) ∧
    TmCall.runAll P.toTmPlatform calls s₁.tm = .ok (registrations, s₂) ∧
    s₂.tm.Kept (results.registrations ++ registrations)

/-- The table goes with the registrations made exactly if `main` is registered again, and as many
registrations since `tm_initialize` are counted as there are ids registered. -/
theorem tm_table_kept_iff (B : Platform Q W) (tmSchedulerTask tlmTelemetryTask : F)
    (calls : List (TmCall F)) (hrange : ∀ call ∈ calls, TmState.InRange call.taskId)
    (s : MainState F Q V W) :
    s.KeepsTable P B tmSchedulerTask tlmTelemetryTask calls ↔
      (∃ call ∈ calls, call.index = fswTaskIdMain.toInt.toNat) ∧
        Balanced (mainAttempts P tmSchedulerTask tlmTelemetryTask calls s.tm.os) := by
  obtain ⟨results, s₁, hmain, hresult, htable, hboot⟩ :=
    mainInitialize_tracked P B tmSchedulerTask tlmTelemetryTask s
  obtain ⟨registrations, s₂, hruns, hindices, htypes, hframes, htracks⟩ :=
    TmCall.runAll_tracked P.toTmPlatform hrange s₁.tm
  obtain ⟨hbefore, hattempts⟩ := hboot calls
  have hafter := htracks _ hbefore
  rw [hattempts, List.append_assoc] at hafter
  have hcount := hafter.count_iff
  have hmainAgain : latestRegistration registrations fswTaskIdMain.toInt.toNat ≠ none ↔ _ :=
    latestRegistration_ne_none_iff
  rw [hindices, List.mem_map] at hmainAgain
  constructor
  · rintro ⟨results', s₁', registrations', s₂', hmain', hruns', hkept⟩
    rw [hmain] at hmain'
    cases hmain'
    rw [hruns] at hruns'
    cases hruns'
    refine ⟨hmainAgain.mp fun hnone => ?_, hcount.mp hkept.count⟩
    -- `main` is not registered again, so `tm_initialize` has cleared its entry for good.
    have htype := hkept.types fswTaskIdMain.toInt.toNat
      ⟨fswTaskIdMain.toInt.toNat, .monitor, results.main = .okay⟩
      (by rw [latestRegistration_append, hnone]; rfl) (decide_eq_true hresult)
    rw [hframes _ hnone, htable, if_neg (by decide)] at htype
    cases htype
  · rintro ⟨hagain, hbalanced⟩
    refine ⟨results, s₁, registrations, s₂, hmain, hruns, fun index r hlatest hokay => ?_,
      hcount.mpr hbalanced⟩
    rw [latestRegistration_append, Option.or_eq_some_iff] at hlatest
    rcases hlatest with hlatest | ⟨hnone, hlatest⟩
    · exact htypes index r hlatest hokay
    · rw [hframes index hnone, htable index]
      have hne : fswTaskIdMain.toInt.toNat ≠ index := by
        rintro rfl
        exact hmainAgain.mpr hagain hnone
      exact results.type_of_latest hne hlatest

/-- A world in which all semaphores and timers can be created. -/
def okayBoot : TmBootPlatform Unit Unit where
  semCreate _ _ := (.okay, ())
  semGive _ _ := (.okay, ())
  call _ _ _ := (true, ())
  overlongShift _ := 0
  scheduleSemCreate _ := (.okay, ())
  timerCreate _ := (.okay, ())

/-- Memory filled with zeroes, before `main`. -/
def beforeMain : MainState Unit (BoundedFifo UInt8) Unit Unit where
  tm := ⟨.zero, ()⟩
  flight :=
    { toFswState := .start fifoPlatform ⟨0, 0, 0⟩ ()
      tlm := .zero
      telemetry := ⟨⟨0, 0, 0⟩, .zero⟩ }

/-- When `main` is registered once more, its entry is there. -/
theorem tm_table_kept_iff_main_again :
    beforeMain.KeepsTable okayBoot fifoPlatform () ()
      [.monitorTask (some fswTaskNameMain) fswTaskIdMain] :=
  (tm_table_kept_iff okayBoot fifoPlatform () () _
    (by simp only [List.forall_mem_singleton]; decide) beforeMain).mpr
    ⟨⟨_, List.mem_cons_self, rfl⟩, by decide⟩

/-- Without further registrations, the entry of `main` is missing. -/
theorem tm_table_kept_not :
    ¬∀ calls : List (TmCall Unit), (∀ call ∈ calls, TmState.InRange call.taskId) →
      beforeMain.KeepsTable okayBoot fifoPlatform () () calls := by
  intro h
  obtain ⟨results, s₁, registrations, s₂, hmain, hruns, hkept⟩ := h [] (by simp)
  cases hmain
  cases hruns
  have htype := hkept.types 1 ⟨1, .monitor, true⟩ rfl rfl
  cases htype

end Main

end Protoflight
