import Protoflight.Fsw.TmThreads

/-!
# Shutting down

A call of `tm_stop` ends the started system in order. No flag that has been cleared
is set again, the scheduler begins at most the slot that it was already waiting for,
and once its last loop is done every thread gets out of its own loop.
-/

namespace Protoflight

variable {F V : Type}

section Work

/-- What the scheduler may do to the task manager and to the semaphores of the tasks. -/
structure TmSystem.Advances (s s' : TmSystem F (SemWorld V)) : Prop where
  types : ∀ index, (s'.tm.tasks index).type = (s.tm.tasks index).type
  stopped : s.tm.continueRunning = false → s'.tm.continueRunning = false
  units : ∀ index, s.os.units index ≤ s'.os.units index

theorem TmSystem.Advances.refl (s : TmSystem F (SemWorld V)) : s.Advances s :=
  ⟨fun _ => rfl, id, fun _ => Nat.le_refl _⟩

variable (C : TmCallbacks F V)

/-- Giving a semaphore adds a unit to it. -/
theorem units_semGive (index : ℕ) (os : SemWorld V) (other : ℕ) :
    (C.platform.semGive index os).2.units other =
      if other = index then os.units index + 1 else os.units other := by
  change Function.update os.units index (os.units index + 1) other = _
  rw [Function.update_apply]

theorem le_units_semGive (index : ℕ) (os : SemWorld V) (other : ℕ) :
    os.units other ≤ (C.platform.semGive index os).2.units other := by
  rw [units_semGive]
  split
  next heq =>
    subst heq
    omega
  next => exact Nat.le_refl _

variable {C}

/-- Serving a task takes no units from the semaphores and does not set the flag. -/
theorem tmProcessTask_advances {status : TmTaskstatus} {taskId : TmTaskId}
    {s s' : TmSystem F (SemWorld V)} {events : List (TmEvent F)}
    (h : tmProcessTask C.platform status taskId s = .ok (events, s')) : s.Advances s' := by
  cases status with
  | schedule =>
    obtain ⟨task, -, h⟩ := exists_ok_of_bind h
    dsimp only at h
    split at h
    · have hunits := le_units_semGive C taskId.toInt.toNat s.os
      split at h
      · cases h
        exact ⟨fun _ => rfl, id, hunits⟩
      · cases h
        exact ⟨fun _ => rfl, id, hunits⟩
    · split at h
      · split at h
        · cases h
          exact .refl s
        · cases h
          refine ⟨fun _ => rfl, fun hstopped => ?_, fun _ => Nat.le_refl _⟩
          simp only [hstopped, Bool.false_and]
      · cases h
        exact .refl s
  | missedHeartbeat =>
    cases h
    exact ⟨fun _ => rfl, id, fun _ => Nat.le_refl _⟩
  | invalid | wait | error | other value =>
    cases h
    exact .refl s

/-- The same holds of the whole round of the loop for a task. -/
theorem tmSchedulerEntry_advances {taskId : TmTaskId} {s s' : TmSystem F (SemWorld V)}
    {events : List (TmEvent F)}
    (h : tmSchedulerEntry C.platform taskId s = .ok (events, s')) : s.Advances s' := by
  simp only [tmSchedulerEntry, osTaskStatus, if_true] at h
  obtain ⟨task, htask, h⟩ := exists_ok_of_bind h
  obtain ⟨tm, htm, h⟩ := exists_ok_of_bind h
  obtain ⟨⟨served, t⟩, hprocess, h⟩ := exists_ok_of_bind h
  cases h
  have hadvances := tmProcessTask_advances hprocess
  unfold TmState.task at htask
  unfold TmState.setTask at htm
  split at htask
  next hrange =>
    cases htask
    rw [if_pos hrange] at htm
    cases htm
    refine ⟨fun index => ?_, hadvances.stopped, hadvances.units⟩
    rw [hadvances.types]
    by_cases heq : index = taskId.toInt.toNat
    · subst heq
      simp only [Function.update_self]
      exact (s.tm.tasks taskId.toInt.toNat).type_next
    · simp only [Function.update_of_ne heq]
  next => cases htask

/-- The last loop gives its unit to a periodic task. -/
theorem tmReleaseTasks_advances {index : ℕ} {s s' : TmSystem F (SemWorld V)}
    {events : List (TmEvent F)} (hindex : index < tmMaxTasks)
    (h : tmReleaseTasks C.platform [index] s = .ok (events, s')) :
    s.Advances s' ∧ ((s.tm.tasks index).type = .periodic → 0 < s'.os.units index) := by
  rw [tmReleaseTasks, s.tm.task_of_inRange (inRange_ofNat hindex), toNat_toInt_ofNat hindex] at h
  simp only [pure_bind] at h
  split at h
  next htype =>
    cases h
    refine ⟨⟨fun _ => rfl, id, le_units_semGive C index s.os⟩, fun _ => ?_⟩
    have hunits := units_semGive C index s.os index
    rw [if_pos rfl] at hunits
    change 0 < (C.platform.semGive index s.os).2.units index
    omega
  next htype =>
    cases h
    exact ⟨.refl s, fun hperiodic => absurd hperiodic htype⟩

end Work

section Take

variable {s s' : TmSystem F (SemWorld V)}

/-- `tm_running` takes units from the semaphore of its own task, if from any. -/
theorem tmRunningTake_spec {taskId : TmTaskId} {interrupted : Bool}
    (h : tmRunningTake taskId interrupted s = some s') :
    s'.tm = s.tm ∧ ∀ other, other ≠ taskId.toInt.toNat → s'.os.units other = s.os.units other := by
  obtain ⟨task, -, h⟩ := Option.bind_eq_some_iff.mp h
  split at h
  · obtain ⟨os, htake, heq⟩ := Option.map_eq_some_iff.mp h
    subst heq
    refine ⟨rfl, fun other hne => ?_⟩
    unfold SemWorld.take at htake
    split at htake
    · cases htake
    · cases htake
      exact Function.update_of_ne hne _ _
  · cases h
    exact ⟨rfl, fun _ _ => rfl⟩

/-- `tm_running` finds a unit for a periodic task. -/
theorem tmRunningTake_of_pos {index : ℕ} (hindex : index < tmMaxTasks)
    (hperiodic : (s.tm.tasks index).type = .periodic) (hpos : 0 < s.os.units index) :
    tmRunningTake (Int32.ofNat index) false s = some
      { s with os.units := Function.update s.os.units index (s.os.units index - 1) } := by
  have hne : s.os.units index ≠ 0 := by omega
  rw [tmRunningTake, s.tm.task_of_inRange (inRange_ofNat hindex), toNat_toInt_ofNat hindex]
  change (if (s.tm.tasks index).type = .periodic ∧ _ then _ else _) = _
  rw [if_pos ⟨hperiodic, rfl⟩, SemWorld.take, if_neg hne]
  rfl

end Take

namespace TmThreads

section Steps

variable {C : TmCallbacks F V} {s s' : TmThreads F V} {notes : List TmNote}

/-- What a step of a thread that loops on `tm_running` does. -/
theorem threadStep_spec {index : ℕ} (hindex : index < tmMaxTasks) {interrupted : Bool}
    (h : threadStep index interrupted s = some (notes, s')) :
    s'.system.tm = s.system.tm ∧ s'.scheduler = s.scheduler ∧
      (∀ other, other ≠ index →
        s'.threads other = s.threads other ∧ s'.units other = s.units other) ∧
      match s.threads index with
      | .loopHead => s'.threads index = .reading ∧ notes = []
      | .reading => s'.threads index = (if s.running then .body else .left) ∧
          s'.units index = s.units index ∧ notes = [.returned index s.running]
      | .body => s'.threads index = .loopHead ∧ s'.units index = s.units index ∧ notes = []
      | .left => False := by
  have hother : ∀ phase other, other ≠ index →
      (s.setThread index phase).threads other = s.threads other :=
    fun phase other hne => Function.update_of_ne hne _ _
  have hself : ∀ phase, (s.setThread index phase).threads index = phase :=
    fun phase => Function.update_self _ _ _
  unfold threadStep at h
  cases hphase : s.threads index with
  | loopHead =>
    rw [hphase] at h
    obtain ⟨system, htake, h⟩ := Option.bind_eq_some_iff.mp h
    cases h
    obtain ⟨htm, hunits⟩ := tmRunningTake_spec htake
    refine ⟨htm, rfl, fun other hne => ⟨hother _ other hne, hunits other ?_⟩, hself _, rfl⟩
    rwa [toNat_toInt_ofNat hindex]
  | reading =>
    rw [hphase] at h
    cases h
    exact ⟨rfl, rfl, fun other hne => ⟨hother _ other hne, rfl⟩, hself _, rfl, rfl⟩
  | body =>
    rw [hphase] at h
    cases h
    exact ⟨rfl, rfl, fun other hne => ⟨hother _ other hne, rfl⟩, hself _, rfl, rfl⟩
  | left =>
    rw [hphase] at h
    cases h

/-- What a step of the scheduler does. -/
theorem schedulerStep_spec {interrupted : Bool}
    (h : schedulerStep C interrupted s = some (notes, s')) :
    s'.threads = s.threads ∧ s.system.Advances s'.system ∧
      match s.scheduler with
      | .loopHead => s'.scheduler = (if s.running then .taking else .release 0) ∧ notes = []
      | .taking => s'.scheduler = .loopHead ∧ notes = [] ∨
          s'.scheduler = .slot 0 ∧ notes = [.slotBegun]
      | .slot index => (s'.scheduler = .slot (index + 1) ∨ s'.scheduler = .loopHead) ∧ notes = []
      | .release index => notes = [] ∧
          (s'.scheduler = .release (index + 1) ∧
              ((s.system.tm.tasks index).type = .periodic → 0 < s'.units index) ∨
            s'.scheduler = .finished ∧ tmMaxTasks ≤ index)
      | .finished => False := by
  unfold schedulerStep at h
  cases hphase : s.scheduler with
  | loopHead =>
    rw [hphase] at h
    cases h
    exact ⟨rfl, .refl _, rfl, rfl⟩
  | taking =>
    simp only [hphase] at h
    split at h
    · cases h
      exact ⟨rfl, ⟨fun _ => rfl, fun _ => rfl, fun _ => Nat.le_refl _⟩, .inl ⟨rfl, rfl⟩⟩
    · split at h
      · cases h
      · cases h
        exact ⟨rfl, .refl _, .inr ⟨rfl, rfl⟩⟩
  | slot index =>
    simp only [hphase] at h
    split at h
    · obtain ⟨⟨events, system⟩, hentry, h⟩ := Option.bind_eq_some_iff.mp h
      cases h
      have hentry := eq_ok_of_toOption hentry
      exact ⟨rfl, tmSchedulerEntry_advances hentry, .inl rfl, rfl⟩
    · cases h
      exact ⟨rfl, .refl _, .inr rfl, rfl⟩
  | release index =>
    simp only [hphase] at h
    split at h
    next hindex =>
      obtain ⟨⟨events, system⟩, hrelease, h⟩ := Option.bind_eq_some_iff.mp h
      cases h
      have hrelease := eq_ok_of_toOption hrelease
      obtain ⟨hadvances, hgiven⟩ := tmReleaseTasks_advances hindex hrelease
      exact ⟨rfl, hadvances, rfl, .inl ⟨rfl, hgiven⟩⟩
    next hindex =>
      cases h
      exact ⟨rfl, .refl _, rfl, .inr ⟨rfl, Nat.le_of_not_lt hindex⟩⟩
  | finished =>
    rw [hphase] at h
    cases h

theorem threadStep_of_step {index : ℕ} {interrupted : Bool}
    (h : s.step C (.thread index interrupted) = some (notes, s')) :
    index < tmMaxTasks ∧ threadStep index interrupted s = some (notes, s') := by
  change (if _ then _ else _) = _ at h
  split at h
  next hthread => exact ⟨hthread.1, h⟩
  next => cases h

/-- A step leaves the types of the tasks as they are and does not set the flag. -/
theorem step_keeps {action : TmAction V} (h : s.step C action = some (notes, s')) :
    (∀ index, (s'.system.tm.tasks index).type = (s.system.tm.tasks index).type) ∧
      (s.running = false → s'.running = false) := by
  cases action with
  | tick | world rest =>
    cases h
    exact ⟨fun _ => rfl, id⟩
  | stop =>
    cases h
    exact ⟨fun _ => rfl, fun _ => rfl⟩
  | thread index interrupted =>
    obtain ⟨hindex, h⟩ := threadStep_of_step h
    obtain ⟨htm, -⟩ := threadStep_spec hindex h
    refine ⟨fun other => by rw [htm], fun hstopped => ?_⟩
    rwa [running, htm]
  | scheduler interrupted =>
    obtain ⟨-, hadvances, -⟩ := schedulerStep_spec h
    exact ⟨hadvances.types, hadvances.stopped⟩

/-- The thread of a task does not wait for ever once the flag is cleared. -/
def Unblocked (s : TmThreads F V) (index : ℕ) : Prop :=
  s.threads index = .left ∨ s.threads index = .reading ∨ 0 < s.units index

/-- With the flag cleared, no step blocks a thread that is not blocked. -/
theorem step_unblocked {action : TmAction V} (h : s.step C action = some (notes, s'))
    (hstopped : s.running = false) {index : ℕ} (hunblocked : s.Unblocked index) :
    s'.Unblocked index := by
  cases action with
  | tick | stop | world rest =>
    cases h
    exact hunblocked
  | thread other interrupted =>
    obtain ⟨hindex, h⟩ := threadStep_of_step h
    obtain ⟨-, -, hothers, hown⟩ := threadStep_spec hindex h
    by_cases heq : index = other
    · subst heq
      -- its own step: only a thread that has taken its unit goes on without one
      unfold Unblocked at hunblocked ⊢
      cases hphase : s.threads index with
      | loopHead =>
        rw [hphase] at hown
        exact .inr (.inl hown.1)
      | reading =>
        rw [hphase, hstopped] at hown
        exact .inl hown.1
      | body =>
        rw [hphase] at hown hunblocked
        obtain ⟨-, hunits, -⟩ := hown
        have hpos : 0 < s.units index := by simpa using hunblocked
        refine .inr (.inr ?_)
        omega
      | left =>
        rw [hphase] at hown
        exact hown.elim
    · obtain ⟨hthread, hunits⟩ := hothers index heq
      unfold Unblocked
      rwa [hthread, hunits]
  | scheduler interrupted =>
    obtain ⟨hthreads, hadvances, -⟩ := schedulerStep_spec h
    have hunits : s.units index ≤ s'.units index := hadvances.units index
    unfold Unblocked at hunblocked ⊢
    rw [hthreads]
    rcases hunblocked with hleft | hreading | hpos
    · exact .inl hleft
    · exact .inr (.inl hreading)
    · refine .inr (.inr ?_)
      omega

end Steps

section Runs

variable {C : TmCallbacks F V} {s s' : TmThreads F V} {notes : List TmNote}

/-- The slots that the scheduler will yet begin once the flag is cleared. -/
def slotsLeft (s : TmThreads F V) : ℕ := if s.scheduler = .taking then 1 else 0

/-- With the flag cleared, a step that begins a slot uses up what was left of them, and
a read of the flag gives false. -/
theorem step_stopped {action : TmAction V} (h : s.step C action = some (notes, s'))
    (hstopped : s.running = false) :
    notes.count .slotBegun + s'.slotsLeft ≤ s.slotsLeft ∧
      ∀ index value, .returned index value ∈ notes → value = false := by
  cases action with
  | tick | stop | world rest =>
    cases h
    refine ⟨?_, fun _ _ hmem => by cases hmem⟩
    rw [List.count_nil, Nat.zero_add]
    exact Nat.le_refl _
  | thread index interrupted =>
    obtain ⟨hindex, h⟩ := threadStep_of_step h
    obtain ⟨-, hscheduler, -, hown⟩ := threadStep_spec hindex h
    have hleft : s'.slotsLeft = s.slotsLeft := by rw [slotsLeft, hscheduler, slotsLeft]
    rw [hleft]
    cases hphase : s.threads index with
    | loopHead =>
      rw [hphase] at hown
      simp [hown.2]
    | reading =>
      rw [hphase] at hown
      simp [hown.2.2, hstopped]
    | body =>
      rw [hphase] at hown
      simp [hown.2.2]
    | left =>
      rw [hphase] at hown
      exact hown.elim
  | scheduler interrupted =>
    obtain ⟨-, -, hown⟩ := schedulerStep_spec h
    unfold slotsLeft
    cases hphase : s.scheduler with
    | loopHead =>
      rw [hphase, hstopped] at hown
      simp [hown.1, hown.2]
    | taking =>
      rw [hphase] at hown
      rcases hown with ⟨hnext, hnotes⟩ | ⟨hnext, hnotes⟩ <;> simp [hnext, hnotes]
    | slot index =>
      rw [hphase] at hown
      obtain ⟨hnext | hnext, hnotes⟩ := hown <;> simp [hnext, hnotes]
    | release index =>
      rw [hphase] at hown
      obtain ⟨hnotes, ⟨hnext, -⟩ | ⟨hnext, -⟩⟩ := hown <;> simp [hnext, hnotes]
    | finished =>
      rw [hphase] at hown
      exact hown.elim

/-- After a run the flag is still cleared if it was, no read has given true meanwhile,
and the scheduler has begun no more slots than were left. -/
theorem run_stopped {actions : List (TmAction V)} (h : s.run C actions = some (notes, s'))
    (hstopped : s.running = false) :
    s'.running = false ∧ notes.count .slotBegun ≤ s.slotsLeft ∧
      ∀ index value, .returned index value ∈ notes → value = false := by
  induction actions generalizing s notes with
  | nil =>
    cases h
    exact ⟨hstopped, Nat.zero_le _, fun _ _ hmem => by cases hmem⟩
  | cons action actions ih =>
    obtain ⟨⟨first, t⟩, hstep, h⟩ := Option.bind_eq_some_iff.mp h
    obtain ⟨⟨rest, u⟩, hrun, h⟩ := Option.bind_eq_some_iff.mp h
    cases h
    obtain ⟨hcount, hreads⟩ := step_stopped hstep hstopped
    obtain ⟨hstopped', hcount', hreads'⟩ := ih hrun ((step_keeps hstep).2 hstopped)
    refine ⟨hstopped', ?_, fun index value hmem => ?_⟩
    · rw [List.count_append]
      omega
    · rcases List.mem_append.mp hmem with hmem | hmem
      · exact hreads index value hmem
      · exact hreads' index value hmem

/-- The scheduler has passed an entry of the table in its last loop. -/
def Released (s : TmThreads F V) (index : ℕ) : Prop :=
  match s.scheduler with
  | .release next => index < next
  | .finished => index < tmMaxTasks
  | _ => False

/-- What holds in every state of the started system. -/
structure Shutdown (tasks : ℕ → TmTask F) (s : TmThreads F V) : Prop where
  types : ∀ index, (s.system.tm.tasks index).type = (tasks index).type
  /-- The last loop begins when the flag is cleared. -/
  stopped : (∃ index, s.scheduler = .release index) ∨ s.scheduler = .finished → s.running = false
  /-- A task that the last loop has passed is not blocked. -/
  unblocked : ∀ index, s.Released index → (tasks index).type = .periodic → s.Unblocked index

/-- A step that ends in the last loop has left the scheduler alone, or the scheduler has
read a cleared flag, or it has gone on in the loop by one entry. -/
theorem lastLoop_cases {action : TmAction V} (h : s.step C action = some (notes, s'))
    (hlast : (∃ index, s'.scheduler = .release index) ∨ s'.scheduler = .finished) :
    s'.scheduler = s.scheduler ∨ (s.running = false ∧ s'.scheduler = .release 0) ∨
      ∃ next, s.scheduler = .release next ∧
        (s'.scheduler = .release (next + 1) ∧
            ((s.system.tm.tasks next).type = .periodic → 0 < s'.units next) ∨
          s'.scheduler = .finished ∧ tmMaxTasks ≤ next) := by
  cases action with
  | tick | stop | world rest =>
    cases h
    exact .inl rfl
  | thread other interrupted =>
    obtain ⟨hindex, h⟩ := threadStep_of_step h
    exact .inl (threadStep_spec hindex h).2.1
  | scheduler interrupted =>
    obtain ⟨-, -, hown⟩ := schedulerStep_spec h
    cases hphase : s.scheduler with
    | loopHead =>
      rw [hphase] at hown
      cases hrunning : s.running with
      | false =>
        rw [hrunning] at hown
        exact .inr (.inl ⟨rfl, hown.1⟩)
      | true =>
        rw [hown.1, hrunning] at hlast
        simp at hlast
    | taking =>
      rw [hphase] at hown
      rcases hown with ⟨hnext, -⟩ | ⟨hnext, -⟩ <;> rw [hnext] at hlast <;> simp at hlast
    | slot next =>
      rw [hphase] at hown
      obtain ⟨hnext | hnext, -⟩ := hown <;> rw [hnext] at hlast <;> simp at hlast
    | release next =>
      rw [hphase] at hown
      exact .inr (.inr ⟨next, rfl, hown.2⟩)
    | finished =>
      rw [hphase] at hown
      exact hown.elim

/-- The scheduler comes to its last loop by reading a cleared flag. -/
theorem stopped_of_step {tasks : ℕ → TmTask F} {action : TmAction V} (hs : s.Shutdown tasks)
    (h : s.step C action = some (notes, s'))
    (hlast : (∃ index, s'.scheduler = .release index) ∨ s'.scheduler = .finished) :
    s.running = false := by
  rcases lastLoop_cases h hlast with hsame | ⟨hstopped, -⟩ | ⟨next, hphase, -⟩
  · rw [hsame] at hlast
    exact hs.stopped hlast
  · exact hstopped
  · exact hs.stopped (.inl ⟨next, hphase⟩)

/-- Entries are passed in the last loop only. -/
theorem Released.lastLoop {index : ℕ} (hreleased : s.Released index) :
    (∃ next, s.scheduler = .release next) ∨ s.scheduler = .finished := by
  unfold Released at hreleased
  split at hreleased
  next next hphase => exact .inl ⟨next, hphase⟩
  next hphase => exact .inr hphase
  next => exact hreleased.elim

/-- An entry that the last loop has passed after a step was passed before, or has been given
its unit. -/
theorem released_cases {tasks : ℕ → TmTask F} {action : TmAction V} (hs : s.Shutdown tasks)
    (h : s.step C action = some (notes, s')) {index : ℕ} (hreleased : s'.Released index)
    (hperiodic : (tasks index).type = .periodic) :
    s.Released index ∨ 0 < s'.units index := by
  have hlast := hreleased.lastLoop
  unfold Released at hreleased ⊢
  rcases lastLoop_cases h hlast with hsame | ⟨-, hnext⟩ | ⟨next, hphase, hnext | hnext⟩
  · rw [hsame] at hreleased
    exact .inl hreleased
  · rw [hnext] at hreleased
    exact absurd hreleased (Nat.not_lt_zero index)
  · obtain ⟨hnext, hgiven⟩ := hnext
    rw [hnext] at hreleased
    have hlt : index < next + 1 := hreleased
    by_cases heq : index = next
    · subst heq
      rw [hs.types] at hgiven
      exact .inr (hgiven hperiodic)
    · rw [hphase]
      refine .inl ?_
      change index < next
      omega
  · obtain ⟨hnext, hend⟩ := hnext
    rw [hnext] at hreleased
    have hlt : index < tmMaxTasks := hreleased
    rw [hphase]
    refine .inl ?_
    change index < next
    omega

/-- Every step keeps it. -/
theorem Shutdown.of_step {tasks : ℕ → TmTask F} {action : TmAction V} (hs : s.Shutdown tasks)
    (h : s.step C action = some (notes, s')) : s'.Shutdown tasks := by
  obtain ⟨htypes, hflag⟩ := step_keeps h
  refine ⟨fun index => ?_, fun hlast => hflag (stopped_of_step hs h hlast),
    fun index hreleased hperiodic => ?_⟩
  · rw [htypes, hs.types]
  · have hstopped := stopped_of_step hs h hreleased.lastLoop
    rcases released_cases hs h hreleased hperiodic with hbefore | hpos
    · exact step_unblocked h hstopped (hs.unblocked index hbefore hperiodic)
    · exact .inr (.inr hpos)

/-- Every run keeps it. -/
theorem Shutdown.of_run {tasks : ℕ → TmTask F} {actions : List (TmAction V)} (hs : s.Shutdown tasks)
    (h : s.run C actions = some (notes, s')) : s'.Shutdown tasks := by
  induction actions generalizing s notes with
  | nil =>
    cases h
    exact hs
  | cons action actions ih =>
    obtain ⟨⟨first, t⟩, hstep, h⟩ := Option.bind_eq_some_iff.mp h
    obtain ⟨⟨rest, u⟩, hrun, h⟩ := Option.bind_eq_some_iff.mp h
    cases h
    exact ih (hs.of_step hstep) hrun

/-- It holds at the start. -/
theorem Started.shutdown (hstart : s.Started) : s.Shutdown s.system.tm.tasks where
  types _ := rfl
  stopped hlast := by
    rw [hstart.1] at hlast
    simp at hlast
  unblocked index hreleased := by
    unfold Released at hreleased
    rw [hstart.1] at hreleased
    exact hreleased.elim

/-- The thread of a task, let alone, gets out of its loop by some steps. -/
def Leaves (C : TmCallbacks F V) (s : TmThreads F V) (index steps : ℕ) : Prop :=
  ∃ notes s', s.run C (List.replicate steps (.thread index false)) = some (notes, s') ∧
    s'.threads index = .left

/-- A step out of the way. -/
theorem Leaves.cons {index steps : ℕ} (h : s'.Leaves C index steps)
    (hstep : s.step C (.thread index false) = some (notes, s')) :
    s.Leaves C index (steps + 1) := by
  obtain ⟨rest, t, hrun, hleft⟩ := h
  refine ⟨notes ++ rest, t, ?_, hleft⟩
  rw [List.replicate_succ, TmThreads.run, hstep]
  change (s'.run C _).bind _ = _
  rw [hrun]
  rfl

/-- A step of the thread of a task of the table. -/
theorem step_thread {index : ℕ} (hindex : index < tmMaxTasks)
    (hother : Int32.ofNat index ≠ fswTaskIdTmScheduler) :
    s.step C (.thread index false) = threadStep index false s := if_pos ⟨hindex, hother⟩

theorem threads_setThread (index : ℕ) (phase : TmThreadPhase) :
    (s.setThread index phase).threads index = phase := Function.update_self _ _ _

/-- A thread that has taken its unit leaves its loop. -/
theorem leaves_of_reading {index : ℕ} (hindex : index < tmMaxTasks)
    (hother : Int32.ofNat index ≠ fswTaskIdTmScheduler) (hstopped : s.running = false)
    (hphase : s.threads index = .reading) : s.Leaves C index 1 := by
  have hleft : (s.setThread index .left).Leaves C index 0 :=
    ⟨[], _, rfl, threads_setThread index .left⟩
  have hstep : s.step C (.thread index false) =
      some ([.returned index false], s.setThread index .left) := by
    rw [step_thread hindex hother]
    simp only [threadStep, hphase, hstopped, Bool.false_eq_true, if_false]
  exact hleft.cons hstep

/-- A thread that finds a unit leaves its loop. -/
theorem leaves_of_loopHead {index : ℕ} (hindex : index < tmMaxTasks)
    (hother : Int32.ofNat index ≠ fswTaskIdTmScheduler) (hstopped : s.running = false)
    (hperiodic : (s.system.tm.tasks index).type = .periodic) (hphase : s.threads index = .loopHead)
    (hpos : 0 < s.units index) : s.Leaves C index 2 := by
  set taken : TmSystem F (SemWorld V) := { s.system with
    os.units := Function.update s.system.os.units index (s.units index - 1) } with htaken
  have htake : tmRunningTake (Int32.ofNat index) false s.system = some taken :=
    tmRunningTake_of_pos hindex hperiodic hpos
  have hreading :
      { s.setThread index .reading with system := taken : TmThreads F V }.Leaves C index 1 :=
    leaves_of_reading hindex hother hstopped (threads_setThread index .reading)
  have hstep : s.step C (.thread index false) =
      some ([], { s.setThread index .reading with system := taken }) := by
    rw [step_thread hindex hother]
    simp only [threadStep, hphase, htake]
    rfl
  exact hreading.cons hstep

/-- With the flag cleared, a thread that is not blocked leaves its loop. -/
theorem Unblocked.leaves {index : ℕ} (hunblocked : s.Unblocked index) (hindex : index < tmMaxTasks)
    (hother : Int32.ofNat index ≠ fswTaskIdTmScheduler) (hstopped : s.running = false)
    (hperiodic : (s.system.tm.tasks index).type = .periodic) :
    ∃ steps ≤ 3, s.Leaves C index steps := by
  unfold Unblocked at hunblocked
  cases hphase : s.threads index with
  | loopHead =>
    rw [hphase] at hunblocked
    have hpos : 0 < s.units index := by simpa using hunblocked
    exact ⟨2, by omega, leaves_of_loopHead hindex hother hstopped hperiodic hphase hpos⟩
  | reading => exact ⟨1, by omega, leaves_of_reading hindex hother hstopped hphase⟩
  | body =>
    rw [hphase] at hunblocked
    have hpos : 0 < s.units index := by simpa using hunblocked
    have hhead : (s.setThread index .loopHead).Leaves C index 2 :=
      leaves_of_loopHead hindex hother hstopped hperiodic (threads_setThread index .loopHead) hpos
    have hstep : s.step C (.thread index false) = some ([], s.setThread index .loopHead) := by
      rw [step_thread hindex hother]
      simp only [threadStep, hphase]
    exact ⟨3, by omega, hhead.cons hstep⟩
  | left => exact ⟨0, by omega, [], s, rfl, hphase⟩

end Runs

section Started

variable (C : TmCallbacks F V)

/-- Once the flag is cleared it stays so, `tm_running` returns false, and the scheduler
begins at most one more slot; and when it has finished its last loop, no thread of a
periodic task is blocked for ever. -/
theorem tm_shuts_down {s₀ s : TmThreads F V} (hstart : s₀.Started) {actions : List (TmAction V)}
    {notes : List TmNote} (hrun : s₀.run C actions = some (notes, s)) :
    (s.running = false → ∀ later notes' s', s.run C later = some (notes', s') →
      s'.running = false ∧ (∀ index value, .returned index value ∈ notes' → value = false) ∧
        notes'.count .slotBegun ≤ 1) ∧
    (s.scheduler = .finished → ∀ index < tmMaxTasks,
      Int32.ofNat index ≠ fswTaskIdTmScheduler →
      (s₀.system.tm.tasks index).type = .periodic →
      s.running = false ∧
        (s.threads index = .left ∨ s.threads index = .reading ∨ 0 < s.units index) ∧
        ∃ steps ≤ 3, s.Leaves C index steps) := by
  have hs := hstart.shutdown.of_run hrun
  constructor
  · intro hstopped later notes' s' hlater
    obtain ⟨hflag, hslots, hreads⟩ := run_stopped hlater hstopped
    have hleft : s.slotsLeft ≤ 1 := by
      unfold slotsLeft
      split <;> omega
    refine ⟨hflag, hreads, ?_⟩
    omega
  · intro hfinished index hindex hother hperiodic
    have hstopped := hs.stopped (.inr hfinished)
    have hreleased : s.Released index := by
      unfold Released
      rwa [hfinished]
    have hunblocked := hs.unblocked index hreleased hperiodic
    refine ⟨hstopped, hunblocked, hunblocked.leaves hindex hother hstopped ?_⟩
    rw [hs.types, hperiodic]

/-- A started system with one task of every slot, at index 3. -/
def oneTaskStarted : TmThreads Unit Unit where
  system :=
    { tm :=
        { status := ⟨0, 0, 0⟩
          continueRunning := true
          numTasks := 1
          tasks := Function.update (fun _ => ⟨.invalid, 0, 0, 0, none, 0, 0, 0, []⟩) 3
            (tmNewTask [] .periodic (some ()) 0 1 1 0 0) }
      os := ⟨fun _ => 0, ()⟩ }
  scheduleUnits := 0
  scheduler := .loopHead
  threads _ := .loopHead

/-- A call of `tm_stop`, and all that the scheduler does afterwards. -/
def stopAtOnce : List (TmAction Unit) :=
  .stop :: .scheduler false :: List.replicate (tmMaxTasks + 1) (.scheduler false)

/-- The scheduler finishes, and the waiting task is not blocked for ever. -/
theorem tm_shuts_down_one_task :
    ∃ notes s, oneTaskStarted.run noCallbacks stopAtOnce = some (notes, s) ∧
      s.scheduler = .finished ∧ s.running = false ∧ ∃ steps ≤ 3, s.Leaves noCallbacks 3 steps := by
  have hstart : oneTaskStarted.Started := ⟨rfl, fun _ => rfl⟩
  let stopped : TmThreads Unit Unit :=
    { oneTaskStarted with system.tm.continueRunning := false, scheduler := .release 0 }
  obtain ⟨os, hrelease⟩ := tmReleaseTasks_eq (P := noCallbacks.platform) (fun _ _ => rfl)
    (fun index hmem => List.mem_range.mp hmem) stopped.system
  have hrun : oneTaskStarted.run noCallbacks stopAtOnce =
      some ([], { stopped with system.os := os, scheduler := .finished }) := by
    rw [stopAtOnce, run_cons_of_step rfl, run_cons_of_step rfl]
    exact run_release_alone (s := stopped) rfl hrelease
  obtain ⟨hflag, -, hleaves⟩ :=
    (tm_shuts_down noCallbacks hstart hrun).2 rfl 3 (by decide) (by decide) rfl
  exact ⟨_, _, hrun, rfl, hflag, hleaves⟩

end Started

end TmThreads

end Protoflight
