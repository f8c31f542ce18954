import Protoflight.Data.Flags
import Protoflight.Fsw.TmRuns

/-!
# The bit fields of the task status

Each slot records in two bit fields which tasks were scheduled and which missed a
heartbeat. A field is an `int`, so a record is kept for the ids below its width
alone, whatever the size of the task table.
-/

namespace Protoflight

variable {F W : Type}

/-- The number of bits of a `TM_TaskBitField`. -/
def tmTaskBits : ℕ := 32

/-- The bit of a task is set. -/
def TmTaskBitField.IsSet (field : TmTaskBitField) (index : ℕ) : Prop :=
  field.toBitVec.getLsbD index = true

instance (field : TmTaskBitField) (index : ℕ) : Decidable (TmTaskBitField.IsSet field index) :=
  inferInstanceAs (Decidable (_ = _))

/-- Within the width of a field, the shift sets the bit of the task and no other. -/
theorem isSet_tmSetBit (P : TmPlatform F W) (field : TmTaskBitField) {index : ℕ}
    (h : index < tmTaskBits) (other : ℕ) :
    TmTaskBitField.IsSet (tmSetBit P field (Int32.ofNat index)) other ↔
      TmTaskBitField.IsSet field other ∨ other = index := by
  have hwidth : index < 32 := h
  have hint : (Int32.ofNat index).toInt = index := Int32.toInt_ofNat_of_lt (by omega)
  have hnonneg : (0 : Int32) ≤ Int32.ofNat index := by
    rw [Int32.le_iff_toInt_le, hint]
    simp
  have hlt : Int32.ofNat index < 64 := by
    rw [Int32.lt_iff_toInt_lt, hint]
    simp only [Int32.reduceToInt]
    omega
  have hcount : ∀ n < 32, (BitVec.signExtend 64 (BitVec.ofNat 32 n)).toNat = n := by decide
  simp only [TmTaskBitField.IsSet, tmSetBit, hnonneg, hlt, and_self, if_true]
  simp [hcount index hwidth, BitVec.getLsbD_signExtend]
  grind

section Record

/-- What an event leaves in the status. -/
def TmStatus.record (P : TmPlatform F W) (status : TmStatus) : TmEvent F → TmStatus
  | .updated index .missedHeartbeat =>
    { status with
      tasksMissedHeartbeat := tmSetBit P status.tasksMissedHeartbeat (Int32.ofNat index) }
  | .given index .okay =>
    { status with tasksScheduled := tmSetBit P status.tasksScheduled (Int32.ofNat index) }
  | _ => status

variable {P : TmPlatform F W}

/-- The status after the round of the loop for a task tells the events of the round. -/
theorem tmSchedulerEntry_status {index : ℕ} (h : index < tmMaxTasks) (s : TmSystem F W) :
    ∃ events s', tmSchedulerEntry P (Int32.ofNat index) s = .ok (events, s') ∧
      (∀ event ∈ events, event.index = index) ∧
      s'.tm.status = events.foldl (TmStatus.record P) s.tm.status := by
  have hrange := inRange_ofNat h
  have hindex := toNat_toInt_ofNat h
  rw [tmSchedulerEntry_of_lt P h]
  generalize Function.update s.tm.tasks index (s.tm.tasks index).next = tasks
  cases (s.tm.tasks index).status with
  | schedule =>
    simp only [tmProcessTask, TmState.task_of_inRange _ hrange, pure_bind, hindex]
    split
    · by_cases hokay : (P.semGive index s.os).1 = .okay
      · simp only [hokay, if_true]
        exact ⟨_, _, rfl, by simp [TmEvent.index], rfl⟩
      · simp only [hokay, if_false]
        exact ⟨_, _, rfl, by simp [TmEvent.index], by simp [TmStatus.record, hokay]⟩
    · split
      · split
        · exact ⟨_, _, rfl, by simp [TmEvent.index], rfl⟩
        · exact ⟨_, _, rfl, by simp [TmEvent.index], rfl⟩
      · exact ⟨_, _, rfl, by simp [TmEvent.index], rfl⟩
  | missedHeartbeat | invalid | wait | error | other =>
    simp only [tmProcessTask, pure_bind]
    exact ⟨_, _, rfl, by simp [TmEvent.index], rfl⟩

/-- The same for the loop over a part of the table. -/
theorem tmSchedulerEntries_status {indices : List ℕ} (h : ∀ index ∈ indices, index < tmMaxTasks)
    (s : TmSystem F W) :
    ∃ events s', tmSchedulerEntries P indices s = .ok (events, s') ∧
      (∀ event ∈ events, event.index < tmMaxTasks) ∧
      s'.tm.status = events.foldl (TmStatus.record P) s.tm.status := by
  induction indices generalizing s with
  | nil => exact ⟨[], s, rfl, by simp, rfl⟩
  | cons head indices ih =>
    have hhead := h head List.mem_cons_self
    obtain ⟨events, s₁, hentry, hevents, hstatus⟩ := tmSchedulerEntry_status hhead s
    obtain ⟨rest, s', hentries, hindices, hrest⟩ :=
      ih (fun index hmem => h index (List.mem_cons_of_mem head hmem)) s₁
    refine ⟨events ++ rest, s', ?_, fun event hmem => ?_, ?_⟩
    · rw [tmSchedulerEntries, hentry]
      change tmSchedulerEntries P indices s₁ >>= _ = _
      rw [hentries]
      rfl
    · rcases List.mem_append.mp hmem with hmem | hmem
      · exact hevents event hmem ▸ hhead
      · exact hindices event hmem
    · rw [hrest, hstatus, List.foldl_append]

/-- A registration leaves the status alone. -/
theorem TmCall.run_status {call : TmCall F} (hrange : TmState.InRange call.taskId)
    (s : TmSystem F W) :
    ∃ result s', call.run P s = .ok (result, s') ∧ s'.tm.status = s.tm.status := by
  obtain ⟨result, s', hrun, -⟩ := call.run_eq P hrange s
  refine ⟨result, s', hrun, ?_⟩
  cases call with
  | periodicTask taskName taskId taskFunction argument period heartbeatPeriod stackSize priority =>
    have hset := s.tm.setTask_of_inRange (show TmState.InRange taskId from hrange)
    simp only [run, tmPeriodicTask, hset, pure_bind] at hrun
    split at hrun
    · split at hrun
      · cases hrun
        rfl
      · split at hrun <;> cases hrun <;> rfl
    · cases hrun
      rfl
  | eventTask taskName taskId taskFunction argument heartbeatPeriod stackSize priority =>
    have hset := s.tm.setTask_of_inRange (show TmState.InRange taskId from hrange)
    simp only [run, tmEventTask, hset, pure_bind] at hrun
    split at hrun <;> cases hrun <;> rfl
  | callbackTask taskName taskId taskFunction argument period =>
    have hset := s.tm.setTask_of_inRange (show TmState.InRange taskId from hrange)
    simp only [run, tmCallbackTask, hset, pure_bind] at hrun
    split at hrun <;> cases hrun <;> rfl
  | monitorTask taskName taskId =>
    have hset := s.tm.setTask_of_inRange (show TmState.InRange taskId from hrange)
    simp only [run, tmMonitorTask, hset, pure_bind] at hrun
    split at hrun <;> cases hrun <;> rfl

/-- The status after a run tells the events of all its slots. -/
theorem runSteps_status {steps : List (TmStep F)} (hrange : ∀ step ∈ steps, step.InRange)
    (s : TmSystem F W) :
    ∃ slots s', runSteps P steps s = .ok (slots, s') ∧
      (∀ event ∈ slots.flatten, event.index < tmMaxTasks) ∧
      s'.tm.status = slots.flatten.foldl (TmStatus.record P) s.tm.status := by
  induction steps generalizing s with
  | nil => exact ⟨[], s, rfl, by simp, rfl⟩
  | cons step steps ih =>
    have hrest : ∀ step ∈ steps, step.InRange := fun step hmem =>
      hrange step (List.mem_cons_of_mem _ hmem)
    cases step with
    | slot =>
      obtain ⟨events, s₁, hslot, hevents, hstatus⟩ := tmSchedulerEntries_status (P := P)
        (fun index (hmem : index ∈ List.range tmMaxTasks) => List.mem_range.mp hmem) s
      obtain ⟨slots, s', hrun, hindices, hslots⟩ := ih hrest s₁
      refine ⟨events :: slots, s', ?_, fun event hmem => ?_, ?_⟩
      · rw [runSteps, tmSchedulerSlot, hslot]
        change runSteps P steps s₁ >>= _ = _
        rw [hrun]
        rfl
      · rcases List.mem_append.mp (List.flatten_cons ▸ hmem) with hmem | hmem
        · exact hevents event hmem
        · exact hindices event hmem
      · rw [hslots, hstatus, List.flatten_cons, List.foldl_append]
    | register call =>
      obtain ⟨result, s₁, hcall, hstatus⟩ := call.run_status (hrange _ List.mem_cons_self) s
      obtain ⟨slots, s', hrun, hindices, hslots⟩ := ih hrest s₁
      refine ⟨slots, s', ?_, hindices, hstatus ▸ hslots⟩
      rw [runSteps, hcall]
      exact hrun

/-- Among events about ids within the width of the fields, the bits set tell which
tasks missed a heartbeat and which were scheduled. -/
theorem isSet_foldl_record (P : TmPlatform F W) (events : List (TmEvent F))
    (hmissed : ∀ index, .updated index .missedHeartbeat ∈ events → index < tmTaskBits)
    (hgiven : ∀ index, .given index .okay ∈ events → index < tmTaskBits) (status : TmStatus)
    (index : ℕ) :
    (TmTaskBitField.IsSet (events.foldl (TmStatus.record P) status).tasksMissedHeartbeat index ↔
        TmTaskBitField.IsSet status.tasksMissedHeartbeat index ∨
          .updated index .missedHeartbeat ∈ events) ∧
      (TmTaskBitField.IsSet (events.foldl (TmStatus.record P) status).tasksScheduled index ↔
        TmTaskBitField.IsSet status.tasksScheduled index ∨ .given index .okay ∈ events) := by
  induction events generalizing status with
  | nil => simp
  | cons event events ih =>
    have ih := ih (fun index hmem => hmissed index (List.mem_cons_of_mem _ hmem))
      (fun index hmem => hgiven index (List.mem_cons_of_mem _ hmem)) (status.record P event)
    rw [List.foldl_cons, ih.1, ih.2]
    unfold TmStatus.record
    split
    next reported =>
      have hbit := isSet_tmSetBit P status.tasksMissedHeartbeat
        (hmissed reported List.mem_cons_self) index
      simp [hbit, or_assoc]
    next given =>
      have hbit := isSet_tmSetBit P status.tasksScheduled (hgiven given List.mem_cons_self) index
      simp [hbit, or_assoc]
    next hother hother' =>
      have hmissed' : .updated index .missedHeartbeat ≠ event := fun heq => hother _ heq.symm
      have hgiven' : .given index .okay ≠ event := fun heq => hother' _ heq.symm
      simp [hmissed', hgiven']

end Record

/-- The bit fields tell exactly which tasks were reported to have missed a heartbeat
and which were scheduled, if and only if all of these have ids within the width of the
fields. -/
theorem tm_status_bits_iff (P : TmPlatform F W) (steps : List (TmStep F))
    (hsteps : ∀ step ∈ steps, step.InRange) (s : TmSystem F W)
    (hmissed : s.tm.status.tasksMissedHeartbeat = 0) (hscheduled : s.tm.status.tasksScheduled = 0) :
    ∃ slots s', runSteps P steps s = .ok (slots, s') ∧
      ((∀ index < tmMaxTasks,
          (TmTaskBitField.IsSet s'.tm.status.tasksMissedHeartbeat index ↔
            .updated index .missedHeartbeat ∈ slots.flatten) ∧
          (TmTaskBitField.IsSet s'.tm.status.tasksScheduled index ↔
            .given index .okay ∈ slots.flatten)) ↔
        ∀ index < tmMaxTasks, tmTaskBits ≤ index →
          .updated index .missedHeartbeat ∉ slots.flatten ∧
            .given index .okay ∉ slots.flatten) := by
  obtain ⟨slots, s', hrun, hindices, hstatus⟩ := runSteps_status (P := P) hsteps s
  refine ⟨slots, s', hrun, ?_, ?_⟩
  · intro hexact index h hwide
    obtain ⟨hmissed, hgiven⟩ := hexact index h
    exact ⟨mt hmissed.mpr (Flags.not_isSet_of_le hwide),
      mt hgiven.mpr (Flags.not_isSet_of_le hwide)⟩
  · intro hnarrow index h
    have hbits := isSet_foldl_record P slots.flatten
      (fun index hmem => by
        by_contra hwide
        exact (hnarrow index (hindices _ hmem) (Nat.not_lt.mp hwide)).1 hmem)
      (fun index hmem => by
        by_contra hwide
        exact (hnarrow index (hindices _ hmem) (Nat.not_lt.mp hwide)).2 hmem) s.tm.status index
    have hzero : ¬TmTaskBitField.IsSet 0 index := Flags.not_isSet_zero index
    simpa [hstatus, hmissed, hscheduled, hzero] using hbits

/-- A slot after the registration of an event task that has to respond in every slot. -/
def eventTaskThenSlot (taskId : TmTaskId) : List (TmStep Unit) :=
  [.register (.eventTask (some []) taskId (some ()) 0 1 0 0), .slot]

/-- The status after a slot for the task with id 31. -/
theorem tm_status_bits_iff_task_31 :
    ∃ slots s', runSteps givingPlatform (eventTaskThenSlot 31) emptyTable = .ok (slots, s') ∧
      ((∀ index < tmMaxTasks,
          (TmTaskBitField.IsSet s'.tm.status.tasksMissedHeartbeat index ↔
            .updated index .missedHeartbeat ∈ slots.flatten) ∧
          (TmTaskBitField.IsSet s'.tm.status.tasksScheduled index ↔
            .given index .okay ∈ slots.flatten)) ↔
        ∀ index < tmMaxTasks, tmTaskBits ≤ index →
          .updated index .missedHeartbeat ∉ slots.flatten ∧
            .given index .okay ∉ slots.flatten) :=
  tm_status_bits_iff givingPlatform (eventTaskThenSlot 31)
    (by
      have hrange : TmState.InRange 31 := by decide
      simp only [eventTaskThenSlot, List.forall_mem_cons]
      exact ⟨hrange, trivial, by simp⟩)
    emptyTable rfl rfl

/-- The missed heartbeat of the task with id 40 is not recorded. -/
theorem tm_status_bits_not :
    ¬∀ (steps : List (TmStep Unit)) (s : TmSystem Unit Unit), (∀ step ∈ steps, step.InRange) →
      s.tm.status.tasksMissedHeartbeat = 0 → s.tm.status.tasksScheduled = 0 →
      ∃ slots s', runSteps givingPlatform steps s = .ok (slots, s') ∧
        ∀ index < tmMaxTasks,
          (TmTaskBitField.IsSet s'.tm.status.tasksMissedHeartbeat index ↔
            .updated index .missedHeartbeat ∈ slots.flatten) ∧
          (TmTaskBitField.IsSet s'.tm.status.tasksScheduled index ↔
            .given index .okay ∈ slots.flatten) := by
  intro hexact
  have hsteps : ∀ step ∈ eventTaskThenSlot 40, step.InRange := by
    have hrange : TmState.InRange 40 := by decide
    simp only [eventTaskThenSlot, List.forall_mem_cons]
    exact ⟨hrange, trivial, by simp⟩
  obtain ⟨slots, s', hrun, hbits⟩ := hexact (eventTaskThenSlot 40) emptyTable hsteps rfl rfl
  obtain ⟨slots', t', hrun', habout⟩ := runSteps_eq (P := givingPlatform) (fun _ _ => rfl)
    (show 40 < tmMaxTasks by decide) hsteps emptyTable
  obtain ⟨rfl, -⟩ := Prod.mk.inj (Except.ok.inj (hrun.symm.trans hrun'))
  have hevents : slots.map (eventsAbout 40) = [[.updated 40 .missedHeartbeat]] :=
    congrArg Prod.fst habout
  have hreported : .updated 40 .missedHeartbeat ∈ slots.flatten := by
    have hmem : .updated 40 .missedHeartbeat ∈ (slots.map (eventsAbout 40)).flatten := by
      simp [hevents]
    obtain ⟨about, habout, hmem⟩ := List.mem_flatten.mp hmem
    obtain ⟨events, hevents, rfl⟩ := List.mem_map.mp habout
    exact List.mem_flatten.mpr ⟨events, hevents, (List.mem_filter.mp hmem).1⟩
  have hwide : tmTaskBits ≤ 40 := by decide
  exact Flags.not_isSet_of_le hwide ((hbits 40 (by decide)).1.mpr hreported)

end Protoflight
