import Protoflight.Monitor.Invariant
import Protoflight.Os.QueueCalls
import Protoflight.Os.QueueRing

/-!
# Many threads using a portable queue

The messages that senders store and receivers load, over every interleaving of
the calls of any number of threads. A call waits at most once and does not look
at the queue again when it is resumed, so the queue keeps its order exactly as
long as no sender is resumed with the queue full, and no receiver with it empty.
-/

namespace Protoflight

/-- The accesses to a queue, each with the queue it found. -/
abbrev OsQueueLog := List (OsQueueAccess × OsQueue)

namespace OsQueueLog

/-- The messages stored, in the order of the stores. -/
def accepted (log : OsQueueLog) : List (List UInt8) :=
  log.filterMap fun
    | (.store buffer bufferSizeBytes, _) => some (buffer.take bufferSizeBytes.toNat)
    | _ => none

/-- The messages loaded, in the order of the loads: the bytes that a load copies
to its caller. -/
def received (log : OsQueueLog) : List (List UInt8) :=
  log.filterMap fun
    | (.load, q) => some q.frontMessage
    | _ => none

/-- The slots of the messages that were stored but not yet loaded, the next one
to load first. -/
def unread (log : OsQueueLog) : List ℕ :=
  log.foldl (fun slots access =>
    match access with
    | (.store _ _, q) => slots ++ [q.writeOffset.toNat]
    | (.load, _) => slots.tail
    | (.count, _) => slots) []

/-- No store was made to a slot that still held an unread message. -/
def StoresToFreeSlots (log : OsQueueLog) : Prop :=
  ∀ before buffer bufferSizeBytes q after,
    log = before ++ (.store buffer bufferSizeBytes, q) :: after →
      q.writeOffset.toNat ∉ unread before

variable (log : OsQueueLog) (q : OsQueue) (buffer : Memory) (size : UInt32)

@[simp] theorem accepted_count : accepted (log ++ [(.count, q)]) = accepted log := by
  simp [accepted]

@[simp] theorem accepted_store :
    accepted (log ++ [(.store buffer size, q)]) = accepted log ++ [buffer.take size.toNat] := by
  simp [accepted]

@[simp] theorem accepted_load : accepted (log ++ [(.load, q)]) = accepted log := by
  simp [accepted]

@[simp] theorem received_count : received (log ++ [(.count, q)]) = received log := by
  simp [received]

@[simp] theorem received_store :
    received (log ++ [(.store buffer size, q)]) = received log := by
  simp [received]

@[simp] theorem received_load :
    received (log ++ [(.load, q)]) = received log ++ [q.frontMessage] := by
  simp [received]

@[simp] theorem unread_count : unread (log ++ [(.count, q)]) = unread log := by
  simp [unread]

@[simp] theorem unread_store :
    unread (log ++ [(.store buffer size, q)]) = unread log ++ [q.writeOffset.toNat] := by
  simp [unread]

@[simp] theorem unread_load : unread (log ++ [(.load, q)]) = (unread log).tail := by
  simp [unread]

theorem storesToFreeSlots_nil : StoresToFreeSlots [] := by
  intro before buffer size q after h
  simp at h

/-- One more access keeps the stores to free slots, if it is not a store to a
slot that is still unread. -/
theorem StoresToFreeSlots.append {log : OsQueueLog} (h : log.StoresToFreeSlots)
    {access : OsQueueAccess × OsQueue}
    (hfree : ∀ buffer size, access.1 = .store buffer size →
      access.2.writeOffset.toNat ∉ log.unread) : StoresToFreeSlots (log ++ [access]) := by
  intro before buffer size q after heq
  rcases List.eq_nil_or_concat after with rfl | ⟨after, last, rfl⟩
  · obtain ⟨rfl, hlast⟩ := List.append_inj' heq rfl
    obtain rfl := List.singleton_inj.mp hlast
    exact hfree buffer size rfl
  · rw [List.concat_eq_append, ← List.cons_append, ← List.append_assoc] at heq
    exact h before buffer size q after (List.append_inj_left' heq rfl)

end OsQueueLog

/-- A queue keeps its messages in order: it never holds more than it has slots
for, nothing unread is overwritten, and what was received, followed by what is
queued, is what was accepted. -/
structure OsQueue.InOrder (q : OsQueue) (log : OsQueueLog) : Prop where
  numQueued_le : q.numQueued ≤ q.numMsgs
  stores : log.StoresToFreeSlots
  order : log.received ++ q.contents = log.accepted

/-- The invariant of the queue as a monitor. -/
structure QueueInvariant (sizes : OsQueueSizes) (q : OsQueue) (log : OsQueueLog) : Prop where
  sizes_eq : q.toOsQueueSizes = sizes
  wellFormed : q.WellFormed
  unread_eq : log.unread = q.occupied
  stores : log.StoresToFreeSlots
  order : log.received ++ q.contents = log.accepted

namespace QueueInvariant

variable {sizes : OsQueueSizes} {q : OsQueue} {log : OsQueueLog}

theorem inOrder (h : QueueInvariant sizes q log) : q.InOrder log :=
  ⟨h.wellFormed.numQueued_le, h.stores, h.order⟩

/-- A queue that was just created satisfies the invariant. -/
theorem fresh {numMsgs msgSizeBytes : UInt32} (hpos : numMsgs ≠ 0)
    (hfit : (⟨numMsgs, msgSizeBytes⟩ : OsQueueSizes).SlotsFit) (bytes : ℤ → UInt8)
    (msgSizes : ℕ → UInt32) :
    QueueInvariant ⟨numMsgs, msgSizeBytes⟩ (.fresh numMsgs msgSizeBytes bytes msgSizes) [] where
  sizes_eq := rfl
  wellFormed := .fresh hpos hfit bytes msgSizes
  unread_eq := rfl
  stores := OsQueueLog.storesToFreeSlots_nil
  order := rfl

/-- Reading the number of messages queued keeps the invariant. -/
theorem count (h : QueueInvariant sizes q log) :
    QueueInvariant sizes q (log ++ [(.count, q)]) where
  sizes_eq := h.sizes_eq
  wellFormed := h.wellFormed
  unread_eq := by rw [OsQueueLog.unread_count, h.unread_eq]
  stores := h.stores.append (by simp)
  order := by rw [OsQueueLog.received_count, OsQueueLog.accepted_count, h.order]

/-- Storing into a queue that is not full keeps the invariant. -/
theorem store (h : QueueInvariant sizes q log) (hroom : ¬q.IsFull) {buffer : Memory}
    {size : UInt32} (hsize : size ≤ sizes.msgSizeBytes) :
    QueueInvariant sizes (q.storeMessage buffer size) (log ++ [(.store buffer size, q)]) := by
  have hlt : q.numQueued.toNat < q.numMsgs.toNat := by
    have hne := toNat_ne_of_ne hroom
    have hle := h.wellFormed.numQueued_le
    omega
  rw [← h.sizes_eq] at hsize
  refine ⟨h.sizes_eq, h.wellFormed.storeMessage hlt buffer hsize, ?_, h.stores.append ?_, ?_⟩
  · rw [OsQueueLog.unread_store, h.wellFormed.storeMessage_occupied hlt, h.unread_eq]
  · intro _ _ _
    rw [h.unread_eq]
    exact h.wellFormed.writeOffset_not_mem hlt
  · rw [OsQueueLog.received_store, OsQueueLog.accepted_store,
      h.wellFormed.storeMessage_contents hlt buffer hsize, ← List.append_assoc, h.order]

/-- Loading from a queue that is not empty keeps the invariant. -/
theorem load (h : QueueInvariant sizes q log) (hne : ¬q.IsEmpty) :
    QueueInvariant sizes q.dropMessage (log ++ [(.load, q)]) := by
  have hpos : 0 < q.numQueued.toNat := UInt32.pos_iff_ne_zero.mpr hne
  refine ⟨h.sizes_eq, h.wellFormed.dropMessage hpos, ?_, h.stores.append (by simp), ?_⟩
  · rw [OsQueueLog.unread_load, h.unread_eq, h.wellFormed.occupied_eq_cons hpos, List.tail_cons]
  · rw [OsQueueLog.received_load, OsQueueLog.accepted_load, ← h.order,
      h.wellFormed.contents_eq_cons hpos, List.append_assoc, List.singleton_append]

end QueueInvariant

/-- What a thread needs of the queue in which it is resumed: room for a sender,
and a message for a receiver. -/
def wakesWith : OsQueueCondition → OsQueue → Prop
  | .write, q => ¬q.IsFull
  | .read, q => ¬q.IsEmpty

instance : ∀ condition q, Decidable (wakesWith condition q)
  | .write, q => inferInstanceAs (Decidable ¬q.IsFull)
  | .read, q => inferInstanceAs (Decidable ¬q.IsEmpty)

open Program in
/-- Every call keeps the invariant of the queue. -/
theorem osQueueCall_keeps (call : OsQueueCall) (sizes : OsQueueSizes) :
    call.program.Keeps queueMonitor (QueueInvariant sizes) wakesWith sizes := by
  cases call with
  | send queue buffer size timeout =>
    cases buffer with
    | none => simp [Keeps, OsQueueCall.program, osQueueSend]
    | some memory =>
      simp only [Keeps, OsQueueCall.program, osQueueSend]
      simp
      intro _ hsize _ _ q log hq
      refine ⟨hq.count, ?_, ?_⟩
      · -- the wait gives the mutex away, so the queue is another one afterwards
        intro _ q' log' hq' hwakes
        exact hq'.store hwakes hsize
      · intro hroom
        simpa using hq.count.store hroom hsize
  | receive queue buffer capacity timeout =>
    simp only [Keeps, OsQueueCall.program, osQueueReceive]
    simp
    intro _ _ _ _ q log hq
    refine ⟨hq.count, ?_, ?_⟩
    · intro _ q' log' hq' hwakes
      exact hq'.load hwakes
    · intro hne
      simpa using hq.count.load hne

/-- Over every interleaving in which no sender is resumed with the queue full and
no receiver with it empty, a created queue keeps its messages in order. -/
theorem osQueue_in_order_of_resumes (queue : Option OsQueue) (numMsgs msgSizeBytes : UInt32)
    (created : OsQueueCreateAnswers) (q : OsQueue)
    (hcreate : osQueueCreate queue numMsgs msgSizeBytes created = (.okay, some q))
    (hfit : (⟨numMsgs, msgSizeBytes⟩ : OsQueueSizes).SlotsFit)
    (actions : List (Action OsQueueCall Timespec))
    (s : Pool OsQueue OsQueueSizes OsQueueAccess OsQueueCondition Timespec OsQueueReply)
    (hresumes : Pool.Along queueMonitor OsQueueCall.program (Pool.ResumesWell wakesWith) actions
      (.start q))
    (hexec : Pool.exec queueMonitor OsQueueCall.program actions (.start q) = some s) :
    s.data.InOrder s.log := by
  obtain ⟨hnum, -, bytes, msgSizes, rfl⟩ := osQueueCreate_okay hcreate
  have hstart : QueueInvariant ⟨numMsgs, msgSizeBytes⟩
      (.fresh numMsgs msgSizeBytes bytes msgSizes) [] := .fresh hnum hfit bytes msgSizes
  have hinv := (Pool.Invariant.start hstart).exec (fun q log hq => hq.sizes_eq)
    (fun call => osQueueCall_keeps call _) hresumes hexec
  exact hinv.shared.inOrder

/-- The steps of a thread that sends without waiting. -/
def sendSteps (thread : ℕ) (byte : UInt8) : List (Action OsQueueCall Timespec) :=
  [.call thread (.send .valid (some fun _ => byte) 1 10), .advance thread,
    .clock thread 0 default, .advance thread, .advance thread, .advance thread,
    .signal thread none, .advance thread, .advance thread]

/-- A sender finds a queue of one slot full and waits, until a receive makes room
and wakes it. -/
def waitingSender : List (Action OsQueueCall Timespec) :=
  sendSteps 0 1 ++
    [.call 1 (.send .valid (some fun _ => 2) 1 10), .advance 1, .clock 1 0 default, .advance 1,
      .advance 1, .advance 1] ++
    [.call 2 (.receive .valid (some fun _ => 0) (some 1) 10), .advance 2, .advance 2, .advance 2,
      .advance 2, .signal 2 (some 1), .advance 2, .advance 2]

/-- A sender that is resumed at once keeps the messages in order. -/
theorem osQueue_in_order_of_resumes_at_once :
    ∃ s, Pool.exec queueMonitor OsQueueCall.program (waitingSender ++ [.resume 1, .advance 1])
      (.start (.fresh 1 1 (fun _ => 0) fun _ => 0)) = some s ∧ s.data.InOrder s.log := by
  have hruns : (Pool.exec queueMonitor OsQueueCall.program
      (waitingSender ++ [.resume 1, .advance 1])
      (.start (.fresh 1 1 (fun _ => 0) fun _ => 0))).isSome := by decide
  obtain ⟨s, hexec⟩ := Option.isSome_iff_exists.mp hruns
  exact ⟨s, hexec, osQueue_in_order_of_resumes (some (.fresh 2 2 (fun _ => 1) fun _ => 1)) 1 1
    createdInZeroedMemory _ rfl (by decide) _ s (by decide) hexec⟩

/-- A sender that is resumed after another one has taken the room that was made
for it stores a second message in the only slot. -/
theorem osQueue_in_order_not :
    ¬∀ (queue : Option OsQueue) (numMsgs msgSizeBytes : UInt32) (created : OsQueueCreateAnswers)
      (q : OsQueue) (actions : List (Action OsQueueCall Timespec))
      (s : Pool OsQueue OsQueueSizes OsQueueAccess OsQueueCondition Timespec OsQueueReply),
      osQueueCreate queue numMsgs msgSizeBytes created = (.okay, some q) →
      numMsgs.toNat * msgSizeBytes.toNat < 2 ^ 31 →
      Pool.exec queueMonitor OsQueueCall.program actions (.start q) = some s →
        s.data.InOrder s.log := by
  intro h
  have hrun : (Pool.exec queueMonitor OsQueueCall.program
      (waitingSender ++ sendSteps 0 3 ++ [.resume 1, .advance 1])
      (.start (.fresh 1 1 (fun _ => 0) fun _ => 0))).map
        (fun s => (s.data.numQueued, s.data.numMsgs)) = some (2, 1) := by decide
  obtain ⟨s, hexec, hcounts⟩ := Option.map_eq_some_iff.mp hrun
  have hle := (h (some (.fresh 2 2 (fun _ => 1) fun _ => 1)) 1 1 createdInZeroedMemory _ _ s rfl
    (by decide) hexec).numQueued_le
  rw [(Prod.mk.inj hcounts).1, (Prod.mk.inj hcounts).2] at hle
  exact absurd hle (by decide)

end Protoflight
