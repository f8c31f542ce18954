import Protoflight.Fsw.FifoPlatform
import Protoflight.Fsw.MbRuns
import Protoflight.Os.QueueBounds
import Protoflight.Os.QueueLocking
import Protoflight.Os.QueueSequential

/-!
# Pipes that are portable queues

The bus with the queues of `os_queue_portable.c`. `mb_create_pipe` adds the size of a
header to the size of a message, and passes the sum as a 32-bit number.
-/

namespace Protoflight

variable {W : Type}

section Platform

/-- The access loads a message. -/
def OsQueueAccess.isLoad : OsQueueAccess → Bool
  | .load => true
  | _ => false

/-- An `OS_Queue` filled with zeroes. -/
def OsQueue.zero : OsQueue where
  numMsgs := 0
  msgSizeBytes := 0
  buffer := { size := 0, bytes := fun _ => 0 }
  msgSizes := fun _ => 0
  readOffset := 0
  writeOffset := 0
  numQueued := 0

/-- The portable queues, where the world tells what the primitives answer, and what lies on
the stack. -/
def portablePlatform (created : W → OsQueueCreateAnswers) (answers : W → QueueAnswers)
    (stack : W → Memory) : Platform OsQueue W where
  zeroQueue := .zero
  create queue numMsgs msgSizeBytes os :=
    let (result, queue') := osQueueCreate (some queue) numMsgs msgSizeBytes (created os)
    (result, queue'.getD queue, os)
  send queue buffer bufferSizeBytes timeout os :=
    let (result, s) := (osQueueSend .valid (some buffer) bufferSizeBytes timeout).run queueMonitor
      (answers os) (.start queue 0)
    (result, s.data, os)
  receive queue buffer capacity timeout os :=
    let (reply, s) := (osQueueReceive .valid (some buffer) (some capacity) timeout).run queueMonitor
      (answers os) (.start queue 0)
    let received :=
      { result := reply.result
        buffer := reply.buffer.getD buffer
        -- the size is written along with the loading of a message
        bufferSizeBytes :=
          if s.accesses.any fun access => access.1.isLoad then reply.bufferSizeBytes else none }
    (received, s.data, os)
  stack := stack

end Platform

section Fifos

variable {created : W → OsQueueCreateAnswers} {answers : W → QueueAnswers} {stack : W → Memory}

/-- A receive that returns `OS_RESULT_OKAY` has loaded a message. -/
theorem OsQueueCall.load_mem_accesses {call : OsQueueCall} {env : QueueAnswers} {s : QueueLocal}
    (h : (call.program.run queueMonitor env s).1.result = .okay) :
    ∃ hold, ((call.critical env).action, hold) ∈
      (call.program.run queueMonitor env s).2.accesses := by
  by_cases hattempts : call.Attempts env s.data
  · cases OsQueueCall.outcome hattempts with
    | lockFailed lock failed state => exact absurd h failed
    | waitFailed lock blocked wait failed state => exact absurd (failed ▸ h) (waitFailure_ne_okay _)
    | finished lock wait succeeded state => exact ⟨_, state ▸ QueueSection.action_mem_finished ..⟩
  · exact absurd h (OsQueueCall.refused hattempts).1

theorem portablePlatform_send (q : OsQueue) (buffer : Memory) (size : UInt32)
    (timeout : OsTimeout) (os : W) :
    (portablePlatform created answers stack).send q buffer size timeout os =
      (let out := (OsQueueCall.send .valid (some buffer) size timeout).program.run queueMonitor
        (answers os) (.start q 0)
      (out.1.result, out.2.data, os)) := by
  simp only [OsQueueCall.program, Program.run_bind, Program.run_pure]
  rfl

/-- When no other thread uses them, the pipes are the lists that their rings stand for. -/
theorem portablePlatform_pipesAreFifos (halone : ∀ os, Alone (answers os)) :
    (portablePlatform created answers stack).PipesAreFifos OsQueue.Represents where
  send_okay := by
    intro q f h buffer size timeout os
    obtain ⟨hshows, -⟩ :=
      send_refines (s := .start q 0) (halone os) h .valid (some buffer) size timeout
    rw [portablePlatform_send]
    by_cases haccepts : f.Accepts (buffer.take size.toNat)
    · rw [OsQueueCall.onFifo, if_pos haccepts] at hshows
      exact iff_of_true hshows.1 haccepts
    · rw [OsQueueCall.onFifo, if_neg haccepts] at hshows
      exact iff_of_false hshows.1 haccepts
  send := by
    intro q f h buffer size timeout os
    obtain ⟨-, hrepresents⟩ :=
      send_refines (s := .start q 0) (halone os) h .valid (some buffer) size timeout
    rw [portablePlatform_send]
    by_cases haccepts : f.Accepts (buffer.take size.toNat)
    · rwa [OsQueueCall.onFifo, if_pos haccepts] at hrepresents
    · rw [OsQueueCall.onFifo, if_neg haccepts] at hrepresents
      rwa [BoundedFifo.offer_of_not_accepts haccepts]
  receive_okay := by
    intro q f h buffer capacity timeout os hokay
    obtain ⟨hshows, hrepresents⟩ :=
      receive_refines (s := .start q 0) (halone os) h .valid (some buffer) (some capacity) timeout
    rcases OsQueueCall.onFifo_receive f buffer capacity timeout with hfifo | ⟨message, hhead, hfifo⟩
    · rw [hfifo] at hshows
      exact absurd hokay hshows.1
    · rw [hfifo] at hshows hrepresents
      obtain ⟨size, hsize, hlength⟩ := hshows.size
      obtain ⟨before, after, -, hafter, htake, -⟩ := hshows.bytes
      obtain ⟨hold, hload⟩ := OsQueueCall.load_mem_accesses hshows.okay
      refine ⟨hrepresents, size, ?_, ?_⟩
      · refine (if_pos ?_).trans hsize
        exact List.any_eq_true.mpr ⟨_, hload, rfl⟩
      · rw [hhead, ← htake, ← hlength]
        exact congrArg (fun memory => some ((memory.getD buffer).take size.toNat)) hafter.symm
  receive_failed := by
    intro q f h buffer capacity timeout os hfailed
    obtain ⟨hshows, hrepresents⟩ :=
      receive_refines (s := .start q 0) (halone os) h .valid (some buffer) (some capacity) timeout
    rcases OsQueueCall.onFifo_receive f buffer capacity timeout with hfifo | ⟨message, -, hfifo⟩
    · rw [hfifo] at hrepresents
      exact hrepresents
    · rw [hfifo] at hshows
      exact absurd hshows.okay hfailed

end Fifos

section Slots

variable {created : W → OsQueueCreateAnswers} {answers : W → QueueAnswers} {stack : W → Memory}

/-- `os_queue_create` hands back a queue where there was one. -/
theorem exists_osQueueCreate (queue : OsQueue) (numMsgs msgSizeBytes : UInt32)
    (env : OsQueueCreateAnswers) :
    ∃ q, (osQueueCreate (some queue) numMsgs msgSizeBytes env).2 = some q := by
  apply Option.isSome_iff_exists.mp
  cases hbytes : env.mallocBuffer <;> cases hsizes : env.mallocSizes <;>
    simp [osQueueCreate, hbytes, hsizes, apply_ite Id.run, apply_ite Prod.snd,
      apply_ite Option.isSome]

/-- A pipe that was created is a queue that was. -/
theorem mbCreatePipe_portable {pipe pipe' : Option UInt32} {numMsgs msgSizeBytes : UInt32}
    {s s' : FswState OsQueue W}
    (h : mbCreatePipe (portablePlatform created answers stack) pipe numMsgs msgSizeBytes s =
      .ok (.okay, pipe', s')) :
    ∃ queue env, osQueueCreate queue numMsgs (sizeofMsgHeader + msgSizeBytes) env =
      (.okay, some (s'.mb.pipes s.mb.numPipes.toNat)) := by
  rcases mbCreatePipe_cases (portablePlatform created answers stack) numMsgs msgSizeBytes pipe s
    with
    ⟨result, hresult, hrefused⟩ | ⟨hpipe, hroom⟩
  · rw [hrefused] at h
    cases h
    exact absurd rfl hresult
  · rw [mbCreatePipe_created _ numMsgs msgSizeBytes hpipe hroom] at h
    obtain ⟨q, hq⟩ := exists_osQueueCreate (s.mb.pipes s.mb.numPipes.toNat) numMsgs
      (sizeofMsgHeader + msgSizeBytes) (created s.os)
    dsimp only at h
    split at h
    next hokay =>
      cases h
      refine ⟨some (s.mb.pipes s.mb.numPipes.toNat), created s.os, ?_⟩
      have hqueue : Function.update s.mb.pipes s.mb.numPipes.toNat
          ((osQueueCreate (some (s.mb.pipes s.mb.numPipes.toNat)) numMsgs
            (sizeofMsgHeader + msgSizeBytes) (created s.os)).2.getD
              (s.mb.pipes s.mb.numPipes.toNat)) s.mb.numPipes.toNat = q := by
        rw [Function.update_self, hq, Option.getD_some]
      exact Prod.ext hokay (hq.trans (congrArg some hqueue.symm))
    next => cases h

/-- A queue holds the slots requested exactly if the offset of its last slot is below 2^31; a
pipe does so exactly if besides the size of a slot, with the header, is below 2^32. -/
theorem queue_holds_slots_iff (numMsgs msgSizeBytes : UInt32) :
    (∀ (queue : Option OsQueue) (env : OsQueueCreateAnswers) (q : OsQueue),
      osQueueCreate queue numMsgs msgSizeBytes env = (.okay, some q) →
        (q.HoldsSlots msgSizeBytes.toNat ↔
          (numMsgs.toNat - 1) * msgSizeBytes.toNat < 2 ^ 31)) ∧
    (∀ (W : Type) (created : W → OsQueueCreateAnswers) (answers : W → QueueAnswers)
      (stack : W → Memory) (pipe pipe' : Option UInt32) (s s' : FswState OsQueue W),
      mbCreatePipe (portablePlatform created answers stack) pipe numMsgs msgSizeBytes s =
        .ok (.okay, pipe', s') →
        ((s'.mb.pipes s.mb.numPipes.toNat).HoldsSlots (sizeofMsgHeader.toNat + msgSizeBytes.toNat) ↔
          sizeofMsgHeader.toNat + msgSizeBytes.toNat < 2 ^ 32 ∧
          (numMsgs.toNat - 1) * (sizeofMsgHeader.toNat + msgSizeBytes.toNat) < 2 ^ 31)) := by
  constructor
  · intro queue env q hcreate
    exact OsQueue.holdsSlots_iff hcreate
  · intro W created answers stack pipe pipe' s s' hcreate
    obtain ⟨queue, env, hqueue⟩ := mbCreatePipe_portable hcreate
    have hiff := OsQueue.holdsSlots_iff hqueue
    have hsum : (sizeofMsgHeader + msgSizeBytes).toNat =
        (sizeofMsgHeader.toNat + msgSizeBytes.toNat) % 2 ^ 32 := UInt32.toNat_add _ _
    constructor
    · rintro ⟨hsize, hcopies⟩
      have hheader : sizeofMsgHeader.toNat + msgSizeBytes.toNat < 2 ^ 32 := by
        rw [← hsize]
        exact UInt32.toNat_lt _
      rw [hsum, Nat.mod_eq_of_lt hheader] at hiff
      refine ⟨hheader, ?_⟩
      have hfit := hiff.mp ⟨hsize, hcopies⟩
      rwa [OsQueueSizes.SlotsFit, hsum, Nat.mod_eq_of_lt hheader] at hfit
    · rintro ⟨hheader, hfit⟩
      rw [hsum, Nat.mod_eq_of_lt hheader] at hiff
      apply hiff.mpr
      rwa [OsQueueSizes.SlotsFit, hsum, Nat.mod_eq_of_lt hheader]

/-- A bus without pipes, where the primitives all succeed. -/
def noPortablePipes : FswState OsQueue Unit :=
  .start (portablePlatform (fun _ => createdInZeroedMemory) (fun _ => undisturbed 0 etimedout)
    fun _ _ => 0) ⟨0, 0, 0⟩ ()

/-- A queue and a pipe of eight messages of sixteen bytes. -/
theorem queue_holds_slots_iff_eight :
    (OsQueue.fresh 8 16 (fun _ => 0) fun _ => 0).HoldsSlots 16 ∧
      ∃ s' : FswState OsQueue Unit,
        mbCreatePipe (portablePlatform (fun _ => createdInZeroedMemory)
          (fun _ => undisturbed 0 etimedout) fun _ _ => 0) (some 7) 8 16 noPortablePipes =
          .ok (.okay, some 0, s') ∧ (s'.mb.pipes 0).HoldsSlots 20 :=
  ⟨((queue_holds_slots_iff 8 16).1 (some .zero) createdInZeroedMemory _ rfl).mpr (by decide), _,
    rfl,
    ((queue_holds_slots_iff 8 16).2 Unit (fun _ => createdInZeroedMemory)
      (fun _ => undisturbed 0 etimedout) (fun _ _ => 0) (some 7) (some 0) noPortablePipes _ rfl).mpr
      (by decide)⟩

/-- The bytes for 42950 messages of 100000 bytes, as a 32-bit number, are too few for one. -/
theorem queue_holds_slots_not :
    ¬∀ (numMsgs msgSizeBytes : UInt32) (queue : Option OsQueue) (env : OsQueueCreateAnswers)
      (q : OsQueue), osQueueCreate queue numMsgs msgSizeBytes env = (.okay, some q) →
        q.HoldsSlots msgSizeBytes.toNat := by
  intro h
  have hslots := h 42950 100000 (some .zero) createdInZeroedMemory _ rfl
  have hfits := (hslots.2 [] _ rfl 100000 (by decide)).1
  exact absurd hfits.2 (by decide)

end Slots

end Protoflight
