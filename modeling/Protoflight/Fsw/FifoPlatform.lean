import Protoflight.Data.BoundedFifo
import Protoflight.Fsw.Definitions

/-!
# Platforms whose pipes are bounded queues

What the bus relies on when its pipes are bounded first-in first-out queues with
a maximum message size, and the platform whose pipes are such queues themselves.
-/

namespace Protoflight

variable {Q W : Type}

/-- The queues of a platform stand for bounded lists of messages: a send appends
its message exactly when it reports success, which it does exactly when the list
accepts the message, and a receive removes and hands out the head of the list
exactly when it reports success. -/
structure Platform.PipesAreFifos (P : Platform Q W) (R : Q → BoundedFifo UInt8 → Prop) :
    Prop where
  send_okay : ∀ {q f}, R q f → ∀ buffer size timeout os,
    (P.send q buffer size timeout os).1 = .okay ↔ f.Accepts (buffer.take size.toNat)
  send : ∀ {q f}, R q f → ∀ buffer size timeout os,
    R (P.send q buffer size timeout os).2.1 (f.offer (buffer.take size.toNat))
  receive_okay : ∀ {q f}, R q f → ∀ buffer capacity timeout os,
    (P.receive q buffer capacity timeout os).1.result = .okay →
      R (P.receive q buffer capacity timeout os).2.1 f.pop ∧
        ∃ size, (P.receive q buffer capacity timeout os).1.bufferSizeBytes = some size ∧
          f.elements.head? =
            some ((P.receive q buffer capacity timeout os).1.buffer.take size.toNat)
  receive_failed : ∀ {q f}, R q f → ∀ buffer capacity timeout os,
    (P.receive q buffer capacity timeout os).1.result ≠ .okay →
      R (P.receive q buffer capacity timeout os).2.1 f

/-- The platform whose queues are bounded lists of messages. -/
def fifoPlatform : Platform (BoundedFifo UInt8) Unit where
  zeroQueue := .empty 0 0
  create queue numMsgs msgSizeBytes _ :=
    if numMsgs = 0 ∨ msgSizeBytes = 0 then (.invalidArguments, queue, ())
    else (.okay, .empty numMsgs.toNat msgSizeBytes.toNat, ())
  send queue buffer bufferSizeBytes _ _ :=
    let message := buffer.take bufferSizeBytes.toNat
    (if queue.Accepts message then .okay
      else if message.length ≤ queue.limit then .timeout else .msgSizeError,
      queue.offer message, ())
  receive queue buffer capacity _ _ :=
    if capacity.toNat < queue.limit then (⟨.msgSizeError, buffer, none⟩, queue, ())
    else
      match queue.elements with
      | [] => (⟨.timeout, buffer, none⟩, queue, ())
      | message :: _ =>
        (⟨.okay, buffer.copy (.ofBytes message fun _ => 0) message.length,
          some (UInt32.ofNat message.length)⟩, queue.pop, ())
  stack _ _ := 0

/-- Its pipes are the lists that they are. A list longer than a 32-bit size can
tell does not come about, since no message that long can be sent. -/
theorem fifoPlatform_pipesAreFifos :
    fifoPlatform.PipesAreFifos fun q f => q = f ∧ f.limit < UInt32.size where
  send_okay := by
    rintro q _ ⟨rfl, -⟩ buffer size timeout os
    by_cases haccepts : q.Accepts (buffer.take size.toNat)
    · simp [fifoPlatform, haccepts]
    · simp only [fifoPlatform, haccepts, if_false, iff_false]
      split <;> decide
  send := by
    rintro q _ ⟨rfl, hlimit⟩ buffer size timeout os
    refine ⟨rfl, ?_⟩
    rwa [BoundedFifo.limit_offer]
  receive_okay := by
    rintro q _ ⟨rfl, hlimit⟩ buffer capacity timeout os hokay
    simp only [fifoPlatform] at hokay ⊢
    split at hokay
    next => cases hokay
    next hcapacity =>
      rw [if_neg hcapacity]
      split at hokay
      next => cases hokay
      next message rest hcons =>
        have hlength := q.limited message (by simp [hcons])
        have hsize : (UInt32.ofNat message.length).toNat = message.length :=
          UInt32.toNat_ofNat_of_lt' (Nat.lt_of_le_of_lt hlength hlimit)
        refine ⟨⟨rfl, hlimit⟩, _, rfl, ?_⟩
        rw [hcons, hsize, Memory.take_copy, Memory.take_ofBytes, List.head?_cons]
  receive_failed := by
    rintro q _ ⟨rfl, hlimit⟩ buffer capacity timeout os hfailed
    simp only [fifoPlatform] at hfailed ⊢
    split at hfailed
    next hcapacity =>
      rw [if_pos hcapacity]
      exact ⟨rfl, hlimit⟩
    next hcapacity =>
      rw [if_neg hcapacity]
      split at hfailed
      next hnil =>
        exact ⟨rfl, hlimit⟩
      next => exact absurd rfl hfailed

end Protoflight
