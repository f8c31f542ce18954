import Protoflight.Data.BoundedFifo

/-!
# Subscribers

The purpose of a publish/subscribe bus, told for one of its subscribers: it is
offered one copy of a message for each of its subscriptions to the topic, its
bounded queue takes or refuses each copy, and what it has taken is handed out in
order. Nothing here refers to any other subscriber.
-/

namespace Protoflight

/-- A subscriber, with what has become of the messages for it. -/
structure Subscriber (τ β : Type*) where
  /-- The messages that wait for it. -/
  fifo : BoundedFifo β
  /-- How many times it has subscribed to a topic. -/
  subscriptions : τ → ℕ
  /-- The copies offered to it so far, each with whether its queue took it. -/
  copies : List (List β × Bool)
  /-- The messages handed out to it so far. -/
  dequeued : List (List β)

namespace Subscriber

variable {τ β : Type*}

/-- A subscriber without subscriptions, with an empty queue. -/
def fresh (capacity limit : ℕ) : Subscriber τ β :=
  ⟨.empty capacity limit, fun _ => 0, [], []⟩

/-- Subscribe to a topic once more. -/
def subscribe [DecidableEq τ] (s : Subscriber τ β) (topic : τ) : Subscriber τ β :=
  { s with
    subscriptions := fun t => if t = topic then s.subscriptions t + 1 else s.subscriptions t }

/-- Offer one copy of a message. -/
def offer (s : Subscriber τ β) (x : List β) : Subscriber τ β :=
  { s with fifo := s.fifo.offer x, copies := s.copies ++ [(x, decide (s.fifo.Accepts x))] }

/-- Publish a message: one copy for each subscription to its topic. -/
def publish (s : Subscriber τ β) (topic : τ) (x : List β) : Subscriber τ β :=
  (List.replicate (s.subscriptions topic) x).foldl offer s

/-- Take note of a message that was handed out. -/
def dequeue (s : Subscriber τ β) (x : List β) : Subscriber τ β :=
  { s with fifo := s.fifo.pop, dequeued := s.dequeued ++ [x] }

/-- The copies that the queue took: all but those that it had no room for or that
were too long. -/
def accepted (s : Subscriber τ β) : List (List β) :=
  (s.copies.filter Prod.snd).map Prod.fst

/-- What was handed out and what still waits is what was accepted, in this order. -/
def Balanced (s : Subscriber τ β) : Prop := s.dequeued ++ s.fifo.elements = s.accepted

theorem balanced_fresh (capacity limit : ℕ) : (fresh capacity limit : Subscriber τ β).Balanced :=
  rfl

@[simp] theorem fifo_fresh (capacity limit : ℕ) :
    (fresh capacity limit : Subscriber τ β).fifo = .empty capacity limit := rfl

@[simp] theorem subscriptions_offer (s : Subscriber τ β) (x : List β) :
    (s.offer x).subscriptions = s.subscriptions := rfl

theorem accepted_offer (s : Subscriber τ β) (x : List β) :
    (s.offer x).accepted = s.accepted ++ if s.fifo.Accepts x then [x] else [] := by
  by_cases haccepts : s.fifo.Accepts x <;> simp [accepted, offer, haccepts]

@[simp] theorem subscriptions_publish (s : Subscriber τ β) (topic : τ) (x : List β) :
    (s.publish topic x).subscriptions = s.subscriptions := by
  unfold publish
  generalize s.subscriptions topic = n
  induction n generalizing s with
  | zero => rfl
  | succ n ih => rw [List.replicate_succ, List.foldl_cons, ih, subscriptions_offer]

/-- The queue is offered as many copies as there are subscriptions. -/
theorem fifo_publish (s : Subscriber τ β) (topic : τ) (x : List β) :
    (s.publish topic x).fifo =
      (List.replicate (s.subscriptions topic) x).foldl BoundedFifo.offer s.fifo := by
  unfold publish
  generalize s.subscriptions topic = n
  induction n generalizing s with
  | zero => rfl
  | succ n ih =>
    rw [List.replicate_succ, List.foldl_cons, List.foldl_cons, ih]
    rfl

/-- Of the copies of a message the queue takes some, and nothing is handed out. -/
theorem accepted_publish (s : Subscriber τ β) (topic : τ) (x : List β) :
    ∃ k ≤ s.subscriptions topic, (s.publish topic x).accepted = s.accepted ++ List.replicate k x ∧
      (s.publish topic x).dequeued = s.dequeued := by
  unfold publish
  generalize s.subscriptions topic = n
  induction n generalizing s with
  | zero => exact ⟨0, Nat.le_refl _, (List.append_nil _).symm, rfl⟩
  | succ n ih =>
    rw [List.replicate_succ, List.foldl_cons]
    obtain ⟨k, hk, haccepted, hdequeued⟩ := ih (s.offer x)
    rw [haccepted, hdequeued, accepted_offer]
    split
    · refine ⟨k + 1, Nat.succ_le_succ hk, ?_, rfl⟩
      rw [List.append_assoc, List.replicate_succ]
      rfl
    · exact ⟨k, Nat.le_succ_of_le hk, by rw [List.append_nil], rfl⟩

theorem Balanced.subscribe [DecidableEq τ] {s : Subscriber τ β} (h : s.Balanced) (topic : τ) :
    (s.subscribe topic).Balanced := h

/-- A copy goes to the end of what waits and of what was accepted, or to neither. -/
theorem Balanced.offer {s : Subscriber τ β} (h : s.Balanced) (x : List β) :
    (s.offer x).Balanced := by
  have helements : (s.offer x).fifo.elements = _ := s.fifo.elements_offer x
  rw [Balanced, accepted_offer, helements, ← h, List.append_assoc]
  rfl

theorem Balanced.publish {s : Subscriber τ β} (h : s.Balanced) (topic : τ) (x : List β) :
    (s.publish topic x).Balanced := by
  unfold Subscriber.publish
  generalize s.subscriptions topic = n
  induction n generalizing s with
  | zero => exact h
  | succ n ih =>
    rw [List.replicate_succ, List.foldl_cons]
    exact ih (h.offer x)

/-- The oldest message moves from what waits to what was handed out. -/
theorem Balanced.dequeue {s : Subscriber τ β} (h : s.Balanced) {x : List β}
    (hhead : s.fifo.elements.head? = some x) : (s.dequeue x).Balanced := by
  obtain ⟨rest, hcons⟩ := List.head?_eq_some_iff.mp hhead
  have helements : (s.dequeue x).fifo.elements = rest := by
    simp [Subscriber.dequeue, hcons]
  have haccepted : (s.dequeue x).accepted = s.dequeued ++ (x :: rest) := by
    rw [← hcons]
    exact h.symm
  rw [Balanced, helements, haccepted, Subscriber.dequeue, List.append_assoc]
  rfl

end Subscriber

end Protoflight
