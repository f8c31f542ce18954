import Mathlib.Data.Option.Basic
import Mathlib.Logic.Function.Basic
import Protoflight.Monitor.Program

/-!
# Threads that share a monitor

Any number of threads call programs that use one monitor, in any order of
their steps. The mutex is recursive and has one holder at a time. A wait gives
it up while the thread blocks; a signal unblocks a waiter, which then competes
for the mutex with all other threads, and goes on only once it has got it. No
lock attempt and no wait fails or times out.
-/

namespace Protoflight

/-- Where a thread is. -/
inductive Thread (S K A C D α : Type) where
  /-- Between two calls. -/
  | idle
  /-- In a call, with the rest of its program. -/
  | running (program : Program S K A C D α)
  /-- Blocked on a condition variable, having given up all its holds. -/
  | waiting (condition : C) (holds : ℕ) (next : ℤ → Program S K A C D α)
  /-- Unblocked, but without the mutex. -/
  | woken (condition : C) (holds : ℕ) (next : ℤ → Program S K A C D α)

/-- The condition variable on which a thread has been unblocked. -/
def Thread.wokenOn {S K A C D α : Type} : Thread S K A C D α → Option C
  | .woken condition _ _ => some condition
  | _ => none

/-- The state of all threads together. -/
structure Pool (S K A C D α : Type) where
  /-- The shared data. -/
  data : S
  /-- The accesses so far, each with the data it found. -/
  log : List (A × S)
  /-- The thread that holds the mutex, and how many times. -/
  mutex : Option (ℕ × ℕ)
  /-- The threads. -/
  threads : ℕ → Thread S K A C D α

/-- One step of one thread. -/
inductive Action (R D : Type) where
  /-- Begin a call. -/
  | call (thread : ℕ) (request : R)
  /-- Read the clock, with any answer. -/
  | clock (thread : ℕ) (code : ℤ) (now : D)
  /-- Read the error number, with any answer. -/
  | errno (thread : ℕ) (value : ℤ)
  /-- Signal, and unblock a waiter if there is one. -/
  | signal (thread : ℕ) (waiter : Option ℕ)
  /-- Take the mutex again after having been unblocked. -/
  | resume (thread : ℕ)
  /-- Any other step of a running call. -/
  | advance (thread : ℕ)

namespace Pool

variable {S K A C D R α : Type} [DecidableEq C]

/-- Nobody has called anything. -/
def start (data : S) : Pool S K A C D α where
  data := data
  log := []
  mutex := none
  threads _ := .idle

/-- Change one thread. -/
def setThread (s : Pool S K A C D α) (i : ℕ) (t : Thread S K A C D α) : Pool S K A C D α :=
  { s with threads := Function.update s.threads i t }

/-- What the next primitive of a running call does, for the primitives whose
answers are fixed. A lock attempt blocks while another thread holds the mutex;
waiting or unlocking without holding it is answered with an error code. -/
def advance (M : Monitor S K A) (s : Pool S K A C D α) (i : ℕ) :
    Program S K A C D α → Option (Pool S K A C D α)
  | .ret _ => some (s.setThread i .idle)
  | .peek next => some (s.setThread i (.running (next (M.config s.data))))
  | .lock _ next =>
    match s.mutex with
    | none => some { s.setThread i (.running (next 0)) with mutex := some (i, 1) }
    | some (j, holds) =>
      if j = i then some { s.setThread i (.running (next 0)) with mutex := some (i, holds + 1) }
      else none
  | .wait condition _ next =>
    match s.mutex with
    | none => some (s.setThread i (.running (next 1)))
    | some (j, holds) =>
      if j = i then some { s.setThread i (.waiting condition holds next) with mutex := none }
      else some (s.setThread i (.running (next 1)))
  | .unlock next =>
    match s.mutex with
    | none => some (s.setThread i (.running (next 1)))
    | some (j, holds) =>
      if j = i then
        some { s.setThread i (.running (next 0)) with
          mutex := if holds = 1 then none else some (i, holds - 1) }
      else some (s.setThread i (.running (next 1)))
  | .access action next =>
    some { s.setThread i (.running (next s.data)) with
      data := M.perform action s.data
      log := s.log ++ [(action, s.data)] }
  | .clock _ | .errno _ | .signal _ _ => none

/-- One step of the pool, where a request runs its program. A step that is not
possible has no result. -/
def step (M : Monitor S K A) (program : R → Program S K A C D α) (s : Pool S K A C D α) :
    Action R D → Option (Pool S K A C D α)
  | .call i request =>
    match s.threads i with
    | .idle => some (s.setThread i (.running (program request)))
    | _ => none
  | .clock i code now =>
    match s.threads i with
    | .running (.clock next) => some (s.setThread i (.running (next code now)))
    | _ => none
  | .errno i value =>
    match s.threads i with
    | .running (.errno next) => some (s.setThread i (.running (next value)))
    | _ => none
  | .signal i waiter =>
    match s.threads i, waiter with
    | .running (.signal _ next), none => some (s.setThread i (.running (next 0)))
    | .running (.signal condition next), some j =>
      match s.threads j with
      | .waiting condition' holds next' =>
        if condition' = condition then
          some ((s.setThread j (.woken condition' holds next')).setThread i (.running (next 0)))
        else none
      | _ => none
    | _, _ => none
  | .resume i =>
    match s.threads i, s.mutex with
    | .woken _ holds next, none =>
      some { s.setThread i (.running (next 0)) with mutex := some (i, holds) }
    | _, _ => none
  | .advance i =>
    match s.threads i with
    | .running p => s.advance M i p
    | _ => none

/-- A sequence of steps. -/
def exec (M : Monitor S K A) (program : R → Program S K A C D α) :
    List (Action R D) → Pool S K A C D α → Option (Pool S K A C D α)
  | [], s => some s
  | action :: actions, s => (s.step M program action).bind (exec M program actions)

theorem exec_append (M : Monitor S K A) (program : R → Program S K A C D α)
    (actions actions' : List (Action R D)) (s : Pool S K A C D α) :
    s.exec M program (actions ++ actions') =
      (s.exec M program actions).bind (exec M program actions') := by
  induction actions generalizing s with
  | nil => rfl
  | cons action actions ih =>
    simp only [List.cons_append, exec, Option.bind_assoc]
    exact congrArg _ (funext ih)

/-- No thread holds the mutex, and this one is between two calls. -/
structure Quiet (s : Pool S K A C D α) (thread : ℕ) : Prop where
  idle : s.threads thread = .idle
  free : s.mutex = none

end Pool

end Protoflight
