import Mathlib.Data.Int.Notation
import Mathlib.Data.List.Basic

/-!
# Programs that use a monitor

A monitor is shared data guarded by one recursive mutex, with condition
variables to wait on. A program of one thread is a tree of calls of the
threading primitives and of accesses to the data; each call hands its return
code to the rest of the program. One call of such a program is run against
given answers of the primitives; running many of them at once is the subject of
`Protoflight.Monitor.Interleaving`.
-/

namespace Protoflight

/-- What is specific to one monitor with data `S`: reading the part `K` of the
data that never changes after its creation, and the effects of the accesses `A`
that programs make to the rest under the mutex. -/
structure Monitor (S K A : Type) where
  /-- Reading the unchanging part. -/
  config : S → K
  /-- The effect of one access. -/
  perform : A → S → S

/-- A program of one thread, as a tree of primitive calls, with condition
variables `C` and absolute times `D`. The argument of each continuation is what
the primitive returns; an access returns the data it found. -/
inductive Program (S K A C D α : Type) where
  | ret (value : α)
  | clock (next : ℤ → D → Program S K A C D α)
  | errno (next : ℤ → Program S K A C D α)
  | peek (next : K → Program S K A C D α)
  | lock (deadline : D) (next : ℤ → Program S K A C D α)
  | wait (condition : C) (deadline : D) (next : ℤ → Program S K A C D α)
  | signal (condition : C) (next : ℤ → Program S K A C D α)
  | unlock (next : ℤ → Program S K A C D α)
  | access (action : A) (next : S → Program S K A C D α)

namespace Program

variable {S K A C D α β : Type}

/-- Continue with `f` where the first program returns. -/
def bind : Program S K A C D α → (α → Program S K A C D β) → Program S K A C D β
  | .ret value, f => f value
  | .clock next, f => .clock fun code now => (next code now).bind f
  | .errno next, f => .errno fun value => (next value).bind f
  | .peek next, f => .peek fun config => (next config).bind f
  | .lock deadline next, f => .lock deadline fun code => (next code).bind f
  | .wait condition deadline next, f => .wait condition deadline fun code => (next code).bind f
  | .signal condition next, f => .signal condition fun code => (next code).bind f
  | .unlock next, f => .unlock fun code => (next code).bind f
  | .access action next, f => .access action fun data => (next data).bind f

instance : Monad (Program S K A C D) where
  pure := .ret
  bind := bind

/-- Read the clock: the return code and the time. -/
def clockGettime : Program S K A C D (ℤ × D) := .clock fun code now => .ret (code, now)

/-- Read the error number of the calling thread. -/
def readErrno : Program S K A C D ℤ := .errno .ret

/-- Read the unchanging part of the data, which needs no mutex. -/
def readConfig : Program S K A C D K := .peek .ret

/-- Lock the mutex, giving up at the deadline. -/
def mutexTimedlock (deadline : D) : Program S K A C D ℤ := .lock deadline .ret

/-- Unlock the mutex. -/
def mutexUnlock : Program S K A C D ℤ := .unlock .ret

/-- Wait on a condition variable, giving up at the deadline. -/
def condTimedwait (condition : C) (deadline : D) : Program S K A C D ℤ :=
  .wait condition deadline .ret

/-- Wake a thread that waits on a condition variable. -/
def condSignal (condition : C) : Program S K A C D ℤ := .signal condition .ret

/-- Access the guarded data, and return the data found there. -/
def touch (action : A) : Program S K A C D S := .access action .ret

section Bind

variable (f : β → Program S K A C D α)

theorem pure_eq_ret (value : α) : (pure value : Program S K A C D α) = .ret value := rfl

theorem ret_bind (value : β) : (.ret value >>= f) = f value := rfl

theorem clock_bind (next : ℤ → D → Program S K A C D β) :
    (.clock next >>= f) = .clock fun code now => next code now >>= f := rfl

theorem peek_bind (next : K → Program S K A C D β) :
    (.peek next >>= f) = .peek fun config => next config >>= f := rfl

theorem lock_bind (deadline : D) (next : ℤ → Program S K A C D β) :
    (.lock deadline next >>= f) = .lock deadline fun code => next code >>= f := rfl

theorem signal_bind (condition : C) (next : ℤ → Program S K A C D β) :
    (.signal condition next >>= f) = .signal condition fun code => next code >>= f := rfl

theorem unlock_bind (next : ℤ → Program S K A C D β) :
    (.unlock next >>= f) = .unlock fun code => next code >>= f := rfl

theorem access_bind (action : A) (next : S → Program S K A C D β) :
    (.access action next >>= f) = .access action fun data => next data >>= f := rfl

theorem ite_bind (c : Prop) [Decidable c] (p q : Program S K A C D β) :
    ((if c then p else q) >>= f) = if c then p >>= f else q >>= f := by
  split <;> rfl

end Bind

end Program

/-- What the primitives answer during one call of a program that uses each of
them at most once. While the thread blocks in a lock attempt or in a wait, other
threads may change the data. -/
structure Answers (S D : Type) where
  /-- The return code of the clock. -/
  clockCode : ℤ
  /-- The time the clock shows. -/
  now : D
  /-- The error number of the thread, which the threading primitives leave alone. -/
  errno : ℤ
  /-- The return code of the lock attempt; zero means that the mutex was taken. -/
  lockCode : ℤ
  /-- What other threads do to the data until the lock attempt returns. -/
  locking : S → S
  /-- The return code of the wait; zero means that it was signalled. -/
  waitCode : ℤ
  /-- What other threads do to the data until the wait returns. -/
  waiting : S → S
  /-- The return code of the signal. -/
  signalCode : ℤ
  /-- The return code of the unlock; zero means that one hold was given up. -/
  unlockCode : ℤ

/-- A primitive call or an access, as it stands in a trace. -/
inductive Event (A C D : Type) where
  | clock
  | lock (deadline : D)
  | wait (condition : C) (deadline : D)
  | signal (condition : C)
  | unlock
  | access (action : A)

/-- The access that an event is, if it is one. -/
def Event.access? {A C D : Type} : Event A C D → Option A
  | .access action => some action
  | _ => none

/-- The state of one call: the data, how often the calling thread holds the
mutex, and the events so far with the hold count at each of them. -/
structure Local (S A C D : Type) where
  /-- The shared data. -/
  data : S
  /-- How many times the calling thread holds the recursive mutex. -/
  hold : ℕ
  /-- The events so far, each with the hold count at which it happened. -/
  trace : List (Event A C D × ℕ)

namespace Local

variable {S K A C D : Type} (env : Answers S D) (s : Local S A C D)

/-- The beginning of a call, by a thread that holds the mutex `hold` times. -/
def start (data : S) (hold : ℕ) : Local S A C D := { data := data, hold := hold, trace := [] }

/-- The accesses so far, each with the hold count at which it happened. -/
def accesses : List (A × ℕ) :=
  s.trace.filterMap fun (event, hold) => event.access?.map (·, hold)

/-- Record an event at the current hold count. -/
def note (e : Event A C D) : Local S A C D := { s with trace := s.trace ++ [(e, s.hold)] }

/-- The lock attempt has returned. It takes a hold exactly when it returns zero. -/
def lock (deadline : D) : Local S A C D where
  data := env.locking s.data
  hold := if env.lockCode = 0 then s.hold + 1 else s.hold
  trace := s.trace ++ [(.lock deadline, s.hold)]

/-- The wait has returned. It releases the mutex while it blocks, and holds it
again on return whatever it returns. -/
def wait (condition : C) (deadline : D) : Local S A C D where
  data := env.waiting s.data
  hold := s.hold
  trace := s.trace ++ [(.wait condition deadline, s.hold)]

/-- The unlock has returned. It gives up a hold exactly when it returns zero. -/
def unlock : Local S A C D where
  data := s.data
  hold := if env.unlockCode = 0 then s.hold - 1 else s.hold
  trace := s.trace ++ [(.unlock, s.hold)]

/-- An access to the guarded data. -/
def touch (M : Monitor S K A) (s : Local S A C D) (action : A) : Local S A C D where
  data := M.perform action s.data
  hold := s.hold
  trace := s.trace ++ [(.access action, s.hold)]

@[simp] theorem start_data (data : S) (hold : ℕ) :
    (start data hold : Local S A C D).data = data := rfl

@[simp] theorem start_hold (data : S) (hold : ℕ) :
    (start data hold : Local S A C D).hold = hold := rfl

@[simp] theorem note_data (e : Event A C D) : (s.note e).data = s.data := rfl

@[simp] theorem note_hold (e : Event A C D) : (s.note e).hold = s.hold := rfl

@[simp] theorem note_trace (e : Event A C D) : (s.note e).trace = s.trace ++ [(e, s.hold)] := rfl

@[simp] theorem lock_data (deadline : D) :
    (s.lock env deadline).data = env.locking s.data := rfl

@[simp] theorem lock_hold (deadline : D) :
    (s.lock env deadline).hold = if env.lockCode = 0 then s.hold + 1 else s.hold := rfl

@[simp] theorem lock_trace (deadline : D) :
    (s.lock env deadline).trace = s.trace ++ [(.lock deadline, s.hold)] := rfl

@[simp] theorem wait_data (condition : C) (deadline : D) :
    (s.wait env condition deadline).data = env.waiting s.data := rfl

@[simp] theorem wait_hold (condition : C) (deadline : D) :
    (s.wait env condition deadline).hold = s.hold := rfl

@[simp] theorem wait_trace (condition : C) (deadline : D) :
    (s.wait env condition deadline).trace = s.trace ++ [(.wait condition deadline, s.hold)] :=
  rfl

@[simp] theorem unlock_data : (s.unlock env).data = s.data := rfl

@[simp] theorem unlock_hold :
    (s.unlock env).hold = if env.unlockCode = 0 then s.hold - 1 else s.hold := rfl

@[simp] theorem unlock_trace : (s.unlock env).trace = s.trace ++ [(.unlock, s.hold)] := rfl

@[simp] theorem touch_data (M : Monitor S K A) (action : A) :
    (s.touch M action).data = M.perform action s.data := rfl

@[simp] theorem touch_hold (M : Monitor S K A) (action : A) :
    (s.touch M action).hold = s.hold := rfl

@[simp] theorem touch_trace (M : Monitor S K A) (action : A) :
    (s.touch M action).trace = s.trace ++ [(.access action, s.hold)] := rfl

@[simp] theorem accesses_start (data : S) (hold : ℕ) :
    (start data hold : Local S A C D).accesses = [] := rfl

@[simp] theorem accesses_note_clock : (s.note .clock).accesses = s.accesses := by
  simp [accesses, Event.access?]

@[simp] theorem accesses_note_signal (condition : C) :
    (s.note (.signal condition)).accesses = s.accesses := by
  simp [accesses, Event.access?]

@[simp] theorem accesses_lock (deadline : D) : (s.lock env deadline).accesses = s.accesses := by
  simp [accesses, Event.access?]

@[simp] theorem accesses_wait (condition : C) (deadline : D) :
    (s.wait env condition deadline).accesses = s.accesses := by
  simp [accesses, Event.access?]

@[simp] theorem accesses_unlock : (s.unlock env).accesses = s.accesses := by
  simp [accesses, Event.access?]

@[simp] theorem accesses_touch (M : Monitor S K A) (action : A) :
    (s.touch M action).accesses = s.accesses ++ [(action, s.hold)] := by
  simp [accesses, Event.access?]

end Local

namespace Program

variable {S K A C D α β : Type}

/-- Run one call against the answers of its primitives. -/
def run (M : Monitor S K A) (env : Answers S D) :
    Program S K A C D α → Local S A C D → α × Local S A C D
  | .ret value, s => (value, s)
  | .clock next, s => (next env.clockCode env.now).run M env (s.note .clock)
  | .errno next, s => (next env.errno).run M env s
  | .peek next, s => (next (M.config s.data)).run M env s
  | .lock deadline next, s => (next env.lockCode).run M env (s.lock env deadline)
  | .wait condition deadline next, s =>
    (next env.waitCode).run M env (s.wait env condition deadline)
  | .signal condition next, s => (next env.signalCode).run M env (s.note (.signal condition))
  | .unlock next, s => (next env.unlockCode).run M env (s.unlock env)
  | .access action next, s => (next s.data).run M env (s.touch M action)

variable (M : Monitor S K A) (env : Answers S D) (s : Local S A C D)

@[simp] theorem run_pure (value : α) :
    (pure value : Program S K A C D α).run M env s = (value, s) := rfl

/-- Running a sequence is running its second part where the first one ended. -/
@[simp] theorem run_bind (p : Program S K A C D α) (f : α → Program S K A C D β) :
    (p >>= f).run M env s = (f (p.run M env s).1).run M env (p.run M env s).2 := by
  change (p.bind f).run M env s = _
  induction p generalizing s with
  | ret value => rfl
  | clock next ih => exact ih _ _ _
  | errno next ih => exact ih _ _
  | peek next ih => exact ih _ _
  | lock deadline next ih => exact ih _ _
  | wait condition deadline next ih => exact ih _ _
  | signal condition next ih => exact ih _ _
  | unlock next ih => exact ih _ _
  | access action next ih => exact ih _ _

@[simp] theorem run_clockGettime :
    (clockGettime : Program S K A C D (ℤ × D)).run M env s =
      ((env.clockCode, env.now), s.note .clock) := rfl

@[simp] theorem run_readErrno :
    (readErrno : Program S K A C D ℤ).run M env s = (env.errno, s) := rfl

@[simp] theorem run_readConfig :
    (readConfig : Program S K A C D K).run M env s = (M.config s.data, s) := rfl

@[simp] theorem run_mutexTimedlock (deadline : D) :
    (mutexTimedlock deadline : Program S K A C D ℤ).run M env s =
      (env.lockCode, s.lock env deadline) := rfl

@[simp] theorem run_mutexUnlock :
    (mutexUnlock : Program S K A C D ℤ).run M env s = (env.unlockCode, s.unlock env) := rfl

@[simp] theorem run_condTimedwait (condition : C) (deadline : D) :
    (condTimedwait condition deadline : Program S K A C D ℤ).run M env s =
      (env.waitCode, s.wait env condition deadline) := rfl

@[simp] theorem run_condSignal (condition : C) :
    (condSignal condition : Program S K A C D ℤ).run M env s =
      (env.signalCode, s.note (.signal condition)) := rfl

@[simp] theorem run_touch (action : A) :
    (touch action : Program S K A C D S).run M env s = (s.data, s.touch M action) := rfl

end Program

end Protoflight
