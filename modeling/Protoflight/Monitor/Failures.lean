import Protoflight.Monitor.Interleaving

/-!
# Primitives of a monitor that fail

The threads of a monitor when lock attempts and waits give up. A lock attempt can give up only
while another thread holds the mutex. A wait gives up one hold of the recursive mutex, and takes it
again before it returns, whatever it returns: a thread that has held the mutex more than once keeps
it while it waits. Errors are told by positive codes.

What is shown of all runs: how often a thread holds the mutex between two calls, when each call
keeps the hold that it has after a wait that has given up, and gives back any other one.
-/

namespace Protoflight

/-- One step of one thread, where lock attempts and waits may give up. -/
inductive FailingAction (R D : Type) where
  | step (action : Action R D)
  /-- The lock attempt of a thread gives up. -/
  | lockFails (thread : ℕ) (code : ℤ)
  /-- The wait of a thread gives up. -/
  | waitFails (thread : ℕ) (code : ℤ)

namespace Pool

variable {S K A C D R α : Type} [DecidableEq C]

/-- How often a thread holds the mutex. -/
def holds (s : Pool S K A C D α) (i : ℕ) : ℕ :=
  match s.mutex with
  | some (j, holds) => if j = i then holds else 0
  | none => 0

/-- The mutex after one of its holds has been given up. -/
def released (i holds : ℕ) : Option (ℕ × ℕ) := if holds = 1 then none else some (i, holds - 1)

/-- A thread waits, unless it does not hold the mutex. -/
def beginWait (s : Pool S K A C D α) (i : ℕ) (condition : C) (next : ℤ → Program S K A C D α) :
    Pool S K A C D α :=
  match s.mutex with
  | none => s.setThread i (.running (next 1))
  | some (j, holds) =>
    if j = i then
      { s.setThread i (.waiting condition 1 next) with mutex := released i holds }
    else s.setThread i (.running (next 1))

/-- A thread that has been unblocked takes its hold again, unless another thread holds the
mutex. -/
def takeAgain (s : Pool S K A C D α) (i holds : ℕ) (next : ℤ → Program S K A C D α) :
    Option (Pool S K A C D α) :=
  match s.mutex with
  | none => some { s.setThread i (.running (next 0)) with mutex := some (i, holds) }
  | some (j, more) =>
    if j = i then some { s.setThread i (.running (next 0)) with mutex := some (i, more + holds) }
    else none

/-- One step of the pool. -/
def failingStep (M : Monitor S K A) (program : R → Program S K A C D α) (s : Pool S K A C D α) :
    FailingAction R D → Option (Pool S K A C D α)
  | .step (.advance i) =>
    match s.threads i with
    | .running (.wait condition _ next) => some (s.beginWait i condition next)
    | _ => s.step M program (.advance i)
  | .step (.resume i) =>
    match s.threads i with
    | .woken _ holds next => s.takeAgain i holds next
    | _ => none
  | .step action => s.step M program action
  | .lockFails i code =>
    match s.threads i, s.mutex with
    | .running (.lock _ next), some (j, _) =>
      if j ≠ i ∧ 0 < code then some (s.setThread i (.running (next code))) else none
    | _, _ => none
  | .waitFails i code =>
    match s.threads i with
    | .waiting condition holds next =>
      if 0 < code then some (s.setThread i (.woken condition holds fun _ => next code)) else none
    | _ => none

/-- A sequence of steps. -/
def failingExec (M : Monitor S K A) (program : R → Program S K A C D α) :
    List (FailingAction R D) → Pool S K A C D α → Option (Pool S K A C D α)
  | [], s => some s
  | action :: actions, s => (s.failingStep M program action).bind (failingExec M program actions)

/-- Where nobody holds the mutex more than once, a step of the pool whose primitives do not fail is
one of this pool too. -/
theorem failingStep_step (M : Monitor S K A) (program : R → Program S K A C D α)
    {s t : Pool S K A C D α} (hmutex : ∀ hold ∈ s.mutex, hold.2 = 1) {action : Action R D}
    (hstep : s.step M program action = some t) :
    s.failingStep M program (.step action) = some t := by
  cases action with
  | call | clock | errno | signal => exact hstep
  | advance i =>
    rw [failingStep]
    split
    next condition deadline next hthread =>
      simp only [step, hthread, advance] at hstep
      rw [← hstep, beginWait]
      cases hs : s.mutex with
      | none => rfl
      | some hold =>
        obtain ⟨j, holds⟩ := hold
        obtain rfl : holds = 1 := hmutex _ hs
        dsimp only
        split <;> rfl
    next => exact hstep
  | resume i =>
    simp only [step] at hstep
    split at hstep
    next condition holds next hthread hfree =>
      simp only [failingStep, hthread, takeAgain, hfree, hstep]
    next => cases hstep

end Pool

/-- Where a call is with the mutex. -/
inductive Stage where
  /-- It has not tried to lock the mutex, or it is to leave without giving up a hold. -/
  | outside
  /-- It has a hold to give up. -/
  | taken
  /-- Its lock attempt has given up. -/
  | missed
  deriving DecidableEq

/-- The holds that a call has to give up. -/
def Stage.holds : Stage → ℕ
  | .taken => 1
  | .outside | .missed => 0

namespace Program

variable {S K A C D α β : Type}

/-- From a stage on, the program locks the mutex once at most, and is not outside when it waits,
accesses the data or unlocks; it ends in a stage that satisfies the postcondition. Without the
mutex, waits and unlocks are answered with an error. -/
def settles : Program S K A C D α → (α → Stage → Prop) → Stage → Prop
  | .ret value, post, g => post value g
  | .clock next, post, g => ∀ code now, (next code now).settles post g
  | .errno next, post, g => ∀ value, (next value).settles post g
  | .peek next, post, g => ∀ config, (next config).settles post g
  | .lock _ next, post, g => g = .outside ∧ (next 0).settles post .taken ∧
    ∀ code, 0 < code → (next code).settles post .missed
  | .wait _ _ next, post, g => g ≠ .outside ∧
    (g = .taken → (next 0).settles post .taken ∧
      ∀ code, 0 < code → (next code).settles post .outside) ∧
    (g = .missed → (next 1).settles post .missed)
  | .signal _ next, post, g => (next 0).settles post g
  | .unlock next, post, g => g ≠ .outside ∧ (g = .taken → (next 0).settles post .outside) ∧
    (g = .missed → (next 1).settles post .missed)
  | .access _ next, post, g => g ≠ .outside ∧ ∀ data, (next data).settles post g

/-- The rest of a call gives up the hold that it has to give up. -/
def Settles (p : Program S K A C D α) (g : Stage) : Prop := p.settles (fun _ g => g ≠ .taken) g

variable {post : α → Stage → Prop} {g : Stage}

@[simp] theorem settles_pure (value : α) :
    (pure value : Program S K A C D α).settles post g ↔ post value g := Iff.rfl

@[simp] theorem settles_bind (p : Program S K A C D β) (f : β → Program S K A C D α) :
    (p >>= f).settles post g ↔ p.settles (fun value g => (f value).settles post g) g := by
  change (p.bind f).settles post g ↔ _
  induction p generalizing g with
  | ret value => exact Iff.rfl
  | clock next ih => exact forall₂_congr fun code now => ih code now
  | errno next ih => exact forall_congr' fun value => ih value
  | peek next ih => exact forall_congr' fun config => ih config
  | lock deadline next ih =>
    exact and_congr_right' (and_congr (ih 0) (forall₂_congr fun code _ => ih code))
  | wait condition deadline next ih =>
    exact and_congr_right' (and_congr
      (imp_congr_right fun _ => and_congr (ih 0) (forall₂_congr fun code _ => ih code))
      (imp_congr_right fun _ => ih 1))
  | signal condition next ih => exact ih 0
  | unlock next ih =>
    exact and_congr_right' (and_congr (imp_congr_right fun _ => ih 0)
      (imp_congr_right fun _ => ih 1))
  | access action next ih => exact and_congr_right' (forall_congr' fun data => ih data)

@[simp] theorem settles_ite (c : Prop) [Decidable c] (p q : Program S K A C D α) :
    (if c then p else q).settles post g ↔ (c → p.settles post g) ∧ (¬c → q.settles post g) := by
  split <;> simp_all

variable {post : ℤ → Stage → Prop}

@[simp] theorem settles_clockGettime {post : ℤ × D → Stage → Prop} :
    (clockGettime : Program S K A C D (ℤ × D)).settles post g ↔ ∀ code now, post (code, now) g :=
  Iff.rfl

@[simp] theorem settles_readErrno :
    (readErrno : Program S K A C D ℤ).settles post g ↔ ∀ value, post value g := Iff.rfl

@[simp] theorem settles_readConfig {post : K → Stage → Prop} :
    (readConfig : Program S K A C D K).settles post g ↔ ∀ config, post config g := Iff.rfl

@[simp] theorem settles_mutexTimedlock (deadline : D) :
    (mutexTimedlock deadline : Program S K A C D ℤ).settles post g ↔
      g = .outside ∧ post 0 .taken ∧ ∀ code, 0 < code → post code .missed := Iff.rfl

@[simp] theorem settles_mutexUnlock :
    (mutexUnlock : Program S K A C D ℤ).settles post g ↔
      g ≠ .outside ∧ (g = .taken → post 0 .outside) ∧ (g = .missed → post 1 .missed) := Iff.rfl

@[simp] theorem settles_condTimedwait (condition : C) (deadline : D) :
    (condTimedwait condition deadline : Program S K A C D ℤ).settles post g ↔
      g ≠ .outside ∧ (g = .taken → post 0 .taken ∧ ∀ code, 0 < code → post code .outside) ∧
        (g = .missed → post 1 .missed) := Iff.rfl

@[simp] theorem settles_condSignal (condition : C) :
    (condSignal condition : Program S K A C D ℤ).settles post g ↔ post 0 g := Iff.rfl

@[simp] theorem settles_touch (action : A) {post : S → Stage → Prop} :
    (touch action : Program S K A C D S).settles post g ↔
      g ≠ .outside ∧ ∀ data, post data g := Iff.rfl

end Program

/-- The waits of a thread that have given up. -/
def FailingAction.isFailedWait {R D : Type} (i : ℕ) : FailingAction R D → Bool
  | .waitFails j _ => j = i
  | .step _ | .lockFails _ _ => false

/-- Whether the lock attempt of a thread has given up since it called last. -/
def FailingAction.missed {R D : Type} (i : ℕ) (before : Bool) : FailingAction R D → Bool
  | .step (.call j _) => if j = i then false else before
  | .lockFails j _ => if j = i then true else before
  | .step _ | .waitFails _ _ => before

/-- How many waits of a thread have given up. -/
def failedWaits {R D : Type} (i : ℕ) (actions : List (FailingAction R D)) : ℕ :=
  actions.countP (FailingAction.isFailedWait i)

/-- The lock attempt of the latest call of a thread has given up. -/
def lockMissed {R D : Type} (i : ℕ) (actions : List (FailingAction R D)) : Bool :=
  actions.foldl (FailingAction.missed i) false

namespace Pool

variable {S K A C D R α : Type} {M : Monitor S K A} {program : R → Program S K A C D α}
  {s t : Pool S K A C D α} {leaked : ℕ → ℕ} {missed : ℕ → Bool} {i : ℕ}

theorem holds_of_holder {holds : ℕ} (h : s.mutex = some (i, holds)) : s.holds i = holds := by
  simp [Pool.holds, h]

theorem holds_of_other {j holds : ℕ} (h : s.mutex = some (i, holds)) (hne : j ≠ i) :
    s.holds j = 0 := by
  simp [Pool.holds, h, hne.symm]

theorem holds_of_free (h : s.mutex = none) : s.holds i = 0 := by
  simp [Pool.holds, h]

theorem holds_released {holds : ℕ} (h : s.mutex = released i holds) :
    s.holds i = holds - 1 := by
  rw [released] at h
  split at h
  next hone => rw [holds_of_free h, hone]
  next => exact holds_of_holder h

/-- What a thread has of the mutex, when some of its waits have given up and the lock attempt of its
call has or has not. -/
def ThreadSettles (leaked holds : ℕ) (missed : Bool) : Thread S K A C D α → Prop
  | .idle => holds = leaked
  | .running p => ∃ g, p.Settles g ∧ holds = leaked + g.holds ∧ (g = .missed ↔ missed = true) ∧
    (g = .missed → leaked = 0)
  | .waiting _ owed next => owed = 1 ∧ holds = leaked ∧ missed = false ∧
    (next 0).Settles .taken ∧ ∀ code, 0 < code → (next code).Settles .outside
  | .woken _ owed next => owed = 1 ∧ missed = false ∧
    ∃ g, (next 0).Settles g ∧ g ≠ .missed ∧ holds + 1 = leaked + g.holds

/-- Each thread has of the mutex what its waits have left it, and what its call has to give up. -/
structure Ledger (s : Pool S K A C D α) (leaked : ℕ → ℕ) (missed : ℕ → Bool) : Prop where
  pos : ∀ hold ∈ s.mutex, 0 < hold.2
  threads : ∀ i, ThreadSettles (leaked i) (s.holds i) (missed i) (s.threads i)

theorem Ledger.start (data : S) :
    Ledger (Pool.start data : Pool S K A C D α) (fun _ => 0) fun _ => false :=
  ⟨nofun, fun _ => rfl⟩

/-- A step of one thread, which the others do not notice. -/
theorem Ledger.of_thread (h : s.Ledger leaked missed) {leaked' : ℕ → ℕ} {missed' : ℕ → Bool}
    (i : ℕ) (hpos : ∀ hold ∈ t.mutex, 0 < hold.2)
    (hself : ThreadSettles (leaked' i) (t.holds i) (missed' i) (t.threads i))
    (hothers : ∀ j ≠ i, t.threads j = s.threads j ∧ t.holds j = s.holds j ∧
      leaked' j = leaked j ∧ missed' j = missed j) : t.Ledger leaked' missed' := by
  refine ⟨hpos, fun j => ?_⟩
  by_cases hj : j = i
  · rw [hj]
    exact hself
  · obtain ⟨hthread, hholds, hleaked, hmissed⟩ := hothers j hj
    rw [hthread, hholds, hleaked, hmissed]
    exact h.threads j

/-- A step that changes only one thread. -/
theorem Ledger.setThread (h : s.Ledger leaked missed) (i : ℕ) {thread : Thread S K A C D α}
    (hself : ThreadSettles (leaked i) (s.holds i) (missed i) thread) :
    (s.setThread i thread).Ledger leaked missed := by
  refine h.of_thread i h.pos ?_ fun j hj => ⟨Function.update_of_ne hj .., rfl, rfl, rfl⟩
  change ThreadSettles _ (s.holds i) _ (Function.update s.threads i thread i)
  rwa [Function.update_self]

/-- A step of a thread that takes a hold or gives one up. -/
theorem Ledger.setMutex (h : s.Ledger leaked missed) (i : ℕ) {thread : Thread S K A C D α}
    {mutex : Option (ℕ × ℕ)} (hbefore : ∀ hold ∈ s.mutex, hold.1 = i)
    (hafter : ∀ hold ∈ mutex, hold.1 = i ∧ 0 < hold.2)
    (hself : ThreadSettles (leaked i) (holds { s.setThread i thread with mutex := mutex } i)
      (missed i) thread) : Ledger { s.setThread i thread with mutex := mutex } leaked missed := by
  have hnone : ∀ (u : Pool S K A C D α), (∀ hold ∈ u.mutex, hold.1 = i) → ∀ j ≠ i,
      u.holds j = 0 := by
    intro u hu j hj
    cases hmutex : u.mutex with
    | none => exact holds_of_free hmutex
    | some hold =>
      obtain ⟨k, more⟩ := hold
      obtain rfl : k = i := hu _ hmutex
      exact holds_of_other hmutex hj
  refine h.of_thread i (fun hold hmem => (hafter hold hmem).2) ?_ fun j hj =>
    ⟨Function.update_of_ne hj .., ?_, rfl, rfl⟩
  · change ThreadSettles _ _ _ (Function.update s.threads i thread i)
    rwa [Function.update_self]
  · rw [hnone s hbefore j hj]
    exact hnone _ (fun hold hmem => (hafter hold hmem).1) j hj

theorem Ledger.running (h : s.Ledger leaked missed) {p : Program S K A C D α}
    (hthread : s.threads i = .running p) :
    ∃ g, p.Settles g ∧ s.holds i = leaked i + g.holds ∧ (g = .missed ↔ missed i = true) ∧
      (g = .missed → leaked i = 0) := by
  have hself := h.threads i
  rwa [hthread] at hself

theorem mutex_of_holds_pos (h : 0 < s.holds i) : s.mutex = some (i, s.holds i) := by
  cases hmutex : s.mutex with
  | none =>
    rw [holds_of_free hmutex] at h
    cases h
  | some hold =>
    obtain ⟨j, more⟩ := hold
    by_cases hj : j = i
    · subst hj
      rw [holds_of_holder hmutex]
    · rw [holds_of_other hmutex (Ne.symm hj)] at h
      cases h

/-- A thread that has a hold to give up holds the mutex, and one whose lock attempt has given up
does not. -/
theorem Ledger.mutex_of_stage (h : s.Ledger leaked missed) {g : Stage} (hg : g ≠ .outside)
    (hholds : s.holds i = leaked i + g.holds) (hleaked : g = .missed → leaked i = 0) :
    (g = .taken ∧ s.mutex = some (i, leaked i + 1)) ∨
      (g = .missed ∧ ∀ hold ∈ s.mutex, hold.1 ≠ i) := by
  cases g with
  | outside => exact absurd rfl hg
  | taken =>
    change s.holds i = leaked i + 1 at hholds
    refine .inl ⟨rfl, ?_⟩
    rw [← hholds]
    exact mutex_of_holds_pos (by omega)
  | missed =>
    change s.holds i = leaked i + 0 at hholds
    refine .inr ⟨rfl, ?_⟩
    rintro ⟨j, more⟩ hmem heq
    obtain rfl : j = i := heq
    have hpos : 0 < more := h.pos _ hmem
    have hmore : s.holds j = more := holds_of_holder hmem
    rw [hleaked rfl] at hholds
    omega

/-- A thread tries to lock the mutex, or goes on without it. -/
theorem Ledger.lock (h : s.Ledger leaked missed) {deadline : D} {next : ℤ → Program S K A C D α}
    (hthread : s.threads i = .running (.lock deadline next))
    (hstep : s.advance M i (.lock deadline next) = some t) : t.Ledger leaked missed := by
  have hself := h.threads i
  rw [hthread] at hself
  obtain ⟨g, ⟨rfl, htaken, -⟩, hholds, hmissed, hleaked⟩ := hself
  have hnot : (Stage.taken = .missed ↔ missed i = true) := by
    rw [← hmissed]
    exact iff_of_false nofun nofun
  simp only [advance] at hstep
  split at hstep
  next hfree =>
    cases hstep
    refine h.setMutex i (by rw [hfree]; nofun) (by rintro _ ⟨⟩; exact ⟨rfl, Nat.one_pos⟩)
      ⟨.taken, htaken, ?_, hnot, nofun⟩
    rw [holds_of_free hfree] at hholds
    rw [holds_of_holder rfl]
    change 1 = leaked i + 1
    change 0 = leaked i + 0 at hholds
    omega
  next j more hmutex =>
    split at hstep
    next heq =>
      subst heq
      cases hstep
      refine h.setMutex j (by rw [hmutex]; rintro _ ⟨⟩; rfl)
        (by rintro _ ⟨⟩; exact ⟨rfl, Nat.succ_pos more⟩) ⟨.taken, htaken, ?_, hnot, nofun⟩
      rw [holds_of_holder hmutex] at hholds
      rw [holds_of_holder rfl]
      exact congrArg Nat.succ hholds
    next => cases hstep

/-- A thread gives up a hold that it has taken. -/
theorem Ledger.giveUp (h : s.Ledger leaked missed) (hmutex : s.mutex = some (i, leaked i + 1))
    {thread : Thread S K A C D α} (hself : ThreadSettles (leaked i) (leaked i) (missed i) thread) :
    Ledger { s.setThread i thread with mutex := released i (leaked i + 1) } leaked missed := by
  refine h.setMutex i (by rw [hmutex]; rintro _ ⟨⟩; rfl) (fun hold hmem => ?_) ?_
  · rw [released] at hmem
    split at hmem
    next => cases hmem
    next hne =>
      cases hmem
      exact ⟨rfl, by omega⟩
  · rwa [holds_released rfl]

/-- A thread gives up a hold, unless it does not hold the mutex. -/
theorem Ledger.unlock (h : s.Ledger leaked missed) {next : ℤ → Program S K A C D α}
    (hthread : s.threads i = .running (.unlock next))
    (hstep : s.advance M i (.unlock next) = some t) : t.Ledger leaked missed := by
  have hself := h.threads i
  rw [hthread] at hself
  obtain ⟨g, ⟨hg, htaken, hmiss⟩, hholds, hmissed, hleaked⟩ := hself
  rcases h.mutex_of_stage hg hholds hleaked with ⟨rfl, hmutex⟩ | ⟨rfl, hothers⟩
  · have hgiven : { s.setThread i (.running (next 0)) with
        mutex := released i (leaked i + 1) } = t := by
      simp only [advance, hmutex, if_true, Option.some.injEq] at hstep
      exact hstep
    rw [← hgiven]
    refine h.giveUp hmutex ⟨.outside, htaken rfl, rfl, ?_, nofun⟩
    rw [← hmissed]
    exact iff_of_false nofun nofun
  · have hcode : s.setThread i (.running (next 1)) = t := by
      simp only [advance] at hstep
      split at hstep
      next => exact Option.some.inj hstep
      next j more hmutex =>
        rw [if_neg (hothers _ hmutex)] at hstep
        exact Option.some.inj hstep
    rw [← hcode]
    exact h.setThread i ⟨.missed, hmiss rfl, hholds, hmissed, hleaked⟩

/-- A thread waits and gives up a hold, unless it does not hold the mutex. -/
theorem Ledger.wait (h : s.Ledger leaked missed) {condition : C} {deadline : D}
    {next : ℤ → Program S K A C D α}
    (hthread : s.threads i = .running (.wait condition deadline next)) :
    (s.beginWait i condition next).Ledger leaked missed := by
  have hself := h.threads i
  rw [hthread] at hself
  obtain ⟨g, ⟨hg, htaken, hmiss⟩, hholds, hmissed, hleaked⟩ := hself
  rcases h.mutex_of_stage hg hholds hleaked with ⟨rfl, hmutex⟩ | ⟨rfl, hothers⟩
  · have hnot : missed i = false := by
      rw [← Bool.not_eq_true, ← hmissed]
      nofun
    simp only [beginWait, hmutex, if_true]
    exact h.giveUp hmutex ⟨rfl, rfl, hnot, htaken rfl⟩
  · have hcode : s.beginWait i condition next = s.setThread i (.running (next 1)) := by
      rw [beginWait]
      split
      next => rfl
      next j more hmutex => rw [if_neg (hothers _ hmutex)]
    rw [hcode]
    exact h.setThread i ⟨.missed, hmiss rfl, hholds, hmissed, hleaked⟩

/-- A thread that has been unblocked takes its hold again. -/
theorem Ledger.takeAgain (h : s.Ledger leaked missed) {condition : C} {owed : ℕ}
    {next : ℤ → Program S K A C D α} (hthread : s.threads i = .woken condition owed next)
    (hstep : s.takeAgain i owed next = some t) : t.Ledger leaked missed := by
  have hself := h.threads i
  rw [hthread] at hself
  obtain ⟨rfl, hmissed, g, hsettles, hg, hholds⟩ := hself
  have hiff : (g = .missed ↔ missed i = true) := by
    rw [hmissed]
    exact iff_of_false hg Bool.false_ne_true
  simp only [Pool.takeAgain] at hstep
  split at hstep
  next hfree =>
    cases hstep
    refine h.setMutex i (by rw [hfree]; nofun) (by rintro _ ⟨⟩; exact ⟨rfl, Nat.one_pos⟩)
      ⟨g, hsettles, ?_, hiff, fun heq => absurd heq hg⟩
    rw [holds_of_free hfree] at hholds
    rwa [holds_of_holder rfl]
  next j more hmutex =>
    split at hstep
    next heq =>
      subst heq
      cases hstep
      refine h.setMutex j (by rw [hmutex]; rintro _ ⟨⟩; rfl)
        (by rintro _ ⟨⟩; exact ⟨rfl, Nat.succ_pos more⟩)
        ⟨g, hsettles, ?_, hiff, fun heq => absurd heq hg⟩
      rw [holds_of_holder hmutex] at hholds
      rwa [holds_of_holder rfl]
    next => cases hstep

/-- The ledger after a step. -/
def leakedAfter (leaked : ℕ → ℕ) (action : FailingAction R D) (i : ℕ) : ℕ :=
  leaked i + if action.isFailedWait i then 1 else 0

/-- A step of a running thread that is none of these. -/
theorem Ledger.advance (h : s.Ledger leaked missed) {p : Program S K A C D α}
    (hthread : s.threads i = .running p)
    (hwait : ∀ condition deadline next, p ≠ .wait condition deadline next)
    (hstep : s.advance M i p = some t) : t.Ledger leaked missed := by
  have hself := h.threads i
  rw [hthread] at hself
  cases p with
  | ret value =>
    obtain ⟨g, hg, hholds, -⟩ := hself
    cases hstep
    refine h.setThread i ?_
    cases g with
    | taken => exact absurd rfl hg
    | outside | missed => exact hholds
  | peek next =>
    obtain ⟨g, hsettles, hrest⟩ := hself
    cases hstep
    exact h.setThread i ⟨g, hsettles _, hrest⟩
  | lock deadline next => exact h.lock hthread hstep
  | wait condition deadline next => exact absurd rfl (hwait condition deadline next)
  | unlock next => exact h.unlock hthread hstep
  | access action next =>
    obtain ⟨g, ⟨-, hsettles⟩, hrest⟩ := hself
    cases hstep
    have hset : (s.setThread i (.running (next s.data))).Ledger leaked missed :=
      h.setThread i ⟨g, hsettles _, hrest⟩
    exact ⟨hset.pos, hset.threads⟩
  | clock | errno | signal => cases hstep

variable [DecidableEq C]

/-- A thread signals, and perhaps unblocks another one. -/
theorem Ledger.signal (h : s.Ledger leaked missed) {waiter : Option ℕ}
    (hstep : s.failingStep M program (.step (.signal i waiter)) = some t) :
    t.Ledger leaked missed := by
  simp only [failingStep, Pool.step] at hstep
  split at hstep
  next condition next hthread =>
    obtain ⟨g, hsettles, hrest⟩ := h.running hthread
    cases hstep
    exact h.setThread i ⟨g, hsettles, hrest⟩
  next condition next j hthread =>
    split at hstep
    next condition' owed next' hwaiter =>
      split at hstep
      next =>
        have hself := h.threads j
        rw [hwaiter] at hself
        obtain ⟨howed, hholds, hmissed, htaken, -⟩ := hself
        have hne : i ≠ j := by
          rintro rfl
          rw [hthread] at hwaiter
          cases hwaiter
        have hwoken : (s.setThread j (.woken condition' owed next')).Ledger leaked missed :=
          h.setThread j ⟨howed, hmissed, .taken, htaken, nofun, congrArg Nat.succ hholds⟩
        obtain ⟨g, hsettles, hrest⟩ := h.running hthread
        cases hstep
        exact hwoken.setThread i ⟨g, hsettles, hrest⟩
      next => cases hstep
    next => cases hstep
  next => cases hstep

/-- A call begins. -/
theorem Ledger.call (hprogram : ∀ request, (program request).Settles .outside)
    (h : s.Ledger leaked missed) {request : R}
    (hstep : s.failingStep M program (.step (.call i request)) = some t) :
    t.Ledger leaked fun j => (FailingAction.step (.call i request) : FailingAction R D).missed j
      (missed j) := by
  simp only [failingStep, Pool.step] at hstep
  split at hstep
  next hthread =>
    have hself := h.threads i
    rw [hthread] at hself
    cases hstep
    refine h.of_thread i h.pos ?_ fun j hj => ⟨Function.update_of_ne hj .., rfl, rfl,
      if_neg (Ne.symm hj)⟩
    change ThreadSettles _ (s.holds i) _ (Function.update s.threads i _ i)
    rw [Function.update_self, FailingAction.missed, if_pos rfl]
    exact ⟨.outside, hprogram request, hself, iff_of_false nofun Bool.false_ne_true, nofun⟩
  next => cases hstep

/-- A lock attempt gives up. -/
theorem Ledger.lockFails (h : s.Ledger leaked missed) {code : ℤ}
    (hstep : s.failingStep M program (.lockFails i code) = some t) :
    t.Ledger leaked fun j => (FailingAction.lockFails i code : FailingAction R D).missed j
      (missed j) := by
  simp only [failingStep] at hstep
  split at hstep
  next deadline next j more hthread hmutex =>
    split at hstep
    next hfails =>
      have hself := h.threads i
      rw [hthread] at hself
      obtain ⟨g, ⟨rfl, -, hmiss⟩, hholds, -⟩ := hself
      rw [holds_of_other hmutex hfails.1.symm] at hholds
      have hzero : leaked i = 0 := (Nat.add_eq_zero_iff.mp hholds.symm).1
      cases hstep
      refine h.of_thread i h.pos ?_ fun k hk => ⟨Function.update_of_ne hk .., rfl, rfl,
        if_neg (Ne.symm hk)⟩
      change ThreadSettles _ (s.holds i) _ (Function.update s.threads i _ i)
      rw [Function.update_self, FailingAction.missed, if_pos rfl,
        holds_of_other hmutex hfails.1.symm]
      exact ⟨.missed, hmiss code hfails.2, hzero.symm, iff_of_true rfl rfl, fun _ => hzero⟩
    next => cases hstep
  next => cases hstep

/-- A wait gives up. -/
theorem Ledger.waitFails (h : s.Ledger leaked missed) {code : ℤ}
    (hstep : s.failingStep M program (.waitFails i code) = some t) :
    t.Ledger (leakedAfter leaked (.waitFails i code : FailingAction R D)) missed := by
  simp only [failingStep] at hstep
  split at hstep
  next condition owed next hthread =>
    split at hstep
    next hcode =>
      have hself := h.threads i
      rw [hthread] at hself
      obtain ⟨howed, hholds, hmissed, -, hfails⟩ := hself
      cases hstep
      refine h.of_thread i h.pos ?_ fun j hj => ⟨Function.update_of_ne hj .., rfl, ?_, rfl⟩
      · change ThreadSettles _ (s.holds i) _ (Function.update s.threads i _ i)
        rw [Function.update_self, leakedAfter, hholds]
        refine ⟨howed, hmissed, .outside, hfails code hcode, nofun, ?_⟩
        simp [FailingAction.isFailedWait, Stage.holds]
      · simp [leakedAfter, FailingAction.isFailedWait, Ne.symm hj]
    next => cases hstep
  next => cases hstep

/-- A step of the pool keeps the ledger. -/
theorem Ledger.step (hprogram : ∀ request, (program request).Settles .outside)
    (h : s.Ledger leaked missed) {action : FailingAction R D}
    (hstep : s.failingStep M program action = some t) :
    t.Ledger (leakedAfter leaked action) fun i => action.missed i (missed i) := by
  cases action with
  | lockFails i code => exact h.lockFails hstep
  | waitFails i code => exact h.waitFails hstep
  | step action =>
    cases action with
    | call i request => exact h.call hprogram hstep
    | signal i waiter => exact h.signal hstep
    | clock i code now =>
      simp only [failingStep, Pool.step] at hstep
      split at hstep
      next next hthread =>
        obtain ⟨g, hsettles, hrest⟩ := h.running hthread
        cases hstep
        exact h.setThread i ⟨g, hsettles code now, hrest⟩
      next => cases hstep
    | errno i value =>
      simp only [failingStep, Pool.step] at hstep
      split at hstep
      next next hthread =>
        obtain ⟨g, hsettles, hrest⟩ := h.running hthread
        cases hstep
        exact h.setThread i ⟨g, hsettles value, hrest⟩
      next => cases hstep
    | resume i =>
      simp only [failingStep] at hstep
      split at hstep
      next condition owed next hthread => exact h.takeAgain hthread hstep
      next => cases hstep
    | advance i =>
      simp only [failingStep] at hstep
      split at hstep
      next condition deadline next hthread =>
        cases hstep
        exact h.wait hthread
      next hwait =>
        simp only [Pool.step] at hstep
        split at hstep
        next p hthread =>
          refine h.advance hthread ?_ hstep
          rintro condition deadline next rfl
          exact hwait condition deadline next hthread
        next => cases hstep

/-- So do all steps of a run. -/
theorem Ledger.exec (hprogram : ∀ request, (program request).Settles .outside)
    (h : s.Ledger leaked missed) {actions : List (FailingAction R D)}
    (hrun : s.failingExec M program actions = some t) :
    t.Ledger (fun i => leaked i + failedWaits i actions) fun i =>
      actions.foldl (FailingAction.missed i) (missed i) := by
  induction actions generalizing s leaked missed with
  | nil =>
    cases hrun
    exact h
  | cons action actions ih =>
    obtain ⟨u, hstep, hrun⟩ := Option.bind_eq_some_iff.mp hrun
    have hledger := ih (h.step hprogram hstep) hrun
    have hleaked : (fun i => leakedAfter leaked action i + failedWaits i actions) =
        fun i => leaked i + failedWaits i (action :: actions) := by
      funext i
      rw [leakedAfter, failedWaits, failedWaits, List.countP_cons]
      omega
    rwa [hleaked] at hledger

/-- From the start on, the waits that have given up and the lock attempts tell what the threads have
of the mutex. -/
theorem ledger_of_exec (hprogram : ∀ request, (program request).Settles .outside) {data : S}
    {actions : List (FailingAction R D)}
    (hrun : (start data).failingExec M program actions = some t) :
    t.Ledger (fun i => failedWaits i actions) fun i => lockMissed i actions := by
  have hledger := (Ledger.start data).exec hprogram hrun
  simp only [Nat.zero_add] at hledger
  exact hledger

omit [DecidableEq C] in
/-- The next step of the thread is an access to the data. -/
def Accesses (s : Pool S K A C D α) (i : ℕ) : Prop :=
  ∃ action next, s.threads i = .running (.access action next)

omit [DecidableEq C] in
/-- A thread that accesses the data does so without the mutex exactly if its lock attempt has given
up. -/
theorem Ledger.access (h : s.Ledger leaked missed) (haccess : s.Accesses i) :
    s.holds i = 0 ↔ missed i = true := by
  obtain ⟨action, next, hthread⟩ := haccess
  obtain ⟨g, ⟨hg, -⟩, hholds, hmissed, hleaked⟩ := h.running hthread
  rw [← hmissed]
  cases g with
  | outside => exact absurd rfl hg
  | taken =>
    change s.holds i = leaked i + 1 at hholds
    exact iff_of_false (by omega) nofun
  | missed =>
    rw [hleaked rfl] at hholds
    exact iff_of_true hholds rfl

omit [DecidableEq C] in
/-- A step of a running thread leaves the others where they are. -/
theorem threads_advance {p : Program S K A C D α} (hstep : s.advance M i p = some t) {j : ℕ}
    (hj : j ≠ i) : t.threads j = s.threads j := by
  cases p with
  | lock | unlock | wait =>
    simp only [advance] at hstep
    split at hstep
    · cases hstep
      exact Function.update_of_ne hj ..
    · split at hstep <;> cases hstep
      all_goals exact Function.update_of_ne hj ..
  | ret | peek | access =>
    cases hstep
    exact Function.update_of_ne hj ..
  | clock | errno | signal => cases hstep

omit [DecidableEq C] in
theorem threads_beginWait (condition : C) (next : ℤ → Program S K A C D α) {j : ℕ} (hj : j ≠ i) :
    (s.beginWait i condition next).threads j = s.threads j := by
  rw [beginWait]
  split
  · exact Function.update_of_ne hj ..
  · split <;> exact Function.update_of_ne hj ..

omit [DecidableEq C] in
theorem threads_takeAgain {owed : ℕ} {next : ℤ → Program S K A C D α}
    (hstep : s.takeAgain i owed next = some t) {j : ℕ} (hj : j ≠ i) :
    t.threads j = s.threads j := by
  rw [takeAgain] at hstep
  split at hstep
  · cases hstep
    exact Function.update_of_ne hj ..
  · split at hstep <;> cases hstep
    exact Function.update_of_ne hj ..

/-- A thread between two calls stays there until it calls. -/
theorem idle_step (hidle : s.threads i = .idle) {action : FailingAction R D}
    (hcall : ∀ request, action ≠ .step (.call i request))
    (hstep : s.failingStep M program action = some t) :
    t.threads i = .idle ∧ action.isFailedWait i = false := by
  -- the thread that goes on is another one
  have hother : ∀ {j : ℕ} {thread : Thread S K A C D α}, s.threads j = thread → thread ≠ .idle →
      i ≠ j := by
    rintro j thread hthread hne rfl
    exact hne (hthread.symm.trans hidle)
  cases action with
  | lockFails j code =>
    simp only [failingStep] at hstep
    split at hstep
    next hthread _ =>
      split at hstep <;> cases hstep
      exact ⟨(Function.update_of_ne (hother hthread nofun) ..).trans hidle, rfl⟩
    next => cases hstep
  | waitFails j code =>
    simp only [failingStep] at hstep
    split at hstep
    next hthread =>
      have hne := hother hthread nofun
      split at hstep <;> cases hstep
      exact ⟨(Function.update_of_ne hne ..).trans hidle, decide_eq_false hne.symm⟩
    next => cases hstep
  | step action =>
    refine ⟨?_, rfl⟩
    cases action with
    | call j request =>
      have hne : i ≠ j := by
        rintro rfl
        exact hcall request rfl
      simp only [failingStep, Pool.step] at hstep
      split at hstep
      next =>
        cases hstep
        exact (Function.update_of_ne hne ..).trans hidle
      next => cases hstep
    | clock j code now | errno j value =>
      simp only [failingStep, Pool.step] at hstep
      split at hstep
      next hthread =>
        cases hstep
        exact (Function.update_of_ne (hother hthread nofun) ..).trans hidle
      next => cases hstep
    | signal j waiter =>
      simp only [failingStep, Pool.step] at hstep
      split at hstep
      next hthread =>
        cases hstep
        exact (Function.update_of_ne (hother hthread nofun) ..).trans hidle
      next hthread =>
        split at hstep
        next hwaiter =>
          split at hstep <;> cases hstep
          exact (Function.update_of_ne (hother hthread nofun) ..).trans
            ((Function.update_of_ne (hother hwaiter nofun) ..).trans hidle)
        next => cases hstep
      next => cases hstep
    | resume j =>
      simp only [failingStep] at hstep
      split at hstep
      next hthread => exact (threads_takeAgain hstep (hother hthread nofun)).trans hidle
      next => cases hstep
    | advance j =>
      simp only [failingStep] at hstep
      split at hstep
      next hthread =>
        cases hstep
        exact (threads_beginWait _ _ (hother hthread nofun)).trans hidle
      next =>
        simp only [Pool.step] at hstep
        split at hstep
        next hthread => exact (threads_advance hstep (hother hthread nofun)).trans hidle
        next => cases hstep

/-- So it does through a run. -/
theorem idle_exec (hidle : s.threads i = .idle) {actions : List (FailingAction R D)}
    (hcalls : ∀ action ∈ actions, ∀ request, action ≠ .step (.call i request))
    (hrun : s.failingExec M program actions = some t) :
    t.threads i = .idle ∧ failedWaits i actions = 0 := by
  induction actions generalizing s with
  | nil =>
    cases hrun
    exact ⟨hidle, rfl⟩
  | cons action actions ih =>
    obtain ⟨u, hstep, hrun⟩ := Option.bind_eq_some_iff.mp hrun
    obtain ⟨hcall, hcalls⟩ := List.forall_mem_cons.mp hcalls
    obtain ⟨hidle', hnot⟩ := idle_step hidle hcall hstep
    obtain ⟨hlast, hnone⟩ := ih hidle' hcalls hrun
    refine ⟨hlast, ?_⟩
    rw [failedWaits, List.countP_cons, hnot]
    exact hnone

/-- What a thread has of the mutex between two calls, no other thread gets until it calls again. -/
theorem Ledger.kept (hprogram : ∀ request, (program request).Settles .outside)
    (h : s.Ledger leaked missed) (hidle : s.threads i = .idle) (hleaked : 0 < leaked i)
    {actions : List (FailingAction R D)}
    (hcalls : ∀ action ∈ actions, ∀ request, action ≠ .step (.call i request))
    (hrun : s.failingExec M program actions = some t) :
    t.threads i = .idle ∧ t.mutex = some (i, leaked i) := by
  obtain ⟨hlast, hnone⟩ := idle_exec hidle hcalls hrun
  have hself := (h.exec hprogram hrun).threads i
  rw [hlast, hnone, Nat.add_zero] at hself
  change t.holds i = leaked i at hself
  refine ⟨hlast, ?_⟩
  rw [← hself]
  exact mutex_of_holds_pos (by omega)

end Pool

end Protoflight
