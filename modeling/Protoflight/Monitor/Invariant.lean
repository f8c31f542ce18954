import Mathlib.Tactic.Common
import Protoflight.Monitor.Interleaving

/-!
# Invariants of shared monitors

An invariant of the shared data and of the log of accesses holds in every
reachable state when every program keeps it at each of its accesses, and makes
them under the mutex only. A program may assume the invariant whenever it gets
the mutex. After a wait it may assume in addition what waking is said to
establish, and then the invariant is that of the runs in which every thread is
in fact resumed in such a state.
-/

namespace Protoflight

/-- What a thread can rely on: the shared data and the log while it holds the
mutex, and nothing while it does not. -/
abbrev View (S A : Type) := Option (S × List (A × S))

namespace Program

variable {S K A C D α β : Type} (M : Monitor S K A) (I : S → List (A × S) → Prop)
  (wakes : C → S → Prop) (k : K)

/-- The weakest precondition of a program: from a view in which it holds, the
program keeps the invariant at each access and ends in a value and a view that
satisfy the postcondition. -/
def wp : Program S K A C D α → (α → View S A → Prop) → View S A → Prop
  | .ret value, post, v => post value v
  | .clock next, post, v => ∀ code now, (next code now).wp post v
  | .errno next, post, v => ∀ value, (next value).wp post v
  | .peek next, post, v => (next k).wp post v
  | .lock _ next, post, v =>
    v = none ∧ ∀ data log, I data log → (next 0).wp post (some (data, log))
  | .wait condition _ next, post, v =>
    v.isSome ∧ ∀ data log, I data log → wakes condition data → (next 0).wp post (some (data, log))
  | .signal _ next, post, v => (next 0).wp post v
  | .unlock next, post, v => v.isSome ∧ (next 0).wp post none
  | .access action next, post, v =>
    ∃ data log, v = some (data, log) ∧ I (M.perform action data) (log ++ [(action, data)]) ∧
      (next data).wp post (some (M.perform action data, log ++ [(action, data)]))

/-- A program that may be called by a thread without the mutex, and ends without it. -/
def Keeps (p : Program S K A C D α) : Prop := p.wp M I wakes k (fun _ v => v = none) none

variable {M I wakes k} {post : α → View S A → Prop} {v : View S A}

@[simp] theorem wp_pure (value : α) :
    (pure value : Program S K A C D α).wp M I wakes k post v ↔ post value v := Iff.rfl

/-- A sequence needs what its first part needs to establish what its second part needs. -/
@[simp] theorem wp_bind (p : Program S K A C D β) (f : β → Program S K A C D α) :
    (p >>= f).wp M I wakes k post v ↔
      p.wp M I wakes k (fun value v => (f value).wp M I wakes k post v) v := by
  change (p.bind f).wp M I wakes k post v ↔ _
  induction p generalizing v with
  | ret value => exact Iff.rfl
  | clock next ih => exact forall₂_congr fun code now => ih code now
  | errno next ih => exact forall_congr' fun value => ih value
  | peek next ih => exact ih k
  | lock deadline next ih =>
    exact and_congr_right' (forall₂_congr fun _ _ => imp_congr_right fun _ => ih 0)
  | wait condition deadline next ih =>
    exact and_congr_right' (forall₂_congr fun _ _ =>
      imp_congr_right fun _ => imp_congr_right fun _ => ih 0)
  | signal condition next ih => exact ih 0
  | unlock next ih => exact and_congr_right' (ih 0)
  | access action next ih =>
    exact exists₂_congr fun data _ => and_congr_right' (and_congr_right' (ih data))

@[simp] theorem wp_ite (c : Prop) [Decidable c] (p q : Program S K A C D α) :
    (if c then p else q).wp M I wakes k post v ↔
      (c → p.wp M I wakes k post v) ∧ (¬c → q.wp M I wakes k post v) := by
  split <;> simp_all

variable {post : ℤ → View S A → Prop}

@[simp] theorem wp_clockGettime {post : ℤ × D → View S A → Prop} :
    (clockGettime : Program S K A C D (ℤ × D)).wp M I wakes k post v ↔
      ∀ code now, post (code, now) v := Iff.rfl

@[simp] theorem wp_readErrno :
    (readErrno : Program S K A C D ℤ).wp M I wakes k post v ↔ ∀ value, post value v := Iff.rfl

@[simp] theorem wp_readConfig {post : K → View S A → Prop} :
    (readConfig : Program S K A C D K).wp M I wakes k post v ↔ post k v := Iff.rfl

@[simp] theorem wp_mutexTimedlock (deadline : D) :
    (mutexTimedlock deadline : Program S K A C D ℤ).wp M I wakes k post v ↔
      v = none ∧ ∀ data log, I data log → post 0 (some (data, log)) := Iff.rfl

@[simp] theorem wp_mutexUnlock :
    (mutexUnlock : Program S K A C D ℤ).wp M I wakes k post v ↔ v.isSome ∧ post 0 none := Iff.rfl

@[simp] theorem wp_condTimedwait (condition : C) (deadline : D) :
    (condTimedwait condition deadline : Program S K A C D ℤ).wp M I wakes k post v ↔
      v.isSome ∧ ∀ data log, I data log → wakes condition data → post 0 (some (data, log)) :=
  Iff.rfl

@[simp] theorem wp_condSignal (condition : C) :
    (condSignal condition : Program S K A C D ℤ).wp M I wakes k post v ↔ post 0 v := Iff.rfl

@[simp] theorem wp_touch (action : A) {post : S → View S A → Prop} {data : S}
    {log : List (A × S)} :
    (touch action : Program S K A C D S).wp M I wakes k post (some (data, log)) ↔
      I (M.perform action data) (log ++ [(action, data)]) ∧
        post data (some (M.perform action data, log ++ [(action, data)])) := by
  constructor
  · rintro ⟨data', log', hview, hkept, hpost⟩
    cases hview
    exact ⟨hkept, hpost⟩
  · rintro ⟨hkept, hpost⟩
    exact ⟨data, log, rfl, hkept, hpost⟩

end Program

namespace Pool

variable {S K A C D R α : Type} {M : Monitor S K A} {I : S → List (A × S) → Prop}
  {wakes : C → S → Prop} {k : K} {program : R → Program S K A C D α} {s s' : Pool S K A C D α}

/-- What a thread can rely on in a state. -/
def view (s : Pool S K A C D α) (i : ℕ) : View S A :=
  if s.mutex.map Prod.fst = some i then some (s.data, s.log) else none

theorem view_of_holder {i holds : ℕ} (h : s.mutex = some (i, holds)) :
    s.view i = some (s.data, s.log) := by
  simp [view, h]

theorem view_of_other {i j holds : ℕ} (h : s.mutex = some (i, holds)) (hne : j ≠ i) :
    s.view j = none := by
  simp [view, h, hne.symm]

theorem view_of_free {i : ℕ} (h : s.mutex = none) : s.view i = none := by
  simp [view, h]

/-- A thread with a view holds the mutex. -/
theorem exists_holds_of_view {i : ℕ} (h : s.view i ≠ none) :
    ∃ holds, s.mutex = some (i, holds) := by
  cases hmutex : s.mutex with
  | none => exact absurd (view_of_free hmutex) h
  | some hold =>
    obtain ⟨j, holds⟩ := hold
    have hj : i = j := by
      by_contra hne
      exact h (view_of_other hmutex hne)
    exact ⟨holds, by rw [hj]⟩

/-- If the step resumes a thread, then what waking on its condition variable is
said to establish holds. -/
def ResumesWell (wakes : C → S → Prop) (s : Pool S K A C D α) : Action R D → Prop
  | .resume i => ∀ condition ∈ (s.threads i).wokenOn, wakes condition s.data
  | _ => True

instance [∀ condition data, Decidable (wakes condition data)] :
    ∀ action : Action R D, Decidable (s.ResumesWell wakes action)
  | .resume i => inferInstanceAs (Decidable (∀ condition ∈ (s.threads i).wokenOn, _))
  | .call _ _ | .clock _ _ _ | .errno _ _ | .signal _ _ | .advance _ => isTrue trivial

/-- Every step of a run satisfies a condition in the state before it. -/
def Along [DecidableEq C] (M : Monitor S K A) (program : R → Program S K A C D α)
    (P : Pool S K A C D α → Action R D → Prop) : List (Action R D) → Pool S K A C D α → Prop
  | [], _ => True
  | action :: actions, s =>
    P s action ∧ ∀ s' ∈ s.step M program action, Along M program P actions s'

instance [DecidableEq C] (P : Pool S K A C D α → Action R D → Prop)
    [∀ s action, Decidable (P s action)] :
    ∀ actions s, Decidable (Along M program P actions s)
  | [], _ => isTrue trivial
  | action :: actions, s =>
    have : ∀ s', Decidable (Along M program P actions s') := fun s' =>
      instDecidableAlong P actions s'
    inferInstanceAs (Decidable (_ ∧ ∀ s' ∈ s.step M program action, _))

/-- A condition that every step satisfies is satisfied along every run. -/
theorem along_of_forall [DecidableEq C] {P : Pool S K A C D α → Action R D → Prop}
    (h : ∀ s action, P s action) (actions : List (Action R D)) (s : Pool S K A C D α) :
    Along M program P actions s := by
  induction actions generalizing s with
  | nil => exact trivial
  | cons action actions ih => exact ⟨h s action, fun s' _ => ih s'⟩

/-- Nothing is expected of the state in which a thread is resumed. -/
theorem resumesWell_true (s : Pool S K A C D α) (action : Action R D) :
    s.ResumesWell (fun _ _ => True) action := by
  cases action <;> simp [ResumesWell]

/-- The rest of a thread's program keeps the invariant. A thread that has given
up the mutex held it once. -/
def ThreadKeeps (M : Monitor S K A) (I : S → List (A × S) → Prop) (wakes : C → S → Prop) (k : K)
    (v : View S A) : Thread S K A C D α → Prop
  | .idle => v = none
  | .running p => p.wp M I wakes k (fun _ v => v = none) v
  | .waiting condition holds next | .woken condition holds next =>
    v = none ∧ holds = 1 ∧ ∀ data log, I data log → wakes condition data →
      (next 0).wp M I wakes k (fun _ v => v = none) (some (data, log))

/-- The invariant of the whole pool. -/
structure Invariant (M : Monitor S K A) (I : S → List (A × S) → Prop) (wakes : C → S → Prop)
    (k : K) (s : Pool S K A C D α) : Prop where
  /-- The invariant of the monitor. -/
  shared : I s.data s.log
  /-- The mutex is held at most once. -/
  single : ∀ hold ∈ s.mutex, hold.2 = 1
  /-- Every thread keeps the invariant. -/
  threads : ∀ i, ThreadKeeps M I wakes k (s.view i) (s.threads i)

/-- The start satisfies the invariant. -/
theorem Invariant.start {data : S} (hI : I data []) :
    Invariant M I wakes k (Pool.start data : Pool S K A C D α) where
  shared := hI
  single := by simp [Pool.start]
  threads _ := rfl

/-- A step of one thread keeps the invariant when it keeps that of the monitor,
when the thread goes on keeping it, and when the views of the others are as before. -/
theorem Invariant.of_thread (h : Invariant M I wakes k s) (i : ℕ) (hshared : I s'.data s'.log)
    (hsingle : ∀ hold ∈ s'.mutex, hold.2 = 1)
    (hself : ThreadKeeps M I wakes k (s'.view i) (s'.threads i))
    (hothers : ∀ j ≠ i, s'.threads j = s.threads j ∧ s'.view j = s.view j) :
    Invariant M I wakes k s' := by
  refine ⟨hshared, hsingle, fun j => ?_⟩
  by_cases hj : j = i
  · rw [hj]
    exact hself
  · obtain ⟨hthread, hview⟩ := hothers j hj
    rw [hthread, hview]
    exact h.threads j

/-- A step of the holder of the mutex that changes only the data, the log and its
own thread. -/
theorem Invariant.of_holder (h : Invariant M I wakes k s) {i holds : ℕ}
    (hmutex : s.mutex = some (i, holds)) (hmutex' : s'.mutex = s.mutex)
    (hshared : I s'.data s'.log)
    (hself : ThreadKeeps M I wakes k (some (s'.data, s'.log)) (s'.threads i))
    (hothers : ∀ j ≠ i, s'.threads j = s.threads j) : Invariant M I wakes k s' := by
  refine h.of_thread i hshared (hmutex' ▸ h.single) ?_ fun j hj => ⟨hothers j hj, ?_⟩
  · rwa [view_of_holder (hmutex'.trans hmutex)]
  · rw [view_of_other hmutex hj, view_of_other (hmutex'.trans hmutex) hj]

/-- A step that changes only one thread. -/
theorem Invariant.setThread (h : Invariant M I wakes k s) (i : ℕ) {t : Thread S K A C D α}
    (hself : ThreadKeeps M I wakes k (s.view i) t) : Invariant M I wakes k (s.setThread i t) := by
  refine h.of_thread i h.shared h.single ?_ fun j hj => ⟨Function.update_of_ne hj .., rfl⟩
  change ThreadKeeps M I wakes k (s.view i) (Function.update s.threads i t i)
  rwa [Function.update_self]

/-- A step that changes only the mutex and one thread, where no other thread
holds the mutex before or after. -/
theorem Invariant.setMutex (h : Invariant M I wakes k s) (i : ℕ) {t : Thread S K A C D α}
    {mutex : Option (ℕ × ℕ)} (hbefore : ∀ hold ∈ s.mutex, hold.1 = i)
    (hafter : ∀ hold ∈ mutex, hold = (i, 1))
    (hself : ThreadKeeps M I wakes k (mutex.map fun _ => (s.data, s.log)) t) :
    Invariant M I wakes k { s.setThread i t with mutex := mutex } := by
  refine h.of_thread i h.shared (fun hold hhold => by rw [hafter hold hhold]) ?_ fun j hj => ?_
  · change ThreadKeeps M I wakes k (view { s.setThread i t with mutex := mutex } i)
      (Function.update s.threads i t i)
    rw [Function.update_self]
    cases mutex with
    | none => exact hself
    | some hold =>
      obtain rfl := hafter hold rfl
      rwa [view_of_holder rfl]
  · refine ⟨Function.update_of_ne hj .., ?_⟩
    have hnone : s.view j = none := by
      by_contra hsome
      obtain ⟨holds, hmutex⟩ := exists_holds_of_view hsome
      exact hj (hbefore (j, holds) hmutex)
    rw [hnone]
    by_contra hsome
    obtain ⟨holds, hmutex⟩ := exists_holds_of_view hsome
    exact hj (congrArg Prod.fst (hafter (j, holds) hmutex))

/-- The next primitive of a running call keeps the invariant. -/
theorem Invariant.advance (h : Invariant M I wakes k s)
    (hconfig : ∀ data log, I data log → M.config data = k) {i : ℕ} {p : Program S K A C D α}
    (hp : p.wp M I wakes k (fun _ v => v = none) (s.view i))
    (hstep : s.advance M i p = some s') : Invariant M I wakes k s' := by
  cases p with
  | ret value =>
    obtain rfl := Option.some.inj hstep
    exact h.setThread i hp
  | peek next =>
    obtain rfl := Option.some.inj hstep
    rw [hconfig s.data s.log h.shared]
    exact h.setThread i hp
  | lock deadline next =>
    obtain ⟨hview, hnext⟩ := hp
    cases hmutex : s.mutex with
    | none =>
      simp only [Pool.advance, hmutex, Option.some.injEq] at hstep
      subst hstep
      exact h.setMutex i (by simp [hmutex]) (by simp) (hnext _ _ h.shared)
    | some hold =>
      obtain ⟨j, holds⟩ := hold
      have hne : j ≠ i := by
        rintro rfl
        simp [view_of_holder hmutex] at hview
      simp [Pool.advance, hmutex, hne] at hstep
  | wait condition deadline next =>
    obtain ⟨hview, hnext⟩ := hp
    obtain ⟨holds, hmutex⟩ := exists_holds_of_view (Option.isSome_iff_ne_none.mp hview)
    have hsingle : holds = 1 := h.single _ hmutex
    simp only [Pool.advance, hmutex, if_true, Option.some.injEq] at hstep
    subst hstep
    exact h.setMutex i (by simp [hmutex]) (by simp) ⟨rfl, hsingle, hnext⟩
  | unlock next =>
    obtain ⟨hview, hnext⟩ := hp
    obtain ⟨holds, hmutex⟩ := exists_holds_of_view (Option.isSome_iff_ne_none.mp hview)
    have hsingle : holds = 1 := h.single _ hmutex
    simp only [Pool.advance, hmutex, if_true, hsingle, Option.some.injEq] at hstep
    subst hstep
    exact h.setMutex i (by simp [hmutex]) (by simp) hnext
  | access action next =>
    obtain ⟨data, log, hview, hkept, hnext⟩ := hp
    obtain ⟨holds, hmutex⟩ := exists_holds_of_view (hview ▸ Option.some_ne_none _)
    rw [view_of_holder hmutex] at hview
    obtain ⟨rfl, rfl⟩ := Prod.mk.inj (Option.some.inj hview)
    obtain rfl := Option.some.inj hstep
    refine h.of_holder hmutex rfl hkept ?_ fun j hj => Function.update_of_ne hj ..
    change ThreadKeeps M I wakes k _ (Function.update s.threads i _ i)
    rwa [Function.update_self]
  | clock next => cases hstep
  | errno next => cases hstep
  | signal condition next => cases hstep

variable [DecidableEq C]

/-- Every step keeps the invariant, if all programs keep that of the monitor and
the step resumes no thread in a state it does not expect. -/
theorem Invariant.step (h : Invariant M I wakes k s)
    (hconfig : ∀ data log, I data log → M.config data = k)
    (hprogram : ∀ request, (program request).Keeps M I wakes k) {action : Action R D}
    (hresumes : s.ResumesWell wakes action) (hstep : s.step M program action = some s') :
    Invariant M I wakes k s' := by
  cases action with
  | call i request =>
    have hi := h.threads i
    simp only [Pool.step] at hstep
    split at hstep
    next hthread =>
      rw [hthread] at hi
      obtain rfl := Option.some.inj hstep
      have hview : s.view i = none := hi
      exact h.setThread i (show Program.wp M I wakes k _ _ _ by rw [hview]; exact hprogram request)
    next => cases hstep
  | clock i code now =>
    have hi := h.threads i
    simp only [Pool.step] at hstep
    split at hstep
    next next hthread =>
      rw [hthread] at hi
      obtain rfl := Option.some.inj hstep
      exact h.setThread i (hi code now)
    next => cases hstep
  | errno i value =>
    have hi := h.threads i
    simp only [Pool.step] at hstep
    split at hstep
    next next hthread =>
      rw [hthread] at hi
      obtain rfl := Option.some.inj hstep
      exact h.setThread i (hi value)
    next => cases hstep
  | signal i waiter =>
    have hi := h.threads i
    simp only [Pool.step] at hstep
    split at hstep
    next condition next hthread =>
      rw [hthread] at hi
      obtain rfl := Option.some.inj hstep
      exact h.setThread i hi
    next condition next j hthread =>
      rw [hthread] at hi
      have hj := h.threads j
      split at hstep
      next condition' holds next' hwaiting =>
        rw [hwaiting] at hj
        split at hstep
        next =>
          obtain rfl := Option.some.inj hstep
          have hwoken : Invariant M I wakes k (s.setThread j (.woken condition' holds next')) :=
            h.setThread j hj
          exact hwoken.setThread i hi
        next => cases hstep
      next => cases hstep
    next => cases hstep
  | resume i =>
    have hi := h.threads i
    simp only [Pool.step] at hstep
    split at hstep
    next condition holds next hthread hmutex =>
      rw [hthread] at hi
      obtain ⟨-, rfl, hnext⟩ := hi
      obtain rfl := Option.some.inj hstep
      have hwakes : wakes condition s.data := hresumes condition (by rw [hthread]; rfl)
      exact h.setMutex i (by simp [hmutex]) (by simp) (hnext _ _ h.shared hwakes)
    next => cases hstep
  | advance i =>
    have hi := h.threads i
    simp only [Pool.step] at hstep
    split at hstep
    next p hthread =>
      rw [hthread] at hi
      exact h.advance hconfig hi hstep
    next => cases hstep

/-- The invariant holds after every run that resumes threads only in states they expect. -/
theorem Invariant.exec (h : Invariant M I wakes k s)
    (hconfig : ∀ data log, I data log → M.config data = k)
    (hprogram : ∀ request, (program request).Keeps M I wakes k) {actions : List (Action R D)}
    (hresumes : Along M program (ResumesWell wakes) actions s)
    (hexec : s.exec M program actions = some s') : Invariant M I wakes k s' := by
  induction actions generalizing s with
  | nil =>
    obtain rfl := Option.some.inj hexec
    exact h
  | cons action actions ih =>
    obtain ⟨t, hstep, hexec⟩ := Option.bind_eq_some_iff.mp hexec
    exact ih (h.step hconfig hprogram hresumes.1 hstep) (hresumes.2 t hstep) hexec

end Pool

end Protoflight
