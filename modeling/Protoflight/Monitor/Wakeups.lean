import Mathlib.Data.Set.Card
import Protoflight.Monitor.Annotations

/-!
# No wakeup is lost

How often a condition variable has something for a waiter is told by a number. Where every program
gives as many signals as it makes available, threads stay blocked on a condition variable only
while there is nothing for them that another thread has not been woken for. So where no thread can
go on there is nothing for any of those that are blocked.
-/

namespace Protoflight

section Count

variable {C : Type} [DecidableEq C]

/-- How many threads are at a condition variable. -/
noncomputable def countOn (phase : ℕ → Option C) (condition : C) : ℕ :=
  {i | phase i = some condition}.ncard

/-- One more thread comes to a condition variable. -/
theorem countOn_update {phase : ℕ → Option C} (hfinite : {i | phase i ≠ none}.Finite) {i : ℕ}
    (hi : phase i = none) (condition condition' : C) :
    countOn (Function.update phase i (some condition)) condition' =
      countOn phase condition' + if condition' = condition then 1 else 0 := by
  have hnotMem : i ∉ {j | phase j = some condition'} := by simp [hi]
  have hsubset : {j | phase j = some condition'}.Finite :=
    hfinite.subset fun j (hj : phase j = some condition') =>
      show phase j ≠ none by rw [hj]; exact Option.some_ne_none _
  by_cases hcondition : condition' = condition
  · subst hcondition
    have hinsert : {j | Function.update phase i (some condition') j = some condition'} =
        insert i {j | phase j = some condition'} := by
      ext j
      by_cases hj : j = i <;> simp [hj]
    rw [countOn, hinsert, Set.ncard_insert_of_notMem hnotMem hsubset, if_pos rfl]
    rfl
  · have hsame : {j | Function.update phase i (some condition) j = some condition'} =
        {j | phase j = some condition'} := by
      ext j
      by_cases hj : j = i
      · simp [hj, hi, Ne.symm hcondition]
      · simp [hj]
    rw [countOn, hsame, if_neg hcondition]
    rfl

/-- A thread leaves its condition variable. -/
theorem countOn_update_none {phase : ℕ → Option C} (hfinite : {i | phase i ≠ none}.Finite)
    {i : ℕ} {condition : C} (hi : phase i = some condition) (condition' : C) :
    countOn phase condition' = countOn (Function.update phase i none) condition' +
      if condition' = condition then 1 else 0 := by
  have hsubset : {j | Function.update phase i none j ≠ none}.Finite :=
    hfinite.subset fun j hj => by
      by_cases heq : j = i
      · simp [heq] at hj
      · simpa [heq] using hj
  have hback : Function.update (Function.update phase i none) i (some condition) = phase := by
    rw [Function.update_idem, ← hi, Function.update_eq_self]
  rw [← countOn_update hsubset (Function.update_self ..), hback]

end Count

variable {S K A C D R α : Type}

/-- A call keeps count of what it has made available since it got the mutex, and of the wakeup that
it goes on with. It waits where there is nothing for it, and gives the mutex up only when it has
signalled as often. -/
def debts [DecidableEq C] (M : Monitor S K A) (avail : C → S → ℕ) :
    Annotation S A C R α (C → ℕ) where
  rest := 0
  allows _ deed γ γ' :=
    match deed with
    | .call _ | .lock _ | .ret _ => γ' = γ
    | .wait condition data => γ = 0 ∧ avail condition data = 0 ∧ γ' = γ
    | .resume condition _ => γ' = Function.update γ condition (γ condition + 1)
    | .signal condition _ _ => γ' = Function.update γ condition (γ condition - 1)
    | .unlock _ => γ = 0 ∧ γ' = γ
    | .access action data =>
      γ' = fun condition =>
        γ condition + avail condition (M.perform action data) - avail condition data

namespace Pool

variable {M : Monitor S K A} {avail : C → S → ℕ} {s s' : Pool S K A C D α} {γ γ' : ℕ → C → ℕ}

/-- The debts of the thread that holds the mutex. -/
def debt (s : Pool S K A C D α) (γ : ℕ → C → ℕ) (condition : C) : ℕ :=
  match s.mutex with
  | some (i, _) => γ i condition
  | none => 0

/-- Threads are blocked only while there is nothing that no other thread has been woken for, but
for the debts of the thread that holds the mutex. -/
structure Settled (avail : C → S → ℕ) (s : Pool S K A C D α) (γ : ℕ → C → ℕ) : Prop where
  finite : {i | s.wokenOn i ≠ none}.Finite
  debtless : ∀ i, (∀ hold ∈ s.mutex, hold.1 ≠ i) → γ i = 0
  promised : ∀ condition i, s.waitingOn i = some condition →
    avail condition s.data ≤ countOn s.wokenOn condition + s.debt γ condition

/-- Nobody is blocked at the start. -/
theorem Settled.start (data : S) :
    Settled avail (Pool.start data : Pool S K A C D α) fun _ => 0 where
  finite := by simp [wokenOn, Pool.start, Thread.wokenOn]
  debtless _ _ := rfl
  promised _ _ h := nomatch h

/-- While nobody holds the mutex, threads are blocked only while there is nothing for them that no
other thread has been woken for. -/
theorem Settled.avail_le (h : Settled avail s γ) (hfree : s.mutex = none) {condition : C} {i : ℕ}
    (hi : s.waitingOn i = some condition) :
    avail condition s.data ≤ countOn s.wokenOn condition := by
  have hpromised := h.promised condition i hi
  simpa only [debt, hfree, Nat.add_zero] using hpromised

/-- A signal wakes a thread if there is one that is blocked. -/
def SignalsWake (s : Pool S K A C D α) (action : Action R D) : Prop :=
  ∀ i condition data, s.deed action = some (i, (.signal condition none data : Deed S A C R α)) →
    ∀ j, s.waitingOn j ≠ some condition

/-- A step that is no signal need not wake anybody. -/
theorem signalsWake_of_not_signal (s : Pool S K A C D α) {action : Action R D}
    (h : ∀ i waiter, action ≠ .signal i waiter) : s.SignalsWake action := by
  intro i condition data hdeed
  cases action with
  | signal j waiter => exact absurd rfl (h j waiter)
  | call | clock | errno => simp [deed] at hdeed
  | resume j => cases hwoken : (s.threads j).wokenOn <;> simp [deed, hwoken] at hdeed
  | advance j =>
    simp only [deed] at hdeed
    split at hdeed <;> simp at hdeed

theorem debt_of_free (hfree : s.mutex = none) (γ : ℕ → C → ℕ) (condition : C) :
    s.debt γ condition = 0 := by
  rw [debt, hfree]

theorem debt_of_holder {i holds : ℕ} (hmutex : s.mutex = some (i, holds)) (γ : ℕ → C → ℕ)
    (condition : C) : s.debt γ condition = γ i condition := by
  rw [debt, hmutex]

/-- While nobody holds the mutex nobody has debts. -/
theorem Settled.debtless_of_free (h : Settled avail s γ) (hfree : s.mutex = none) (i : ℕ) :
    γ i = 0 :=
  h.debtless i (by simp [hfree])

/-- Nor has anybody while the thread that holds it has none. -/
theorem Settled.debtless_of_zero (h : Settled avail s γ) {i : ℕ} (hmutex : s.mutex = some (i, 1))
    (hzero : γ i = 0) (j : ℕ) : γ j = 0 := by
  by_cases hji : j = i
  · rw [hji, hzero]
  · exact h.debtless j (by simp [hmutex, Ne.symm hji])

/-- The thread that holds the mutex is the only one whose debts change. -/
theorem Settled.debtless_of_holder (h : Settled avail s γ) {i : ℕ}
    (hbefore : ∀ hold ∈ s.mutex, hold.1 = i) (hafter : s'.mutex = some (i, 1))
    (hothers : ∀ j ≠ i, γ' j = γ j) (j : ℕ) (hj : ∀ hold ∈ s'.mutex, hold.1 ≠ j) : γ' j = 0 := by
  have hij : i ≠ j := hj (i, 1) hafter
  rw [hothers j hij.symm]
  exact h.debtless j fun hold hmem => hbefore hold hmem ▸ hij

/-- Where nothing changes the threads stay settled. -/
theorem Settled.same (h : Settled avail s γ) (hdata : s'.data = s.data)
    (hmutex : s'.mutex = s.mutex) (hphases : SamePhases s s') : Settled avail s' γ := by
  obtain ⟨hwaiting, hwoken⟩ := hphases
  refine ⟨hwoken ▸ h.finite, hmutex ▸ h.debtless, ?_⟩
  simpa only [hdata, hwaiting, hwoken, debt, hmutex] using h.promised

/-- A thread gets the mutex. -/
theorem Settled.lock (h : Settled avail s γ) {i : ℕ} (hdata : s'.data = s.data)
    (hfree : s.mutex = none) (hmutex : s'.mutex = some (i, 1)) (hphases : SamePhases s s') :
    Settled avail s' γ := by
  obtain ⟨hwaiting, hwoken⟩ := hphases
  refine ⟨hwoken ▸ h.finite, fun j _ => h.debtless_of_free hfree j, fun c j hj => ?_⟩
  have hpromised := h.promised c j (hwaiting ▸ hj)
  rw [debt_of_free hfree] at hpromised
  rwa [hdata, hwoken, debt_of_holder hmutex, h.debtless_of_free hfree]

/-- A thread without debts gives the mutex up. -/
theorem Settled.unlock (h : Settled avail s γ) {i : ℕ} (hdata : s'.data = s.data)
    (hmutex : s.mutex = some (i, 1)) (hfree : s'.mutex = none) (hphases : SamePhases s s')
    (hzero : γ i = 0) : Settled avail s' γ := by
  obtain ⟨hwaiting, hwoken⟩ := hphases
  refine ⟨hwoken ▸ h.finite, fun j _ => h.debtless_of_zero hmutex hzero j, fun c j hj => ?_⟩
  have hpromised := h.promised c j (hwaiting ▸ hj)
  rw [debt_of_holder hmutex, hzero] at hpromised
  rwa [hdata, hwoken, debt_of_free hfree]

/-- A thread without debts begins to wait where there is nothing for it. -/
theorem Settled.wait (h : Settled avail s γ) {i : ℕ} {condition : C} (hdata : s'.data = s.data)
    (hmutex : s.mutex = some (i, 1)) (hfree : s'.mutex = none)
    (hwaiting : s'.waitingOn = Function.update s.waitingOn i (some condition))
    (hwoken : s'.wokenOn = s.wokenOn) (hzero : γ i = 0) (hnothing : avail condition s.data = 0) :
    Settled avail s' γ := by
  refine ⟨hwoken ▸ h.finite, fun j _ => h.debtless_of_zero hmutex hzero j, fun c j hj => ?_⟩
  rw [hdata, hwoken, debt_of_free hfree]
  rw [hwaiting] at hj
  by_cases hji : j = i
  · rw [hji, Function.update_self] at hj
    obtain rfl := Option.some.inj hj
    rw [hnothing]
    exact Nat.zero_le _
  · rw [Function.update_of_ne hji] at hj
    have hpromised := h.promised c j hj
    rwa [debt_of_holder hmutex, hzero] at hpromised

/-- An access, and what it makes available is owed. -/
theorem Settled.access (h : Settled avail s γ) {i : ℕ} {action : A}
    (hdata : s'.data = M.perform action s.data) (hmutex : s.mutex = some (i, 1))
    (hmutex' : s'.mutex = s.mutex) (hphases : SamePhases s s')
    (hγ : γ' i = fun c => γ i c + avail c (M.perform action s.data) - avail c s.data)
    (hothers : ∀ j ≠ i, γ' j = γ j) : Settled avail s' γ' := by
  obtain ⟨hwaiting, hwoken⟩ := hphases
  have hafter := hmutex'.trans hmutex
  refine ⟨hwoken ▸ h.finite, h.debtless_of_holder (by simp [hmutex]) hafter hothers,
    fun c j hj => ?_⟩
  have hpromised := h.promised c j (hwaiting ▸ hj)
  rw [debt_of_holder hmutex] at hpromised
  rw [hdata, hwoken, debt_of_holder hafter, hγ]
  dsimp only
  omega

variable [DecidableEq C]

/-- A thread that has been woken goes on, and owes the wakeup. -/
theorem Settled.resume (h : Settled avail s γ) {i : ℕ} {condition : C} (hdata : s'.data = s.data)
    (hfree : s.mutex = none) (hmutex : s'.mutex = some (i, 1)) (hwas : s.wokenOn i = some condition)
    (hwaiting : s'.waitingOn = s.waitingOn)
    (hwoken : s'.wokenOn = Function.update s.wokenOn i none)
    (hγ : γ' i = Function.update (γ i) condition (γ i condition + 1))
    (hothers : ∀ j ≠ i, γ' j = γ j) : Settled avail s' γ' := by
  refine ⟨?_, h.debtless_of_holder (by simp [hfree]) hmutex hothers, fun c j hj => ?_⟩
  · rw [hwoken]
    refine h.finite.subset fun j hj => ?_
    by_cases hji : j = i
    · simp [hji] at hj
    · simpa [hji] using hj
  · have hpromised := h.promised c j (hwaiting ▸ hj)
    rw [countOn_update_none h.finite hwas c, debt_of_free hfree] at hpromised
    rw [hdata, hwoken, debt_of_holder hmutex, hγ, h.debtless_of_free hfree]
    by_cases hc : c = condition
    · subst hc
      simpa using hpromised
    · simpa [hc] using hpromised

/-- A signal on a condition variable on which nobody is blocked. -/
theorem Settled.signal_none (h : Settled avail s γ) {i : ℕ} {condition : C}
    (hdata : s'.data = s.data) (hmutex : s.mutex = some (i, 1)) (hmutex' : s'.mutex = s.mutex)
    (hphases : SamePhases s s') (hnobody : ∀ j, s.waitingOn j ≠ some condition)
    (hγ : γ' i = Function.update (γ i) condition (γ i condition - 1))
    (hothers : ∀ j ≠ i, γ' j = γ j) : Settled avail s' γ' := by
  obtain ⟨hwaiting, hwoken⟩ := hphases
  have hafter := hmutex'.trans hmutex
  refine ⟨hwoken ▸ h.finite, h.debtless_of_holder (by simp [hmutex]) hafter hothers,
    fun c j hj => ?_⟩
  rw [hwaiting] at hj
  have hc : c ≠ condition := by
    rintro rfl
    exact hnobody j hj
  have hpromised := h.promised c j hj
  rw [debt_of_holder hmutex] at hpromised
  rwa [hdata, hwoken, debt_of_holder hafter, hγ, Function.update_of_ne hc]

/-- A signal that wakes a thread. -/
theorem Settled.signal_some (h : Settled avail s γ) {i j : ℕ} {condition : C}
    (hdata : s'.data = s.data) (hmutex : s.mutex = some (i, 1)) (hmutex' : s'.mutex = s.mutex)
    (hj : s.waitingOn j = some condition)
    (hwaiting : s'.waitingOn = Function.update s.waitingOn j none)
    (hwoken : s'.wokenOn = Function.update s.wokenOn j (some condition))
    (hγ : γ' i = Function.update (γ i) condition (γ i condition - 1))
    (hothers : ∀ j ≠ i, γ' j = γ j) : Settled avail s' γ' := by
  have hnone := wokenOn_of_waitingOn hj
  have hafter := hmutex'.trans hmutex
  refine ⟨?_, h.debtless_of_holder (by simp [hmutex]) hafter hothers, fun c l hl => ?_⟩
  · rw [hwoken]
    refine (h.finite.insert j).subset fun l hl => ?_
    by_cases hlj : l = j
    · exact .inl hlj
    · exact .inr (by simpa [hlj] using hl)
  · have hl' : s.waitingOn l = some c := by
      rw [hwaiting] at hl
      by_cases hlj : l = j
      · simp [hlj] at hl
      · simpa [hlj] using hl
    have hpromised := h.promised c l hl'
    rw [debt_of_holder hmutex] at hpromised
    rw [hdata, hwoken, countOn_update h.finite hnone, debt_of_holder hafter, hγ]
    by_cases hc : c = condition
    · subst hc
      rw [if_pos rfl, Function.update_self]
      omega
    · rw [if_neg hc, Function.update_of_ne hc]
      omega

/-- Every step that is allowed keeps the threads settled, if signals wake threads. -/
theorem Settled.step (h : Settled avail s γ) {action : Action R D}
    (heffect : Effect M s s' (s.deed action)) (hexplains : Explains (debts M avail) γ γ'
      (s.deed action)) (hwake : s.SignalsWake action) : Settled avail s' γ' := by
  cases hdeed : s.deed action with
  | none =>
    rw [hdeed] at heffect hexplains
    obtain ⟨hdata, hmutex, hphases⟩ := heffect
    obtain rfl : γ' = γ := hexplains
    exact h.same hdata hmutex hphases
  | some step =>
    obtain ⟨i, deed⟩ := step
    rw [hdeed] at heffect hexplains
    have hkept : γ' i = γ i → γ' = γ := fun hγ => by
      rw [hexplains.eq_update, hγ, Function.update_eq_self]
    obtain ⟨hallows, hothers⟩ := hexplains
    cases deed with
    | call request | ret value =>
      obtain ⟨hdata, hmutex, hphases⟩ := heffect
      obtain rfl := hkept hallows
      exact h.same hdata hmutex hphases
    | lock data =>
      obtain ⟨-, hdata, hfree, hmutex, hphases⟩ := heffect
      obtain rfl := hkept hallows
      exact h.lock hdata hfree hmutex hphases
    | wait condition data =>
      obtain ⟨rfl, hdata, hmutex, hfree, hwaiting, hwoken⟩ := heffect
      obtain ⟨hzero, hnothing, hγ⟩ := hallows
      obtain rfl := hkept hγ
      exact h.wait hdata hmutex hfree hwaiting hwoken hzero hnothing
    | resume condition data =>
      obtain ⟨-, hdata, hfree, hmutex, hwas, hwaiting, hwoken⟩ := heffect
      exact h.resume hdata hfree hmutex hwas hwaiting hwoken hallows hothers
    | signal condition waiter data =>
      cases waiter with
      | none =>
        obtain ⟨-, hdata, hmutex, hmutex', hphases⟩ := heffect
        exact h.signal_none hdata hmutex hmutex' hphases (hwake i condition data hdeed) hallows
          hothers
      | some j =>
        obtain ⟨-, hdata, hmutex, hmutex', hj, hwaiting, hwoken⟩ := heffect
        exact h.signal_some hdata hmutex hmutex' hj hwaiting hwoken hallows hothers
    | unlock data =>
      obtain ⟨-, hdata, hmutex, hfree, hphases⟩ := heffect
      obtain ⟨hzero, hγ⟩ := hallows
      obtain rfl := hkept hγ
      exact h.unlock hdata hmutex hfree hphases hzero
    | access action data =>
      obtain ⟨rfl, hdata, hmutex, hmutex', -, hphases⟩ := heffect
      exact h.access hdata hmutex hmutex' hphases hallows hothers

/-- No thread can go on with the call that it is in. -/
def Stuck (M : Monitor S K A) (program : R → Program S K A C D α) (s : Pool S K A C D α) : Prop :=
  ∀ action : Action R D, (∀ i request, action ≠ .call i request) → s.step M program action = none

variable {program : R → Program S K A C D α} {I : S → List (A × S) → Prop}
  {wakes : C → S → Prop} {k : K}

/-- A running thread is held up by nothing but the mutex. -/
theorem exists_step_of_running [Nonempty D] (M : Monitor S K A)
    (program : R → Program S K A C D α) {i : ℕ} {p : Program S K A C D α}
    (hthread : s.threads i = .running p) (hmutex : ∀ hold ∈ s.mutex, hold.1 = i) :
    ∃ action : Action R D, (∀ j request, action ≠ .call j request) ∧
      s.step M program action ≠ none := by
  cases p with
  | clock next =>
    obtain ⟨now⟩ := ‹Nonempty D›
    exact ⟨.clock i 0 now, by simp, by simp [Pool.step, hthread]⟩
  | errno next => exact ⟨.errno i 0, by simp, by simp [Pool.step, hthread]⟩
  | signal condition next => exact ⟨.signal i none, by simp, by simp [Pool.step, hthread]⟩
  | ret | peek | access =>
    exact ⟨.advance i, by simp, by simp [Pool.step, hthread, Pool.advance]⟩
  | lock | wait | unlock =>
    refine ⟨.advance i, by simp, ?_⟩
    cases hhold : s.mutex with
    | none => simp [Pool.step, hthread, Pool.advance, hhold]
    | some hold =>
      have hi := hmutex hold hhold
      simp [Pool.step, hthread, Pool.advance, hhold, hi]

/-- Where no thread can go on the mutex is free. -/
theorem Stuck.mutex_eq_none [Nonempty D] (h : s.Stuck M program) (hinv : Invariant M I wakes k s) :
    s.mutex = none := by
  by_contra hsome
  obtain ⟨⟨i, holds⟩, hmutex⟩ := Option.ne_none_iff_exists'.mp hsome
  have hi := hinv.threads i
  rw [view_of_holder hmutex] at hi
  cases hthread : s.threads i with
  | running p =>
    obtain ⟨action, hcall, hstep⟩ := exists_step_of_running M program hthread
      (by simp [hmutex])
    exact hstep (h action hcall)
  | idle =>
    rw [hthread] at hi
    cases hi
  | waiting | woken =>
    rw [hthread] at hi
    cases hi.1

/-- Where no thread can go on, each is between two calls or blocked. -/
theorem Stuck.idle_or_waiting [Nonempty D] (h : s.Stuck M program)
    (hinv : Invariant M I wakes k s) (i : ℕ) :
    s.threads i = .idle ∨ ∃ condition, s.waitingOn i = some condition := by
  have hfree := h.mutex_eq_none hinv
  cases hthread : s.threads i with
  | idle => exact .inl rfl
  | waiting condition holds next => exact .inr ⟨condition, by rw [waitingOn, hthread]; rfl⟩
  | running p =>
    obtain ⟨action, hcall, hstep⟩ := exists_step_of_running M program hthread
      (by simp [hfree])
    exact absurd (h action hcall) hstep
  | woken condition holds next =>
    have hstep := h (.resume i) (by simp)
    simp [Pool.step, hthread, hfree] at hstep

/-- No thread can go on while each is between two calls or blocked. -/
theorem Stuck.of_idle_or_waiting
    (h : ∀ i, s.threads i = .idle ∨ ∃ condition, s.waitingOn i = some condition) :
    s.Stuck M program := by
  have hthreads : ∀ i, (∀ p, s.threads i ≠ .running p) ∧
      ∀ condition holds next, s.threads i ≠ .woken condition holds next := by
    intro i
    rcases h i with hidle | ⟨condition, hwaiting⟩
    · rw [hidle]
      exact ⟨nofun, nofun⟩
    · cases hthread : s.threads i with
      | waiting => exact ⟨nofun, nofun⟩
      | idle | running | woken =>
        rw [waitingOn, hthread] at hwaiting
        cases hwaiting
  intro action hcall
  cases action with
  | call i request => exact absurd rfl (hcall i request)
  | clock i | errno i | signal i | resume i | advance i =>
    obtain ⟨hrunning, hwoken⟩ := hthreads i
    cases hthread : s.threads i with
    | running p => exact absurd hthread (hrunning p)
    | woken => exact absurd hthread (hwoken _ _ _)
    | idle | waiting => simp [Pool.step, hthread]

/-- Where no thread can go on, nobody has been woken. -/
theorem Stuck.countOn_eq_zero [Nonempty D] (h : s.Stuck M program)
    (hinv : Invariant M I wakes k s) (condition : C) : countOn s.wokenOn condition = 0 := by
  have hempty : {i | s.wokenOn i = some condition} = ∅ := by
    refine Set.eq_empty_of_forall_notMem fun i (hi : s.wokenOn i = some condition) => ?_
    rcases h.idle_or_waiting hinv i with hidle | ⟨condition', hwaiting⟩
    · rw [wokenOn, hidle] at hi
      cases hi
    · rw [wokenOn_of_waitingOn hwaiting] at hi
      cases hi
  rw [countOn, hempty, Set.ncard_empty]

/-- Where no thread can go on there is nothing for those that are blocked. -/
theorem Stuck.avail_eq_zero [Nonempty D] (h : s.Stuck M program) (hinv : Invariant M I wakes k s)
    (hsettled : Settled avail s γ) {condition : C} {i : ℕ} (hi : s.waitingOn i = some condition) :
    avail condition s.data = 0 := by
  have hle := hsettled.avail_le (h.mutex_eq_none hinv) hi
  rw [h.countOn_eq_zero hinv] at hle
  omega

end Pool

end Protoflight
