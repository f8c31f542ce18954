import Protoflight.Monitor.Invariant

/-!
# Values beside the calls of a monitor

Each call carries a value that the program does not have, and what the call does is allowed or not
by the value before and after it. When every program is allowed what it does, whatever the others
do in between, then so is every step of every run. What a step can do is said once, by
`Pool.Effect`; what is to be shown of all runs then goes by the cases of it.
-/

namespace Protoflight

/-- What a thread does, with the data that it finds. -/
inductive Deed (S A C R α : Type) where
  | call (request : R)
  | lock (data : S)
  | wait (condition : C) (data : S)
  | resume (condition : C) (data : S)
  | signal (condition : C) (waiter : Option ℕ) (data : S)
  | unlock (data : S)
  | access (action : A) (data : S)
  | ret (value : α)

/-- Values beside the calls. -/
structure Annotation (S A C R α Γ : Type) where
  /-- The value of a thread between two calls. -/
  rest : Γ
  /-- What a thread may do, with the values before and after it. -/
  allows : ℕ → Deed S A C R α → Γ → Γ → Prop

namespace Program

variable {S K A C D R α β δ Γ : Type} (M : Monitor S K A) (J : S → Prop) (wakes : C → S → Prop)
  (k : K) (N : Annotation S A C R δ Γ) (i : ℕ)

/-- From a value, and the data if the thread holds the mutex, the program is allowed all that it
does, and ends in a value that satisfies the postcondition. The data satisfies `J` whenever the
thread gets the mutex. -/
def allowed : Program S K A C D α → (α → Γ → Option S → Prop) → Γ → Option S → Prop
  | .ret value, post, γ, v => post value γ v
  | .clock next, post, γ, v => ∀ code now, (next code now).allowed post γ v
  | .errno next, post, γ, v => ∀ value, (next value).allowed post γ v
  | .peek next, post, γ, v => (next k).allowed post γ v
  | .lock _ next, post, γ, v => v = none ∧ ∀ data, J data →
    ∃ γ', N.allows i (.lock data) γ γ' ∧ (next 0).allowed post γ' (some data)
  | .wait condition _ next, post, γ, v => ∃ data, v = some data ∧
    ∃ γ₁, N.allows i (.wait condition data) γ γ₁ ∧
      ∀ data', J data' → wakes condition data' →
        ∃ γ₂, N.allows i (.resume condition data') γ₁ γ₂ ∧ (next 0).allowed post γ₂ (some data')
  | .signal condition next, post, γ, v => ∃ data, v = some data ∧
    ∀ waiter, ∃ γ', N.allows i (.signal condition waiter data) γ γ' ∧ (next 0).allowed post γ' v
  | .unlock next, post, γ, v => ∃ data, v = some data ∧
    ∃ γ', N.allows i (.unlock data) γ γ' ∧ (next 0).allowed post γ' none
  | .access action next, post, γ, v => ∃ data, v = some data ∧
    ∃ γ', N.allows i (.access action data) γ γ' ∧
      (next data).allowed post γ' (some (M.perform action data))

/-- The rest of a call is allowed what it does, its return included. -/
def Finishes (p : Program S K A C D δ) (γ : Γ) (v : Option S) : Prop :=
  p.allowed M J wakes k N i (fun value γ v => v = none ∧ N.allows i (.ret value) γ N.rest) γ v

/-- A call of a program is allowed what it does. -/
def Obeys (request : R) (p : Program S K A C D δ) : Prop :=
  ∃ γ, N.allows i (.call request) N.rest γ ∧ p.Finishes M J wakes k N i γ none

variable {M J wakes k N i} {post : α → Γ → Option S → Prop} {γ : Γ} {v : Option S}

@[simp] theorem allowed_pure (value : α) :
    (pure value : Program S K A C D α).allowed M J wakes k N i post γ v ↔ post value γ v :=
  Iff.rfl

/-- A sequence is allowed what it does if its first part is, up to where its second part is. -/
@[simp] theorem allowed_bind (p : Program S K A C D β) (f : β → Program S K A C D α) :
    (p >>= f).allowed M J wakes k N i post γ v ↔
      p.allowed M J wakes k N i (fun value γ v => (f value).allowed M J wakes k N i post γ v)
        γ v := by
  change (p.bind f).allowed M J wakes k N i post γ v ↔ _
  induction p generalizing γ v with
  | ret value => exact Iff.rfl
  | clock next ih => exact forall₂_congr fun code now => ih code now
  | errno next ih => exact forall_congr' fun value => ih value
  | peek next ih => exact ih k
  | lock deadline next ih =>
    exact and_congr_right' (forall₂_congr fun _ _ => exists_congr fun _ =>
      and_congr_right' (ih 0))
  | wait condition deadline next ih =>
    exact exists_congr fun _ => and_congr_right' (exists_congr fun _ =>
      and_congr_right' (forall_congr' fun _ => forall₂_congr fun _ _ => exists_congr fun _ =>
        and_congr_right' (ih 0)))
  | signal condition next ih =>
    exact exists_congr fun _ => and_congr_right' (forall_congr' fun _ => exists_congr fun _ =>
      and_congr_right' (ih 0))
  | unlock next ih =>
    exact exists_congr fun _ => and_congr_right' (exists_congr fun _ => and_congr_right' (ih 0))
  | access action next ih =>
    exact exists_congr fun data => and_congr_right' (exists_congr fun _ =>
      and_congr_right' (ih data))

@[simp] theorem allowed_ite (c : Prop) [Decidable c] (p q : Program S K A C D α) :
    (if c then p else q).allowed M J wakes k N i post γ v ↔
      (c → p.allowed M J wakes k N i post γ v) ∧ (¬c → q.allowed M J wakes k N i post γ v) := by
  split <;> simp_all

variable {post : ℤ → Γ → Option S → Prop}

@[simp] theorem allowed_clockGettime {post : ℤ × D → Γ → Option S → Prop} :
    (clockGettime : Program S K A C D (ℤ × D)).allowed M J wakes k N i post γ v ↔
      ∀ code now, post (code, now) γ v := Iff.rfl

@[simp] theorem allowed_readErrno :
    (readErrno : Program S K A C D ℤ).allowed M J wakes k N i post γ v ↔
      ∀ value, post value γ v := Iff.rfl

@[simp] theorem allowed_readConfig {post : K → Γ → Option S → Prop} :
    (readConfig : Program S K A C D K).allowed M J wakes k N i post γ v ↔ post k γ v := Iff.rfl

@[simp] theorem allowed_mutexTimedlock (deadline : D) :
    (mutexTimedlock deadline : Program S K A C D ℤ).allowed M J wakes k N i post γ v ↔
      v = none ∧ ∀ data, J data → ∃ γ', N.allows i (.lock data) γ γ' ∧ post 0 γ' (some data) :=
  Iff.rfl

@[simp] theorem allowed_mutexUnlock {data : S} :
    (mutexUnlock : Program S K A C D ℤ).allowed M J wakes k N i post γ (some data) ↔
      ∃ γ', N.allows i (.unlock data) γ γ' ∧ post 0 γ' none := by
  simp [mutexUnlock, allowed]

@[simp] theorem allowed_condTimedwait (condition : C) (deadline : D) {data : S} :
    (condTimedwait condition deadline : Program S K A C D ℤ).allowed M J wakes k N i post γ
        (some data) ↔
      ∃ γ₁, N.allows i (.wait condition data) γ γ₁ ∧
        ∀ data', J data' → wakes condition data' →
          ∃ γ₂, N.allows i (.resume condition data') γ₁ γ₂ ∧ post 0 γ₂ (some data') := by
  simp [condTimedwait, allowed]

@[simp] theorem allowed_condSignal (condition : C) {data : S} :
    (condSignal condition : Program S K A C D ℤ).allowed M J wakes k N i post γ (some data) ↔
      ∀ waiter, ∃ γ', N.allows i (.signal condition waiter data) γ γ' ∧
        post 0 γ' (some data) := by
  simp [condSignal, allowed]

@[simp] theorem allowed_touch (action : A) {post : S → Γ → Option S → Prop} {data : S} :
    (touch action : Program S K A C D S).allowed M J wakes k N i post γ (some data) ↔
      ∃ γ', N.allows i (.access action data) γ γ' ∧
        post data γ' (some (M.perform action data)) := by
  simp [touch, allowed]

end Program

/-- The condition variable on which a thread is blocked. -/
def Thread.waitingOn {S K A C D α : Type} : Thread S K A C D α → Option C
  | .waiting condition _ _ => some condition
  | _ => none

namespace Pool

variable {S K A C D R α Γ : Type} {M : Monitor S K A} {I : S → List (A × S) → Prop}
  {J : S → Prop} {wakes : C → S → Prop} {k : K} {N : Annotation S A C R α Γ}
  {program : R → Program S K A C D α} {s s' : Pool S K A C D α}

/-- The data, for a thread that holds the mutex. -/
def found (s : Pool S K A C D α) (i : ℕ) : Option S := (s.view i).map Prod.fst

theorem found_of_holder {i holds : ℕ} (h : s.mutex = some (i, holds)) :
    s.found i = some s.data := by
  rw [found, view_of_holder h, Option.map_some]

theorem found_of_other {i j holds : ℕ} (h : s.mutex = some (i, holds)) (hne : j ≠ i) :
    s.found j = none := by
  rw [found, view_of_other h hne, Option.map_none]

theorem found_of_free {i : ℕ} (h : s.mutex = none) : s.found i = none := by
  rw [found, view_of_free h, Option.map_none]

/-- A thread that finds the data holds the mutex. -/
theorem Invariant.holder_of_found (h : Invariant M I wakes k s) {i : ℕ} {data : S}
    (hfound : s.found i = some data) : data = s.data ∧ s.mutex = some (i, 1) := by
  have hview : s.view i ≠ none := by
    intro hnone
    rw [found, hnone] at hfound
    cases hfound
  obtain ⟨holds, hmutex⟩ := exists_holds_of_view hview
  obtain rfl : holds = 1 := h.single _ hmutex
  rw [found_of_holder hmutex] at hfound
  exact ⟨(Option.some.inj hfound).symm, hmutex⟩

/-- What a step is, if it is more than a look at the clock, the error number or the configuration:
the thread and what it does. -/
def deed (s : Pool S K A C D α) : Action R D → Option (ℕ × Deed S A C R α)
  | .call i request => some (i, .call request)
  | .clock _ _ _ | .errno _ _ => none
  | .signal i waiter =>
    match s.threads i with
    | .running (.signal condition _) => some (i, .signal condition waiter s.data)
    | _ => none
  | .resume i => (s.threads i).wokenOn.map fun condition => (i, .resume condition s.data)
  | .advance i =>
    match s.threads i with
    | .running (.ret value) => some (i, .ret value)
    | .running (.lock _ _) => some (i, .lock s.data)
    | .running (.wait condition _ _) => some (i, .wait condition s.data)
    | .running (.unlock _) => some (i, .unlock s.data)
    | .running (.access action _) => some (i, .access action s.data)
    | _ => none

/-- The condition variables on which threads are blocked. -/
def waitingOn (s : Pool S K A C D α) (i : ℕ) : Option C := (s.threads i).waitingOn

/-- The condition variables on which threads have been unblocked. -/
def wokenOn (s : Pool S K A C D α) (i : ℕ) : Option C := (s.threads i).wokenOn

theorem waitingOn_setThread (i : ℕ) (t : Thread S K A C D α) :
    (s.setThread i t).waitingOn = Function.update s.waitingOn i t.waitingOn :=
  Function.comp_update Thread.waitingOn s.threads i t

theorem wokenOn_setThread (i : ℕ) (t : Thread S K A C D α) :
    (s.setThread i t).wokenOn = Function.update s.wokenOn i t.wokenOn :=
  Function.comp_update Thread.wokenOn s.threads i t

/-- No thread has been blocked or unblocked. -/
def SamePhases (s s' : Pool S K A C D α) : Prop :=
  s'.waitingOn = s.waitingOn ∧ s'.wokenOn = s.wokenOn

theorem waitingOn_setThread_eq {i : ℕ} {t : Thread S K A C D α}
    (h : t.waitingOn = (s.threads i).waitingOn) : (s.setThread i t).waitingOn = s.waitingOn := by
  rw [waitingOn_setThread, h]
  exact Function.update_eq_self i s.waitingOn

theorem wokenOn_setThread_eq {i : ℕ} {t : Thread S K A C D α}
    (h : t.wokenOn = (s.threads i).wokenOn) : (s.setThread i t).wokenOn = s.wokenOn := by
  rw [wokenOn_setThread, h]
  exact Function.update_eq_self i s.wokenOn

/-- A thread that neither was nor becomes blocked changes no phase. -/
theorem samePhases_setThread {i : ℕ} {t : Thread S K A C D α}
    (hwaiting : t.waitingOn = (s.threads i).waitingOn)
    (hwoken : t.wokenOn = (s.threads i).wokenOn) : SamePhases s (s.setThread i t) :=
  ⟨waitingOn_setThread_eq hwaiting, wokenOn_setThread_eq hwoken⟩

/-- What a step changes, besides the programs of the threads. -/
def Effect (M : Monitor S K A) (s s' : Pool S K A C D α) : Option (ℕ × Deed S A C R α) → Prop
  | none | some (_, .call _) | some (_, .ret _) =>
    s'.data = s.data ∧ s'.mutex = s.mutex ∧ SamePhases s s'
  | some (i, .lock data) =>
    data = s.data ∧ s'.data = s.data ∧ s.mutex = none ∧ s'.mutex = some (i, 1) ∧ SamePhases s s'
  | some (i, .wait condition data) =>
    data = s.data ∧ s'.data = s.data ∧ s.mutex = some (i, 1) ∧ s'.mutex = none ∧
      s'.waitingOn = Function.update s.waitingOn i (some condition) ∧ s'.wokenOn = s.wokenOn
  | some (i, .resume condition data) =>
    data = s.data ∧ s'.data = s.data ∧ s.mutex = none ∧ s'.mutex = some (i, 1) ∧
      s.wokenOn i = some condition ∧ s'.waitingOn = s.waitingOn ∧
      s'.wokenOn = Function.update s.wokenOn i none
  | some (i, .signal _ none data) =>
    data = s.data ∧ s'.data = s.data ∧ s.mutex = some (i, 1) ∧ s'.mutex = s.mutex ∧
      SamePhases s s'
  | some (i, .signal condition (some j) data) =>
    data = s.data ∧ s'.data = s.data ∧ s.mutex = some (i, 1) ∧ s'.mutex = s.mutex ∧
      s.waitingOn j = some condition ∧ s'.waitingOn = Function.update s.waitingOn j none ∧
      s'.wokenOn = Function.update s.wokenOn j (some condition)
  | some (i, .unlock data) =>
    data = s.data ∧ s'.data = s.data ∧ s.mutex = some (i, 1) ∧ s'.mutex = none ∧ SamePhases s s'
  | some (i, .access action data) =>
    data = s.data ∧ s'.data = M.perform action s.data ∧ s.mutex = some (i, 1) ∧
      s'.mutex = s.mutex ∧ s.wokenOn i = none ∧ SamePhases s s'

/-- The values of the threads after a step: that of the thread has changed as it is allowed. -/
def Explains (N : Annotation S A C R α Γ) (γ γ' : ℕ → Γ) : Option (ℕ × Deed S A C R α) → Prop
  | none => γ' = γ
  | some (i, deed) => N.allows i deed (γ i) (γ' i) ∧ ∀ j ≠ i, γ' j = γ j

/-- The rest of a thread is allowed what it does. -/
def ThreadObeys (M : Monitor S K A) (J : S → Prop) (wakes : C → S → Prop) (k : K)
    (N : Annotation S A C R α Γ) (i : ℕ) (γ : Γ) (v : Option S) : Thread S K A C D α → Prop
  | .idle => v = none ∧ γ = N.rest
  | .running p => p.Finishes M J wakes k N i γ v
  | .waiting condition _ next | .woken condition _ next =>
    v = none ∧ ∀ data, J data → wakes condition data →
      ∃ γ', N.allows i (.resume condition data) γ γ' ∧
        (next 0).Finishes M J wakes k N i γ' (some data)

/-- All threads are allowed what they do. -/
def Obeys (M : Monitor S K A) (J : S → Prop) (wakes : C → S → Prop) (k : K)
    (N : Annotation S A C R α Γ) (s : Pool S K A C D α) (γ : ℕ → Γ) : Prop :=
  ∀ i, ThreadObeys M J wakes k N i (γ i) (s.found i) (s.threads i)

variable {γ : ℕ → Γ}

/-- At the start nobody does anything. -/
theorem Obeys.start (data : S) :
    Obeys M J wakes k N (Pool.start data : Pool S K A C D α) fun _ => N.rest :=
  fun _ => ⟨rfl, rfl⟩

/-- A step of one thread keeps the others as they were, if they find the data as before. -/
theorem Obeys.of_thread (h : Obeys M J wakes k N s γ) (i : ℕ) (g : Γ)
    (hself : ThreadObeys M J wakes k N i g (s'.found i) (s'.threads i))
    (hothers : ∀ j ≠ i, s'.threads j = s.threads j ∧ s'.found j = s.found j) :
    Obeys M J wakes k N s' (Function.update γ i g) := by
  intro j
  by_cases hj : j = i
  · subst hj
    rwa [Function.update_self]
  · obtain ⟨hthread, hfound⟩ := hothers j hj
    rw [Function.update_of_ne hj, hthread, hfound]
    exact h j

/-- A step that changes only one thread. -/
theorem Obeys.setThread (h : Obeys M J wakes k N s γ) (i : ℕ) (g : Γ) {t : Thread S K A C D α}
    (hself : ThreadObeys M J wakes k N i g (s.found i) t) :
    Obeys M J wakes k N (s.setThread i t) (Function.update γ i g) := by
  refine h.of_thread i g ?_ fun j hj => ⟨Function.update_of_ne hj .., rfl⟩
  change ThreadObeys M J wakes k N i g (s.found i) (Function.update s.threads i t i)
  rwa [Function.update_self]

/-- A thread goes on with its value. -/
theorem Obeys.goesOn (h : Obeys M J wakes k N s γ) (i : ℕ) {t : Thread S K A C D α}
    (hself : ThreadObeys M J wakes k N i (γ i) (s.found i) t) :
    Obeys M J wakes k N (s.setThread i t) γ := by
  have hset := h.setThread i (γ i) hself
  rwa [Function.update_eq_self] at hset

/-- A step of a thread that takes the mutex or gives it up, and changes nothing else. -/
theorem Obeys.setMutex (h : Obeys M J wakes k N s γ) (i : ℕ) (g : Γ) {t : Thread S K A C D α}
    {mutex : Option (ℕ × ℕ)} (hbefore : ∀ hold ∈ s.mutex, hold.1 = i)
    (hafter : ∀ hold ∈ mutex, hold = (i, 1))
    (hself : ThreadObeys M J wakes k N i g (mutex.map fun _ => s.data) t) :
    Obeys M J wakes k N { s.setThread i t with mutex := mutex } (Function.update γ i g) := by
  refine h.of_thread i g ?_ fun j hj => ⟨Function.update_of_ne hj .., ?_⟩
  · change ThreadObeys M J wakes k N i g (found { s.setThread i t with mutex := mutex } i)
      (Function.update s.threads i t i)
    rw [Function.update_self]
    cases mutex with
    | none => exact hself
    | some hold =>
      obtain rfl := hafter hold rfl
      rwa [found_of_holder rfl]
  · have hnone : s.found j = none := by
      cases hmutex : s.mutex with
      | none => exact found_of_free hmutex
      | some hold => exact found_of_other hmutex (hbefore hold hmutex ▸ hj)
    rw [hnone]
    cases mutex with
    | none => exact found_of_free rfl
    | some hold =>
      obtain rfl := hafter hold rfl
      exact found_of_other rfl hj

/-- An access by the thread that holds the mutex. -/
theorem Obeys.setData (h : Obeys M J wakes k N s γ) {i : ℕ} (g : Γ) {t : Thread S K A C D α}
    (hmutex : s.mutex = some (i, 1)) (data : S) (log : List (A × S))
    (hself : ThreadObeys M J wakes k N i g (some data) t) :
    Obeys M J wakes k N { s.setThread i t with data := data, log := log }
      (Function.update γ i g) := by
  have hfound : found { s.setThread i t with data := data, log := log } i = some data :=
    found_of_holder hmutex
  refine h.of_thread i g ?_ fun j hj => ⟨Function.update_of_ne hj .., ?_⟩
  · change ThreadObeys M J wakes k N i g _ (Function.update s.threads i t i)
    rwa [Function.update_self, hfound]
  · rw [found_of_other hmutex hj]
    exact found_of_other hmutex hj

/-- The value of one thread changes as it is allowed. -/
theorem Explains.update {i : ℕ} {deed : Deed S A C R α} {g : Γ}
    (hallows : N.allows i deed (γ i) g) :
    Explains N γ (Function.update γ i g) (some (i, deed)) :=
  ⟨by rwa [Function.update_self], fun _ hj => Function.update_of_ne hj ..⟩

/-- A running thread goes on running. -/
theorem samePhases_running {i : ℕ} {p q : Program S K A C D α}
    (hthread : s.threads i = .running p) :
    SamePhases s (s.setThread i (.running q)) :=
  samePhases_setThread (by rw [hthread]; rfl) (by rw [hthread]; rfl)

/-- The next primitive of a running call is allowed, and has the effect that it is said to have. -/
theorem Obeys.advance (h : Obeys M J wakes k N s γ) (hinv : Invariant M I wakes k s)
    (hconfig : ∀ data log, I data log → M.config data = k)
    (hJ : ∀ data log, I data log → J data) {i : ℕ} {p : Program S K A C D α}
    (hthread : s.threads i = .running p) (hstep : s.advance M i p = some s') :
    ∃ γ', Obeys M J wakes k N s' γ' ∧ Explains N γ γ' (s.deed (.advance i : Action R D)) ∧
      Effect M s s' (s.deed (.advance i : Action R D)) := by
  have hp : p.Finishes M J wakes k N i (γ i) (s.found i) := by
    have hi := h i
    rwa [hthread] at hi
  cases p with
  | ret value =>
    obtain rfl := Option.some.inj hstep
    obtain ⟨hfound, hallows⟩ := hp
    simp only [deed, hthread]
    exact ⟨_, h.setThread i N.rest ⟨hfound, rfl⟩, .update hallows, rfl, rfl,
      samePhases_setThread (by rw [hthread]; rfl) (by rw [hthread]; rfl)⟩
  | peek next =>
    obtain rfl := Option.some.inj hstep
    simp only [deed, hthread]
    rw [hconfig s.data s.log hinv.shared]
    exact ⟨γ, h.goesOn i hp, rfl, rfl, rfl, samePhases_running hthread⟩
  | lock deadline next =>
    obtain ⟨hfound, hnext⟩ := hp
    cases hmutex : s.mutex with
    | none =>
      simp only [Pool.advance, hmutex, Option.some.injEq] at hstep
      subst hstep
      obtain ⟨g, hallows, hfinishes⟩ := hnext s.data (hJ _ _ hinv.shared)
      simp only [deed, hthread]
      exact ⟨_, h.setMutex i g (by simp [hmutex]) (by simp) hfinishes, .update hallows, rfl, rfl,
        hmutex, rfl, samePhases_running hthread⟩
    | some hold =>
      obtain ⟨j, holds⟩ := hold
      have hne : j ≠ i := by
        rintro rfl
        simp [found_of_holder hmutex] at hfound
      simp [Pool.advance, hmutex, hne] at hstep
  | wait condition deadline next =>
    obtain ⟨data, hfound, g, hallows, hnext⟩ := hp
    obtain ⟨rfl, hmutex⟩ := hinv.holder_of_found hfound
    simp only [Pool.advance, hmutex, if_true, Option.some.injEq] at hstep
    subst hstep
    simp only [deed, hthread]
    refine ⟨_, h.setMutex i g (by simp [hmutex]) (by simp) ⟨rfl, hnext⟩, .update hallows, rfl, rfl,
      hmutex, rfl, waitingOn_setThread i _, ?_⟩
    exact wokenOn_setThread_eq (by rw [hthread]; rfl)
  | unlock next =>
    obtain ⟨data, hfound, g, hallows, hfinishes⟩ := hp
    obtain ⟨rfl, hmutex⟩ := hinv.holder_of_found hfound
    simp only [Pool.advance, hmutex, if_true, Option.some.injEq] at hstep
    subst hstep
    simp only [deed, hthread]
    exact ⟨_, h.setMutex i g (by simp [hmutex]) (by simp) hfinishes, .update hallows, rfl, rfl,
      hmutex, rfl, samePhases_running hthread⟩
  | access action next =>
    obtain ⟨data, hfound, g, hallows, hfinishes⟩ := hp
    obtain ⟨rfl, hmutex⟩ := hinv.holder_of_found hfound
    obtain rfl := Option.some.inj hstep
    simp only [deed, hthread]
    exact ⟨_, h.setData g hmutex _ _ hfinishes, .update hallows, rfl, rfl, hmutex, rfl,
      by rw [wokenOn, hthread]; rfl, samePhases_running hthread⟩
  | clock next => cases hstep
  | errno next => cases hstep
  | signal condition next => cases hstep

/-- The value of no other thread changes. -/
theorem Explains.eq_update {γ' : ℕ → Γ} {i : ℕ} {deed : Deed S A C R α}
    (h : Explains N γ γ' (some (i, deed))) :
    γ' = Function.update γ i (γ' i) := by
  funext j
  by_cases hj : j = i
  · rw [hj, Function.update_self]
  · rw [Function.update_of_ne hj]
    exact h.2 j hj

/-- A thread that is blocked has not been woken. -/
theorem wokenOn_of_waitingOn {i : ℕ} {condition : C} (h : s.waitingOn i = some condition) :
    s.wokenOn i = none := by
  unfold waitingOn at h
  unfold wokenOn
  cases hthread : s.threads i with
  | waiting => rfl
  | idle | running | woken =>
    rw [hthread] at h
    cases h

/-- A signal that wakes nobody. -/
theorem Obeys.signal_none (h : Obeys M J wakes k N s γ) (hinv : Invariant M I wakes k s) {i : ℕ}
    {condition : C} {next : ℤ → Program S K A C D α}
    (hthread : s.threads i = .running (.signal condition next)) :
    ∃ γ', Obeys M J wakes k N (s.setThread i (.running (next 0))) γ' ∧
      Explains N γ γ' (s.deed (.signal i none : Action R D)) ∧
      Effect M s (s.setThread i (.running (next 0))) (s.deed (.signal i none : Action R D)) := by
  have hi := h i
  rw [hthread] at hi
  obtain ⟨data, hfound, hnext⟩ := hi
  obtain ⟨g, hallows, hfinishes⟩ := hnext none
  obtain ⟨rfl, hmutex⟩ := hinv.holder_of_found hfound
  simp only [deed, hthread]
  exact ⟨_, h.setThread i g hfinishes, .update hallows, rfl, rfl, hmutex, rfl,
    samePhases_running hthread⟩

/-- A signal that wakes a thread. -/
theorem Obeys.signal_some (h : Obeys M J wakes k N s γ) (hinv : Invariant M I wakes k s) {i j : ℕ}
    {condition : C} {holds : ℕ} {next next' : ℤ → Program S K A C D α}
    (hthread : s.threads i = .running (.signal condition next))
    (hwaiting : s.threads j = .waiting condition holds next') :
    let woken := s.setThread j (.woken condition holds next')
    ∃ γ', Obeys M J wakes k N (woken.setThread i (.running (next 0))) γ' ∧
      Explains N γ γ' (s.deed (.signal i (some j) : Action R D)) ∧
      Effect M s (woken.setThread i (.running (next 0)))
        (s.deed (.signal i (some j) : Action R D)) := by
  intro woken
  have hi := h i
  have hj := h j
  rw [hthread] at hi
  rw [hwaiting] at hj
  obtain ⟨data, hfound, hnext⟩ := hi
  obtain ⟨g, hallows, hfinishes⟩ := hnext (some j)
  obtain ⟨rfl, hmutex⟩ := hinv.holder_of_found hfound
  have hne : i ≠ j := by
    rintro rfl
    rw [hthread] at hwaiting
    cases hwaiting
  have hwoken : Obeys M J wakes k N woken γ := h.goesOn j hj
  have hthread' : woken.threads i = .running (.signal condition next) :=
    (Function.update_of_ne hne ..).trans hthread
  obtain ⟨hwaitingOn, hwokenOn⟩ := samePhases_running (q := next 0) hthread'
  simp only [deed, hthread]
  refine ⟨_, hwoken.setThread i g hfinishes, .update hallows, rfl, rfl, hmutex, rfl,
    by rw [waitingOn, hwaiting]; rfl, ?_, ?_⟩
  · rw [hwaitingOn, waitingOn_setThread]
    rfl
  · rw [hwokenOn, wokenOn_setThread]
    rfl

variable [DecidableEq C]

/-- Every step of allowed programs is allowed, and has the effect that it is said to have. -/
theorem Obeys.step (h : Obeys M J wakes k N s γ) (hinv : Invariant M I wakes k s)
    (hconfig : ∀ data log, I data log → M.config data = k)
    (hJ : ∀ data log, I data log → J data) {action : Action R D}
    (hprogram : ∀ i request, action = .call i request →
      (program request).Obeys M J wakes k N i request)
    (hresumes : s.ResumesWell wakes action) (hstep : s.step M program action = some s') :
    ∃ γ', Obeys M J wakes k N s' γ' ∧ Explains N γ γ' (s.deed action) ∧
      Effect M s s' (s.deed action) := by
  cases action with
  | call i request =>
    simp only [Pool.step] at hstep
    split at hstep
    next hthread =>
      obtain rfl := Option.some.inj hstep
      have hi := h i
      rw [hthread] at hi
      obtain ⟨hfound, hrest⟩ := hi
      obtain ⟨g, hallows, hfinishes⟩ := hprogram i request rfl
      refine ⟨_, h.setThread i g (t := .running (program request)) ?_, .update ?_, rfl, rfl,
        samePhases_setThread (by rw [hthread]; rfl) (by rw [hthread]; rfl)⟩
      · rw [hfound]
        exact hfinishes
      · rwa [hrest]
    next => cases hstep
  | clock i code now =>
    simp only [Pool.step] at hstep
    split at hstep
    next next hthread =>
      obtain rfl := Option.some.inj hstep
      have hi := h i
      rw [hthread] at hi
      exact ⟨γ, h.goesOn i (hi code now), rfl, rfl, rfl, samePhases_running hthread⟩
    next => cases hstep
  | errno i value =>
    simp only [Pool.step] at hstep
    split at hstep
    next next hthread =>
      obtain rfl := Option.some.inj hstep
      have hi := h i
      rw [hthread] at hi
      exact ⟨γ, h.goesOn i (hi value), rfl, rfl, rfl, samePhases_running hthread⟩
    next => cases hstep
  | signal i waiter =>
    simp only [Pool.step] at hstep
    split at hstep
    next condition next hthread =>
      obtain rfl := Option.some.inj hstep
      exact h.signal_none hinv hthread
    next condition next j hthread =>
      split at hstep
      next condition' holds next' hwaiting =>
        split at hstep
        next hcondition =>
          subst hcondition
          obtain rfl := Option.some.inj hstep
          exact h.signal_some hinv hthread hwaiting
        next => cases hstep
      next => cases hstep
    next => cases hstep
  | resume i =>
    simp only [Pool.step] at hstep
    split at hstep
    next condition holds next hthread hmutex =>
      have hi := h i
      have hsingle := hinv.threads i
      rw [hthread] at hi hsingle
      obtain ⟨-, rfl, -⟩ := hsingle
      obtain rfl := Option.some.inj hstep
      obtain ⟨-, hnext⟩ := hi
      have hwakes : wakes condition s.data := hresumes condition (by rw [hthread]; rfl)
      obtain ⟨g, hallows, hfinishes⟩ := hnext s.data (hJ _ _ hinv.shared) hwakes
      simp only [deed, hthread, Thread.wokenOn, Option.map_some]
      refine ⟨_, h.setMutex i g (by simp [hmutex]) (by simp) hfinishes, .update hallows, rfl, rfl,
        hmutex, rfl, by rw [wokenOn, hthread]; rfl, ?_, wokenOn_setThread i _⟩
      exact waitingOn_setThread_eq (by rw [hthread]; rfl)
    next => cases hstep
  | advance i =>
    simp only [Pool.step] at hstep
    split at hstep
    next p hthread => exact h.advance hinv hconfig hJ hthread hstep
    next => cases hstep

/-- A condition that each of the steps satisfies anywhere is satisfied along the run. -/
theorem along_of_mem {Q : Pool S K A C D α → Action R D → Prop} {actions : List (Action R D)}
    (h : ∀ action ∈ actions, ∀ s, Q s action) (s : Pool S K A C D α) :
    Along M program Q actions s := by
  induction actions generalizing s with
  | nil => exact trivial
  | cons action actions ih =>
    exact ⟨h action (.head _) s, fun s' _ => ih (fun a ha => h a (.tail _ ha)) s'⟩

/-- What every step keeps holds after every run. It may be needed for the step to be allowed. -/
theorem Obeys.exec {P : Pool S K A C D α → (ℕ → Γ) → Prop}
    {Q : Pool S K A C D α → Action R D → Prop} (h : Obeys M J wakes k N s γ)
    (hinv : Invariant M I wakes k s) (hconfig : ∀ data log, I data log → M.config data = k)
    (hJ : ∀ data log, I data log → J data)
    (hkeeps : ∀ request, (program request).Keeps M I wakes k)
    (hready : ∀ {s γ} {action : Action R D}, P s γ → Q s action → s.ResumesWell wakes action ∧
      ∀ i request, action = .call i request → (program request).Obeys M J wakes k N i request)
    (hkept : ∀ {s s' γ γ'} {action : Action R D}, P s γ → Q s action →
      Explains N γ γ' (s.deed action) → Effect M s s' (s.deed action) → P s' γ')
    {actions : List (Action R D)} (hP : P s γ) (halong : Along M program Q actions s)
    (hexec : s.exec M program actions = some s') :
    ∃ γ', P s' γ' ∧ Obeys M J wakes k N s' γ' ∧ Invariant M I wakes k s' := by
  induction actions generalizing s γ with
  | nil =>
    obtain rfl := Option.some.inj hexec
    exact ⟨γ, hP, h, hinv⟩
  | cons action actions ih =>
    obtain ⟨t, hstep, hexec⟩ := Option.bind_eq_some_iff.mp hexec
    obtain ⟨hresumes, hprogram⟩ := hready hP halong.1
    obtain ⟨γ₁, hobeys, hexplains, heffect⟩ :=
      h.step hinv hconfig hJ hprogram hresumes hstep
    exact ih hobeys (hinv.step hconfig hkeeps hresumes hstep)
      (hkept hP halong.1 hexplains heffect) (halong.2 t hstep) hexec

end Pool

end Protoflight
