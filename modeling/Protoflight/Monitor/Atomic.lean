import Protoflight.Monitor.Annotations

/-!
# Monitors as atomic objects

An atomic object answers each call at one instant between its beginning and its return, by what it
is at that instant. What the threads that use it see are the calls and the returns. A monitor whose
programs change what the data stands for at one access each, and as the object would, shows its
threads nothing that the object could not show them.
-/

namespace Protoflight

/-- What the threads see. -/
inductive AtomicEvent (R α : Type) where
  | call (thread : ℕ) (request : R)
  | ret (thread : ℕ) (value : α)

/-- Where a thread is with an atomic object. -/
inductive AtomicThread (R α : Type) where
  | idle
  /-- The call has begun, but has not been performed. -/
  | called (request : R)
  /-- The call has been performed, but has not returned. -/
  | performed (value : α)

/-- An atomic object, and the threads that use it. -/
structure AtomicState (σ R α : Type) where
  /-- What the object is. -/
  object : σ
  /-- The threads. -/
  threads : ℕ → AtomicThread R α

variable {S K A C D R α σ : Type}

/-- The runs of an atomic object, with what the threads see of them. A call is performed without
anything to be seen. -/
inductive AtomicRun (performs : R → σ → α → σ → Prop) :
    AtomicState σ R α → List (AtomicEvent R α) → AtomicState σ R α → Prop where
  | refl (s : AtomicState σ R α) : AtomicRun performs s [] s
  | call {s t : AtomicState σ R α} {events : List (AtomicEvent R α)} {i : ℕ} {request : R}
      (idle : s.threads i = .idle)
      (rest : AtomicRun performs
        { s with threads := Function.update s.threads i (.called request) } events t) :
      AtomicRun performs s (.call i request :: events) t
  | perform {s t : AtomicState σ R α} {events : List (AtomicEvent R α)} {i : ℕ} {request : R}
      {value : α} {object : σ} (called : s.threads i = .called request)
      (performed : performs request s.object value object)
      (rest : AtomicRun performs
        { object := object, threads := Function.update s.threads i (.performed value) } events t) :
      AtomicRun performs s events t
  | ret {s t : AtomicState σ R α} {events : List (AtomicEvent R α)} {i : ℕ} {value : α}
      (performed : s.threads i = .performed value)
      (rest : AtomicRun performs
        { s with threads := Function.update s.threads i .idle } events t) :
      AtomicRun performs s (.ret i value :: events) t

/-- One run goes on where another one has ended. -/
theorem AtomicRun.append {performs : R → σ → α → σ → Prop} {s t u : AtomicState σ R α}
    {events events' : List (AtomicEvent R α)} (h : AtomicRun performs s events t)
    (h' : AtomicRun performs t events' u) : AtomicRun performs s (events ++ events') u := by
  induction h with
  | refl => exact h'
  | call idle _ ih => exact .call idle (ih h')
  | perform called performed _ ih => exact .perform called performed (ih h')
  | ret performed _ ih => exact .ret performed (ih h')

/-- A call is performed at the access that changes what the data stands for, or just before it
returns if it leaves the object as it is. -/
def atomically (M : Monitor S K A) (performs : R → σ → α → σ → Prop) (Represents : S → σ → Prop) :
    Annotation S A C R α (AtomicThread R α) where
  rest := .idle
  allows _ deed γ γ' :=
    match deed with
    | .call request => γ = .idle ∧ γ' = .called request
    | .ret value => γ' = .idle ∧ (γ = .performed value ∨
      ∃ request, γ = .called request ∧
        ∀ data object, Represents data object → performs request object value object)
    | .access action data => (γ' = γ ∧
        ∀ object, Represents data object → Represents (M.perform action data) object) ∨
      ∃ request value, γ = .called request ∧ γ' = .performed value ∧
        ∀ object, Represents data object → ∃ object', performs request object value object' ∧
          Represents (M.perform action data) object'
    | .lock _ | .wait _ _ | .resume _ _ | .signal _ _ _ | .unlock _ => γ' = γ

namespace Pool

/-- What the threads see of a step. -/
def event (s : Pool S K A C D α) (action : Action R D) : List (AtomicEvent R α) :=
  match s.deed action with
  | some (i, .call request) => [.call i request]
  | some (i, .ret value) => [.ret i value]
  | _ => []

/-- What the threads see of a run. -/
def history [DecidableEq C] (M : Monitor S K A) (program : R → Program S K A C D α) :
    List (Action R D) → Pool S K A C D α → List (AtomicEvent R α)
  | [], _ => []
  | action :: actions, s =>
    s.event action ++ ((s.step M program action).map (history M program actions)).getD []

variable {M : Monitor S K A} {I : S → List (A × S) → Prop} {J : S → Prop} {wakes : C → S → Prop}
  {k : K} {program : R → Program S K A C D α} {s s' : Pool S K A C D α}
  {performs : R → σ → α → σ → Prop} {Represents : S → σ → Prop} {γ γ' : ℕ → AtomicThread R α}

/-- Nothing is seen of a step that leaves the threads and the object where they are. -/
theorem atomicRun_of_eq {object : σ} (hγ : γ' = γ) :
    AtomicRun performs ⟨object, γ⟩ ([] : List (AtomicEvent R α)) ⟨object, γ'⟩ := by
  rw [hγ]
  exact .refl _

/-- A step that is allowed shows the threads what steps of the object show them. -/
theorem Explains.atomicRun {action : Action R D}
    (hexplains : Explains (atomically M performs Represents) γ γ' (s.deed action))
    (heffect : Effect M s s' (s.deed action)) {object : σ} (hrep : Represents s.data object) :
    ∃ object', AtomicRun performs ⟨object, γ⟩ (s.event action) ⟨object', γ'⟩ ∧
      Represents s'.data object' := by
  unfold event
  cases hdeed : s.deed action with
  | none =>
    rw [hdeed] at heffect hexplains
    exact ⟨object, atomicRun_of_eq hexplains, heffect.1 ▸ hrep⟩
  | some step =>
    obtain ⟨i, deed⟩ := step
    rw [hdeed] at heffect hexplains
    have hupdate := hexplains.eq_update
    have hallows := hexplains.1
    cases deed with
    | call request =>
      obtain ⟨hidle, hcalled⟩ := hallows
      rw [hcalled] at hupdate
      subst hupdate
      exact ⟨object, .call hidle (.refl _), heffect.1 ▸ hrep⟩
    | ret value =>
      obtain ⟨hidle, hvalue⟩ := hallows
      rw [hidle] at hupdate
      subst hupdate
      refine ⟨object, ?_, heffect.1 ▸ hrep⟩
      rcases hvalue with hperformed | ⟨request, hcalled, hperforms⟩
      · exact .ret hperformed (.refl _)
      · -- a call that leaves the object as it is is performed now
        refine .perform hcalled (hperforms _ _ hrep) (.ret (Function.update_self ..) ?_)
        rw [Function.update_idem]
        exact .refl _
    | lock data | unlock data | wait condition data | resume condition data =>
      have hγ : γ' i = γ i := hallows
      rw [hγ, Function.update_eq_self] at hupdate
      exact ⟨object, atomicRun_of_eq hupdate, heffect.2.1 ▸ hrep⟩
    | signal condition waiter data =>
      have hγ : γ' i = γ i := hallows
      rw [hγ, Function.update_eq_self] at hupdate
      refine ⟨object, atomicRun_of_eq hupdate, ?_⟩
      cases waiter <;> exact heffect.2.1 ▸ hrep
    | access action data =>
      obtain ⟨rfl, hdata, -⟩ := heffect
      rw [hdata]
      rcases hallows with ⟨hγ, hkept⟩ | ⟨request, value, hcalled, hperformed, hperforms⟩
      · rw [hγ, Function.update_eq_self] at hupdate
        exact ⟨object, atomicRun_of_eq hupdate, hkept object hrep⟩
      · obtain ⟨object', hperforms, hrep'⟩ := hperforms object hrep
        rw [hperformed] at hupdate
        subst hupdate
        exact ⟨object', .perform hcalled hperforms (.refl _), hrep'⟩

variable [DecidableEq C]

/-- Every run of programs that are allowed what they do shows the threads what a run of the object
shows them. -/
theorem Obeys.atomicRun (h : Obeys M J wakes k (atomically M performs Represents) s γ)
    (hinv : Invariant M I wakes k s) (hconfig : ∀ data log, I data log → M.config data = k)
    (hJ : ∀ data log, I data log → J data)
    (hkeeps : ∀ request, (program request).Keeps M I wakes k)
    (hprogram : ∀ i request,
      (program request).Obeys M J wakes k (atomically M performs Represents) i request)
    {actions : List (Action R D)} (hresumes : Along M program (ResumesWell wakes) actions s)
    (hexec : s.exec M program actions = some s') {object : σ} (hrep : Represents s.data object) :
    ∃ object' γ', AtomicRun performs ⟨object, γ⟩ (s.history M program actions) ⟨object', γ'⟩ ∧
      Represents s'.data object' := by
  induction actions generalizing s γ object with
  | nil =>
    obtain rfl := Option.some.inj hexec
    exact ⟨object, γ, .refl _, hrep⟩
  | cons action actions ih =>
    obtain ⟨t, hstep, hexec⟩ := Option.bind_eq_some_iff.mp hexec
    obtain ⟨γ₁, hobeys, hexplains, heffect⟩ :=
      h.step hinv hconfig hJ (fun i request _ => hprogram i request) hresumes.1 hstep
    obtain ⟨object₁, hfirst, hrep₁⟩ := hexplains.atomicRun heffect hrep
    obtain ⟨object', γ', hrest, hrep'⟩ := ih hobeys
      (hinv.step hconfig hkeeps hresumes.1 hstep) (hresumes.2 t hstep) hexec hrep₁
    refine ⟨object', γ', ?_, hrep'⟩
    rw [history, hstep]
    exact hfirst.append hrest

end Pool

end Protoflight
