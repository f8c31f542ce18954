import Protoflight.Monitor.Annotations

/-!
# Condition variables with one waiter each

A woken thread finds what it was woken for if nobody can take it away in between. That is so where
each condition variable is waited on by one thread only, its owner, is signalled only when there is
something for it, and is left so by all other threads.
-/

namespace Protoflight

variable {S K A C D R α : Type}

/-- Only the owner of a condition variable waits on it and takes away what it waits for. -/
def ownership (M : Monitor S K A) (wakes : C → S → Prop) (owner : C → ℕ) :
    Annotation S A C R α Unit where
  rest := ()
  allows i deed _ _ :=
    match deed with
    | .wait condition _ => owner condition = i
    | .signal condition _ data => wakes condition data
    | .access action data => ∀ condition, owner condition ≠ i → wakes condition data →
      wakes condition (M.perform action data)
    | _ => True

section Phases

variable {phase : ℕ → Option C} {i j : ℕ} {condition condition' : C}

/-- A thread that is somewhere after another one has gone was there before. -/
theorem eq_some_of_update_none (h : Function.update phase i none j = some condition) :
    phase j = some condition := by
  by_cases hji : j = i
  · simp [hji] at h
  · rwa [Function.update_of_ne hji] at h

/-- A thread that is somewhere has just come or was there before. -/
theorem eq_or_eq_some_of_update
    (h : Function.update phase i (some condition) j = some condition') :
    (j = i ∧ condition' = condition) ∨ phase j = some condition' := by
  by_cases hji : j = i
  · rw [hji, Function.update_self, Option.some.injEq] at h
    exact .inl ⟨hji, h.symm⟩
  · rw [Function.update_of_ne hji] at h
    exact .inr h

end Phases

namespace Pool

variable {M : Monitor S K A} {wakes : C → S → Prop} {owner : C → ℕ} {s s' : Pool S K A C D α}

/-- Only owners are blocked, and those that were woken will find what they were woken for. -/
structure Owned (wakes : C → S → Prop) (owner : C → ℕ) (s : Pool S K A C D α) : Prop where
  waiting : ∀ i condition, s.waitingOn i = some condition → owner condition = i
  woken : ∀ i condition, s.wokenOn i = some condition → owner condition = i
  wakes : ∀ i condition, s.wokenOn i = some condition → wakes condition s.data

/-- Nobody is blocked at the start. -/
theorem Owned.start (data : S) : Owned wakes owner (Pool.start data : Pool S K A C D α) :=
  ⟨nofun, nofun, nofun⟩

/-- A thread that is resumed finds what it was woken for. -/
theorem Owned.resumesWell (h : Owned wakes owner s) (action : Action R D) :
    s.ResumesWell wakes action := by
  cases action with
  | resume i => exact fun condition hwoken => h.wakes i condition hwoken
  | call | clock | errno | signal | advance => exact trivial

/-- The phases and the data are as before. -/
theorem Owned.of_eq (h : Owned wakes owner s) (hdata : s'.data = s.data)
    (hphases : SamePhases s s') : Owned wakes owner s' := by
  obtain ⟨hwaiting, hwoken⟩ := hphases
  exact ⟨hwaiting ▸ h.waiting, hwoken ▸ h.woken, hdata ▸ hwoken ▸ h.wakes⟩

/-- Every step that is allowed leaves the condition variables to their owners. -/
theorem Owned.step (h : Owned wakes owner s) {action : Action R D} {γ γ' : ℕ → Unit}
    (heffect : Effect M s s' (s.deed action))
    (hexplains : Explains (ownership M wakes owner) γ γ' (s.deed action)) :
    Owned wakes owner s' := by
  cases hdeed : s.deed action with
  | none =>
    rw [hdeed] at heffect
    obtain ⟨hdata, -, hphases⟩ := heffect
    exact h.of_eq hdata hphases
  | some step =>
    obtain ⟨i, deed⟩ := step
    rw [hdeed] at heffect hexplains
    have hallows := hexplains.1
    cases deed with
    | call request | ret value =>
      obtain ⟨hdata, -, hphases⟩ := heffect
      exact h.of_eq hdata hphases
    | lock data | unlock data =>
      obtain ⟨-, hdata, -, -, hphases⟩ := heffect
      exact h.of_eq hdata hphases
    | wait condition data =>
      obtain ⟨-, hdata, -, -, hwaiting, hwoken⟩ := heffect
      have howner : owner condition = i := hallows
      refine ⟨fun j c hj => ?_, hwoken ▸ h.woken, hdata ▸ hwoken ▸ h.wakes⟩
      rcases eq_or_eq_some_of_update (hwaiting ▸ hj) with ⟨rfl, rfl⟩ | hj
      · exact howner
      · exact h.waiting j c hj
    | resume condition data =>
      obtain ⟨-, hdata, -, -, -, hwaiting, hwoken⟩ := heffect
      have hbefore (j : ℕ) (c : C) (hj : s'.wokenOn j = some c) : s.wokenOn j = some c :=
        eq_some_of_update_none (hwoken ▸ hj)
      exact ⟨hwaiting ▸ h.waiting, fun j c hj => h.woken j c (hbefore j c hj),
        fun j c hj => hdata ▸ h.wakes j c (hbefore j c hj)⟩
    | signal condition waiter data =>
      cases waiter with
      | none =>
        obtain ⟨-, hdata, -, -, hphases⟩ := heffect
        exact h.of_eq hdata hphases
      | some l =>
        obtain ⟨rfl, hdata, -, -, hl, hwaiting, hwoken⟩ := heffect
        have hwakes : wakes condition s.data := hallows
        refine ⟨fun j c hj => ?_, fun j c hj => ?_, fun j c hj => ?_⟩
        · exact h.waiting j c (eq_some_of_update_none (hwaiting ▸ hj))
        · rcases eq_or_eq_some_of_update (hwoken ▸ hj) with ⟨rfl, rfl⟩ | hj
          · exact h.waiting j c hl
          · exact h.woken j c hj
        · rw [hdata]
          rcases eq_or_eq_some_of_update (hwoken ▸ hj) with ⟨rfl, rfl⟩ | hj
          · exact hwakes
          · exact h.wakes j c hj
    | access action data =>
      obtain ⟨rfl, hdata, -, -, hself, hwaiting, hwoken⟩ := heffect
      refine ⟨hwaiting ▸ h.waiting, hwoken ▸ h.woken, fun j c hj => ?_⟩
      rw [hwoken] at hj
      have howner : owner c ≠ i := by
        intro heq
        rw [← heq, h.woken j c hj, hj] at hself
        cases hself
      rw [hdata]
      exact hallows c howner (h.wakes j c hj)

end Pool

end Protoflight
