import Mathlib.Data.List.Induction
import Protoflight.Os.Timeouts

/-!
# Mutexes

`os_mutex_create` and `os_mutex_give` beside `os_mutex_take`, and the runs of any number of
threads that take and give a mutex after it has been created. The mutexes of POSIX threads are
outside the source: what their calls may return is told here as POSIX does. It promises nothing
about a mutex that has not been initialized.
-/

namespace Protoflight

/-- `pthread_mutexattr_t`, as far as `os_mutex_create` sets it. -/
structure PthreadMutexattr where
  /-- The protocol is `PTHREAD_PRIO_INHERIT`. -/
  prioInherit : Bool
  /-- The type is `PTHREAD_MUTEX_RECURSIVE`. -/
  recursive : Bool
  deriving DecidableEq, Repr

/-- A `pthread_mutex_t` that has been initialized. -/
structure PthreadMutex where
  attr : PthreadMutexattr
  /-- How many times each thread holds the mutex. -/
  holds : ℕ → ℕ

/-- What the primitives return to `os_mutex_create`. -/
structure OsMutexCreateAnswers where
  attrInit : ℤ
  attrSetprotocol : ℤ
  attrSettype : ℤ
  mutexInit : ℤ
  attrDestroy : ℤ

/-- `os_mutex_create`, of a mutex that has been initialized or not. -/
def osMutexCreate (pointer : OsPointer) (env : OsMutexCreateAnswers)
    (mutex : Option PthreadMutex) : OsResult × Option PthreadMutex := Id.run do
  let mut result := OsResult.okay
  let mut retCode : ℤ := 0
  let mut attributeInit := false
  let mut attr : PthreadMutexattr := ⟨false, false⟩
  let mut mutex := mutex
  if pointer = .null then
    retCode := -1
    result := .nullPointer
  if retCode = 0 then
    retCode := env.attrInit
    if retCode = 0 then
      attributeInit := true
      retCode := env.attrSetprotocol
      if retCode = 0 then
        attr := { attr with prioInherit := true }
  if retCode = 0 then
    retCode := env.attrSettype
    if retCode = 0 then
      attr := { attr with recursive := true }
  if retCode = 0 then
    retCode := env.mutexInit
    if retCode = 0 then
      mutex := some ⟨attr, fun _ => 0⟩
  if attributeInit then
    retCode := env.attrDestroy
  if retCode ≠ 0 then
    if result = .okay then
      result := .error
  return (result, mutex)

/-- `os_mutex_give`, where `retCode` is what `pthread_mutex_unlock` returns. -/
def osMutexGive (mutex : OsPointer) (retCode : ℤ) : OsResult :=
  if mutex = .null then .nullPointer
  else if retCode ≠ 0 then .error
  else .okay

/-- The attributes have been set and the mutex initialized with them. -/
def OsMutexCreateAnswers.Initializes (env : OsMutexCreateAnswers) : Prop :=
  env.attrSetprotocol = 0 ∧ env.attrSettype = 0 ∧ env.mutexInit = 0

instance (env : OsMutexCreateAnswers) : Decidable env.Initializes :=
  inferInstanceAs (Decidable (_ ∧ _ ∧ _))

/-- The result of `os_mutex_create` is that of the two calls about the attributes as a whole:
what the calls between them return is lost. -/
theorem osMutexCreate_eq (env : OsMutexCreateAnswers) (mutex : Option PthreadMutex) :
    osMutexCreate .valid env mutex =
      (if env.attrInit = 0 ∧ env.attrDestroy = 0 then .okay else .error,
        if env.attrInit = 0 ∧ env.Initializes then some ⟨⟨true, true⟩, fun _ => 0⟩ else mutex) := by
  obtain ⟨init, setprotocol, settype, mutexInit, destroy⟩ := env
  by_cases hinit : init = 0
  · by_cases hprotocol : setprotocol = 0 <;> by_cases htype : settype = 0 <;>
      by_cases hmutex : mutexInit = 0 <;> by_cases hdestroy : destroy = 0 <;>
      simp [osMutexCreate, OsMutexCreateAnswers.Initializes, hinit, hprotocol, htype, hmutex,
        hdestroy]
  · simp [osMutexCreate, hinit]

/-- A call of a thread on a mutex that has returned. -/
inductive OsMutexCall where
  /-- `os_mutex_take` -/
  | take (timeout : OsTimeout) (env : OsMutexAnswers) (errno : ℤ)
  /-- `os_mutex_give` -/
  | give (retCode : ℤ)

namespace OsMutexCall

/-- What the call has returned. -/
def result : OsMutexCall → OsResult
  | .take timeout env errno => osMutexTake .valid timeout env errno
  | .give retCode => osMutexGive .valid retCode

/-- What the primitive of the call has returned. -/
def retCode : OsMutexCall → ℤ
  | .take timeout env _ => env.retCode timeout
  | .give retCode => retCode

/-- The call has taken the mutex. -/
def takes : OsMutexCall → Bool
  | .take timeout env errno => (OsMutexCall.take timeout env errno).result = .okay
  | .give _ => false

/-- The call has given the mutex. -/
def gives : OsMutexCall → Bool
  | .take .. => false
  | .give retCode => (OsMutexCall.give retCode).result = .okay

/-- A call reports what its primitive returns. -/
theorem result_eq_okay_iff (call : OsMutexCall) : call.result = .okay ↔ call.retCode = 0 := by
  cases call with
  | take timeout env errno =>
    by_cases hcode : env.retCode timeout = 0
    · simp [result, retCode, osMutexTake, hcode]
    · by_cases htimeout : errno = etimedout <;>
        simp [result, retCode, osMutexTake, hcode, htimeout]
  | give code =>
    by_cases hcode : code = 0 <;> simp [result, retCode, osMutexGive, hcode]

end OsMutexCall

/-- The calls of all threads on a mutex, in the order in which they have returned. -/
abbrev OsMutexCalls := List (ℕ × OsMutexCall)

/-- How many times the thread has taken the mutex. -/
def OsMutexCalls.taken (calls : OsMutexCalls) (thread : ℕ) : ℕ :=
  calls.countP fun entry => entry.1 = thread && entry.2.takes

/-- How many times the thread has given the mutex. -/
def OsMutexCalls.given (calls : OsMutexCalls) (thread : ℕ) : ℕ :=
  calls.countP fun entry => entry.1 = thread && entry.2.gives

/-- A mutex excludes: at most one thread has taken it more often than given it, and only this
thread gives it. -/
structure OsMutexCalls.Exclusive (calls : OsMutexCalls) : Prop where
  owner : ∀ thread other, calls.given thread < calls.taken thread →
    calls.given other < calls.taken other → thread = other
  gives_iff : ∀ (before : OsMutexCalls) thread retCode,
    before ++ [(thread, .give retCode)] <+: calls →
      ((OsMutexCall.give retCode).result = .okay ↔ before.given thread < before.taken thread)

namespace PthreadMutex

/-- What the primitive of a call may return: a mutex is not locked while another thread holds it,
and a recursive one is unlocked by the thread that holds it only. -/
def Allows (mutex : PthreadMutex) (thread : ℕ) : OsMutexCall → Prop
  | .take timeout env _ => env.retCode timeout = 0 →
      (∀ other ≠ thread, mutex.holds other = 0) ∧
        (mutex.attr.recursive ∨ mutex.holds thread = 0)
  | .give retCode => mutex.attr.recursive → (retCode = 0 ↔ 0 < mutex.holds thread)

/-- The mutex after a call. -/
def after (mutex : PthreadMutex) (thread : ℕ) (call : OsMutexCall) : PthreadMutex :=
  if call.retCode = 0 then
    match call with
    | .take .. =>
      { mutex with holds := Function.update mutex.holds thread (mutex.holds thread + 1) }
    | .give _ =>
      { mutex with holds := Function.update mutex.holds thread (mutex.holds thread - 1) }
  else mutex

/-- The mutex after the calls. -/
def run (mutex : PthreadMutex) (calls : OsMutexCalls) : PthreadMutex :=
  calls.foldl (fun mutex entry => mutex.after entry.1 entry.2) mutex

end PthreadMutex

/-- Every primitive returns what the mutex allows, if the mutex has been initialized. -/
def OsMutexCalls.Served (calls : OsMutexCalls) (mutex : Option PthreadMutex) : Prop :=
  ∀ initial ∈ mutex, ∀ (before : OsMutexCalls) thread call,
    before ++ [(thread, call)] <+: calls → (initial.run before).Allows thread call

/-- The mutex is held as its calls have reported. -/
structure PthreadMutex.Follows (mutex : PthreadMutex) (calls : OsMutexCalls) : Prop where
  recursive : mutex.attr.recursive = true
  balance : ∀ thread, calls.given thread + mutex.holds thread = calls.taken thread
  exclusive : ∀ thread other, 0 < mutex.holds thread → 0 < mutex.holds other → thread = other

namespace OsMutexCalls

variable (calls : OsMutexCalls) (thread other : ℕ) (call : OsMutexCall)

theorem taken_concat : taken (calls ++ [(thread, call)]) other =
    calls.taken other + if thread = other ∧ call.takes then 1 else 0 := by
  simp [taken, List.countP_append, List.countP_cons]

theorem given_concat : given (calls ++ [(thread, call)]) other =
    calls.given other + if thread = other ∧ call.gives then 1 else 0 := by
  simp [given, List.countP_append, List.countP_cons]

end OsMutexCalls

theorem OsMutexCalls.Served.of_part {calls before : OsMutexCalls} {mutex : Option PthreadMutex}
    (h : calls.Served mutex) (hbefore : before <+: calls) : before.Served mutex :=
  fun initial hinitial earlier thread call hearlier =>
    h initial hinitial earlier thread call (hearlier.trans hbefore)

namespace PthreadMutex

variable {mutex : PthreadMutex} {calls : OsMutexCalls} {thread : ℕ} {call : OsMutexCall}

/-- A mutex that `os_mutex_create` has initialized is held by nobody. -/
theorem follows_initial (mutex : PthreadMutex) (hrecursive : mutex.attr.recursive = true)
    (hholds : mutex.holds = fun _ => 0) : mutex.Follows [] where
  recursive := hrecursive
  balance := by simp [OsMutexCalls.given, OsMutexCalls.taken, hholds]
  exclusive := by simp [hholds]

/-- A thread that holds the mutex has taken it more often than given it. -/
theorem Follows.given_lt_iff (h : mutex.Follows calls) (thread : ℕ) :
    calls.given thread < calls.taken thread ↔ 0 < mutex.holds thread := by
  have hbalance := h.balance thread
  omega

/-- A call whose primitive has failed changes nothing. -/
theorem Follows.fails (h : mutex.Follows calls) (hcode : call.retCode ≠ 0) :
    (mutex.after thread call).Follows (calls ++ [(thread, call)]) := by
  have hokay : call.result ≠ .okay := mt call.result_eq_okay_iff.mp hcode
  have htakes : call.takes = false := by
    cases call <;> simp_all [OsMutexCall.takes]
  have hgives : call.gives = false := by
    cases call <;> simp_all [OsMutexCall.gives]
  have hafter : mutex.after thread call = mutex := if_neg hcode
  rw [hafter]
  exact
    { recursive := h.recursive
      balance := fun other => by
        simpa [OsMutexCalls.taken_concat, OsMutexCalls.given_concat, htakes, hgives]
          using h.balance other
      exclusive := h.exclusive }

/-- A call sets how many times its thread holds the mutex. -/
theorem Follows.of_update {holds : ℕ} (h : mutex.Follows calls)
    (hafter : mutex.after thread call =
      { mutex with holds := Function.update mutex.holds thread holds })
    (hbalance : OsMutexCalls.given (calls ++ [(thread, call)]) thread + holds =
      OsMutexCalls.taken (calls ++ [(thread, call)]) thread)
    (hothers : 0 < holds → ∀ other ≠ thread, mutex.holds other = 0) :
    (mutex.after thread call).Follows (calls ++ [(thread, call)]) := by
  rw [hafter]
  constructor
  · exact h.recursive
  · intro other
    by_cases heq : other = thread
    · subst heq
      simpa using hbalance
    · simpa [OsMutexCalls.taken_concat, OsMutexCalls.given_concat, Function.update_of_ne heq,
        Ne.symm heq] using h.balance other
  · intro first second hfirst hsecond
    dsimp only at hfirst hsecond
    -- a thread that is not the caller holds what it has held
    by_cases hcaller : first = thread <;> by_cases hcaller' : second = thread
    · rw [hcaller, hcaller']
    · rw [hcaller, Function.update_self] at hfirst
      rw [Function.update_of_ne hcaller', hothers hfirst second hcaller'] at hsecond
      exact absurd hsecond (Nat.lt_irrefl 0)
    · rw [hcaller', Function.update_self] at hsecond
      rw [Function.update_of_ne hcaller, hothers hsecond first hcaller] at hfirst
      exact absurd hfirst (Nat.lt_irrefl 0)
    · rw [Function.update_of_ne hcaller] at hfirst
      rw [Function.update_of_ne hcaller'] at hsecond
      exact h.exclusive first second hfirst hsecond

/-- A thread takes the mutex while no other thread holds it. -/
theorem Follows.takes {timeout : OsTimeout} {env : OsMutexAnswers} {errno : ℤ}
    (h : mutex.Follows calls) (hcode : env.retCode timeout = 0)
    (hfree : ∀ other ≠ thread, mutex.holds other = 0) :
    (mutex.after thread (.take timeout env errno)).Follows
      (calls ++ [(thread, .take timeout env errno)]) := by
  have hokay := (OsMutexCall.result_eq_okay_iff (.take timeout env errno)).mpr hcode
  have htaken : OsMutexCalls.taken (calls ++ [(thread, .take timeout env errno)]) thread =
      calls.taken thread + 1 := by
    simp [OsMutexCalls.taken_concat, OsMutexCall.takes, hokay]
  have hgiven : OsMutexCalls.given (calls ++ [(thread, .take timeout env errno)]) thread =
      calls.given thread := by
    simp [OsMutexCalls.given_concat, OsMutexCall.gives]
  have hbalance := h.balance thread
  refine h.of_update (if_pos hcode) ?_ fun _ => hfree
  rw [htaken, hgiven]
  omega

/-- The thread that holds the mutex gives it. -/
theorem Follows.gives {retCode : ℤ} (h : mutex.Follows calls) (hcode : retCode = 0)
    (hholds : 0 < mutex.holds thread) :
    (mutex.after thread (.give retCode)).Follows (calls ++ [(thread, .give retCode)]) := by
  have hokay := (OsMutexCall.result_eq_okay_iff (.give retCode)).mpr hcode
  have htaken : OsMutexCalls.taken (calls ++ [(thread, .give retCode)]) thread =
      calls.taken thread := by
    simp [OsMutexCalls.taken_concat, OsMutexCall.takes]
  have hgiven : OsMutexCalls.given (calls ++ [(thread, .give retCode)]) thread =
      calls.given thread + 1 := by
    simp [OsMutexCalls.given_concat, OsMutexCall.gives, hokay]
  have hfree : ∀ other ≠ thread, mutex.holds other = 0 := by
    intro other hne
    by_contra hother
    exact hne (h.exclusive other thread (Nat.pos_of_ne_zero hother) hholds)
  have hbalance := h.balance thread
  refine h.of_update (if_pos hcode) ?_ fun _ => hfree
  rw [htaken, hgiven]
  omega

/-- One call keeps the mutex as its calls have reported. -/
theorem Follows.step (h : mutex.Follows calls) (hallows : mutex.Allows thread call) :
    (mutex.after thread call).Follows (calls ++ [(thread, call)]) := by
  by_cases hcode : call.retCode = 0
  · cases call with
    | take timeout env errno => exact h.takes hcode (hallows hcode).1
    | give retCode => exact h.gives hcode ((hallows h.recursive).mp hcode)
  · exact h.fails hcode

theorem run_concat (mutex : PthreadMutex) (calls : OsMutexCalls) (thread : ℕ)
    (call : OsMutexCall) :
    mutex.run (calls ++ [(thread, call)]) = (mutex.run calls).after thread call := by
  simp [run]

/-- The mutex stays as its calls have reported, whatever the order of the threads. -/
theorem Follows.run (h : mutex.Follows []) (hserved : calls.Served (some mutex)) :
    (mutex.run calls).Follows calls := by
  induction calls using List.reverseRecOn with
  | nil => exact h
  | append_singleton calls entry ih =>
    obtain ⟨thread, call⟩ := entry
    have hbefore := hserved.of_part (List.prefix_append calls [(thread, call)])
    have hallows := hserved mutex rfl calls thread call (List.prefix_refl _)
    rw [run_concat]
    exact (ih hbefore).step hallows

end PthreadMutex

/-- The calls on a mutex that has been initialized exclude. -/
theorem OsMutexCalls.Served.exclusive {calls : OsMutexCalls} {mutex : PthreadMutex}
    (hserved : calls.Served (some mutex)) (hinitial : mutex.Follows []) : calls.Exclusive where
  owner := by
    have hfollows := hinitial.run hserved
    intro thread other hthread hother
    exact hfollows.exclusive thread other ((hfollows.given_lt_iff thread).mp hthread)
      ((hfollows.given_lt_iff other).mp hother)
  gives_iff := by
    intro before thread retCode hgiven
    have hfollows := hinitial.run
      (hserved.of_part ((List.prefix_append before _).trans hgiven))
    have hallows := hserved mutex rfl before thread (.give retCode) hgiven
    rw [hfollows.given_lt_iff, OsMutexCall.result_eq_okay_iff]
    exact hallows hfollows.recursive

/-- Nothing keeps a thread from giving a mutex that has not been initialized. -/
theorem OsMutexCalls.not_forall_exclusive :
    ¬ ∀ calls : OsMutexCalls, calls.Served none → calls.Exclusive := by
  intro h
  have hexclusive := h [(0, .give 0)] (by simp [OsMutexCalls.Served])
  have hgives := (hexclusive.gives_iff [] 0 0 (List.prefix_refl _)).mp rfl
  exact Nat.not_lt_zero _ hgives

/-- The mutex excludes whenever `os_mutex_create` reports OKAY, unless the attributes have been
initialized and destroyed and a call between the two has failed: what it returns is lost. -/
theorem os_mutex_excludes_iff (pointer : OsPointer) (env : OsMutexCreateAnswers) :
    ((osMutexCreate pointer env none).1 = .okay →
        ∀ calls : OsMutexCalls, calls.Served (osMutexCreate pointer env none).2 →
          calls.Exclusive) ↔
      ¬ (pointer = .valid ∧ env.attrInit = 0 ∧ env.attrDestroy = 0 ∧ ¬ env.Initializes) := by
  cases pointer with
  | null => simp [osMutexCreate]
  | valid =>
    rw [osMutexCreate_eq]
    by_cases hattr : env.attrInit = 0 ∧ env.attrDestroy = 0
    · obtain ⟨hinit, hdestroy⟩ := hattr
      by_cases hinitializes : env.Initializes
      · have hinitial := PthreadMutex.follows_initial ⟨⟨true, true⟩, fun _ => 0⟩ rfl rfl
        simp only [hinit, hdestroy, hinitializes, and_self, if_true, not_true, and_false,
          not_false_eq_true, iff_true]
        exact fun _ calls hserved => hserved.exclusive hinitial
      · simpa [hinit, hdestroy, hinitializes] using OsMutexCalls.not_forall_exclusive
    · simp only [if_neg hattr]
      have hdefect : ¬ (env.attrInit = 0 ∧ env.attrDestroy = 0 ∧ ¬ env.Initializes) :=
        fun h => hattr ⟨h.1, h.2.1⟩
      simpa using hdefect

/-- `pthread_mutex_init` fails with EAGAIN, and `os_mutex_create` reports OKAY. -/
theorem os_mutex_excludes_iff_init_fails :
    ¬ ((osMutexCreate .valid ⟨0, 0, 0, 11, 0⟩ none).1 = .okay →
      ∀ calls : OsMutexCalls, calls.Served (osMutexCreate .valid ⟨0, 0, 0, 11, 0⟩ none).2 →
        calls.Exclusive) :=
  fun h => (os_mutex_excludes_iff .valid ⟨0, 0, 0, 11, 0⟩).mp h (by decide)

end Protoflight
