import Mathlib.Tactic.Common
import Protoflight.Os.Types

/-!
# Starting a task

`os_task_spawn`, with the primitives of POSIX threads that it calls one after
another. These return zero or a positive error number, where the function looks for
a negative code: once its arguments have passed, nothing that goes wrong is reported.
-/

namespace Protoflight

/-- `SIGRTMIN` -/
def sigrtmin : Int32 := 34

/-- `SIGRTMAX` -/
def sigrtmax : Int32 := 64

/-- What `os_task_spawn` sets of `pthread_attr_t`. -/
structure PthreadAttr where
  /-- `PTHREAD_EXPLICIT_SCHED` -/
  explicitSched : Bool
  stackSize : Option UInt64
  /-- `SCHED_FIFO` -/
  fifo : Bool
  schedPriority : Option Int32
  deriving DecidableEq, Repr

/-- The attributes after `pthread_attr_init`. -/
def PthreadAttr.initial : PthreadAttr := ⟨false, none, false, none⟩

namespace PthreadAttr

variable (attr : PthreadAttr) (code : ℤ)

/-- The attributes after `pthread_attr_setinheritsched` has returned a code. -/
def setinheritsched : PthreadAttr := if code = 0 then { attr with explicitSched := true } else attr

/-- The attributes after `pthread_attr_setstacksize` has returned a code. -/
def setstacksize (stackSize : UInt64) : PthreadAttr :=
  if code = 0 then { attr with stackSize := some stackSize } else attr

/-- The attributes after `pthread_attr_setschedpolicy` has returned a code. -/
def setschedpolicy : PthreadAttr := if code = 0 then { attr with fifo := true } else attr

/-- The attributes after `pthread_attr_setschedparam` has returned a code. -/
def setschedparam (schedPriority : Int32) : PthreadAttr :=
  if code = 0 then { attr with schedPriority := some schedPriority } else attr

end PthreadAttr

/-- A thread as it is created, to run a function on an argument. -/
structure OsThread (F : Type) where
  attr : PthreadAttr
  function : F
  argument : UInt64

/-- The thread there is after `pthread_create` has returned a code. -/
def pthreadCreate {F : Type} (code : ℤ) (thread : OsThread F) : Option (OsThread F) :=
  if code = 0 then some thread else none

/-- What the primitives return to `os_task_spawn`. -/
structure OsTaskAnswers where
  /-- `pthread_attr_init` -/
  attrInit : ℤ
  /-- `geteuid` -/
  euid : UInt32
  /-- `pthread_attr_setinheritsched` -/
  setinheritsched : ℤ
  /-- `pthread_attr_setstacksize` -/
  setstacksize : ℤ
  /-- `pthread_attr_setschedpolicy` -/
  setschedpolicy : ℤ
  /-- `pthread_attr_setschedparam` -/
  setschedparam : ℤ
  /-- `pthread_create` -/
  create : ℤ
  /-- `pthread_detach` -/
  detach : ℤ
  /-- `pthread_attr_destroy` -/
  attrDestroy : ℤ

variable {F : Type}

/-- `os_task_spawn`, where the first argument tells whether the pointer `task` is NULL.
The second component is the thread that `pthread_create` has created, if it has. -/
def osTaskSpawn (taskIsNull : Bool) (function : Option F) (argument : UInt64)
    (priority stackSize : Int32) (env : OsTaskAnswers) : OsResult × Option (OsThread F) := Id.run do
  let mut result := OsResult.okay
  let mut attr := PthreadAttr.initial
  let mut thread := none
  if taskIsNull ∨ function.isNone then
    result := .nullPointer
  if result = .okay then
    if stackSize = 0 ∨ priority < 0 then
      result := .invalidArguments
  if result = .okay then
    if priority > sigrtmax - sigrtmin then
      result := .invalidArguments
  if result = .okay then
    if env.attrInit < 0 then
      result := .error
  if env.euid = 0 then
    if result = .okay then
      attr := attr.setinheritsched env.setinheritsched
      if env.setinheritsched < 0 then
        result := .error
    if result = .okay then
      attr := attr.setstacksize env.setstacksize stackSize.toInt64.toUInt64
      if env.setstacksize < 0 then
        result := .error
    if result = .okay then
      attr := attr.setschedpolicy env.setschedpolicy
      if env.setschedpolicy < 0 then
        result := .error
    if result = .okay then
      attr := attr.setschedparam env.setschedparam (sigrtmax - priority)
      if env.setschedparam < 0 then
        result := .error
  if result = .okay then
    thread := function.bind fun function => pthreadCreate env.create ⟨attr, function, argument⟩
    if env.create < 0 then
      result := .error
  if result = .okay then
    if env.detach < 0 then
      result := .error
  if result = .okay then
    if env.attrDestroy < 0 then
      result := .error
  return (result, thread)

/-- The arguments pass the checks of `os_task_spawn`. -/
def OsTaskAccepts (function : Option F) (priority stackSize : Int32) : Prop :=
  function.isSome ∧ stackSize ≠ 0 ∧ 0 ≤ priority ∧ priority ≤ sigrtmax - sigrtmin

instance (function : Option F) (priority stackSize : Int32) :
    Decidable (OsTaskAccepts function priority stackSize) :=
  inferInstanceAs (Decidable (_ ∧ _ ∧ _ ∧ _))

namespace OsTaskAnswers

/-- The primitives return zero or a positive error number. -/
structure Conventional (env : OsTaskAnswers) : Prop where
  attrInit : 0 ≤ env.attrInit
  setinheritsched : 0 ≤ env.setinheritsched
  setstacksize : 0 ≤ env.setstacksize
  setschedpolicy : 0 ≤ env.setschedpolicy
  setschedparam : 0 ≤ env.setschedparam
  create : 0 ≤ env.create
  detach : 0 ≤ env.detach
  attrDestroy : 0 ≤ env.attrDestroy

/-- None of the primitives that are called fails. The attributes of the thread are set
for the superuser alone. -/
structure AllSucceed (env : OsTaskAnswers) : Prop where
  attrInit : env.attrInit = 0
  attributes : env.euid = 0 → env.setinheritsched = 0 ∧ env.setstacksize = 0 ∧
    env.setschedpolicy = 0 ∧ env.setschedparam = 0
  create : env.create = 0
  detach : env.detach = 0
  attrDestroy : env.attrDestroy = 0

end OsTaskAnswers

variable {function : Option F} {priority stackSize : Int32} {env : OsTaskAnswers}

/-- A task whose arguments do not pass is refused, and no thread is created. -/
theorem osTaskSpawn_refused (argument : UInt64) (env : OsTaskAnswers)
    (h : ¬OsTaskAccepts function priority stackSize) :
    ∃ result, result ≠ .okay ∧
      osTaskSpawn false function argument priority stackSize env = (result, none) := by
  by_cases hfunction : function = none
  · exact ⟨.nullPointer, by decide, by simp [osTaskSpawn, hfunction]⟩
  · refine ⟨.invalidArguments, by decide, ?_⟩
    by_cases hargs : stackSize = 0 ∨ priority < 0
    · simp [osTaskSpawn, hfunction, hargs]
    · have hpriority : sigrtmax - sigrtmin < priority := by
        by_contra hle
        obtain ⟨hsize, hneg⟩ := not_or.mp hargs
        exact h ⟨Option.isSome_iff_ne_none.mpr hfunction, hsize, Int32.not_lt.mp hneg,
          Int32.not_lt.mp hle⟩
      simp [osTaskSpawn, hfunction, hargs, hpriority]

/-- Every other task is reported as spawned, and there is a thread for it exactly if
`pthread_create` has succeeded. -/
theorem osTaskSpawn_accepted (argument : UInt64) (h : OsTaskAccepts function priority stackSize)
    (henv : env.Conventional) :
    ∃ thread, function = some thread.function ∧ thread.argument = argument ∧
      osTaskSpawn false function argument priority stackSize env =
        (.okay, pthreadCreate env.create thread) := by
  obtain ⟨hfunction, hsize, hneg, hpriority⟩ := h
  obtain ⟨value, rfl⟩ := Option.isSome_iff_exists.mp hfunction
  have hargs : ¬(stackSize = 0 ∨ priority < 0) := not_or.mpr ⟨hsize, Int32.not_lt.mpr hneg⟩
  have hpriority' := Int32.not_lt.mpr hpriority
  have hinit := Int.not_lt.mpr henv.attrInit
  have hcreate := Int.not_lt.mpr henv.create
  have hdetach := Int.not_lt.mpr henv.detach
  have hdestroy := Int.not_lt.mpr henv.attrDestroy
  by_cases hroot : env.euid = 0
  · simp [osTaskSpawn, hargs, hpriority', hroot, hinit, Int.not_lt.mpr henv.setinheritsched,
      Int.not_lt.mpr henv.setstacksize, Int.not_lt.mpr henv.setschedpolicy,
      Int.not_lt.mpr henv.setschedparam, hcreate, hdetach, hdestroy]
    exact ⟨⟨_, value, argument⟩, rfl, rfl, rfl⟩
  · simp [osTaskSpawn, hargs, hpriority', hroot, hinit, hcreate, hdetach, hdestroy]
    exact ⟨⟨_, value, argument⟩, rfl, rfl, rfl⟩

end Protoflight
