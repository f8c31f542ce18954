import Mathlib.Data.Nat.ModEq
import Protoflight.Os.QueueRt

/-!
# The names of message queues

The calls of `os_queue_create` of `os_queue.c` in one process. The names come from a
counter of the process, and the message queues outlive the process: the kernel opens the
one that has the name already, with its sizes and its messages.
-/

namespace Protoflight

/-- A message queue of the kernel. -/
structure MqEntry where
  attr : MqAttr
  messages : List (List UInt8)
  deriving DecidableEq, Repr

/-- The message queues of the kernel by their names. -/
abbrev MqNamespace := MqName → Option MqEntry

/-- `mq_open` with `O_CREAT` and without `O_EXCL`. The descriptor stands for the message
queue of the name. The kernel may refuse. -/
def MqNamespace.mqOpen (refused : Bool) (name : MqName) (attr : MqAttr) (mqs : MqNamespace) :
    Option MqName × MqNamespace :=
  if refused then (none, mqs)
  else match mqs name with
    | some _ => (some name, mqs)
    | none => (some name, Function.update mqs name (some ⟨attr, []⟩))

/-- A call of `os_queue_create`, with what the pointer points to, or nothing for NULL. -/
structure OsQueueCreation where
  queue : Option MqName
  numMsgs : UInt32
  msgSizeBytes : UInt32
  /-- The kernel refuses the `mq_open` of the call. -/
  refused : Bool

/-- A process that has not created a queue yet. -/
def OsQueueRtState.start (mqs : MqNamespace) : OsQueueRtState MqNamespace := ⟨0, mqs⟩

namespace OsQueueCreation

/-- The call. -/
def run (call : OsQueueCreation) (s : OsQueueRtState MqNamespace) :
    OsResult × Option MqName × OsQueueRtState MqNamespace :=
  osQueueCreateRt (MqNamespace.mqOpen call.refused) call.queue call.numMsgs call.msgSizeBytes s

/-- An empty message queue with the sizes of the call. -/
def wanted (call : OsQueueCreation) : MqEntry :=
  ⟨⟨call.numMsgs.toNat, call.msgSizeBytes.toNat⟩, []⟩

/-- Each call that succeeds yields a message queue as it wants it, none of those that were
opened before. -/
def YieldFresh : List OsQueueCreation → List MqName → OsQueueRtState MqNamespace → Prop
  | [], _, _ => True
  | call :: calls, opened, s =>
    match call.run s with
    | (.okay, some name, s') =>
      (name ∉ opened ∧ s'.kernel name = some call.wanted) ∧ YieldFresh calls (name :: opened) s'
    | (_, _, s') => YieldFresh calls opened s'

/-- The arguments pass the checks of `os_queue_create`. -/
def Checked (call : OsQueueCreation) : Prop :=
  call.queue.isSome ∧ call.numMsgs ≠ 0 ∧ call.msgSizeBytes ≠ 0

instance (call : OsQueueCreation) : Decidable call.Checked :=
  inferInstanceAs (Decidable (_ ∧ _ ∧ _))

/-- The calls that the kernel does not refuse, numbered like all that pass the checks. -/
def granted (calls : List OsQueueCreation) (first : ℕ) : List (OsQueueCreation × ℕ) :=
  ((calls.filter fun call => call.Checked).zipIdx first).filter fun (call, _) => !call.refused

/-- The name that a number gives. -/
def nameOf (number : ℕ) : MqName := osQueueName (Int32.ofNat number)

/-- What has the name of a number, if anything, is as the call wants it. -/
def FindsNothingElse (mqs : MqNamespace) : OsQueueCreation × ℕ → Prop
  | (call, number) => ∀ entry, mqs (nameOf number) = some entry → entry = call.wanted

/-- The calls find nothing but what they want under their names, and do not use a name
twice. -/
structure NamesUnused (mqs : MqNamespace) (calls : List OsQueueCreation) : Prop where
  finds : ∀ call ∈ granted calls 0, FindsNothingElse mqs call
  once : (granted calls 0).Pairwise fun before after => ¬before.2 ≡ after.2 [MOD 2 ^ 32]

end OsQueueCreation

section Names

/-- Different numbers are written differently. -/
theorem decimal_injective : Function.Injective decimal := by
  have hdigits {m n : ℕ} (h : Nat.toDigits 10 m = Nat.toDigits 10 n) : m = n := by
    have hread := congrArg (fun digits => Nat.ofDigitChars 10 digits 0) h
    simpa only [Nat.ofDigitChars_ten_toDigits] using hread
  have hsign {m n : ℕ} (h : Nat.toDigits 10 m = '-' :: Nat.toDigits 10 n) : False := by
    have hmem : '-' ∈ Nat.toDigits 10 m := h ▸ List.mem_cons_self
    exact absurd (Nat.isDigit_of_mem_toDigits (by decide) (by decide) hmem) (by decide)
  intro a b h
  cases a with
  | ofNat m =>
    cases b with
    | ofNat n => exact congrArg Int.ofNat (hdigits h)
    | negSucc n => exact (hsign h).elim
  | negSucc m =>
    cases b with
    | ofNat n => exact (hsign h.symm).elim
    | negSucc n =>
      have heq := hdigits (List.cons.inj h).2
      exact congrArg Int.negSucc (by omega)

/-- A counter gives each name once. -/
theorem osQueueName_injective : Function.Injective osQueueName := fun _ _ h =>
  Int32.toInt_inj.mp (decimal_injective (List.append_cancel_left h))

/-- The counter has 32 bits. -/
theorem OsQueueCreation.nameOf_eq_iff {m n : ℕ} :
    nameOf m = nameOf n ↔ m ≡ n [MOD 2 ^ 32] := by
  unfold nameOf Nat.ModEq
  rw [osQueueName_injective.eq_iff, ← Int32.toBitVec_inj, Int32.toBitVec_ofNat',
    Int32.toBitVec_ofNat', ← BitVec.toNat_inj, BitVec.toNat_ofNat, BitVec.toNat_ofNat]

end Names

namespace MqNamespace

variable {mqs : MqNamespace} {name : MqName} {attr : MqAttr}

/-- A message queue that is opened is the one of the name. -/
theorem mqOpen_granted : (mqs.mqOpen false name attr).1 = some name := by
  unfold mqOpen
  cases mqs name <;> rfl

/-- What has the name of an open message queue. -/
theorem mqOpen_self :
    (mqs.mqOpen false name attr).2 name = some ((mqs name).getD ⟨attr, []⟩) := by
  unfold mqOpen
  cases hentry : mqs name with
  | none => exact Function.update_self ..
  | some entry => exact hentry

/-- Every other name is left alone. -/
theorem mqOpen_of_ne {other : MqName} (h : other ≠ name) :
    (mqs.mqOpen false name attr).2 other = mqs other := by
  unfold mqOpen
  cases mqs name with
  | none => exact Function.update_of_ne h ..
  | some entry => rfl

end MqNamespace

namespace OsQueueCreation

variable {call : OsQueueCreation} {s : OsQueueRtState MqNamespace}

/-- A call that does not pass the checks fails and changes nothing. -/
theorem run_unchecked (h : ¬call.Checked) :
    ∃ result queue, result ≠ .okay ∧ call.run s = (result, queue, s) := by
  unfold run osQueueCreateRt
  by_cases hqueue : call.queue.isNone
  · exact ⟨.nullPointer, call.queue, by decide, if_pos hqueue⟩
  · have hsizes : call.numMsgs = 0 ∨ call.msgSizeBytes = 0 := by
      by_contra hsizes
      obtain ⟨hnum, hsize⟩ := not_or.mp hsizes
      exact h ⟨Option.isSome_iff_ne_none.mpr (mt Option.isNone_iff_eq_none.mpr hqueue), hnum, hsize⟩
    exact ⟨.invalidArguments, call.queue, by decide, by rw [if_neg hqueue, if_pos hsizes]⟩

/-- A call that passes the checks opens the name of the counter, and advances the counter. -/
theorem run_checked (h : call.Checked) :
    call.run s =
      (let (opened, kernel) :=
        s.kernel.mqOpen call.refused (osQueueName s.numQueues) call.wanted.attr
      (if opened.isSome then .okay else .queueCreateError, opened.or call.queue,
        ⟨s.numQueues + 1, kernel⟩)) := by
  obtain ⟨hqueue, hnum, hsize⟩ := h
  have hsome : ¬call.queue.isNone = true := by
    rw [Option.isNone_iff_eq_none]
    exact Option.isSome_iff_ne_none.mp hqueue
  have hsizes : ¬(call.numMsgs = 0 ∨ call.msgSizeBytes = 0) := not_or.mpr ⟨hnum, hsize⟩
  have hattr : call.wanted.attr = ⟨call.numMsgs.toNat, call.msgSizeBytes.toNat⟩ := rfl
  rw [hattr, run, osQueueCreateRt, if_neg hsome, if_neg hsizes]
  rcases s.kernel.mqOpen call.refused (osQueueName s.numQueues)
    ⟨call.numMsgs.toNat, call.msgSizeBytes.toNat⟩ with ⟨_ | name, kernel⟩ <;> rfl

variable {calls : List OsQueueCreation} {opened : List MqName}

/-- A call that does not pass the checks does not count. -/
theorem yieldFresh_unchecked (h : ¬call.Checked) :
    YieldFresh (call :: calls) opened s ↔ YieldFresh calls opened s := by
  obtain ⟨result, queue, hresult, hrun⟩ := run_unchecked h (s := s)
  rw [YieldFresh, hrun]
  cases result with
  | okay => exact absurd rfl hresult
  | _ => exact Iff.rfl

/-- A call that the kernel refuses takes a number. -/
theorem yieldFresh_refused (h : call.Checked) (hrefused : call.refused = true) :
    YieldFresh (call :: calls) opened s ↔
      YieldFresh calls opened ⟨s.numQueues + 1, s.kernel⟩ := by
  rw [YieldFresh, run_checked h, hrefused]
  exact Iff.rfl

/-- A call that the kernel grants is fresh if the name is, and if nothing else has it. -/
theorem yieldFresh_granted (h : call.Checked) (hrefused : call.refused = false) :
    YieldFresh (call :: calls) opened s ↔
      (osQueueName s.numQueues ∉ opened ∧
        ∀ entry, s.kernel (osQueueName s.numQueues) = some entry → entry = call.wanted) ∧
      YieldFresh calls (osQueueName s.numQueues :: opened) ⟨s.numQueues + 1,
        (s.kernel.mqOpen false (osQueueName s.numQueues) call.wanted.attr).2⟩ := by
  have hrun : call.run s = (.okay, some (osQueueName s.numQueues), ⟨s.numQueues + 1,
      (s.kernel.mqOpen false (osQueueName s.numQueues) call.wanted.attr).2⟩) := by
    rw [run_checked h, hrefused]
    simp only [MqNamespace.mqOpen_granted, Option.isSome_some, if_true, Option.some_or]
  have hentry : (s.kernel.mqOpen false (osQueueName s.numQueues) call.wanted.attr).2
      (osQueueName s.numQueues) = some call.wanted ↔
      ∀ entry, s.kernel (osQueueName s.numQueues) = some entry → entry = call.wanted := by
    rw [MqNamespace.mqOpen_self]
    cases s.kernel (osQueueName s.numQueues) with
    | none => simp [wanted]
    | some entry => simp
  rw [YieldFresh, hrun]
  simp only [hentry]

/-- The calls find nothing but what they want, under names that are new and used once. -/
def NamesNew (mqs : MqNamespace) (opened : List MqName) (calls : List (OsQueueCreation × ℕ)) :
    Prop :=
  (∀ call ∈ calls, nameOf call.2 ∉ opened ∧ FindsNothingElse mqs call) ∧
    calls.Pairwise fun before after => nameOf before.2 ≠ nameOf after.2

/-- The name of the first call is not new any more for the others. -/
theorem namesNew_cons {mqs : MqNamespace} {first : ℕ} {rest : List (OsQueueCreation × ℕ)} :
    NamesNew mqs opened ((call, first) :: rest) ↔
      (nameOf first ∉ opened ∧ FindsNothingElse mqs (call, first)) ∧
        NamesNew mqs (nameOf first :: opened) rest := by
  unfold NamesNew
  rw [List.forall_mem_cons, List.pairwise_cons]
  constructor
  · rintro ⟨⟨hfirst, hrest⟩, hother, honce⟩
    refine ⟨hfirst, fun after hmem => ⟨?_, (hrest after hmem).2⟩, honce⟩
    exact List.not_mem_cons_of_ne_of_not_mem (hother after hmem).symm (hrest after hmem).1
  · rintro ⟨hfirst, hrest, honce⟩
    refine ⟨⟨hfirst, fun after hmem => ⟨?_, (hrest after hmem).2⟩⟩, fun after hmem => ?_, honce⟩
    · exact (List.ne_and_not_mem_of_not_mem_cons (hrest after hmem).1).2
    · exact (List.ne_and_not_mem_of_not_mem_cons (hrest after hmem).1).1.symm

/-- With a counter that gives the number `first`, and a kernel that differs from the initial
one only in the message queues that were opened, the calls yield what they should exactly
if they find nothing else under names that are new. -/
theorem yieldFresh_iff {mqs : MqNamespace} {first : ℕ} (hnumber : s.numQueues = Int32.ofNat first)
    (hkernel : ∀ name ∉ opened, s.kernel name = mqs name) :
    YieldFresh calls opened s ↔ NamesNew mqs opened (granted calls first) := by
  induction calls generalizing s opened first with
  | nil => exact ⟨fun _ => ⟨fun _ hmem => absurd hmem List.not_mem_nil, .nil⟩, fun _ => trivial⟩
  | cons call calls ih =>
    by_cases hchecked : call.Checked
    · have hnext : s.numQueues + 1 = Int32.ofNat (first + 1) := by
        rw [hnumber, Int32.ofNat_add]
        rfl
      cases hrefused : call.refused with
      | true =>
        have hgranted : granted (call :: calls) first = granted calls (first + 1) := by
          simp [granted, hchecked, List.zipIdx_cons, hrefused]
        rw [yieldFresh_refused hchecked hrefused, hgranted]
        exact ih hnext hkernel
      | false =>
        have hgranted : granted (call :: calls) first =
            (call, first) :: granted calls (first + 1) := by
          simp [granted, hchecked, List.zipIdx_cons, hrefused]
        have hname : osQueueName s.numQueues = nameOf first := by rw [hnumber, nameOf]
        have hsame : ∀ name ∉ nameOf first :: opened,
            (s.kernel.mqOpen false (nameOf first) call.wanted.attr).2 name = mqs name := by
          intro name hname
          obtain ⟨hne, hopened⟩ := List.ne_and_not_mem_of_not_mem_cons hname
          rw [MqNamespace.mqOpen_of_ne hne, hkernel name hopened]
        rw [yieldFresh_granted hchecked hrefused, hgranted, hname, namesNew_cons, ih hnext hsame]
        refine and_congr_left' (and_congr_right fun hnew => ?_)
        rw [hkernel _ hnew]
        rfl
    · have hgranted : granted (call :: calls) first = granted calls first := by
        simp [granted, hchecked]
      rw [yieldFresh_unchecked hchecked, hgranted]
      exact ih hnumber hkernel

/-- Whatever the kernel has got already, the successful creations of a process yield new
empty message queues with the sizes they ask for exactly if they find nothing else under
their names and do not use a name twice. -/
theorem os_queues_created_fresh_iff (mqs : MqNamespace) (calls : List OsQueueCreation) :
    YieldFresh calls [] (.start mqs) ↔ NamesUnused mqs calls := by
  have hnumber : (OsQueueRtState.start mqs).numQueues = Int32.ofNat 0 := rfl
  have hkernel : ∀ name ∉ [], (OsQueueRtState.start mqs).kernel name = mqs name := fun _ _ => rfl
  rw [yieldFresh_iff hnumber hkernel]
  constructor
  · rintro ⟨hfinds, honce⟩
    exact ⟨fun call hmem => (hfinds call hmem).2, honce.imp (mt nameOf_eq_iff.mpr)⟩
  · intro h
    exact ⟨fun call hmem => ⟨List.not_mem_nil, h.finds call hmem⟩,
      h.once.imp (mt nameOf_eq_iff.mp)⟩

/-- An earlier run of the program has left a message queue of one slot of four bytes, with a
message in it. -/
def leftBehind : MqNamespace :=
  Function.update (fun _ => none) "/Fsw_Queue_0".toList (some ⟨⟨1, 4⟩, [[7]]⟩)

/-- The first queue of the next run, for ten messages of eight bytes, is the one left behind. -/
theorem os_queues_created_fresh_not :
    ¬∀ (mqs : MqNamespace) (calls : List OsQueueCreation), YieldFresh calls [] (.start mqs) := by
  intro h
  have hfound : leftBehind (nameOf 0) = some ⟨⟨1, 4⟩, [[7]]⟩ := by decide
  obtain ⟨⟨-, hfinds⟩, -⟩ := (yieldFresh_granted (by decide) rfl).mp
    (h leftBehind [⟨some [], 10, 8, false⟩])
  exact absurd (hfinds _ hfound) (by decide)

end OsQueueCreation

end Protoflight
