import Protoflight.Data.Flags
import Protoflight.Fsw.EmLayout
import Protoflight.Fsw.Startup

/-!
# The startup event

`main` notes every module that fails to initialize in a word of flags, and tells this word in two
parameters of an event. The masks by which it takes the word apart are narrower than the halves of
the word.
-/

namespace Protoflight

open Flags

variable {Q W : Type}

section Main

/-- `FSW_MODULEID_INIT` -/
def fswModuleidInit : UInt32 := 1

/-- `FSW_MODULEID_TM` -/
def fswModuleidTm : UInt32 := 5

/-- `FSW_EVENT_INIT_ERROR` -/
def fswEventInitError : UInt16 := 1002

/-- `FSW_EVENT_INIT_SUCCESS` -/
def fswEventInitSuccess : UInt16 := 1003

/-- `__LINE__` in the call of `em_event` in `main`. -/
def mainStartupLine : UInt32 := 85

/-- What `main` notes of the calls that initialize the modules: `initialize_success` and
`module_flags`. -/
def mainFlags (results : MainResults) : Bool × UInt64 := Id.run do
  let mut initializeSuccess := true
  let mut moduleFlags : UInt64 := 0
  if results.main ≠ .okay then
    initializeSuccess := false
    moduleFlags := moduleFlags ||| 1 <<< fswModuleidInit.toUInt64
  if results.tm ≠ .okay then
    initializeSuccess := false
    moduleFlags := moduleFlags ||| 1 <<< fswModuleidTm.toUInt64
  if results.tlm ≠ .okay then
    initializeSuccess := false
    moduleFlags := moduleFlags ||| 1 <<< fswModuleidTlm.toUInt64
  -- `em_initialize` and `mb_initialize` return nothing but okay, so they set no flag
  return (initializeSuccess, moduleFlags)

/-- The call of `em_event` in `main`. -/
def startupEvent (moduleFlags : UInt64) (initializeSuccess tasksInitSuccess : Bool) :
    EmEventCall where
  moduleId := fswModuleidInit
  eventId := if initializeSuccess then fswEventInitSuccess else fswEventInitError
  lineNumber := mainStartupLine
  params := #v[((moduleFlags &&& 0xFFFF00000) >>> 32).toUInt32,
    (moduleFlags &&& 0x00000FFFF).toUInt32, if tasksInitSuccess then 1 else 0, 0, 0]

/-- The same call, made out of what the calls before it return, that of `tm_start` last. -/
def mainStartupEvent (results : MainResults) (tmResult : TmResult) : EmEventCall :=
  let (initializeSuccess, moduleFlags) := mainFlags results
  startupEvent moduleFlags initializeSuccess (tmResult = .okay)

/-- A module that has failed to initialize, by its id. -/
def MainResults.Failed (results : MainResults) (moduleId : ℕ) : Prop :=
  results.main ≠ .okay ∧ moduleId = fswModuleidInit.toNat ∨
    results.tm ≠ .okay ∧ moduleId = fswModuleidTm.toNat ∨
    results.tlm ≠ .okay ∧ moduleId = fswModuleidTlm.toNat

/-- The flags are those of the modules that have failed. -/
theorem isSet_mainFlags (results : MainResults) (moduleId : ℕ) :
    IsSet (mainFlags results).2.toBitVec moduleId ↔ results.Failed moduleId := by
  have hflag : ∀ id : UInt32, id.toNat < 64 →
      (IsSet (1#64 <<< (id.toNat % 64)) moduleId ↔ moduleId = id.toNat) := by
    intro id hid
    rw [Nat.mod_eq_of_lt hid]
    exact isSet_one_shiftLeft hid moduleId
  have hinit := hflag fswModuleidInit (by decide)
  have htm := hflag fswModuleidTm (by decide)
  have htlm := hflag fswModuleidTlm (by decide)
  unfold MainResults.Failed mainFlags
  by_cases hmainOkay : results.main = .okay <;> by_cases htmOkay : results.tm = .okay <;>
    by_cases htlmOkay : results.tlm = .okay <;>
    simp [hmainOkay, htmOkay, htlmOkay, hinit, htm, htlm, or_assoc]

/-- `initialize_success` tells that none has. -/
theorem mainFlags_success_iff (results : MainResults) :
    (mainFlags results).1 = true ↔ ∀ moduleId, ¬results.Failed moduleId := by
  have hsuccess : (mainFlags results).1 = true ↔
      results.main = .okay ∧ results.tm = .okay ∧ results.tlm = .okay := by
    unfold mainFlags
    by_cases hmain : results.main = .okay <;> by_cases htm : results.tm = .okay <;>
      by_cases htlm : results.tlm = .okay <;> simp [hmain, htm, htlm]
  rw [hsuccess]
  constructor
  · rintro ⟨hmain, htm, htlm⟩ moduleId (⟨hne, -⟩ | ⟨hne, -⟩ | ⟨hne, -⟩)
    · exact hne hmain
    · exact hne htm
    · exact hne htlm
  · intro hnone
    refine ⟨?_, ?_, ?_⟩
    · by_contra hne
      exact hnone _ (.inl ⟨hne, rfl⟩)
    · by_contra hne
      exact hnone _ (.inr (.inl ⟨hne, rfl⟩))
    · by_contra hne
      exact hnone _ (.inr (.inr ⟨hne, rfl⟩))

end Main

section Parameters

/-- The parameters of a call report the module with an id. -/
def EmEventCall.Reports (call : EmEventCall) (moduleId : ℕ) : Prop :=
  if moduleId < 32 then IsSet call.params[1].toBitVec moduleId
  else IsSet call.params[0].toBitVec (moduleId - 32)

/-- The first two parameters of a call tell a word of flags: they are its halves, they make it out,
and they report every module whose flag is set. -/
structure EmEventCall.TellsFlags (call : EmEventCall) (moduleFlags : UInt64) : Prop where
  upper : call.params[0] = (moduleFlags >>> 32).toUInt32
  lower : call.params[1] = moduleFlags.toUInt32
  joined : call.params[0].toUInt64 <<< 32 ||| call.params[1].toUInt64 = moduleFlags
  reported : ∀ moduleId, IsSet moduleFlags.toBitVec moduleId → call.Reports moduleId

/-- It is enough that they make out the word. -/
theorem EmEventCall.tellsFlags_iff (call : EmEventCall) (moduleFlags : UInt64) :
    call.TellsFlags moduleFlags ↔ joinHalves call.params[0] call.params[1] = moduleFlags := by
  refine ⟨TellsFlags.joined, fun h => ?_⟩
  obtain ⟨hupper, hlower⟩ := (joinHalves_eq_iff _ _ _).mp h
  refine ⟨hupper, hlower, h, fun moduleId hset => ?_⟩
  rw [← h] at hset
  exact (isSet_joinHalves _ _ moduleId).mp hset

/-- The masks keep the flags of these modules. -/
def KeptFlag (moduleId : ℕ) : Prop := moduleId < 16 ∨ 32 ≤ moduleId ∧ moduleId < 36

instance (moduleId : ℕ) : Decidable (KeptFlag moduleId) := inferInstanceAs (Decidable (_ ∨ _))

/-- The parameters report the modules whose flags are set and kept by the masks. -/
theorem startupEvent_reports_iff (moduleFlags : UInt64) (initializeSuccess tasksInitSuccess : Bool)
    (moduleId : ℕ) :
    (startupEvent moduleFlags initializeSuccess tasksInitSuccess).Reports moduleId ↔
      IsSet moduleFlags.toBitVec moduleId ∧ KeptFlag moduleId := by
  have hlowerMask : ∀ i, (h : i < 32) → ((0xFFFF#32)[i] = true ↔ i < 16) := by decide
  have hupperMask : ∀ i < 32, ((0xFFFF00000#64).getLsbD (32 + i) = true ↔ i < 4) := by decide
  unfold EmEventCall.Reports
  by_cases hlower : moduleId < 32
  · have hkept : KeptFlag moduleId ↔ moduleId < 16 := by
      unfold KeptFlag
      omega
    rw [if_pos hlower, hkept]
    simp [startupEvent, IsSet, hlower, hlowerMask moduleId hlower]
  · obtain ⟨i, rfl⟩ := Nat.exists_eq_add_of_le (Nat.le_of_not_lt hlower)
    have hkept : KeptFlag (32 + i) ↔ i < 4 := by
      unfold KeptFlag
      omega
    rw [if_neg hlower, hkept, Nat.add_sub_cancel_left]
    by_cases hi : i < 32
    · simp [startupEvent, IsSet, hi, hupperMask i hi]
    · have hzero : moduleFlags.toBitVec.getLsbD (32 + i) = false :=
        BitVec.getLsbD_of_ge _ _ (by omega)
      simp [startupEvent, IsSet, hi, hzero]

/-- The startup event tells its flags exactly if each of them is one that the masks keep. -/
theorem startup_flags_told_iff (moduleFlags : UInt64) (initializeSuccess tasksInitSuccess : Bool) :
    (startupEvent moduleFlags initializeSuccess tasksInitSuccess).TellsFlags moduleFlags ↔
      ∀ moduleId, IsSet moduleFlags.toBitVec moduleId → KeptFlag moduleId := by
  rw [EmEventCall.tellsFlags_iff, ← UInt64.toBitVec_inj]
  refine eq_iff_of_kept fun moduleId => ?_
  rw [isSet_joinHalves]
  exact startupEvent_reports_iff moduleFlags initializeSuccess tasksInitSuccess moduleId

/-- The flag of a module with the id 16 is lost. -/
theorem startup_flags_told_not :
    ¬∀ (moduleFlags : UInt64) (initializeSuccess tasksInitSuccess : Bool),
      (startupEvent moduleFlags initializeSuccess tasksInitSuccess).TellsFlags moduleFlags := by
  intro h
  have hjoined := (h 0x10000 false true).joined
  exact absurd hjoined (by decide)

/-- The ids of the modules that there are so far are among these, so the event of `main` reports
exactly the modules that have failed. -/
theorem mainStartupEvent_reports_iff (results : MainResults) (tmResult : TmResult)
    (moduleId : ℕ) :
    (mainStartupEvent results tmResult).Reports moduleId ↔ results.Failed moduleId := by
  have hkept : results.Failed moduleId → KeptFlag moduleId := by
    rintro (⟨-, rfl⟩ | ⟨-, rfl⟩ | ⟨-, rfl⟩) <;> decide
  rw [mainStartupEvent, startupEvent_reports_iff, isSet_mainFlags]
  exact ⟨fun h => h.1, fun hfailed => ⟨hfailed, hkept hfailed⟩⟩

/-- The event that arrives has the parameters of the call. -/
theorem startupEvent_tells (P : Platform Q W) (moduleFlags : UInt64)
    (initializeSuccess tasksInitSuccess : Bool) (os : W) :
    let call := startupEvent moduleFlags initializeSuccess tasksInitSuccess
    call.Tells (EmEvent.ofMessage (call.handed P os)) :=
  (EmEventCall.tells_iff P _ os).mpr (show mainStartupLine.toNat < 2 ^ 16 by decide)

end Parameters

end Protoflight
