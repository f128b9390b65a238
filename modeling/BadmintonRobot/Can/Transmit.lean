import Mathlib
import BadmintonRobot.Can.Command

/-!
# Handing a frame to the CAN controller

`_can_senddata` tries to put a frame into a mailbox of the controller, at most seven times, and writes
a record to the SD card if it believes that the frame was lost. What it looks at is how often it has
waited. After six refusals that is the same whether the seventh attempt is refused or not.
-/

namespace BadmintonRobot.Can

/-- `CAN_NO_MB`, the result of `CAN_Transmit` when no mailbox is free. -/
def canNoMb : UInt8 := 4

/-- What `_can_senddata` reads for its record besides the frame. -/
structure Circumstances where
  tick : Nat
  thread : String
  x : ℚ
  y : ℚ
  radian : ℚ

/-- The record of a timeout in `can_errInfo.txt`, less the date and the time of the compilation. -/
structure TimeoutRecord where
  circumstances : Circumstances
  stdId : Nat
  dlc : Nat
  data : List UInt8

/-- What a call of `_can_senddata` has done. -/
structure Sending where
  attempts : Nat
  record : Option TimeoutRecord

/-- The loop of `_can_senddata`: the value of `wait_time` after it, and the number of attempts. The
results of `CAN_Transmit` are numbered. The attempt is made before `wait_time` is compared. -/
def awaitMailbox (results : Nat → UInt8) (waitTime attempts : Nat) : Nat × Nat :=
  if results attempts = canNoMb ∧ waitTime < 6 then
    awaitMailbox results (waitTime + 1) (attempts + 1)
  else (waitTime, attempts + 1)
termination_by 6 - waitTime

/-- The function `_can_senddata`. -/
def canSenddata (results : Nat → UInt8) (here : Circumstances) (tx : Frame) : Sending :=
  let (waitTime, attempts) := awaitMailbox results 0 0
  { attempts := attempts
    record := if waitTime ≥ 6 then some ⟨here, tx.stdId, tx.dlc, tx.data.take tx.dlc⟩ else none }

/-- An attempt that was refused. -/
def Refused (results : Nat → UInt8) (attempt : Nat) : Prop := results attempt = canNoMb

instance (results : Nat → UInt8) : DecidablePred (Refused results) :=
  fun attempt => decEq (results attempt) canNoMb

/-- The sending stops at the first attempt that is taken, makes at most seven, and is recorded exactly
if all of them were refused. -/
structure Faithful (results : Nat → UInt8) (sending : Sending) : Prop where
  made : 0 < sending.attempts
  goesOn : ∀ k, k + 1 < sending.attempts → Refused results k
  stops : sending.attempts < 7 → ¬Refused results (sending.attempts - 1)
  bounded : sending.attempts ≤ 7
  recorded : sending.record.isSome ↔ ∀ k < sending.attempts, Refused results k

section Loop

variable {results : Nat → UInt8}

/-- The loop waits once for each refusal, and ends when an attempt is taken or after six. -/
theorem awaitMailbox_spec (n : Nat) (early : n ≤ 6) (before : ∀ k < n, Refused results k) :
    ∃ waited, awaitMailbox results n n = (waited, waited + 1) ∧ waited ≤ 6 ∧
      (∀ k < waited, Refused results k) ∧ (waited < 6 → ¬Refused results waited) := by
  rw [awaitMailbox]
  split_ifs with again
  · obtain ⟨refused, room⟩ := again
    refine awaitMailbox_spec (n + 1) room fun k less => ?_
    rcases Nat.lt_succ_iff_lt_or_eq.mp less with earlier | rfl
    · exact before k earlier
    · exact refused
  · exact ⟨n, rfl, early, before, fun room refused => again ⟨refused, room⟩⟩
termination_by 6 - n

end Loop

/-- The report is right exactly if it is not the seventh attempt that is taken. -/
theorem canSenddata_faithful_iff (results : Nat → UInt8) (here : Circumstances) (tx : Frame) :
    Faithful results (canSenddata results here tx) ↔
      ¬((∀ k < 6, Refused results k) ∧ ¬Refused results 6) := by
  have begun : ∀ k < 0, Refused results k := nofun
  obtain ⟨waited, run, bound, before, ends⟩ := awaitMailbox_spec 0 (Nat.zero_le 6) begun
  have attempts : (canSenddata results here tx).attempts = waited + 1 := by rw [canSenddata, run]
  have record : (canSenddata results here tx).record.isSome ↔ 6 ≤ waited := by
    rw [canSenddata, run]
    dsimp only
    split_ifs with full <;> simp [full]
  constructor
  · rintro faithful ⟨refused, taken⟩
    -- six refusals are recorded, although the attempt after them is taken
    have full : waited = 6 := by
      by_contra other
      exact ends (by omega) (refused waited (by omega))
    have all := faithful.recorded.mp (record.mpr (Nat.le_of_eq full.symm))
    exact taken (all 6 (by omega))
  · intro usual
    refine ⟨by omega, ?_, ?_, by omega, ?_⟩
    · intro k less
      exact before k (by omega)
    · intro fewer
      rw [attempts, Nat.add_sub_cancel]
      exact ends (by omega)
    · rw [record, attempts]
      constructor
      · intro full k less
        obtain rfl : waited = 6 := by omega
        by_contra taken
        have last : k = 6 := by
          by_contra other
          exact taken (before k (by omega))
        exact usual ⟨before, last ▸ taken⟩
      · intro all
        by_contra early
        exact ends (by omega) (all waited (by omega))

/-- Six refusals and then a free mailbox. -/
def lateMailbox (attempt : Nat) : UInt8 := if attempt < 6 then canNoMb else 0

/-- The stop command of motor 1, sent by the arm thread. -/
def lateSending : Sending :=
  canSenddata lateMailbox ⟨0, "thread_arm", 0, 0, 0⟩ ⟨0xa0, 8, 2, [0, 0, 0, 0, 0, 0, 0, 0]⟩

/-- The frame is taken at the seventh attempt and recorded as lost. -/
theorem not_faithful_lateMailbox :
    ¬Faithful lateMailbox lateSending ∧ ¬Refused lateMailbox (lateSending.attempts - 1) ∧
      lateSending.record.isSome := by
  have run : awaitMailbox lateMailbox 0 0 = (6, 7) := by
    simp [awaitMailbox, lateMailbox, canNoMb]
  have attempts : lateSending.attempts = 7 := by rw [lateSending, canSenddata, run]
  have recorded : lateSending.record.isSome := by
    rw [lateSending, canSenddata, run]
    rfl
  have taken : ¬Refused lateMailbox 6 := by decide
  refine ⟨fun faithful => ?_, ?_, recorded⟩
  · exact taken (faithful.recorded.mp recorded 6 (by omega))
  · rwa [attempts]

end BadmintonRobot.Can
