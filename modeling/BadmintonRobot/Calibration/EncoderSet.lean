import Mathlib
import BadmintonRobot.Can.Interleaving
import BadmintonRobot.General.Keyboard

/-!
# The dialog for the calibration of the encoders

`Encoder_Set` copies the coefficients that the positioning board has reported, opens an editor for
each of them and sends it back. A coefficient whose editor is cancelled is sent as it was copied,
and for the fourth one that is the value of the second.
-/

namespace BadmintonRobot.Calibration

open Can General

/-- The coefficients, under the names of their editors. -/
inductive Coefficient where
  | c11
  | c12
  | c21
  | c22
  | radian1
  | radian2
  | r1
  | r2
deriving DecidableEq, Repr

namespace Coefficient

/-- The order of the editors. -/
def all : List Coefficient := [c11, c12, c21, c22, radian1, radian2, r1, r2]

/-- The variable that an editor changes. -/
def mosi : Coefficient → Object
  | c11 => .mosiEnc1C1
  | c12 => .mosiEnc1C2
  | c21 => .mosiEnc2C1
  | c22 => .mosiEnc2C2
  | radian1 => .mosiEnc1Ang
  | radian2 => .mosiEnc2Ang
  | r1 => .mosiEnc1Rad
  | r2 => .mosiEnc2Rad

/-- The variable for the value that the board reports. -/
def miso : Coefficient → Object
  | c11 => .misoEnc1C1
  | c12 => .misoEnc1C2
  | c21 => .misoEnc2C1
  | c22 => .misoEnc2C2
  | radian1 => .misoEnc1Ang
  | radian2 => .misoEnc2Ang
  | r1 => .misoEnc1Rad
  | r2 => .misoEnc2Rad

/-- The variable that `Encoder_Set` copies before it opens the editors. -/
def copied : Coefficient → Object
  | c11 => .misoEnc1C1
  | c12 => .misoEnc1C2
  | c21 => .misoEnc2C1
  | c22 => .misoEnc1C2
  | radian1 => .misoEnc1Ang
  | radian2 => .misoEnc2Ang
  | r1 => .misoEnc1Rad
  | r2 => .misoEnc2Rad

/-- The argument of `Write_Database`. -/
def idNum : Coefficient → IdNumdef
  | c11 => .wEnc1C1Id
  | c12 => .wEnc1C2Id
  | c21 => .wEnc2C1Id
  | c22 => .wEnc2C2Id
  | radian1 => .wEnc1AngId
  | radian2 => .wEnc2AngId
  | r1 => .wEnc1RadId
  | r2 => .wEnc2RadId

end Coefficient

/-- Assign to a variable of eight bytes. -/
def assign (target : Object) (value : Nat → UInt8) (mem : Mem Object) : Mem Object :=
  Function.update mem target fun j => if j < 8 then value j else mem target j

/-- The loop of `Input_DoubleValue` for the keys that are pressed: the text for `keyOK` or nothing
for `keyback`, and the keys that are left. Without one of the two it does not end. -/
def inputDoubleValue (e : Editor) : List Key → Option (Option Editor × List Key)
  | [] => none
  | key :: keys =>
    match e.press key with
    | .stay e => inputDoubleValue e keys
    | .ok e => some (some e, keys)
    | .cancel => some (none, keys)

section Dialog

variable {F : Type} [Zero F] [Add F] [Sub F] [Mul F] [Div F] [Neg F] [NatCast F]
variable (bytes : F → Nat → UInt8)

/-- What an editor leaves in its variable. `bytes` are those of a `float` as a `double`. -/
def edited (answer : Option Editor) (target : Object) (mem : Mem Object) : Mem Object :=
  match answer with
  | some e => assign target (bytes e.value) mem
  | none => mem

variable (beyond : Nat → CanData Object Handler) (stack : List UInt8)

/-- The frames that `Write_Database` hands over. -/
def sentFrames (mem : Mem Object) (idNum : IdNumdef) : List Frame :=
  (writeDatabase canDatabase beyond (hashTableInit canDatabase) stack mem idNum.value).sent.map
    fun sent => ⟨sent.1.stdId, sent.1.dlc, sent.2, sent.1.data.take sent.1.dlc⟩

/-- The editors of `Encoder_Set` from some coefficient on, with the frames that are sent. -/
def editors : List Coefficient → List Key → Mem Object → List Frame × Mem Object
  | [], _, mem => ([], mem)
  | c :: rest, keys, mem =>
    match inputDoubleValue .empty keys with
    | none => ([], mem)
    | some (answer, keys) =>
      let mem := edited bytes answer c.mosi mem
      let later := editors rest keys mem
      (sentFrames beyond stack mem c.idNum ++ later.1, later.2)

/-- The assignments at the beginning of `Encoder_Set`. -/
def copyReported (coefficients : List Coefficient) (mem : Mem Object) : Mem Object :=
  coefficients.foldl (fun mem c => assign c.mosi (mem c.copied) mem) mem

/-- The function `Encoder_Set`, as far as the keys lead. -/
def encoderSet (keys : List Key) (mem : Mem Object) : List Frame × Mem Object :=
  editors bytes beyond stack Coefficient.all keys (copyReported Coefficient.all mem)

end Dialog

/-- How the first editors are left. -/
def answers : Nat → List Key → List (Option Editor)
  | 0, _ => []
  | count + 1, keys =>
    match inputDoubleValue .empty keys with
    | none => []
    | some (answer, keys) => answer :: answers count keys

/-- The frame for a coefficient. -/
def Coefficient.frame (c : Coefficient) (value : Nat → UInt8) : Frame where
  stdId := c.idNum.value
  dlc := 8
  channel := 1
  data := (List.range 8).map value

section Intended

variable {F : Type} [Zero F] [Add F] [Sub F] [Mul F] [Div F] [Neg F] [NatCast F]
variable (bytes : F → Nat → UInt8)

/-- The value of a coefficient: the confirmed one, or the value of a variable. -/
def chosen (answer : Option Editor) (kept : Nat → UInt8) : Nat → UInt8 :=
  match answer with
  | some e => bytes e.value
  | none => kept

/-- What `Encoder_Set` is to send: a confirmed value, or the reported value of the coefficient. -/
def intended (keys : List Key) (mem : Mem Object) : List Frame :=
  (Coefficient.all.zip (answers 8 keys)).map fun (c, answer) =>
    c.frame (chosen bytes answer (mem c.miso))

end Intended

section Frames

variable {F : Type} [Zero F] [Add F] [Sub F] [Mul F] [Div F] [Neg F] [NatCast F]
variable (bytes : F → Nat → UInt8)

theorem assign_self (target : Object) (value : Nat → UInt8) (mem : Mem Object) {j : Nat}
    (inside : j < 8) : assign target value mem target j = value j := by
  rw [assign, Function.update_self, if_pos inside]

theorem assign_of_ne {target other : Object} (value : Nat → UInt8) (mem : Mem Object)
    (different : other ≠ target) : assign target value mem other = mem other :=
  Function.update_of_ne different _ _

theorem Coefficient.mosi_injective : Function.Injective mosi := by
  intro c d same
  cases c <;> cases d <;> first | rfl | exact absurd same (by decide)

theorem Coefficient.copied_ne_mosi (c d : Coefficient) : c.copied ≠ d.mosi := by
  cases c <;> cases d <;> decide

theorem copyReported_concat (coefficients : List Coefficient) (d : Coefficient)
    (mem : Mem Object) :
    copyReported (coefficients ++ [d]) mem =
      assign d.mosi (copyReported coefficients mem d.copied) (copyReported coefficients mem) := by
  simp [copyReported]

theorem copyReported_copied (coefficients : List Coefficient) (mem : Mem Object)
    (c : Coefficient) : copyReported coefficients mem c.copied = mem c.copied := by
  induction coefficients using List.reverseRecOn with
  | nil => rfl
  | append_singleton coefficients d ih =>
    rw [copyReported_concat, assign_of_ne _ _ (c.copied_ne_mosi d), ih]

/-- The assignments put the copied variables into those of the editors. -/
theorem copyReported_mosi (coefficients : List Coefficient) (mem : Mem Object) {c : Coefficient}
    (member : c ∈ coefficients) {j : Nat} (inside : j < 8) :
    copyReported coefficients mem c.mosi j = mem c.copied j := by
  induction coefficients using List.reverseRecOn with
  | nil => exact absurd member List.not_mem_nil
  | append_singleton coefficients d ih =>
    rw [copyReported_concat]
    by_cases same : c = d
    · subst same
      rw [assign_self _ _ _ inside, copyReported_copied]
    · rw [assign_of_ne _ _ fun equal => same (Coefficient.mosi_injective equal)]
      exact ih ((List.mem_append.mp member).resolve_right fun last =>
        same (List.mem_singleton.mp last))

theorem edited_mosi (answer : Option Editor) (c : Coefficient) (mem : Mem Object) {j : Nat}
    (inside : j < 8) :
    edited bytes answer c.mosi mem c.mosi j = chosen bytes answer (mem c.mosi) j := by
  cases answer with
  | none => rfl
  | some e => exact assign_self _ _ mem inside

theorem edited_of_ne (answer : Option Editor) {c d : Coefficient} (different : d ≠ c)
    (mem : Mem Object) : edited bytes answer c.mosi mem d.mosi = mem d.mosi := by
  cases answer with
  | none => rfl
  | some e => exact assign_of_ne _ mem fun same => different (Coefficient.mosi_injective same)

variable (beyond : Nat → CanData Object Handler) {stack : List UInt8}

theorem Coefficient.row_mem (c : Coefficient) :
    ∃ entry ∈ canDatabase, entry.dataID = c.idNum.value ∧ entry.dataPtr = c.mosi ∧
      entry.dataLength = 8 ∧ entry.channel = 1 := by
  cases c <;> decide

/-- `Write_Database` sends the variable of the editor. -/
theorem sentFrames_idNum (eight : stack.length = 8) (mem : Mem Object) (c : Coefficient) :
    sentFrames beyond stack mem c.idNum = [c.frame (mem c.mosi)] := by
  obtain ⟨entry, member, id, pointer, length, channel⟩ := c.row_mem
  obtain ⟨_, _, outcome⟩ := writeDatabase_present beyond stack mem canDatabase_wellFormed member
  have copied := take_copyData (mem c.mosi) eight.ge
  rw [sentFrames, ← id, outcome]
  simp [CanData.frame, Coefficient.frame, id, pointer, length, channel, copied]

theorem Coefficient.frame_congr {c : Coefficient} {value other : Nat → UInt8} :
    c.frame value = c.frame other ↔ ∀ j < 8, value j = other j := by
  simp [Coefficient.frame]

/-- Every editor that is left sends its answer, or what was in its variable. -/
theorem frames_editors (eight : stack.length = 8) (coefficients : List Coefficient)
    (distinct : coefficients.Nodup) (keys : List Key) (mem : Mem Object) :
    (editors bytes beyond stack coefficients keys mem).1 =
      (coefficients.zip (answers coefficients.length keys)).map fun (c, answer) =>
        c.frame (chosen bytes answer (mem c.mosi)) := by
  induction coefficients generalizing keys mem with
  | nil => rfl
  | cons c rest ih =>
    obtain ⟨fresh, distinct⟩ := List.nodup_cons.mp distinct
    rw [editors, List.length_cons, answers]
    cases left : inputDoubleValue .empty keys with
    | none => rfl
    | some result =>
      obtain ⟨answer, keys⟩ := result
      have first : c.frame (edited bytes answer c.mosi mem c.mosi) =
          c.frame (chosen bytes answer (mem c.mosi)) :=
        Coefficient.frame_congr.mpr fun j inside => edited_mosi bytes answer c mem inside
      have others : ∀ d ∈ rest, edited bytes answer c.mosi mem d.mosi = mem d.mosi := by
        intro d member
        refine edited_of_ne bytes answer ?_ mem
        rintro rfl
        exact fresh member
      simp only [sentFrames_idNum beyond eight, ih distinct, List.zip_cons_cons, List.map_cons,
        List.singleton_append, first, List.cons.injEq, true_and]
      refine List.map_congr_left fun pair member => ?_
      rw [others pair.1 (List.of_mem_zip member).1]

/-- The frames of `Encoder_Set`. -/
theorem frames_encoderSet (eight : stack.length = 8) (keys : List Key) (mem : Mem Object) :
    (encoderSet bytes beyond stack keys mem).1 =
      (Coefficient.all.zip (answers 8 keys)).map fun (c, answer) =>
        c.frame (chosen bytes answer (mem c.copied)) := by
  rw [encoderSet, frames_editors bytes beyond eight _ (by decide)]
  refine List.map_congr_left fun pair member => Coefficient.frame_congr.mpr fun j inside => ?_
  cases pair.2 with
  | some e => rfl
  | none => exact copyReported_mosi _ mem (List.of_mem_zip member).1 inside

/-- The fourth editor is the one with the wrong copy. -/
theorem mem_zip_c22 (keys : List Key) (answer : Option Editor) :
    (Coefficient.c22, answer) ∈ Coefficient.all.zip (answers 8 keys) ↔
      (answers 8 keys)[3]? = some answer := by
  rw [List.mem_iff_getElem?]
  constructor
  · rintro ⟨i, found⟩
    obtain ⟨fourth, given⟩ := List.getElem?_zip_eq_some.mp found
    have distinct : Coefficient.all.Nodup := by decide
    have three : 3 = i := (List.getElem?_inj (by decide) distinct).mp fourth.symm
    rw [three]
    exact given
  · intro given
    exact ⟨3, List.getElem?_zip_eq_some.mpr ⟨rfl, given⟩⟩

end Frames

/-- `Encoder_Set` sends what it is to send exactly if the fourth editor is not cancelled, or its
coefficient has the value of the second one. -/
theorem encoderSet_intended_iff {F : Type} [Zero F] [Add F] [Sub F] [Mul F] [Div F] [Neg F]
    [NatCast F] (bytes : F → Nat → UInt8) (beyond : Nat → CanData Object Handler)
    {stack : List UInt8} (eight : stack.length = 8) (keys : List Key) (mem : Mem Object) :
    (encoderSet bytes beyond stack keys mem).1 = intended bytes keys mem ↔
      ((answers 8 keys)[3]? = some none → ∀ j < 8, mem .misoEnc1C2 j = mem .misoEnc2C2 j) := by
  rw [frames_encoderSet bytes beyond eight, intended, List.map_inj_left]
  constructor
  · intro same cancelled
    exact Coefficient.frame_congr.mp (same _ ((mem_zip_c22 keys none).mpr cancelled))
  · rintro kept ⟨c, answer⟩ member
    cases answer with
    | some e => rfl
    | none =>
      cases c with
      | c22 => exact Coefficient.frame_congr.mpr (kept ((mem_zip_c22 keys none).mp member))
      | _ => rfl

/-- Confirming all editors at once sends zeros. -/
theorem encoderSet_intended_confirmed :
    (encoderSet (fun (_ : ℚ) _ => 0) zeroRow (List.replicate 8 0) (List.replicate 8 .keyOK)
        fun _ _ => 1).1 =
      intended (fun (_ : ℚ) _ => 0) (List.replicate 8 .keyOK) fun _ _ => 1 :=
  (encoderSet_intended_iff _ _ rfl _ _).mpr fun cancelled => absurd cancelled (by decide)

/-- The board reports 1 for the second coefficient and 0 for the fourth, and every editor is
cancelled. -/
theorem encoderSet_not_intended :
    (encoderSet (fun (_ : ℚ) _ => 0) zeroRow (List.replicate 8 0) (List.replicate 8 .keyback)
        fun object _ => if object = .misoEnc1C2 then 1 else 0).1 ≠
      intended (fun (_ : ℚ) _ => 0) (List.replicate 8 .keyback)
        fun object _ => if object = .misoEnc1C2 then 1 else 0 := by
  rw [frames_encoderSet _ _ rfl]
  decide

end BadmintonRobot.Calibration
