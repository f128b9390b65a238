import BadmintonRobot.Semantics.Run
import Mathlib.Logic.Function.Basic

/-!
# The trace of the scheduler

`rt_schedule` calls a hook before it switches to another thread. `rt_application_init` sets the hook to
`ttime_hook`, which is to write down the priorities of the two threads and the time since the last tick.
The index of its three assignments is the number of elements, not the number of switches.
-/

namespace BadmintonRobot.Scheduling

open Semantics

/-- An element of `tims`. -/
structure Ttim where
  prio1 : Int32
  prio2 : Int32
  us : Int32
deriving DecidableEq, Repr

/-- The content of a static variable at the start of the program. -/
def Ttim.zero : Ttim := ⟨0, 0, 0⟩

/-- The member of `struct rt_thread` that the hook reads. -/
structure Thread where
  initPriority : UInt8

/-- The number `nsch` of elements of `tims`. -/
def nsch : Nat := 25

/-- The timer `TTIME`. -/
def ttimeTimer : Nat := 2

/-- The memory from `tims[0]` on, in elements of its type: those from `nsch` on belong to other
variables. `hook` says that `rt_scheduler_hook` is `ttime_hook` and not zero, `cnt` are the counters of the
timers, and `stores` lists the elements that the hook has stored to. -/
structure State where
  tims : Nat → Ttim
  schIndex : Int32
  hook : Bool
  cnt : Nat → UInt32
  stores : List Nat

/-- The start of the program. -/
def powerOn (memory : Nat → Ttim) : State where
  tims i := if i < nsch then .zero else memory i
  schIndex := 0
  hook := false
  cnt _ := 0
  stores := []

/-- The function `get_tim`. -/
def getTim (timx : Nat) (cnt : Nat → UInt32) : UInt32 :=
  if timx = 3 ∨ timx = 9 then 0 else cnt timx

/-- The function `reset_tim`. -/
def resetTim (timx : Nat) (cnt : Nat → UInt32) : Nat → UInt32 :=
  if timx = 3 ∨ timx = 9 then cnt else Function.update cnt timx 0

/-- What is to be written down for a switch. -/
def entry (former latter : Thread) (cnt : Nat → UInt32) : Ttim where
  prio1 := Int32.ofNat former.initPriority.toNat
  prio2 := Int32.ofNat latter.initPriority.toNat
  us := (getTim ttimeTimer cnt).toInt32

/-- The function `ttime_hook`. -/
def ttimeHook (former latter : Thread) (s : State) : State :=
  { s with
    tims := Function.update s.tims nsch (entry former latter s.cnt)
    schIndex := s.schIndex + 1
    stores := s.stores ++ [nsch] }

/-- The function `ttime_reset`. -/
def ttimeReset (s : State) : State :=
  { s with
    cnt := resetTim ttimeTimer s.cnt
    schIndex := 0 }

/-- The values that `sys_ttime` shows. -/
def sysTtime (s : State) : List (Int32 × Int32) :=
  (List.range 8).map fun i => ((s.tims i).prio1, (s.tims i).us)

/-- A timer counts, `rt_application_init` sets the hook, `rt_schedule` switches from a thread to another,
or the interrupt of the system tick calls `ttime_reset`. -/
inductive Event where
  | count (timx : Nat) (value : UInt32)
  | setHook
  | switch (former latter : Thread)
  | reset

def step (s : State) : Event → State
  | .count timx value => { s with cnt := Function.update s.cnt timx value }
  | .setHook => { s with hook := true }
  | .switch former latter => if s.hook then ttimeHook former latter s else s
  | .reset => ttimeReset s

def run (start : State) (events : List Event) : State := events.foldl step start

/-- What the trace should be: the switches since the last reset, as the hook sees them. -/
structure Recorder where
  hook : Bool
  cnt : Nat → UInt32
  entries : List Ttim

namespace Recorder

def initial : Recorder := ⟨false, fun _ => 0, []⟩

def step (r : Recorder) : Event → Recorder
  | .count timx value => { r with cnt := Function.update r.cnt timx value }
  | .setHook => { r with hook := true }
  | .switch former latter =>
    if r.hook then { r with entries := r.entries ++ [entry former latter r.cnt] } else r
  | .reset => { r with cnt := resetTim ttimeTimer r.cnt, entries := [] }

def run (events : List Event) : Recorder := events.foldl step initial

end Recorder

/-- The hook stores into the table only. -/
def InTable (s : State) : Prop := ∀ i ∈ s.stores, i < nsch

/-- The table holds the entries in order, as long as there is room for them. -/
def Records (s : State) (entries : List Ttim) : Prop :=
  entries.length ≤ nsch → ∀ k e, entries[k]? = some e → s.tims k = e

def Event.IsSwitch : Event → Prop
  | .switch _ _ => True
  | _ => False

/-- No thread is switched once the hook is set. -/
def Quiet (events : List Event) : Prop :=
  ∀ earlier (last : Event) later, events = earlier ++ last :: later → last.IsSwitch →
    Event.setHook ∉ earlier

section Run

variable (start : State) (events : List Event) (event : Event)

@[simp] theorem run_nil : run start [] = start := rfl

@[simp] theorem run_concat : run start (events ++ [event]) = step (run start events) event := by
  rw [run, List.foldl_append]
  rfl

@[simp] theorem Recorder.run_concat :
    Recorder.run (events ++ [event]) = (Recorder.run events).step event := by
  rw [Recorder.run, List.foldl_append]
  rfl

theorem quiet_concat :
    Quiet (events ++ [event]) ↔ Quiet events ∧ (event.IsSwitch → .setHook ∉ events) :=
  forall_splits_snoc (P := fun (earlier : List Event) (last : Event) =>
    last.IsSwitch → Event.setHook ∉ earlier)

end Run

section Trace

variable (memory : Nat → Ttim) (events : List Event)

theorem hook_run : (run (powerOn memory) events).hook ↔ .setHook ∈ events := by
  induction events using List.reverseRecOn with
  | nil => simp [powerOn]
  | append_singleton events event ih =>
    rw [run_concat, List.mem_append, List.mem_singleton, ← ih]
    cases event with
    | count timx value => simp [step]
    | setHook => simp [step]
    | switch former latter =>
      rw [step]
      split_ifs <;> simp [ttimeHook, *]
    | reset => simp [step, ttimeReset]

/-- The recorder sees the hook and the timers as they are. -/
theorem recorder_agrees :
    (Recorder.run events).hook = (run (powerOn memory) events).hook ∧
      (Recorder.run events).cnt = (run (powerOn memory) events).cnt := by
  induction events using List.reverseRecOn with
  | nil => exact ⟨rfl, rfl⟩
  | append_singleton events event ih =>
    obtain ⟨hook, cnt⟩ := ih
    rw [Recorder.run_concat, run_concat]
    cases event with
    | count timx value => exact ⟨hook, by rw [Recorder.step, step, cnt]⟩
    | setHook => exact ⟨rfl, cnt⟩
    | switch former latter =>
      rw [Recorder.step, step]
      cases hooked : (run (powerOn memory) events).hook with
      | true =>
        rw [hook, hooked, if_pos rfl, if_pos rfl]
        exact ⟨hooked.symm, cnt⟩
      | false =>
        rw [hook, hooked, if_neg Bool.false_ne_true, if_neg Bool.false_ne_true]
        exact ⟨hook, cnt⟩
    | reset => exact ⟨hook, by rw [Recorder.step, step, ttimeReset, cnt]⟩

/-- The hook never stores into the table. -/
theorem tims_run {i : Nat} (inside : i < nsch) : (run (powerOn memory) events).tims i = .zero := by
  induction events using List.reverseRecOn with
  | nil => exact if_pos inside
  | append_singleton events event ih =>
    rw [run_concat]
    cases event with
    | count timx value => exact ih
    | setHook => exact ih
    | switch former latter =>
      rw [step]
      split_ifs
      · exact (Function.update_of_ne (Nat.ne_of_lt inside) _ _).trans ih
      · exact ih
    | reset => exact ih

/-- The screen shows zeros only. -/
theorem sysTtime_run : sysTtime (run (powerOn memory) events) = List.replicate 8 (0, 0) := by
  refine List.eq_replicate_iff.mpr ⟨by simp [sysTtime], fun shown member => ?_⟩
  obtain ⟨i, row, rfl⟩ := List.mem_map.mp member
  rw [tims_run memory events (Nat.lt_trans (List.mem_range.mp row) (by decide))]
  rfl

/-- The trace is right exactly for switches that look like an empty table. -/
theorem records_run_iff :
    Records (run (powerOn memory) events) (Recorder.run events).entries ↔
      ((Recorder.run events).entries.length ≤ nsch →
        ∀ e ∈ (Recorder.run events).entries, e = .zero) := by
  refine forall_congr' fun room => ?_
  have table {k : Nat} {e : Ttim} (found : (Recorder.run events).entries[k]? = some e) :
      (run (powerOn memory) events).tims k = .zero :=
    tims_run memory events (Nat.lt_of_lt_of_le (List.getElem?_eq_some_iff.mp found).1 room)
  constructor
  · intro records e member
    obtain ⟨k, found⟩ := List.mem_iff_getElem?.mp member
    rw [← records k e found, table found]
  · intro zeros k e found
    rw [table found, zeros e (List.mem_of_getElem? found)]

theorem inTable_run_iff : InTable (run (powerOn memory) events) ↔ Quiet events := by
  induction events using List.reverseRecOn with
  | nil => simp [InTable, powerOn, Quiet]
  | append_singleton events event ih =>
    rw [quiet_concat, run_concat, ← ih]
    cases event with
    | count timx value => exact (and_iff_left nofun).symm
    | setHook => exact (and_iff_left nofun).symm
    | reset => exact (and_iff_left nofun).symm
    | switch former latter =>
      rw [step, ← hook_run memory events]
      split_ifs with hooked
      · -- The index of the store is the number of elements.
        refine iff_of_false (fun inside => ?_) (fun quiet => quiet.2 trivial hooked)
        exact absurd (inside nsch (List.mem_append_right _ List.mem_cons_self)) (Nat.lt_irrefl nsch)
      · exact (and_iff_left fun _ => hooked).symm

theorem entries_of_quiet (quiet : Quiet events) : (Recorder.run events).entries = [] := by
  induction events using List.reverseRecOn with
  | nil => rfl
  | append_singleton events event ih =>
    obtain ⟨before, last⟩ := (quiet_concat events event).mp quiet
    rw [Recorder.run_concat]
    cases event with
    | count timx value => exact ih before
    | setHook => exact ih before
    | switch former latter =>
      have unset := mt (hook_run (fun _ => .zero) events).mp (last trivial)
      rw [Recorder.step, (recorder_agrees (fun _ => .zero) events).1, if_neg unset, ih before]
    | reset => rfl

/-- The hook stores into the table only and the table holds the trace, exactly if no thread is switched
once the hook is set. -/
theorem traced_iff :
    InTable (run (powerOn memory) events) ∧
        Records (run (powerOn memory) events) (Recorder.run events).entries ↔
      Quiet events := by
  rw [inTable_run_iff, records_run_iff]
  refine and_iff_left_of_imp fun quiet _ => ?_
  rw [entries_of_quiet events quiet]
  exact nofun

/-- The hook is set, the timer counts to 7, and the thread of the joystick is switched to that of the
keyboard. -/
def oneSwitch : List Event := [.setHook, .reset, .count ttimeTimer 7, .switch ⟨7⟩ ⟨6⟩]

theorem not_traced_oneSwitch :
    (run (powerOn fun _ => .zero) oneSwitch).stores = [25] ∧
      (Recorder.run oneSwitch).entries = [⟨7, 6, 7⟩] ∧
      (run (powerOn fun _ => .zero) oneSwitch).tims 0 = .zero ∧
      ¬ InTable (run (powerOn fun _ => .zero) oneSwitch) ∧
      ¬ Records (run (powerOn fun _ => .zero) oneSwitch) (Recorder.run oneSwitch).entries := by
  refine ⟨rfl, by decide, rfl, fun inside => ?_, fun records => ?_⟩
  · exact absurd (inside 25 List.mem_cons_self) (by decide)
  · exact absurd (records (by decide) 0 ⟨7, 6, 7⟩ (by decide)) (by decide)

end Trace

end BadmintonRobot.Scheduling
