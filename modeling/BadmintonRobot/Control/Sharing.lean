import Mathlib
import BadmintonRobot.Control.Pid

/-!
# Loops that share `AnglePID`

The path follower, the heading hold of the joystick and the fans call `AnglePID` from
different threads and with different parameters, but the function has one history. A
loop is undisturbed whatever the errors are exactly if no call of another loop comes
between two calls without a `PID_Clear`.
-/

namespace BadmintonRobot.Control

/-- The loops. -/
inductive Loop where
  | path
  | headingHold
  | fan
deriving DecidableEq, Repr

/-- The calls of `AnglePID` in the loops. The path follower has two, for a route with the
camera on and for all others. -/
inductive Caller where
  | goPointPath (camFlag : Bool)
  | rtThreadEntryHandleY
  | fanAccelerate
deriving DecidableEq, Repr

def Caller.loop : Caller → Loop
  | goPointPath _ => .path
  | rtThreadEntryHandleY => .headingHold
  | fanAccelerate => .fan

/-- What the loops do to the controller: one of them calls it, or it is cleared. -/
inductive Action where
  | pidClear
  | anglePID (caller : Caller)
deriving DecidableEq, Repr

/-- Two actions that may follow one another: two calls come from one loop. -/
def Action.Compatible : Action → Action → Prop
  | anglePID first, anglePID second => first.loop = second.loop
  | _, _ => True

/-- A schedule in which no loop calls after another without a `PID_Clear` in between. -/
def Exclusive (schedule : List Action) : Prop := schedule.IsChain Action.Compatible

variable {K : Type}

/-- An action with the error of the call. -/
inductive Event (K : Type) where
  | pidClear
  | anglePID (caller : Caller) (error : K)
deriving DecidableEq, Repr

def Event.action : Event K → Action
  | pidClear => .pidClear
  | anglePID caller _ => .anglePID caller

@[simp] theorem Event.action_anglePID (caller : Caller) (error : K) :
    (anglePID caller error).action = .anglePID caller := rfl

/-- The events of a loop, and the clearing of the controller. -/
def Event.concerns (loop : Loop) : Event K → Bool
  | pidClear => true
  | anglePID caller _ => caller.loop = loop

/-- What is left of a run when all other loops stand still. -/
def alone (loop : Loop) (events : List (Event K)) : List (Event K) :=
  events.filter (Event.concerns loop)

section Field

variable [Field K]

/-- The parameters of a call. Those of the joystick are a local variable of its thread. -/
def Caller.pid : Caller → Pid K
  | goPointPath camFlag => if camFlag then pidList 12 else pidList 6
  | rtThreadEntryHandleY => .gains (-6) 1000000 5
  | fanAccelerate => pidList 29

theorem Caller.pid_path : ((goPointPath false).pid : Pid K) = .gains (11 / 10) 1000000 3 := rfl

theorem Caller.pid_camera : ((goPointPath true).pid : Pid K) = .gains 60 5000 1 := rfl

theorem Caller.pid_headingHold :
    (rtThreadEntryHandleY.pid : Pid K) = .gains (-6) 1000000 5 := rfl

theorem Caller.pid_fan : (fanAccelerate.pid : Pid K) = .gains 0 1000000 0 := rfl

/-- The variables after an event. -/
def Event.after (s : Controllers K) : Event K → Controllers K
  | pidClear => Control.pidClear s
  | anglePID caller error => (Control.anglePID error caller.pid s).2

/-- The results that a loop gets in a run. -/
def outputs (loop : Loop) : Controllers K → List (Event K) → List K
  | _, [] => []
  | s, .pidClear :: rest => outputs loop (Control.pidClear s) rest
  | s, .anglePID caller error :: rest =>
    let (result, next) := Control.anglePID error caller.pid s
    if caller.loop = loop then result :: outputs loop next rest else outputs loop next rest

/-- Every loop gets the results that it would get alone. -/
def Undisturbed (s : Controllers K) (events : List (Event K)) : Prop :=
  ∀ loop, outputs loop s events = outputs loop s (alone loop events)

theorem outputs_append (loop : Loop) (s : Controllers K) (events later : List (Event K)) :
    outputs loop s (events ++ later) =
      outputs loop s events ++ outputs loop (events.foldl Event.after s) later := by
  induction events generalizing s with
  | nil => rfl
  | cons event rest ih =>
    cases event with
    | pidClear => exact ih _
    | anglePID caller error =>
      simp only [List.cons_append, outputs, List.foldl_cons, Event.after]
      split
      · rw [ih, List.cons_append]
      · exact ih _

theorem anglePID_congr {s other : Controllers K}
    (same : s.history .angle = other.history .angle) (error : K) (pid : Pid K) :
    (anglePID error pid s).1 = (anglePID error pid other).1 ∧
      (anglePID error pid s).2.history .angle = (anglePID error pid other).2.history .angle := by
  simp [anglePID, Controllers.call, same]

/-- As long as the last action was one of the loop or a clearing, both runs have the same
history; after an action of another loop the next one that matters is a clearing. -/
theorem outputs_alone {loop : Loop} {events : List (Event K)} (last : Action)
    {s other : Controllers K}
    (exclusive : Exclusive (last :: events.map Event.action))
    (same : (∀ caller, last = .anglePID caller → caller.loop = loop) →
      s.history .angle = other.history .angle) :
    outputs loop s events = outputs loop other (alone loop events) := by
  induction events generalizing last s other with
  | nil => rfl
  | cons event rest ih =>
    rw [List.map_cons, Exclusive, List.isChain_cons_cons] at exclusive
    obtain ⟨compatible, exclusive⟩ := exclusive
    cases event with
    | pidClear => exact ih .pidClear exclusive fun _ => rfl
    | anglePID caller error =>
      by_cases own : caller.loop = loop
      · have agree : s.history .angle = other.history .angle := by
          apply same
          rintro previous rfl
          exact compatible.trans own
        obtain ⟨result, history⟩ := anglePID_congr agree error caller.pid
        simp only [alone, List.filter_cons, Event.concerns, own, decide_true, if_true, outputs,
          result]
        exact congrArg _ (ih (.anglePID caller) exclusive fun _ => history)
      · simp only [alone, List.filter_cons, Event.concerns, own, decide_false, if_false, outputs,
          Bool.false_eq_true]
        exact ih (.anglePID caller) exclusive fun loop_last => absurd (loop_last caller rfl) own

theorem undisturbed_of_exclusive {events : List (Event K)}
    (exclusive : Exclusive (events.map Event.action)) (s : Controllers K) :
    Undisturbed s events := by
  intro loop
  refine outputs_alone .pidClear ?_ fun _ => rfl
  cases actions : events.map Event.action with
  | nil => exact .singleton _
  | cons action rest => exact .cons_cons trivial (actions ▸ exclusive)

/-- A loop gets as many results alone as with the others. -/
theorem length_outputs_alone (loop : Loop) (s other : Controllers K) (events : List (Event K)) :
    (outputs loop s events).length = (outputs loop other (alone loop events)).length := by
  induction events generalizing s other with
  | nil => rfl
  | cons event rest ih =>
    cases event with
    | pidClear => exact ih _ _
    | anglePID caller error =>
      by_cases own : caller.loop = loop
      · simp only [alone, List.filter_cons, Event.concerns, own, decide_true, if_true, outputs,
          List.length_cons]
        exact congrArg _ (ih _ _)
      · simp only [alone, List.filter_cons, Event.concerns, own, decide_false, if_false, outputs,
          Bool.false_eq_true]
        exact ih _ _

/-- The event of an action with the error 0. -/
def Action.still : Action → Event K
  | pidClear => .pidClear
  | anglePID caller => .anglePID caller 0

@[simp] theorem Action.action_still (action : Action) :
    (action.still : Event K).action = action := by
  cases action <;> rfl

/-- Errors of 0 leave an empty history empty. -/
theorem history_still (loop : Loop) (schedule : List Action) {s : Controllers K}
    (empty : s.history .angle = .zero) :
    ((schedule.map Action.still).foldl Event.after s).history .angle = .zero ∧
      ((alone loop (schedule.map Action.still)).foldl Event.after s).history .angle = .zero := by
  have call : ∀ {current : Controllers K} (action : Action), current.history .angle = .zero →
      ((action.still : Event K).after current).history .angle = .zero := by
    intro current action empty
    cases action with
    | pidClear => rfl
    | anglePID caller => simp [Action.still, Event.after, anglePID, empty, History.correct,
        History.zero]
  induction schedule using List.reverseRecOn with
  | nil => exact ⟨empty, empty⟩
  | append_singleton earlier action ih =>
    obtain ⟨whole, part⟩ := ih
    simp only [alone, List.map_append, List.map_cons, List.map_nil, List.filter_append,
      List.foldl_append, List.foldl_cons, List.foldl_nil] at *
    refine ⟨call action whole, ?_⟩
    by_cases concerned : (action.still : Event K).concerns loop
    · simpa [concerned] using call action part
    · simpa [concerned] using part

end Field

section CharZero

variable [Field K] [CharZero K]

/-- What a call with the error 1 leaves behind for the next call of another loop. -/
theorem disturbance_ne_zero {first second : Caller} (other : first.loop ≠ second.loop) :
    (first.pid : Pid K).p * (1 + 1 / first.pid.i + first.pid.d) +
      -(second.pid : Pid K).p * (1 + 2 * second.pid.d) ≠ 0 := by
  cases first with
  | goPointPath firstCam =>
    cases second with
    | goPointPath _ => exact absurd rfl other
    | rtThreadEntryHandleY =>
      cases firstCam <;> rw [Caller.pid_headingHold]
      · rw [Caller.pid_path]
        norm_num [Pid.gains]
      · rw [Caller.pid_camera]
        norm_num [Pid.gains]
    | fanAccelerate =>
      cases firstCam <;> rw [Caller.pid_fan]
      · rw [Caller.pid_path]
        norm_num [Pid.gains]
      · rw [Caller.pid_camera]
        norm_num [Pid.gains]
  | rtThreadEntryHandleY =>
    rw [Caller.pid_headingHold]
    cases second with
    | goPointPath secondCam =>
      cases secondCam
      · rw [Caller.pid_path]
        norm_num [Pid.gains]
      · rw [Caller.pid_camera]
        norm_num [Pid.gains]
    | rtThreadEntryHandleY => exact absurd rfl other
    | fanAccelerate =>
      rw [Caller.pid_fan]
      norm_num [Pid.gains]
  | fanAccelerate =>
    rw [Caller.pid_fan]
    cases second with
    | goPointPath secondCam =>
      cases secondCam
      · rw [Caller.pid_path]
        norm_num [Pid.gains]
      · rw [Caller.pid_camera]
        norm_num [Pid.gains]
    | rtThreadEntryHandleY =>
      rw [Caller.pid_headingHold]
      norm_num [Pid.gains]
    | fanAccelerate => exact absurd rfl other

/-- The second of two calls from different loops is disturbed if the first has the error 1
and all other errors are 0. -/
theorem not_undisturbed_split {first second : Caller} (other : first.loop ≠ second.loop)
    (before later : List Action) {s : Controllers K} (empty : s.history .angle = .zero) :
    ¬Undisturbed s (before.map Action.still ++
      .anglePID first 1 :: .anglePID second 0 :: later.map Action.still) := by
  intro undisturbed
  have same := undisturbed second.loop
  obtain ⟨whole, part⟩ := history_still second.loop before empty
  have left : (Event.anglePID first (1 : K)).concerns second.loop = false := by
    simp [Event.concerns, other]
  have right : (Event.anglePID second (0 : K)).concerns second.loop = true := by
    simp [Event.concerns]
  rw [alone, List.filter_append, List.filter_cons_of_neg (by simp [left]),
    List.filter_cons_of_pos right, ← alone, outputs_append, outputs_append] at same
  have tails := (List.append_inj same (length_outputs_alone _ _ _ _)).2
  simp only [outputs, if_neg other, if_true, List.cons.injEq] at tails
  have equal := tails.1
  simp only [anglePID, Controllers.call, Function.update_self, whole, part, History.correct,
    History.zero] at equal
  apply disturbance_ne_zero (K := K) other
  simpa using equal

/-- Control loops do not disturb each other, whatever their errors are, in exactly those
schedules in which between two calls of different loops the controller is cleared. -/
theorem undisturbed_iff_exclusive (schedule : List Action) (s : Controllers K) :
    (∀ events : List (Event K), events.map Event.action = schedule →
      Undisturbed (pidClear s) events) ↔ Exclusive schedule := by
  constructor
  · intro undisturbed
    rw [Exclusive, List.isChain_iff_forall_rel_of_append_cons_cons]
    rintro first second before later rfl
    cases first with
    | pidClear => trivial
    | anglePID first =>
      cases second with
      | pidClear => trivial
      | anglePID second =>
        by_contra other
        refine not_undisturbed_split other before later rfl (undisturbed _ ?_)
        simp [Function.comp_def]
  · rintro exclusive events rfl
    exact undisturbed_of_exclusive exclusive _

end CharZero

/-- The joystick after the start of a path, which clears the controller. -/
theorem undisturbed_joystick_path :
    Exclusive [.anglePID .rtThreadEntryHandleY, .pidClear, .anglePID (.goPointPath false)] ∧
      ∀ events : List (Event ℚ),
        events.map Event.action =
          [.anglePID .rtThreadEntryHandleY, .pidClear, .anglePID (.goPointPath false)] →
        Undisturbed (pidClear .initial) events := by
  have exclusive :
      Exclusive [.anglePID .rtThreadEntryHandleY, .pidClear, .anglePID (.goPointPath false)] :=
    .cons_cons trivial (.cons_cons trivial (.singleton _))
  exact ⟨exclusive, (undisturbed_iff_exclusive _ .initial).mpr exclusive⟩

/-- The joystick holds its heading without error and gets a correction because a path
follower before it had an error. -/
theorem not_undisturbed_path_joystick :
    ¬Undisturbed (pidClear .initial : Controllers ℚ)
      [.anglePID (.goPointPath false) 1, .anglePID .rtThreadEntryHandleY 0] :=
  not_undisturbed_split (by decide) [] [] rfl

end BadmintonRobot.Control
