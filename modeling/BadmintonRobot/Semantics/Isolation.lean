import Mathlib.Logic.Function.Basic
import BadmintonRobot.Semantics.Run

/-!
# Isolation of straight-line transactions

Threads run straight-line programs of writes and reads on shared memory and of
actions that depend on the values read so far. The actions of a thread are those
of running its calls alone, provided that no thread overwrites a location which
another one has written and is about to read back.
-/

namespace BadmintonRobot.Semantics.Isolation

open BadmintonRobot.Semantics

/-- One statement of a straight-line program. -/
inductive Op (Loc Val Act : Type) where
  | write (loc : Loc) (value : Val)
  | read (loc : Loc)
  | act (action : Act)

section Solo

variable {Loc Val Act : Type}

/-- The program writes the location. -/
def Writes : List (Op Loc Val Act) → Loc → Prop
  | [], _ => False
  | .write loc _ :: ops, target => loc = target ∨ Writes ops target
  | _ :: ops, target => Writes ops target

/-- The next statement on the location reads it. -/
def ReadsNext : List (Op Loc Val Act) → Loc → Prop
  | [], _ => False
  | .write loc _ :: ops, target => loc ≠ target ∧ ReadsNext ops target
  | .read loc :: ops, target => loc = target ∨ ReadsNext ops target
  | .act _ :: ops, target => ReadsNext ops target

/-- The program writes every location before it reads it. -/
def WritesFirst (program : List (Op Loc Val Act)) : Prop :=
  ∀ done loc rest, program = done ++ Op.read loc :: rest → Writes done loc

theorem writes_append {first second : List (Op Loc Val Act)} {loc : Loc} :
    Writes (first ++ second) loc ↔ Writes first loc ∨ Writes second loc := by
  induction first with
  | nil => simp [Writes]
  | cons op first ih => cases op <;> simp [Writes, ih, or_assoc]

/-- A program that first writes and then reads only what it wrote. -/
theorem writesFirst_append {first second : List (Op Loc Val Act)}
    (noReads : ∀ loc, .read loc ∉ first) (written : ∀ loc, .read loc ∈ second → Writes first loc) :
    WritesFirst (first ++ second) := by
  intro done loc rest same
  rcases List.append_eq_append_iff.mp same with ⟨middle, rfl, tail⟩ | ⟨middle, rfl, tail⟩
  · rw [writes_append]
    exact .inl (written loc (by simp [tail]))
  · cases middle with
    | nil =>
      rw [List.append_nil] at written
      rw [List.nil_append] at tail
      exact written loc (by simp [← tail])
    | cons op middle =>
      obtain ⟨rfl, _⟩ := List.cons_eq_cons.mp tail
      exact absurd (by simp) (noReads loc)

variable [DecidableEq Loc]

/-- The memory after the writes of a program. -/
def settle (mem : Loc → Val) : List (Op Loc Val Act) → Loc → Val
  | [] => mem
  | .write loc value :: ops => settle (Function.update mem loc value) ops
  | _ :: ops => settle mem ops

/-- The values that a program reads when it runs alone. -/
def soloReads (mem : Loc → Val) : List (Op Loc Val Act) → List Val
  | [] => []
  | .write loc value :: ops => soloReads (Function.update mem loc value) ops
  | .read loc :: ops => mem loc :: soloReads mem ops
  | .act _ :: ops => soloReads mem ops

/-- The actions that a program performs when it runs alone, each with the values
read before it. -/
def solo (mem : Loc → Val) (seen : List Val) : List (Op Loc Val Act) → List (Act × List Val)
  | [] => []
  | .write loc value :: ops => solo (Function.update mem loc value) seen ops
  | .read loc :: ops => solo mem (seen ++ [mem loc]) ops
  | .act action :: ops => (action, seen) :: solo mem seen ops

variable {mem : Loc → Val} {seen : List Val}

theorem settle_append (first second : List (Op Loc Val Act)) :
    settle mem (first ++ second) = settle (settle mem first) second := by
  induction first generalizing mem with
  | nil => rfl
  | cons op first ih => cases op <;> exact ih

theorem soloReads_append (first second : List (Op Loc Val Act)) :
    soloReads mem (first ++ second) =
      soloReads mem first ++ soloReads (settle mem first) second := by
  induction first generalizing mem with
  | nil => rfl
  | cons op first ih =>
    cases op with
    | write loc value => exact ih
    | read loc => exact congrArg (mem loc :: ·) ih
    | act action => exact ih

theorem solo_append (first second : List (Op Loc Val Act)) :
    solo mem seen (first ++ second) =
      solo mem seen first ++ solo (settle mem first) (seen ++ soloReads mem first) second := by
  induction first generalizing mem seen with
  | nil => simp [solo, settle, soloReads]
  | cons op first ih =>
    cases op with
    | write loc value => exact ih
    | read loc =>
      have later := @ih mem (seen ++ [mem loc])
      simpa [solo, settle, soloReads, List.append_assoc] using later
    | act action => exact congrArg ((action, seen) :: ·) ih

/-- A block of reads adds the values in memory. -/
theorem solo_reads (locs : List Loc) (rest : List (Op Loc Val Act)) :
    solo mem seen (locs.map .read ++ rest) = solo mem (seen ++ locs.map mem) rest := by
  induction locs generalizing seen with
  | nil => simp
  | cons loc locs ih => simp [solo, ih]

end Solo

section Calls

variable {Call Loc Val Act : Type} [DecidableEq Loc]

/-- The actions of calls that one thread makes one after the other. -/
def soloRun (program : Call → List (Op Loc Val Act)) (mem : Loc → Val) :
    List Call → List (Act × List Val)
  | [] => []
  | call :: calls => solo mem [] (program call) ++ soloRun program (settle mem (program call)) calls

end Calls

/-- A call in progress: the statements executed, those to come and the values read. -/
structure Active (Call Loc Val Act : Type) where
  call : Call
  done : List (Op Loc Val Act)
  rest : List (Op Loc Val Act)
  observed : List Val

/-- An action that a thread performed, with the values that its call had read. -/
structure Effect (Thread Call Val Act : Type) where
  thread : Thread
  call : Call
  action : Act
  seen : List Val
deriving DecidableEq

/-- The shared memory, the threads and what they have done. -/
structure System (Thread Call Loc Val Act : Type) where
  mem : Loc → Val
  active : Thread → Option (Active Call Loc Val Act)
  finished : Thread → List Call
  log : List (Effect Thread Call Val Act)

/-- A thread calls a function, or executes its next statement or returns. -/
inductive Label (Thread Call : Type) where
  | start (thread : Thread) (call : Call)
  | advance (thread : Thread)

section System

variable {Thread Call Loc Val Act : Type} [DecidableEq Thread] [DecidableEq Loc]

namespace System

/-- The effect of one statement of the active call `a` of a thread. -/
def execute (s : System Thread Call Loc Val Act) (thread : Thread) (a : Active Call Loc Val Act)
    (rest : List (Op Loc Val Act)) : Op Loc Val Act → System Thread Call Loc Val Act
  | .write loc value =>
    { s with
      mem := Function.update s.mem loc value
      active := Function.update s.active thread
        (some { a with done := a.done ++ [.write loc value], rest := rest }) }
  | .read loc =>
    { s with
      active := Function.update s.active thread
        (some { a with
          done := a.done ++ [.read loc]
          rest := rest
          observed := a.observed ++ [s.mem loc] }) }
  | .act action =>
    { s with
      log := s.log ++ [⟨thread, a.call, action, a.observed⟩]
      active := Function.update s.active thread
        (some { a with done := a.done ++ [.act action], rest := rest }) }

/-- One step of the system in which calls run their `program`. -/
def step (program : Call → List (Op Loc Val Act)) (s : System Thread Call Loc Val Act) :
    Label Thread Call → Option (System Thread Call Loc Val Act)
  | .start thread call =>
    match s.active thread with
    | some _ => none
    | none =>
      some { s with active := Function.update s.active thread (some ⟨call, [], program call, []⟩) }
  | .advance thread =>
    match s.active thread with
    | none => none
    | some a =>
      match a.rest with
      | [] =>
        some { s with
          active := Function.update s.active thread none
          finished := Function.update s.finished thread (s.finished thread ++ [a.call]) }
      | op :: rest => some (s.execute thread a rest op)

/-- No thread has called anything yet. -/
def idle (mem : Loc → Val) : System Thread Call Loc Val Act where
  mem := mem
  active := fun _ => none
  finished := fun _ => []
  log := []

/-- The actions of one thread. -/
def effectsOf (s : System Thread Call Loc Val Act) (thread : Thread) :
    List (Call × Act × List Val) :=
  s.log.filterMap fun effect =>
    if effect.thread = thread then some (effect.call, effect.action, effect.seen) else none

end System

/-- The call has written the location and reads it back before writing it again. -/
def Active.Awaits (a : Active Call Loc Val Act) (loc : Loc) : Prop :=
  Writes a.done loc ∧ ReadsNext a.rest loc

/-- The next statement does not overwrite what another thread is about to read back. -/
def NoOverwrite (s : System Thread Call Loc Val Act) : Label Thread Call → Prop
  | .start _ _ => True
  | .advance thread =>
    ∀ a loc value rest, s.active thread = some a → a.rest = .write loc value :: rest →
      ∀ other b, other ≠ thread → s.active other = some b → ¬b.Awaits loc

/-- The cases of a step. -/
theorem step_cases {program : Call → List (Op Loc Val Act)}
    {s next : System Thread Call Loc Val Act} {label : Label Thread Call}
    (transition : s.step program label = some next) :
    (∃ thread call, label = .start thread call ∧ s.active thread = none ∧
      next = { s with
        active := Function.update s.active thread (some ⟨call, [], program call, []⟩) }) ∨
    (∃ thread a, label = .advance thread ∧ s.active thread = some a ∧ a.rest = [] ∧
      next = { s with
        active := Function.update s.active thread none
        finished := Function.update s.finished thread (s.finished thread ++ [a.call]) }) ∨
    (∃ thread a op rest, label = .advance thread ∧ s.active thread = some a ∧
      a.rest = op :: rest ∧ next = s.execute thread a rest op) := by
  cases label with
  | start thread call =>
    cases found : s.active thread with
    | some a => simp [System.step, found] at transition
    | none =>
      refine .inl ⟨thread, call, rfl, found, ?_⟩
      simpa [System.step, found] using transition.symm
  | advance thread =>
    cases found : s.active thread with
    | none => simp [System.step, found] at transition
    | some a =>
      cases remaining : a.rest with
      | nil =>
        refine .inr (.inl ⟨thread, a, rfl, found, remaining, ?_⟩)
        simpa [System.step, found, remaining] using transition.symm
      | cons op rest =>
        refine .inr (.inr ⟨thread, a, op, rest, rfl, found, remaining, ?_⟩)
        simpa [System.step, found, remaining] using transition.symm

/-- The call is where running it alone would be, and memory still holds what it is
about to read back. -/
structure Sound (program : Call → List (Op Loc Val Act)) (blank mem : Loc → Val)
    (a : Active Call Loc Val Act) : Prop where
  split : a.done ++ a.rest = program a.call
  observed : a.observed = soloReads blank a.done
  kept : ∀ loc, a.Awaits loc → mem loc = settle blank a.done loc

namespace Sound

variable {program : Call → List (Op Loc Val Act)} {blank mem : Loc → Val}
  {a : Active Call Loc Val Act} {rest : List (Op Loc Val Act)}

theorem begin (call : Call) : Sound program blank mem ⟨call, [], program call, []⟩ :=
  ⟨rfl, rfl, fun _ awaits => awaits.1.elim⟩

private theorem split_next {op : Op Loc Val Act} (sound : Sound program blank mem a)
    (next : a.rest = op :: rest) : (a.done ++ [op]) ++ rest = program a.call := by
  rw [← sound.split, next, List.append_assoc]
  rfl

theorem write (sound : Sound program blank mem a) {loc : Loc} {value : Val}
    (next : a.rest = .write loc value :: rest) :
    Sound program blank (Function.update mem loc value)
      { a with done := a.done ++ [.write loc value], rest := rest } := by
  refine ⟨sound.split_next next, ?_, fun target awaits => ?_⟩
  · simpa [soloReads_append, soloReads] using sound.observed
  · obtain ⟨written, reads⟩ := awaits
    simp only [settle_append, settle]
    by_cases same : loc = target
    · simp [same]
    · have before : Writes a.done target := by
        simpa [writes_append, Writes, same] using written
      have awaited : a.Awaits target := ⟨before, by rw [next]; exact ⟨same, reads⟩⟩
      simp only [Function.update_of_ne (Ne.symm same), sound.kept target awaited]

/-- A read returns the call's own write. -/
theorem read (sound : Sound program blank mem a) {loc : Loc}
    (writesFirst : WritesFirst (program a.call)) (next : a.rest = .read loc :: rest) :
    Sound program blank mem
      { a with
        done := a.done ++ [.read loc]
        rest := rest
        observed := a.observed ++ [mem loc] } := by
  have written : Writes a.done loc :=
    writesFirst a.done loc rest (by rw [← sound.split, next])
  have own : mem loc = settle blank a.done loc :=
    sound.kept loc ⟨written, by rw [next]; exact .inl rfl⟩
  refine ⟨sound.split_next next, ?_, fun target awaits => ?_⟩
  · simp [soloReads_append, soloReads, sound.observed, own]
  · obtain ⟨written, reads⟩ := awaits
    have before : Writes a.done target := by simpa [writes_append, Writes] using written
    simp only [settle_append, settle]
    exact sound.kept target ⟨before, by rw [next]; exact .inr reads⟩

theorem act (sound : Sound program blank mem a) {action : Act}
    (next : a.rest = .act action :: rest) :
    Sound program blank mem { a with done := a.done ++ [.act action], rest := rest } := by
  refine ⟨sound.split_next next, ?_, fun target awaits => ?_⟩
  · simpa [soloReads_append, soloReads] using sound.observed
  · obtain ⟨written, reads⟩ := awaits
    have before : Writes a.done target := by simpa [writes_append, Writes] using written
    simp only [settle_append, settle]
    exact sound.kept target ⟨before, by rw [next]; exact reads⟩

/-- A write of another thread to a location that is not awaited does no harm. -/
theorem of_other_write (sound : Sound program blank mem a) {loc : Loc} {value : Val}
    (harmless : ¬a.Awaits loc) : Sound program blank (Function.update mem loc value) a := by
  refine ⟨sound.split, sound.observed, fun target awaits => ?_⟩
  have different : target ≠ loc := by
    rintro rfl
    exact harmless awaits
  rw [Function.update_of_ne different, sound.kept target awaits]

end Sound

/-- The actions of a call that runs alone. -/
def soloEffects (program : Call → List (Op Loc Val Act)) (blank : Loc → Val) (call : Call) :
    List (Call × Act × List Val) :=
  (solo blank [] (program call)).map (Prod.mk call)

/-- The actions so far of a call in progress, had it run alone. -/
def pendingEffects (blank : Loc → Val) : Option (Active Call Loc Val Act) →
    List (Call × Act × List Val)
  | none => []
  | some a => (solo blank [] a.done).map (Prod.mk a.call)

/-- The calls that a step may start. -/
def Starts (allowed : Call → Prop) : Label Thread Call → Prop
  | .start _ call => allowed call
  | .advance _ => True

/-- Every call in progress is sound, and every thread has done exactly what its
calls do alone. -/
structure Isolated (program : Call → List (Op Loc Val Act)) (allowed : Call → Prop)
    (blank : Loc → Val) (s : System Thread Call Loc Val Act) : Prop where
  called : ∀ thread a, s.active thread = some a → allowed a.call
  returned : ∀ thread, ∀ call ∈ s.finished thread, allowed call
  sound : ∀ thread a, s.active thread = some a → Sound program blank s.mem a
  effects : ∀ thread, s.effectsOf thread =
    (s.finished thread).flatMap (soloEffects program blank) ++
      pendingEffects blank (s.active thread)

section Preservation

variable {program : Call → List (Op Loc Val Act)} {allowed : Call → Prop} {blank : Loc → Val}
  {s next : System Thread Call Loc Val Act}

theorem isolated_idle (mem : Loc → Val) :
    Isolated program allowed blank (System.idle mem : System Thread Call Loc Val Act) where
  called _ _ impossible := by simp [System.idle] at impossible
  returned _ _ impossible := by simp [System.idle] at impossible
  sound _ _ impossible := by simp [System.idle] at impossible
  effects _ := rfl

omit [DecidableEq Loc] in
/-- A property of the active calls after the call of one thread has been replaced. -/
private theorem active_update {P : Active Call Loc Val Act → Prop} {thread : Thread}
    {replacement : Option (Active Call Loc Val Act)}
    (others : ∀ other b, other ≠ thread → s.active other = some b → P b)
    (own : ∀ b, replacement = some b → P b) (other : Thread) (b : Active Call Loc Val Act)
    (found : Function.update s.active thread replacement other = some b) : P b := by
  by_cases same : other = thread
  · subst same
    exact own b (by simpa using found)
  · exact others other b same (by simpa [Function.update_of_ne same] using found)

private theorem pendingEffects_snoc (a : Active Call Loc Val Act) (op : Op Loc Val Act)
    (rest : List (Op Loc Val Act)) (observed : List Val) :
    pendingEffects blank (some { a with done := a.done ++ [op], rest := rest, observed := observed }) =
      pendingEffects blank (some a) ++
        (solo (settle blank a.done) (soloReads blank a.done) [op]).map (Prod.mk a.call) := by
  simp [pendingEffects, solo_append]

theorem Isolated.execute (isolated : Isolated program allowed blank s)
    (writesFirst : ∀ call, allowed call → WritesFirst (program call)) {thread : Thread}
    {a : Active Call Loc Val Act} {op : Op Loc Val Act} {rest : List (Op Loc Val Act)}
    (found : s.active thread = some a) (remaining : a.rest = op :: rest)
    (harmless : NoOverwrite s (.advance thread)) :
    Isolated program allowed blank (s.execute thread a rest op) := by
  have sound := isolated.sound thread a found
  have permitted := isolated.called thread a found
  cases op with
  | write loc value =>
    refine ⟨?_, isolated.returned, ?_, fun other => ?_⟩
    · refine active_update (fun other b _ active => isolated.called other b active) ?_
      rintro b ⟨⟩
      exact permitted
    · refine active_update (fun other b different active => ?_) ?_
      · exact (isolated.sound other b active).of_other_write
          (harmless a loc value rest found remaining other b different active)
      · rintro b ⟨⟩
        exact sound.write remaining
    · have effects := isolated.effects other
      by_cases same : other = thread
      · subst same
        simpa [System.execute, System.effectsOf, pendingEffects_snoc, solo, found] using effects
      · simpa [System.execute, System.effectsOf, Function.update_of_ne same] using effects
  | read loc =>
    refine ⟨?_, isolated.returned, ?_, fun other => ?_⟩
    · refine active_update (fun other b _ active => isolated.called other b active) ?_
      rintro b ⟨⟩
      exact permitted
    · refine active_update (fun other b _ active => isolated.sound other b active) ?_
      rintro b ⟨⟩
      exact sound.read (writesFirst a.call permitted) remaining
    · have effects := isolated.effects other
      by_cases same : other = thread
      · subst same
        simpa [System.execute, System.effectsOf, pendingEffects_snoc, solo, found] using effects
      · simpa [System.execute, System.effectsOf, Function.update_of_ne same] using effects
  | act action =>
    refine ⟨?_, isolated.returned, ?_, fun other => ?_⟩
    · refine active_update (fun other b _ active => isolated.called other b active) ?_
      rintro b ⟨⟩
      exact permitted
    · refine active_update (fun other b _ active => isolated.sound other b active) ?_
      rintro b ⟨⟩
      exact sound.act remaining
    · have effects := isolated.effects other
      by_cases same : other = thread
      · subst same
        rw [found] at effects
        have logged : (s.execute other a rest (.act action)).effectsOf other =
            s.effectsOf other ++ [(a.call, action, a.observed)] := by
          simp [System.execute, System.effectsOf, List.filterMap_append]
        rw [logged, effects, sound.observed]
        simp [System.execute, pendingEffects_snoc, solo]
      · simpa [System.execute, System.effectsOf, List.filterMap_append, Function.update_of_ne same,
          Ne.symm same] using effects

/-- A step that overwrites nothing awaited keeps the threads isolated. -/
theorem Isolated.step (isolated : Isolated program allowed blank s)
    (writesFirst : ∀ call, allowed call → WritesFirst (program call))
    {label : Label Thread Call} (harmless : NoOverwrite s label) (starts : Starts allowed label)
    (transition : s.step program label = some next) : Isolated program allowed blank next := by
  rcases step_cases transition with ⟨thread, call, rfl, found, rfl⟩ |
    ⟨thread, a, rfl, found, remaining, rfl⟩ | ⟨thread, a, op, rest, rfl, found, remaining, rfl⟩
  · refine ⟨?_, isolated.returned, ?_, fun other => ?_⟩
    · refine active_update (fun other b _ active => isolated.called other b active) ?_
      rintro b ⟨⟩
      exact starts
    · refine active_update (fun other b _ active => isolated.sound other b active) ?_
      rintro b ⟨⟩
      exact .begin call
    · have effects := isolated.effects other
      by_cases same : other = thread
      · subst same
        simpa [System.effectsOf, pendingEffects, solo, found] using effects
      · simpa [System.effectsOf, Function.update_of_ne same] using effects
  · refine ⟨?_, fun other call member => ?_, ?_, fun other => ?_⟩
    · refine active_update (fun other b _ active => isolated.called other b active) ?_
      rintro b ⟨⟩
    · dsimp only at member
      by_cases same : other = thread
      · subst same
        rw [Function.update_self, List.mem_append, List.mem_singleton] at member
        rcases member with earlier | rfl
        · exact isolated.returned other call earlier
        · exact isolated.called other a found
      · rw [Function.update_of_ne same] at member
        exact isolated.returned other call member
    · refine active_update (fun other b _ active => isolated.sound other b active) ?_
      rintro b ⟨⟩
    · have effects := isolated.effects other
      by_cases same : other = thread
      · subst same
        have whole : a.done = program a.call := by
          simpa [remaining] using (isolated.sound other a found).split
        simpa [System.effectsOf, pendingEffects, soloEffects, found, whole,
          List.flatMap_append] using effects
      · simpa [System.effectsOf, Function.update_of_ne same] using effects
  · exact isolated.execute writesFirst found remaining harmless

/-- In a run that overwrites nothing awaited, the threads stay isolated. -/
theorem isolated_of_steps (writesFirst : ∀ call, allowed call → WritesFirst (program call))
    {mem : Loc → Val} {labels : List (Label Thread Call)}
    (steps : Steps
      (TakesWhen (fun s label => NoOverwrite s label ∧ Starts allowed label)
        (System.step program))
      (System.idle mem) labels s) :
    Isolated program allowed blank s := by
  refine steps.invariant (isolated_idle mem) ?_
  rintro current label next isolated ⟨⟨harmless, starts⟩, transition⟩
  exact isolated.step writesFirst harmless starts transition

/-- What a call in progress has done is the beginning of what it does alone. -/
theorem Isolated.solo_done (isolated : Isolated program allowed blank s) {thread : Thread}
    {a : Active Call Loc Val Act} (found : s.active thread = some a) :
    solo blank [] a.done <+: solo blank [] (program a.call) := by
  rw [← (isolated.sound thread a found).split, solo_append]
  exact List.prefix_append _ _

/-- Every action in the log is one that its call performs alone. -/
theorem Isolated.mem_solo (isolated : Isolated program allowed blank s)
    {effect : Effect Thread Call Val Act} (logged : effect ∈ s.log) :
    allowed effect.call ∧ (effect.action, effect.seen) ∈ solo blank [] (program effect.call) := by
  have own : (effect.call, effect.action, effect.seen) ∈ s.effectsOf effect.thread :=
    List.mem_filterMap.mpr ⟨effect, logged, if_pos rfl⟩
  rw [isolated.effects, List.mem_append] at own
  rcases own with earlier | current
  · obtain ⟨call, returned, member⟩ := List.mem_flatMap.mp earlier
    obtain ⟨pair, performed, same⟩ := List.mem_map.mp member
    cases same
    exact ⟨isolated.returned _ _ returned, performed⟩
  · cases found : s.active effect.thread with
    | none => simp [found, pendingEffects] at current
    | some a =>
      rw [found] at current
      obtain ⟨pair, performed, same⟩ := List.mem_map.mp current
      obtain ⟨sameCall, rfl⟩ := Prod.mk.inj same
      rw [← sameCall]
      exact ⟨isolated.called _ _ found, (isolated.solo_done found).subset performed⟩

end Preservation

end System

end BadmintonRobot.Semantics.Isolation
