import BadmintonRobot.Semantics.Thread

/-!
# Rely and guarantee

A thread is verified on its own against a contract: it relies on what the other
threads may do to the shared state and guarantees what its own steps do. An assertion
carries the proof that the steps relied on keep it. `Triple` is partial correctness
under interference, with one postcondition for falling through and one for leaving the
nearest loop. `Stays` is what a verified thread keeps at every later moment, and a
system of several threads only uses its two rules `own` and `other`.
-/

namespace BadmintonRobot.Semantics

variable {Input State : Type}

/-- What a thread may expect and what it promises. The premise may be assumed of
every state in which the thread takes a step. -/
structure Contract (State : Type) where
  premise : State → Prop
  rely : State → State → Prop
  guarantee : State → State → Prop
  idle : ∀ state, guarantee state state

/-- A predicate that no step of the other threads breaks. -/
structure Assertion (contract : Contract State) where
  holds : State → Prop
  stable : ∀ state next, holds state → contract.rely state next → holds next

/-- The assertion that holds everywhere. -/
def Assertion.any (contract : Contract State) : Assertion contract where
  holds _ := True
  stable _ _ _ _ := trivial

/-- The assertion that holds nowhere. -/
def Assertion.never (contract : Contract State) : Assertion contract where
  holds _ := False
  stable _ _ none _ := none

/-- For the given number of steps, whoever takes them, each own step keeps the
guarantee. -/
def Safe (contract : Contract State) : Nat → List (Task Input State) → State → Prop
  | 0, _, _ => True
  | count + 1, tasks, state =>
    (∀ next, contract.rely state next → Safe contract count tasks next) ∧
    ∀ input rest next, contract.premise state →
      advance input tasks state = some (rest, next) →
        contract.guarantee state next ∧ Safe contract count rest next

/-- Each own step keeps the guarantee from now on. -/
def Stays (contract : Contract State) (tasks : List (Task Input State)) (state : State) : Prop :=
  ∀ count, Safe contract count tasks state

/-- The statement keeps the guarantee when it begins where `before` holds. If it ends
then `after` holds, and if it leaves the loop around it then `broken` holds. -/
def Triple (contract : Contract State) (before : Assertion contract)
    (statement : Stmt Input State) (after broken : Assertion contract) : Prop :=
  ∀ count rest state, before.holds state →
    (∀ next, after.holds next → Safe contract count rest next) →
    (∀ next, broken.holds next → Safe contract count (unwind rest) next) →
    Safe contract count (.run statement :: rest) state

section Safe

variable {contract : Contract State} {tasks : List (Task Input State)} {state : State}

theorem Safe.mono {count fewer : Nat} (safe : Safe contract count tasks state)
    (less : fewer ≤ count) : Safe contract fewer tasks state := by
  induction fewer generalizing count tasks state with
  | zero => trivial
  | succ fewer ih =>
    obtain ⟨count, rfl⟩ : ∃ more, count = more + 1 := ⟨count - 1, by omega⟩
    have smaller : fewer ≤ count := by omega
    constructor
    · intro next relied
      exact ih (safe.1 next relied) smaller
    · intro input rest next premise taken
      obtain ⟨kept, later⟩ := safe.2 input rest next premise taken
      exact ⟨kept, ih later smaller⟩

/-- An assertion that holds until the next own step reduces safety to that step. -/
theorem Assertion.safe (before : Assertion contract) {count : Nat}
    (own : ∀ fewer < count, ∀ state input rest next, before.holds state →
      contract.premise state → advance input tasks state = some (rest, next) →
        contract.guarantee state next ∧ Safe contract fewer rest next)
    (initial : before.holds state) : Safe contract count tasks state := by
  induction count generalizing state with
  | zero => trivial
  | succ count ih =>
    constructor
    · intro next relied
      refine ih (fun fewer less => own fewer (by omega)) (before.stable _ _ initial relied)
    · intro input rest next premise taken
      exact own count (by omega) state input rest next initial premise taken

/-- A thread that has returned does nothing. -/
theorem safe_nil (count : Nat) (state : State) :
    Safe contract count ([] : List (Task Input State)) state := by
  induction count generalizing state with
  | zero => trivial
  | succ count ih => exact ⟨fun next _ => ih next, fun _ _ _ _ taken => nomatch taken⟩

theorem Stays.own {input : Input} {rest : List (Task Input State)} {next : State}
    (stays : Stays contract tasks state) (premise : contract.premise state)
    (taken : advance input tasks state = some (rest, next)) :
    contract.guarantee state next ∧ Stays contract rest next := by
  have first := fun count => (stays (count + 1)).2 input rest next premise taken
  exact ⟨(first 0).1, fun count => (first count).2⟩

theorem Stays.other {next : State} (stays : Stays contract tasks state)
    (relied : contract.rely state next) : Stays contract tasks next :=
  fun count => (stays (count + 1)).1 next relied

end Safe

namespace Triple

variable {contract : Contract State} {before middle after broken : Assertion contract}
  {first second yes no body : Stmt Input State}

/-- A verified thread keeps its guarantee. -/
theorem stays {statement : Stmt Input State} {state : State}
    (triple : Triple contract before statement after broken) (initial : before.holds state) :
    Stays contract [.run statement] state :=
  fun count => triple count [] state initial (fun next _ => safe_nil count next)
    (fun next _ => safe_nil count next)

/-- A statement that is never reached. -/
theorem unreached {statement : Stmt Input State} :
    Triple contract (.never contract) statement after broken :=
  fun _ _ _ none => none.elim

theorem skip : Triple contract before (.skip : Stmt Input State) before broken := by
  intro count rest state initial done _
  refine before.safe ?_ initial
  intro fewer less state input rest' next holds _ taken
  obtain ⟨rfl, rfl⟩ : rest = rest' ∧ state = next := by simpa [advance] using taken
  exact ⟨contract.idle _, (done _ holds).mono (by omega)⟩

theorem leave : Triple contract broken (.leave : Stmt Input State) after broken := by
  intro count rest state initial _ left
  refine broken.safe ?_ initial
  intro fewer less state input rest' next holds _ taken
  obtain ⟨rfl, rfl⟩ : unwind rest = rest' ∧ state = next := by simpa [advance] using taken
  exact ⟨contract.idle _, (left _ holds).mono (by omega)⟩

theorem act {effect : Input → State → Option State}
    (step : ∀ input state next, before.holds state → contract.premise state →
      effect input state = some next → contract.guarantee state next ∧ after.holds next) :
    Triple contract before (.act effect) after broken := by
  intro count rest state initial done _
  refine before.safe ?_ initial
  intro fewer less state input rest' next holds premise taken
  simp only [advance, Option.map_eq_some_iff, Prod.mk.injEq] at taken
  obtain ⟨_, happens, rfl, rfl⟩ := taken
  obtain ⟨kept, reached⟩ := step input state _ holds premise happens
  exact ⟨kept, (done _ reached).mono (by omega)⟩

theorem seq (left : Triple contract before first middle broken)
    (right : Triple contract middle second after broken) :
    Triple contract before (.seq first second) after broken := by
  intro count rest state initial done broke
  refine before.safe ?_ initial
  intro fewer less state input rest' next holds _ taken
  obtain ⟨rfl, rfl⟩ : Task.run first :: .run second :: rest = rest' ∧ state = next := by
    simpa [advance] using taken
  refine ⟨contract.idle _, left fewer _ state holds ?_ ?_⟩
  · intro next reached
    exact right fewer rest next reached (fun last ends => (done last ends).mono (by omega))
      (fun last leaves => (broke last leaves).mono (by omega))
  · intro next leaves
    exact (broke next leaves).mono (by omega)

theorem ite {test : Input → State → Bool × State} {taken skipped : Assertion contract}
    (decide : ∀ input state, before.holds state → contract.premise state →
      contract.guarantee state (test input state).2 ∧
        if (test input state).1 then taken.holds (test input state).2
        else skipped.holds (test input state).2)
    (left : Triple contract taken yes after broken)
    (right : Triple contract skipped no after broken) :
    Triple contract before (.ite test yes no) after broken := by
  intro count rest state initial done broke
  refine before.safe ?_ initial
  intro fewer less state input rest' next holds premise stepped
  simp only [advance, Option.some.injEq, Prod.mk.injEq] at stepped
  obtain ⟨rfl, rfl⟩ := stepped
  obtain ⟨kept, reached⟩ := decide input state holds premise
  have ends : ∀ last, after.holds last → Safe contract fewer rest last :=
    fun last reaches => (done last reaches).mono (by omega)
  have leaves : ∀ last, broken.holds last → Safe contract fewer (unwind rest) last :=
    fun last reaches => (broke last reaches).mono (by omega)
  refine ⟨kept, ?_⟩
  cases outcome : (test input state).1 with
  | true =>
    rw [outcome, if_pos rfl] at reached
    exact left fewer rest _ reached ends leaves
  | false =>
    rw [outcome, if_neg Bool.false_ne_true] at reached
    exact right fewer rest _ reached ends leaves

/-- A loop is safe where its invariant holds, whether it is entered or taken up again
after a turn. -/
theorem safe_loop {test : Input → State → Bool × State} {invariant turn : Assertion contract}
    (decide : ∀ input state, invariant.holds state → contract.premise state →
      contract.guarantee state (test input state).2 ∧
        if (test input state).1 then turn.holds (test input state).2
        else after.holds (test input state).2)
    (round : Triple contract turn body invariant after) {count : Nat}
    {head : Task Input State} {rest : List (Task Input State)} {state : State}
    (either : head = .run (.loop test body) ∨ head = .again test body)
    (initial : invariant.holds state)
    (done : ∀ next, after.holds next → Safe contract count rest next) :
    Safe contract count (head :: rest) state := by
  induction count generalizing head state with
  | zero => trivial
  | succ count ih =>
    have sooner : ∀ fewer ≤ count, ∀ next, after.holds next → Safe contract fewer rest next :=
      fun fewer less next reaches => (done next reaches).mono (by omega)
    refine invariant.safe ?_ initial
    intro fewer less state input rest' next holds premise stepped
    obtain ⟨kept, reached⟩ := decide input state holds premise
    replace stepped : (if (test input state).1 then .run body :: .again test body :: rest
        else rest) = rest' ∧ (test input state).2 = next := by
      rcases either with rfl | rfl <;> simpa [advance] using stepped
    obtain ⟨rfl, rfl⟩ := stepped
    refine ⟨kept, ?_⟩
    cases outcome : (test input state).1 with
    | true =>
      rw [outcome, if_pos rfl] at reached
      refine round fewer _ _ reached ?_ (sooner fewer (by omega))
      intro last closes
      exact (ih (.inr rfl) closes (sooner count (Nat.le_refl _))).mono (by omega)
    | false =>
      rw [outcome, if_neg Bool.false_ne_true] at reached
      exact sooner fewer (by omega) _ reached

/-- The loop rule. The invariant holds whenever the test is about to be made. -/
theorem loop {test : Input → State → Bool × State} {invariant turn : Assertion contract}
    (decide : ∀ input state, invariant.holds state → contract.premise state →
      contract.guarantee state (test input state).2 ∧
        if (test input state).1 then turn.holds (test input state).2
        else after.holds (test input state).2)
    (round : Triple contract turn body invariant after) :
    Triple contract invariant (.loop test body) after broken :=
  fun _ _ _ initial done _ => safe_loop decide round (.inl rfl) initial done

/-- The rule of consequence. -/
theorem weaken {statement : Stmt Input State} {before' after' broken' : Assertion contract}
    (triple : Triple contract before statement after broken)
    (stronger : ∀ state, before'.holds state → before.holds state)
    (weaker : ∀ state, after.holds state → after'.holds state)
    (elsewhere : ∀ state, broken.holds state → broken'.holds state) :
    Triple contract before' statement after' broken' :=
  fun count rest state initial done broke =>
    triple count rest state (stronger state initial) (fun next ends => done next (weaker next ends))
      (fun next leaves => broke next (elsewhere next leaves))

theorem update {effect : Input → State → State}
    (step : ∀ input state, before.holds state → contract.premise state →
      contract.guarantee state (effect input state) ∧ after.holds (effect input state)) :
    Triple contract before (.update effect) after broken := by
  refine act fun input state next holds premise happens => ?_
  obtain rfl : effect input state = next := by simpa using happens
  exact step input state holds premise

theorem when {condition : Input → State → Bool} {taken skipped : Assertion contract}
    (holds_taken : ∀ input state, before.holds state → contract.premise state →
      condition input state = true → taken.holds state)
    (holds_skipped : ∀ input state, before.holds state → contract.premise state →
      condition input state = false → skipped.holds state)
    (left : Triple contract taken yes after broken)
    (right : Triple contract skipped no after broken) :
    Triple contract before (.when condition yes no) after broken := by
  refine ite (fun input state holds premise => ⟨contract.idle state, ?_⟩) left right
  cases outcome : condition input state with
  | true => exact holds_taken input state holds premise outcome
  | false => exact holds_skipped input state holds premise outcome

/-- A conditional whose branches need nothing of the condition. -/
theorem either {condition : Input → State → Bool} (left : Triple contract before yes after broken)
    (right : Triple contract before no after broken) :
    Triple contract before (.when condition yes no) after broken :=
  when (fun _ _ holds _ _ => holds) (fun _ _ holds _ _ => holds) left right

/-- A loop that is left through its body or when its condition fails. -/
theorem whilst {condition : Input → State → Bool}
    (ends : ∀ input state, before.holds state → contract.premise state →
      condition input state = false → after.holds state)
    (round : Triple contract before body before after) :
    Triple contract before (.whilst condition body) after broken := by
  refine loop (fun input state holds premise => ⟨contract.idle state, ?_⟩) round
  cases outcome : condition input state with
  | true => exact holds
  | false => exact ends input state holds premise outcome

/-- A loop that is left through its body only. -/
theorem forever (round : Triple contract before body before after) :
    Triple contract before (.forever body) after broken :=
  whilst (fun _ _ _ _ never => nomatch never) round

theorem block_nil : Triple contract before (.block ([] : List (Stmt Input State))) before broken :=
  skip

theorem block_cons {rest : List (Stmt Input State)}
    (left : Triple contract before first middle broken)
    (right : Triple contract middle (.block rest) after broken) :
    Triple contract before (.block (first :: rest)) after broken :=
  seq left right

/-- A statement whose steps all stay within a relation that keeps an assertion. -/
theorem within {Effect : State → State → Prop} {statement : Stmt Input State}
    (keeps : ∀ state next, before.holds state → contract.premise state → Effect state next →
      contract.guarantee state next ∧ before.holds next)
    (inside : statement.Within Effect) : Triple contract before statement before before := by
  induction statement with
  | skip => exact skip
  | leave => exact leave
  | act effect =>
    exact act fun input state next holds premise happens =>
      keeps state next holds premise (inside input state next happens)
  | seq first second ih_first ih_second => exact seq (ih_first inside.1) (ih_second inside.2)
  | ite test yes no ih_yes ih_no =>
    refine ite (fun input state holds premise => ?_) (ih_yes inside.2.1) (ih_no inside.2.2)
    obtain ⟨kept, holds'⟩ := keeps state _ holds premise (inside.1 input state)
    exact ⟨kept, by split <;> exact holds'⟩
  | loop test body ih =>
    refine loop (fun input state holds premise => ?_) (ih inside.2)
    obtain ⟨kept, holds'⟩ := keeps state _ holds premise (inside.1 input state)
    exact ⟨kept, by split <;> exact holds'⟩

/-- A thread that takes and handles requests forever, while it waits for the next one. -/
theorem stays_serving {state : State} (takes : Triple contract before first middle after)
    (handles : Triple contract middle second before after) (initial : before.holds state) :
    Stays contract [.run first, .run second, .again (fun _ state => (true, state))
      (.seq first second)] state := by
  intro count
  have again : ∀ next, before.holds next →
      Safe contract count [.again (fun _ state => (true, state)) (.seq first second)] next :=
    fun next holds => safe_loop (fun _ state holds _ => ⟨contract.idle state, holds⟩)
      (seq takes handles) (.inr rfl) holds fun last (_ : after.holds last) => safe_nil count last
  have out : ∀ next, after.holds next → Safe contract count ([] : List (Task Input State)) next :=
    fun next _ => safe_nil count next
  exact takes count _ state initial (fun next taken => handles count _ next taken again out) out

end Triple

end BadmintonRobot.Semantics
