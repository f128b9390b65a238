import Mathlib.Data.List.Range
import BadmintonRobot.Mission.Board
import BadmintonRobot.Semantics.Run

/-!
# The handshake as a protocol

One message travels between the two threads: it is posted, received, started as a route
or an arm action, and posted on. `Protocol` says where it is and what each thread is
executing, and `Protocol.Legal` which events may happen then. The log of a mission is a
run of this protocol; the order of the stages follows from that alone.
-/

namespace BadmintonRobot.Mission

open Semantics

/-- Where the message is. `posted` names the party whose mailbox holds it. It stays
`started` by the arm thread if the arm action does not post the next stage. -/
inductive Token where
  | absent
  | posted (party : Party) (stage : Nat)
  | received (party : Party) (stage : Nat)
  | started (party : Party) (stage : Nat)
deriving DecidableEq

namespace Token

/-- The contents of a party's mailbox. -/
def box (party : Party) : Token → List Nat
  | posted owner stage => if owner = party then [stage] else []
  | _ => []

/-- The thread whose turn it is. -/
def holder : Token → Option Party
  | received party _ => some party
  | started party _ => some party
  | _ => none

/-- The stage of the message. -/
def stage : Token → Nat
  | absent => 0
  | posted _ stage => stage
  | received _ stage => stage
  | started _ stage => stage

/-- The first stage that a party has not begun. -/
def begun : Party → Token → Nat
  | .auto, posted .auto stage => stage
  | .auto, received .auto stage => stage
  | .auto, token => token.stage + 1
  | .arm, started .arm stage => stage + 1
  | .arm, token => token.stage

/-- The route of a stage has posted, and nothing has happened after the answer. -/
def Beyond (stage : Nat) (token : Token) : Prop :=
  token = posted .arm stage ∨ token = received .arm stage ∨ token = started .arm stage ∨
    token = posted .auto (stage + 1)

end Token

/-- The state of the handshake. `arrived` says that an arm action has left its waiting
loop since the last route started. -/
structure Protocol where
  token : Token
  route : Option Nat
  action : Option Nat
  arrived : Bool
deriving DecidableEq

namespace Protocol

/-- Both threads wait at empty mailboxes. -/
def rest : Protocol := { token := .absent, route := none, action := none, arrived := false }

/-- What an event changes. -/
def after (p : Protocol) : Event → Protocol
  | .routeGo stage => { p with token := .posted .auto stage }
  | .armTest stage => { p with token := .posted .arm stage }
  | .emergency => rest
  | .receives party stage => { p with token := .received party stage }
  | .starts .auto stage =>
    { p with token := .started .auto stage, route := some stage, arrived := false }
  | .starts .arm stage => { p with token := .started .arm stage, action := some stage }
  | .posts .auto stage => { p with token := .posted .arm stage }
  | .posts .arm stage => { p with token := .posted .auto stage }
  | .speed _ _ => p
  | .leavesWait _ => { p with arrived := true }
  | .returns .auto _ => { p with route := none }
  | .returns .arm _ => { p with action := none }

/-- When an event may happen. -/
def Legal (p : Protocol) : Event → Prop
  | .routeGo _ => p.token = .absent ∧ p.route = none ∧ p.action = none
  | .armTest _ => p.token = .absent ∧ p.route = none ∧ p.action = none
  | .emergency => True
  | .receives .auto stage => p.token = .posted .auto stage ∧ p.route = none
  | .receives .arm stage => p.token = .posted .arm stage ∧ p.action = none
  | .starts .auto stage => p.token = .received .auto stage ∧ p.route = none
  | .starts .arm stage => p.token = .received .arm stage ∧ p.action = none
  | .posts .auto stage => p.token = .started .auto stage
  | .posts .arm stage => ∃ last, stage = last + 1 ∧ last < 7 ∧ p.token = .started .arm last
  | .speed _ _ => p.route ≠ none
  | .leavesWait stage => p.token = .started .arm stage
  | .returns .auto stage => p.route = some stage ∧ p.token.Beyond stage
  | .returns .arm stage => p.action = some stage

/-- The transitions of the protocol. -/
def Step (p : Protocol) (event : Event) (next : Protocol) : Prop :=
  p.Legal event ∧ next = p.after event

end Protocol

/-- The party that an event belongs to; the operator's events have none. -/
def Event.owner : Event → Option Party
  | .routeGo _ => none
  | .armTest _ => none
  | .emergency => none
  | .receives party _ => some party
  | .starts party _ => some party
  | .posts party _ => some party
  | .speed _ _ => some .auto
  | .leavesWait _ => some .arm
  | .returns party _ => some party

/-- The stages that a party has started, in order. -/
def startedBy (party : Party) (log : List Event) : List Nat :=
  log.filterMap fun
    | .starts owner stage => if owner = party then some stage else none
    | _ => none

/-- The order of a mission that begins with stage `first`: both threads go through the
stages from there without a gap, an arm action starts after its route has posted, and
each further route starts after the route before it has returned and the arm action
before it has posted. -/
structure Sequenced (first : Nat) (log : List Event) : Prop where
  routes : startedBy .auto log <+: List.range' first (8 - first)
  actions : startedBy .arm log <+: List.range' first (8 - first)
  routes_once : (startedBy .auto log).Nodup
  actions_once : (startedBy .arm log).Nodup
  action_after_post : ∀ before stage, before ++ [Event.starts .arm stage] <+: log →
    Event.posts .auto stage ∈ before
  route_after_answer : ∀ before stage, before ++ [Event.starts .auto (stage + 1)] <+: log →
    first ≤ stage → Event.returns .auto stage ∈ before ∧ Event.posts .arm (stage + 1) ∈ before

/-- What the log says about the place of the message. -/
structure Chain (first : Nat) (log : List Event) (p : Protocol) : Prop where
  lower : first ≤ p.token.stage
  upper : p.token.stage ≤ 7
  routes : startedBy .auto log = List.range' first (p.token.begun .auto - first)
  actions : startedBy .arm log = List.range' first (p.token.begun .arm - first)
  posted : ∀ stage, p.token = .posted .arm stage ∨ p.token = .received .arm stage →
    .posts .auto stage ∈ log
  answered : ∀ stage, p.token = .posted .auto stage ∨ p.token = .received .auto stage →
    first < stage → .posts .arm stage ∈ log
  returned : ∀ stage, first ≤ stage → stage < p.token.begun .auto →
    p.route = some stage ∨ .returns .auto stage ∈ log
  action_after_post : ∀ before stage, before ++ [Event.starts .arm stage] <+: log →
    Event.posts .auto stage ∈ before
  route_after_answer : ∀ before stage, before ++ [Event.starts .auto (stage + 1)] <+: log →
    first ≤ stage → Event.returns .auto stage ∈ before ∧ Event.posts .arm (stage + 1) ∈ before

namespace Chain

variable {first : Nat} {log : List Event} {p next : Protocol} {event : Event}

private theorem snoc_cases {before : List Event} {last : Event}
    (longer : before ++ [last] <+: log ++ [event]) :
    (before = log ∧ last = event) ∨ before ++ [last] <+: log := by
  rcases List.prefix_concat_iff.mp longer with same | shorter
  · left
    simpa using same
  · exact .inr shorter

/-- An event that starts nothing. -/
private theorem startedBy_snoc_of_quiet (party : Party) (log : List Event)
    (quiet : ∀ party stage, event ≠ .starts party stage) :
    startedBy party (log ++ [event]) = startedBy party log := by
  rw [startedBy, List.filterMap_append]
  cases event with
  | starts owner stage => exact absurd rfl (quiet owner stage)
  | _ => exact List.append_nil _

/-- An event that starts nothing and leaves both threads where they are in the order of
the stages. -/
private theorem keep (chain : Chain first log p) (quiet : ∀ party stage, event ≠ .starts party stage)
    (lower : first ≤ next.token.stage) (upper : next.token.stage ≤ 7)
    (begun : ∀ party, next.token.begun party = p.token.begun party)
    (posted : ∀ stage, next.token = .posted .arm stage ∨ next.token = .received .arm stage →
      .posts .auto stage ∈ log ++ [event])
    (answered : ∀ stage, next.token = .posted .auto stage ∨ next.token = .received .auto stage →
      first < stage → .posts .arm stage ∈ log ++ [event])
    (returned : ∀ stage, p.route = some stage → next.route = some stage ∨
      event = .returns .auto stage) :
    Chain first (log ++ [event]) next where
  lower := lower
  upper := upper
  routes := by
    rw [begun, ← chain.routes, startedBy_snoc_of_quiet _ _ quiet]
  actions := by
    rw [begun, ← chain.actions, startedBy_snoc_of_quiet _ _ quiet]
  posted := posted
  answered := answered
  returned := by
    intro stage lower upper
    rw [begun] at upper
    rcases chain.returned stage lower upper with running | done
    · exact (returned stage running).imp_right fun same => by simp [same]
    · exact .inr (by simp [done])
  action_after_post := by
    intro before stage longer
    rcases snoc_cases longer with ⟨-, same⟩ | shorter
    · exact absurd same.symm (quiet _ _)
    · exact chain.action_after_post before stage shorter
  route_after_answer := by
    intro before stage longer
    rcases snoc_cases longer with ⟨-, same⟩ | shorter
    · exact absurd same.symm (quiet _ _)
    · exact chain.route_after_answer before stage shorter

/-- An event that starts nothing and leaves the message where it is. -/
private theorem keep_token (chain : Chain first log p)
    (quiet : ∀ party stage, event ≠ .starts party stage) (token : next.token = p.token)
    (returned : ∀ stage, p.route = some stage → next.route = some stage ∨
      event = .returns .auto stage) :
    Chain first (log ++ [event]) next := by
  refine chain.keep quiet ?_ ?_ ?_ ?_ ?_ returned
  · exact token ▸ chain.lower
  · exact token ▸ chain.upper
  · intro party
    rw [token]
  · intro stage place
    rw [token] at place
    simp [chain.posted stage place]
  · intro stage place less
    rw [token] at place
    simp [chain.answered stage place less]

/-- A route starts. -/
private theorem starts_auto {stage : Nat} (chain : Chain first log p)
    (token : p.token = .received .auto stage) (route : p.route = none) :
    Chain first (log ++ [Event.starts .auto stage]) (p.after (.starts .auto stage)) := by
  have begun : first ≤ stage := by simpa [token, Token.stage] using chain.lower
  have last : stage ≤ 7 := by simpa [token, Token.stage] using chain.upper
  constructor
  · exact begun
  · exact last
  · have routes := chain.routes
    rw [token, show Token.begun .auto (.received .auto stage) = stage from rfl] at routes
    have count : stage + 1 - first = stage - first + 1 := by omega
    have place : first + (stage - first) = stage := by omega
    simpa [startedBy, Protocol.after, Token.begun, Token.stage, count, List.range'_concat, place]
      using routes
  · have actions := chain.actions
    rw [token, show Token.begun .arm (.received .auto stage) = stage from rfl] at actions
    simpa [startedBy, Protocol.after, Token.begun, Token.stage] using actions
  · simp [Protocol.after]
  · simp [Protocol.after]
  · intro other lower upper
    rcases Nat.lt_or_ge other stage with less | more
    · rcases chain.returned other lower (by simpa [token, Token.begun] using less) with
        running | done
      · simp [route] at running
      · exact .inr (by simp [done])
    · have same : other = stage := by
        simp only [Protocol.after, Token.begun, Token.stage] at upper
        omega
      exact .inl (by simp [Protocol.after, same])
  · intro before other longer
    rcases snoc_cases longer with ⟨-, same⟩ | shorter
    · cases same
    · exact chain.action_after_post before other shorter
  · intro before other longer lower
    rcases snoc_cases longer with ⟨rfl, same⟩ | shorter
    · obtain rfl : other + 1 = stage := by simpa using same
      have answered := chain.answered (other + 1) (.inr token) (by omega)
      rcases chain.returned other lower (by simp [token, Token.begun]) with running | done
      · simp [route] at running
      · exact ⟨done, answered⟩
    · exact chain.route_after_answer before other shorter lower

/-- An arm action starts. -/
private theorem starts_arm {stage : Nat} (chain : Chain first log p)
    (token : p.token = .received .arm stage) :
    Chain first (log ++ [Event.starts .arm stage]) (p.after (.starts .arm stage)) := by
  have begun : first ≤ stage := by simpa [token, Token.stage] using chain.lower
  have last : stage ≤ 7 := by simpa [token, Token.stage] using chain.upper
  constructor
  · exact begun
  · exact last
  · have routes := chain.routes
    rw [token, show Token.begun .auto (.received .arm stage) = stage + 1 from rfl] at routes
    simpa [startedBy, Protocol.after, Token.begun, Token.stage] using routes
  · have actions := chain.actions
    rw [token, show Token.begun .arm (.received .arm stage) = stage from rfl] at actions
    have count : stage + 1 - first = stage - first + 1 := by omega
    have place : first + (stage - first) = stage := by omega
    simpa [startedBy, Protocol.after, Token.begun, count, List.range'_concat, place] using actions
  · simp [Protocol.after]
  · simp [Protocol.after]
  · intro other lower upper
    have less : other < p.token.begun .auto := by
      rw [token]
      simpa [Protocol.after, Token.begun, Token.stage] using upper
    rcases chain.returned other lower less with running | done
    · exact .inl running
    · exact .inr (by simp [done])
  · intro before other longer
    rcases snoc_cases longer with ⟨rfl, same⟩ | shorter
    · obtain rfl : other = stage := by simpa using same
      exact chain.posted other (.inr token)
    · exact chain.action_after_post before other shorter
  · intro before other longer lower
    rcases snoc_cases longer with ⟨-, same⟩ | shorter
    · cases same
    · exact chain.route_after_answer before other shorter lower

/-- Every event of the two threads keeps the chain. -/
theorem step (chain : Chain first log p) (legal : p.Legal event) (own : event.owner ≠ none) :
    Chain first (log ++ [event]) (p.after event) := by
  cases event with
  | routeGo _ => exact absurd rfl own
  | armTest _ => exact absurd rfl own
  | emergency => exact absurd rfl own
  | receives party stage =>
    cases party with
    | auto =>
      obtain ⟨token, -⟩ := legal
      have lower := chain.lower
      have upper := chain.upper
      have answered := chain.answered stage (.inl token)
      rw [token] at lower upper
      refine chain.keep (by simp) lower upper ?_ (by simp [Protocol.after]) ?_ (by simp [Protocol.after])
      · intro party
        cases party <;> simp [Protocol.after, token, Token.begun, Token.stage]
      · rintro other (same | same) less
        · cases same
        · obtain rfl : stage = other := by simpa [Protocol.after] using same
          simp [answered less]
    | arm =>
      obtain ⟨token, -⟩ := legal
      have lower := chain.lower
      have upper := chain.upper
      have posted := chain.posted stage (.inl token)
      rw [token] at lower upper
      refine chain.keep (by simp) lower upper ?_ ?_ (by simp [Protocol.after]) (by simp [Protocol.after])
      · intro party
        cases party <;> simp [Protocol.after, token, Token.begun, Token.stage]
      · rintro other (same | same)
        · cases same
        · obtain rfl : stage = other := by simpa [Protocol.after] using same
          simp [posted]
  | starts party stage =>
    cases party with
    | auto => exact chain.starts_auto legal.1 legal.2
    | arm => exact chain.starts_arm legal.1
  | posts party stage =>
    cases party with
    | auto =>
      have token : p.token = .started .auto stage := legal
      have lower := chain.lower
      have upper := chain.upper
      rw [token] at lower upper
      refine chain.keep (by simp) lower upper ?_ ?_ (by simp [Protocol.after]) (by simp [Protocol.after])
      · intro party
        cases party <;> simp [Protocol.after, token, Token.begun, Token.stage]
      · rintro other (same | same)
        · obtain rfl : stage = other := by simpa [Protocol.after] using same
          simp
        · cases same
    | arm =>
      obtain ⟨last, rfl, below, token⟩ := legal
      have lower := chain.lower
      rw [token] at lower
      refine chain.keep (by simp) ?_ ?_ ?_ (by simp [Protocol.after]) ?_ (by simp [Protocol.after])
      · exact Nat.le_succ_of_le lower
      · exact below
      · intro party
        cases party <;> simp [Protocol.after, token, Token.begun, Token.stage]
      · rintro other (same | same) -
        · obtain rfl : last + 1 = other := by simpa [Protocol.after] using same
          simp
        · cases same
  | speed axis value => exact chain.keep_token (by simp) rfl fun _ => .inl
  | leavesWait stage => exact chain.keep_token (by simp) rfl fun _ => .inl
  | returns party stage =>
    cases party with
    | auto =>
      refine chain.keep_token (by simp) rfl fun other running => .inr ?_
      have same : stage = other := by simpa [legal.1] using running
      rw [same]
    | arm => exact chain.keep_token (by simp) rfl fun _ => .inl

/-- The chain when the route menu has posted the first stage. -/
private theorem start (bound : first ≤ 7) :
    Chain first [.routeGo first] (Protocol.rest.after (.routeGo first)) := by
  have nothing : ∀ before party stage, ¬before ++ [Event.starts party stage] <+:
      [Event.routeGo first] := by
    intro before party stage longer
    rcases snoc_cases (show _ <+: [] ++ [Event.routeGo first] from longer) with ⟨-, same⟩ | shorter
    · cases same
    · simp at shorter
  constructor
  case action_after_post => exact fun before stage longer => absurd longer (nothing _ _ _)
  case route_after_answer => exact fun before stage longer => absurd longer (nothing _ _ _)
  all_goals simp [Protocol.after, Protocol.rest, Token.stage, Token.begun, startedBy, bound]

/-- A run of the protocol from rest that begins with the route menu's post and goes on
with events of the two threads. -/
theorem of_steps {later : List Event} (bound : first ≤ 7)
    (steps : Steps Protocol.Step .rest (.routeGo first :: later) p)
    (own : ∀ event ∈ later, event.owner ≠ none) : Chain first (.routeGo first :: later) p := by
  generalize whole : Event.routeGo first :: later = log at steps
  induction steps generalizing later with
  | refl => cases whole
  | @step before current next event prior transition ih =>
    obtain ⟨legal, rfl⟩ := transition
    rcases List.eq_nil_or_concat later with rfl | ⟨shorter, last, rfl⟩
    · obtain ⟨rfl, rfl⟩ : [] = before ∧ Event.routeGo first = event := by
        simpa using List.append_inj' (show [] ++ [Event.routeGo first] = before ++ [event] from whole)
          rfl
      rw [prior.eq_of_nil]
      exact start bound
    · obtain ⟨rfl, rfl⟩ : Event.routeGo first :: shorter = before ∧ last = event := by
        simpa using List.append_inj' (show (Event.routeGo first :: shorter) ++ [last] =
          before ++ [event] by simpa using whole) rfl
      have chain := ih (fun event member => own event (by simp [member])) rfl
      exact chain.step legal (own last (by simp))

end Chain

/-- The stages come in order in every such run. -/
theorem Sequenced.of_steps {first : Nat} {later : List Event} {p : Protocol} (bound : first ≤ 7)
    (steps : Steps Protocol.Step .rest (.routeGo first :: later) p)
    (own : ∀ event ∈ later, event.owner ≠ none) : Sequenced first (.routeGo first :: later) := by
  have chain := Chain.of_steps bound steps own
  have ahead : ∀ party, p.token.begun party - first ≤ 8 - first := by
    have upper := chain.upper
    intro party
    cases party <;> (simp only [Token.begun]; split <;> simp_all only [Token.stage] <;> omega)
  have shorter : ∀ party, List.range' first (p.token.begun party - first) <+:
      List.range' first (8 - first) := by
    intro party
    obtain ⟨more, total⟩ := Nat.exists_eq_add_of_le (ahead party)
    rw [total]
    exact ⟨_, List.range'_append_1⟩
  constructor
  · exact chain.routes ▸ shorter .auto
  · exact chain.actions ▸ shorter .arm
  · exact chain.routes ▸ List.nodup_range'
  · exact chain.actions ▸ List.nodup_range'
  · exact chain.action_after_post
  · exact chain.route_after_answer

end BadmintonRobot.Mission
