import BadmintonRobot.Kernel.MessageSlots
import BadmintonRobot.Semantics.Sleepers

/-!
# Steps of the threads that use a message queue

Any number of threads send and receive, and every step of one can come between the steps of
another. Each slot is on one of the two lists or with one thread, and the steps are those of
a queue of messages, each of which is delivered whole.
-/

namespace BadmintonRobot.Kernel.Messaging

open Semantics MessageQueue

variable {Thread : Type} {s : Messaging Thread} {q q' : MessageQueue Thread} {msg : Nat}
  {queued unused : List Nat} {capacity msgSize : Nat}
  {d : Delivery Thread (List UInt8) Nat capacity}

/-- The first bytes of a text are in a slot. -/
def Carries (q : MessageQueue Thread) (msg : Nat) (bytes : List UInt8) (count : Nat) : Prop :=
  ∀ i < count, bytes[i]? = some (q.ram (msg + sizeofMqMessage + i))

/-- A message is in a slot. -/
def Stored (q : MessageQueue Thread) (msg : Nat) (message : List UInt8) : Prop :=
  message.length ≤ q.msgSize ∧ Carries q msg message message.length

/-- What a receiver sees of a message: as many bytes as it asked for, up to the size of a
slot, of which those of the message are its own. -/
def Reads (msgSize size : Nat) (message seen : List UInt8) : Prop :=
  seen.length = min size msgSize ∧ ∀ i < seen.length, i < message.length → seen[i]? = message[i]?

/-- How a call stands to its slot and to what it has taken off the queue. -/
def Agrees (q : MessageQueue Thread) (held : Option (Nat × List UInt8)) : MqCall → Prop
  | .clearing _ buffer => buffer.length ≤ q.msgSize ∧ held = none
  | .filling urgent msg buffer copied =>
    buffer.length ≤ q.msgSize ∧ copied ≤ buffer.length ∧ Carries q msg buffer copied ∧
      (urgent = false → q.next msg = none) ∧ held = none
  | .emptying msg size bytes =>
    bytes.length ≤ min size q.msgSize ∧ Carries q msg bytes bytes.length ∧
      ∃ message, held = some (size, message) ∧ Stored q msg message
  | _ => held = none

/-- A slot that is the same in two states. -/
structure Same (q q' : MessageQueue Thread) (msg : Nat) : Prop where
  payload : ∀ i < q.msgSize, q'.ram (msg + sizeofMqMessage + i) = q.ram (msg + sizeofMqMessage + i)
  link : q'.next msg = q.next msg

theorem Carries.congr {bytes : List UInt8} {count : Nat} (carries : Carries q msg bytes count)
    (small : count ≤ q.msgSize)
    (payload : ∀ i < q.msgSize,
      q'.ram (msg + sizeofMqMessage + i) = q.ram (msg + sizeofMqMessage + i)) :
    Carries q' msg bytes count := by
  intro i less
  rw [payload i (by omega)]
  exact carries i less

theorem Stored.congr {message : List UInt8} (stored : Stored q msg message)
    (size_eq : q'.msgSize = q.msgSize)
    (payload : ∀ i < q.msgSize,
      q'.ram (msg + sizeofMqMessage + i) = q.ram (msg + sizeofMqMessage + i)) :
    Stored q' msg message :=
  ⟨size_eq ▸ stored.1, stored.2.congr stored.1 payload⟩

theorem Agrees.congr {held : Option (Nat × List UInt8)} {call : MqCall}
    (agrees : Agrees q held call) (size_eq : q'.msgSize = q.msgSize)
    (same : ∀ msg, call.msg = some msg → Same q q' msg) : Agrees q' held call := by
  cases call with
  | idle => exact agrees
  | clearing msg buffer =>
    rw [Agrees, size_eq]
    exact agrees
  | filling urgent msg buffer copied =>
    obtain ⟨fits, most, carries, link, nothing⟩ := agrees
    have same := same msg rfl
    refine ⟨size_eq ▸ fits, most, carries.congr (most.trans fits) same.payload, ?_, nothing⟩
    intro ordinary
    rw [same.link]
    exact link ordinary
  | waiting size timeout => exact agrees
  | woken size timeout errno => exact agrees
  | emptying msg size bytes =>
    obtain ⟨most, carries, message, holds, stored⟩ := agrees
    have same := same msg rfl
    refine ⟨size_eq ▸ most, carries.congr (by omega) same.payload, message, holds, ?_⟩
    exact stored.congr size_eq same.payload

theorem msg_wake (errno : RtErr) (call : MqCall) : (call.wake errno).msg = call.msg := by
  cases call <;> rfl

theorem Agrees.wake {held : Option (Nat × List UInt8)} {call : MqCall} (errno : RtErr)
    (agrees : Agrees q held call) : Agrees q held (call.wake errno) := by
  cases call <;> exact agrees

/-- What holds between any two steps. -/
structure Keeps [Fintype Thread] (msgSize : Nat) (s : Messaging Thread)
    (d : Delivery Thread (List UInt8) Nat capacity) (queued unused : List Nat) : Prop where
  pool : Pool s.mq queued unused
  msgSize_eq : s.mq.msgSize = msgSize
  capacity_eq : s.mq.maxMsgs = capacity
  messages : List.Forall₂ (Stored s.mq) queued d.queue.messages
  agrees : ∀ thread, Agrees s.mq (d.held thread) (s.calls thread)
  owned : ∀ thread msg, (s.calls thread).msg = some msg →
    IsSlot s.mq msg ∧ msg ∉ queued ++ unused
  unique : ∀ thread other msg, (s.calls thread).msg = some msg →
    (s.calls other).msg = some msg → thread = other
  count : queued.length + unused.length + census (fun call => call.msg.isSome) s.calls = capacity

/-- What a step means for the delivery of the messages. -/
def Follows [DecidableEq Thread] (msgSize : Nat) (d : Delivery Thread (List UInt8) Nat capacity)
    (outcome : MqOutcome Thread) (d' : Delivery Thread (List UInt8) Nat capacity) : Prop :=
  match outcome with
  | .event event => Delivery.Step (Reads msgSize) d event d'
  | _ => d' = d

variable [Fintype Thread] [DecidableEq Thread]

/-- One thread goes on, with the queue. -/
theorem Keeps.of_change (keeps : Keeps msgSize s d queued unused) {thread : Thread} {call : MqCall}
    {d' : Delivery Thread (List UInt8) Nat capacity} {queued' unused' : List Nat}
    (pool : Pool q' queued' unused') (size_eq : q'.msgSize = s.mq.msgSize)
    (max_eq : q'.maxMsgs = s.mq.maxMsgs) (isSlot : ∀ msg, IsSlot q' msg ↔ IsSlot s.mq msg)
    (same : ∀ msg, IsSlot s.mq msg → msg ∉ queued ++ unused → (s.calls thread).msg ≠ some msg →
      Same s.mq q' msg)
    (others : ∀ other, other ≠ thread → d'.held other = d.held other)
    (messages : List.Forall₂ (Stored q') queued' d'.queue.messages)
    (agrees : Agrees q' (d'.held thread) call)
    (slot : ∀ msg, call.msg = some msg → IsSlot s.mq msg ∧ msg ∉ queued' ++ unused' ∧
      (msg ∈ queued ++ unused ∨ (s.calls thread).msg = some msg))
    (kept : ∀ msg ∈ queued' ++ unused', msg ∈ queued ++ unused ∨ (s.calls thread).msg = some msg)
    (count : queued'.length + unused'.length + (if call.msg.isSome then 1 else 0) =
      queued.length + unused.length + if (s.calls thread).msg.isSome then 1 else 0) :
    Keeps msgSize ⟨q', Function.update s.calls thread call⟩ d' queued' unused' where
  pool := pool
  msgSize_eq := size_eq.trans keeps.msgSize_eq
  capacity_eq := max_eq.trans keeps.capacity_eq
  messages := messages
  agrees other := by
    dsimp only
    by_cases here : other = thread
    · subst here
      rw [Function.update_self]
      exact agrees
    · rw [Function.update_of_ne here, others other here]
      refine (keeps.agrees other).congr size_eq fun msg owns => ?_
      obtain ⟨slot, apart⟩ := keeps.owned other msg owns
      exact same msg slot apart fun mine => here (keeps.unique other thread msg owns mine)
  owned other msg owns := by
    dsimp only at owns
    by_cases here : other = thread
    · subst here
      rw [Function.update_self] at owns
      obtain ⟨slot, apart, -⟩ := slot msg owns
      exact ⟨(isSlot msg).mpr slot, apart⟩
    · rw [Function.update_of_ne here] at owns
      obtain ⟨slot, apart⟩ := keeps.owned other msg owns
      refine ⟨(isSlot msg).mpr slot, fun member => ?_⟩
      rcases kept msg member with before | mine
      · exact apart before
      · exact here (keeps.unique other thread msg owns mine)
  unique := by
    have foreign : ∀ other msg, other ≠ thread → (s.calls other).msg = some msg →
        call.msg ≠ some msg := by
      intro other msg here owns mine
      obtain ⟨-, -, before | before⟩ := slot msg mine
      · exact (keeps.owned other msg owns).2 before
      · exact here (keeps.unique other thread msg owns before)
    intro one other msg first second
    dsimp only at first second
    by_cases here : one = thread
    · by_cases there : other = thread
      · rw [here, there]
      · subst here
        rw [Function.update_self] at first
        rw [Function.update_of_ne there] at second
        exact absurd first (foreign other msg there second)
    · by_cases there : other = thread
      · subst there
        rw [Function.update_self] at second
        rw [Function.update_of_ne here] at first
        exact absurd second (foreign one msg here first)
      · rw [Function.update_of_ne here] at first
        rw [Function.update_of_ne there] at second
        exact keeps.unique one other msg first second
  count := by
    have change := census_update (fun call : MqCall => (call.msg.isSome : Prop)) s.calls thread call
    have before := keeps.count
    dsimp only
    omega

omit [DecidableEq Thread] in
/-- Suspended threads become ready, or a thread is suspended. -/
theorem Keeps.of_calls (keeps : Keeps msgSize s d queued unused) {calls : Thread → MqCall}
    {list : List Thread} (agrees : ∀ thread, Agrees s.mq (d.held thread) (calls thread))
    (same : ∀ thread, (calls thread).msg = (s.calls thread).msg) :
    Keeps msgSize ⟨{ s.mq with suspendThread := list }, calls⟩ d queued unused where
  pool := ⟨⟨⟨keeps.pool.placed.positive, keeps.pool.placed.inside, keeps.pool.placed.few⟩,
    keeps.pool.queue, keeps.pool.tail_eq, keeps.pool.free, keeps.pool.nodup, keeps.pool.slots⟩,
    keeps.pool.entry_eq⟩
  msgSize_eq := keeps.msgSize_eq
  capacity_eq := keeps.capacity_eq
  messages := keeps.messages
  agrees thread := (agrees thread).congr rfl fun msg _ => ⟨fun _ _ => rfl, rfl⟩
  owned thread msg owns := keeps.owned thread msg (same thread ▸ owns)
  unique thread other msg first second :=
    keeps.unique thread other msg (same thread ▸ first) (same other ▸ second)
  count := by
    have census_eq : census (fun call : MqCall => (call.msg.isSome : Prop)) calls =
        census (fun call : MqCall => (call.msg.isSome : Prop)) s.calls := by
      simp only [census, same]
    rw [census_eq]
    exact keeps.count

/-- A thread that keeps its slot, or has none, goes on. -/
theorem Keeps.become (keeps : Keeps msgSize s d queued unused) {thread : Thread} {call : MqCall}
    (list : List Thread) (agrees : Agrees s.mq (d.held thread) call)
    (same : call.msg = (s.calls thread).msg) :
    Keeps msgSize ⟨{ s.mq with suspendThread := list }, Function.update s.calls thread call⟩ d
      queued unused := by
  refine keeps.of_calls (fun other => ?_) fun other => ?_
  · by_cases here : other = thread
    · subst here
      rw [Function.update_self]
      exact agrees
    · rw [Function.update_of_ne here]
      exact keeps.agrees other
  · by_cases here : other = thread
    · subst here
      rw [Function.update_self, same]
    · rw [Function.update_of_ne here]

theorem Keeps.rtIpcListResume (keeps : Keeps msgSize s d queued unused) :
    Keeps msgSize s.rtIpcListResume d queued unused := by
  rw [Messaging.rtIpcListResume]
  cases list : s.mq.suspendThread with
  | nil => exact keeps
  | cons thread rest =>
    exact keeps.become rest ((keeps.agrees thread).wake .eok) (msg_wake .eok (s.calls thread))

section Steps

variable {thread : Thread} {s' : Messaging Thread} {outcome : MqOutcome Thread}

omit [Fintype Thread] [DecidableEq Thread] in
theorem same_of_relinks {touched : List Nat} (relinks : Relinks touched q q')
    (slot : IsSlot q msg) (outside : msg ∉ touched) : Same q q' msg :=
  ⟨relinks.payload msg slot, relinks.links msg slot outside⟩

omit [Fintype Thread] [DecidableEq Thread] in
theorem stored_congr {messages : List (List UInt8)}
    (stored : List.Forall₂ (Stored q) queued messages) (size_eq : q'.msgSize = q.msgSize)
    (payload : ∀ msg ∈ queued, ∀ i < q.msgSize,
      q'.ram (msg + sizeofMqMessage + i) = q.ram (msg + sizeofMqMessage + i)) :
    List.Forall₂ (Stored q') queued messages := by
  induction stored with
  | nil => exact .nil
  | cons first _ ih =>
    refine .cons (first.congr size_eq (payload _ (by simp))) (ih fun msg member => ?_)
    exact payload msg (by simp [member])

omit [DecidableEq Thread] in
theorem Keeps.stored (keeps : Keeps msgSize s d queued unused) {touched : List Nat}
    (relinks : Relinks touched s.mq q') :
    List.Forall₂ (Stored q') queued d.queue.messages := by
  refine stored_congr keeps.messages relinks.msgSize_eq fun msg member => ?_
  exact relinks.payload msg (keeps.pool.slots msg (List.mem_append_left unused member))

theorem Keeps.send (keeps : Keeps msgSize s d queued unused) {urgent : Bool}
    {buffer : List UInt8} (taken : s.send thread urgent buffer = some (s', outcome)) :
    ∃ d' queued' unused', Keeps msgSize s' d' queued' unused' ∧ Follows msgSize d outcome d' := by
  have agrees := keeps.agrees thread
  cases call : s.calls thread with
  | idle =>
    rw [call] at agrees
    simp only [Messaging.send, call] at taken
    by_cases long : buffer.length > s.mq.msgSize
    · rw [if_pos long] at taken
      cases taken
      exact ⟨d, queued, unused, keeps, rfl⟩
    · rw [if_neg long] at taken
      cases unused with
      | nil =>
        rw [keeps.pool.claim_eq_none] at taken
        cases taken
        exact ⟨d, queued, [], keeps, rfl⟩
      | cons msg rest =>
        obtain ⟨q', claimed, pool, relinks⟩ := keeps.pool.claim
        rw [claimed] at taken
        cases taken
        have nodup := List.nodup_cons.mp (List.perm_middle.nodup_iff.mp keeps.pool.nodup)
        refine ⟨d, queued, rest, ?_, rfl⟩
        refine keeps.of_change pool relinks.msgSize_eq relinks.maxMsgs_eq
          (fun _ => relinks.isSlot) (fun _ slot _ _ => same_of_relinks relinks slot (by simp))
          (fun _ _ => rfl) (keeps.stored relinks) ?_ ?_ ?_ ?_
        · rw [Nat.not_lt, ← relinks.msgSize_eq] at long
          cases urgent with
          | false => exact ⟨long, agrees⟩
          | true => exact ⟨long, Nat.zero_le _, fun i less => absurd less (Nat.not_lt_zero i),
              by simp, agrees⟩
        · intro other mine
          obtain rfl : msg = other := by
            cases urgent <;> exact Option.some.inj mine
          exact ⟨keeps.pool.slots msg (by simp), nodup.1, .inl (by simp)⟩
        · intro other member
          exact .inl (List.perm_middle.mem_iff.mpr (List.mem_cons_of_mem _ member))
        · rw [call]
          cases urgent <;> simp [MqCall.msg] <;> omega
  | clearing => simp [Messaging.send, call] at taken
  | filling => simp [Messaging.send, call] at taken
  | waiting => simp [Messaging.send, call] at taken
  | woken => simp [Messaging.send, call] at taken
  | emptying => simp [Messaging.send, call] at taken

theorem Keeps.await (keeps : Keeps msgSize s d queued unused) {currentPriority : Thread → Nat}
    {size : Nat} {timeout : Int} (nothing : d.held thread = none)
    (free : (s.calls thread).msg = none)
    (taken : s.await currentPriority thread size timeout = some (s', outcome)) :
    ∃ d' queued' unused', Keeps msgSize s' d' queued' unused' ∧ Follows msgSize d outcome d' := by
  rw [Messaging.await] at taken
  by_cases empty : s.mq.entry = 0
  · rw [if_pos empty] at taken
    by_cases now : timeout = 0
    · rw [if_pos now] at taken
      cases taken
      exact ⟨d, queued, unused, keeps.become s.mq.suspendThread nothing free.symm, rfl⟩
    · rw [if_neg now] at taken
      cases taken
      exact ⟨d, queued, unused, keeps.become _ nothing free.symm, rfl⟩
  · rw [if_neg empty] at taken
    have messages := keeps.messages
    obtain ⟨queue, held⟩ := d
    cases messages_eq : queue.messages with
    | nil =>
      dsimp only at messages
      rw [messages_eq] at messages
      cases messages
      exact absurd keeps.pool.entry_eq empty
    | cons message rest =>
      dsimp only at messages
      rw [messages_eq] at messages
      cases messages with
      | @cons msg _ queued _ stored others =>
        obtain ⟨q', code, pool, relinks⟩ := keeps.pool.takeFirst
        rw [code] at taken
        cases taken
        have nodup := List.nodup_cons.mp keeps.pool.nodup
        obtain ⟨messages, bounded⟩ := queue
        dsimp only at messages_eq
        subst messages_eq
        let next : Fifo (List UInt8) capacity := ⟨rest, Nat.le_of_succ_le bounded⟩
        refine ⟨⟨next, Function.update held thread (some (size, message))⟩, queued, unused, ?_,
          .take nothing rfl⟩
        have slot : IsSlot s.mq msg := keeps.pool.slots msg (by simp)
        refine keeps.of_change pool relinks.msgSize_eq relinks.maxMsgs_eq
          (fun _ => relinks.isSlot) (fun _ slot _ _ => same_of_relinks relinks slot (by simp))
          (fun _ apart => Function.update_of_ne apart _ _) ?_ ?_ ?_ ?_ ?_
        · refine stored_congr others relinks.msgSize_eq fun other member => ?_
          exact relinks.payload other (keeps.pool.slots other (by simp [member]))
        · dsimp only
          rw [Function.update_self]
          refine ⟨Nat.zero_le _, fun i less => absurd less (Nat.not_lt_zero i), message, rfl, ?_⟩
          exact stored.congr relinks.msgSize_eq (relinks.payload msg slot)
        · rintro other ⟨⟩
          exact ⟨slot, nodup.1, .inl (by simp)⟩
        · exact fun other member => .inl (List.mem_cons_of_mem _ member)
        · rw [free]
          simp [MqCall.msg]
          omega

omit [Fintype Thread] [DecidableEq Thread] in
/-- A byte that is written to one slot is in no other. -/
theorem payload_write {other i : Nat} (slot : IsSlot q msg) (slot' : IsSlot q other)
    (apart : other ≠ msg) (inside : i < q.msgSize) (byte : UInt8) {j : Nat} (within : j < q.msgSize) :
    Function.update q.ram (msg + sizeofMqMessage + i) byte (other + sizeofMqMessage + j) =
      q.ram (other + sizeofMqMessage + j) := by
  refine Function.update_of_ne ?_ _ _
  have apart := slot.apart slot' (Ne.symm apart)
  simp only [sizeofMqMessage] at apart ⊢
  omega

omit [DecidableEq Thread] in
/-- Where a slot is held, one more message has room. -/
theorem Keeps.room (keeps : Keeps msgSize s d queued unused) {queued' : List Nat}
    (pool : Pool q' queued' unused) (max_eq : q'.maxMsgs = s.mq.maxMsgs)
    (longer : queued'.length = queued.length + 1) : d.queue.messages.length < capacity := by
  have length_eq := keeps.messages.length_eq
  have most := pool.length_le
  rw [max_eq, keeps.capacity_eq] at most
  omega

theorem Keeps.post (keeps : Keeps msgSize s d queued unused) {urgent : Bool}
    {buffer : List UInt8} {copied : Nat} (call : s.calls thread = .filling urgent msg buffer copied)
    (whole : buffer.length ≤ copied) :
    ∃ d' queued' unused', Keeps msgSize (s.post thread urgent msg) d' queued' unused' ∧
      Delivery.Step (Reads msgSize) d (.put thread urgent buffer) d' := by
  have agrees := keeps.agrees thread
  rw [call] at agrees
  obtain ⟨fits, most, carries, link, nothing⟩ := agrees
  obtain rfl : copied = buffer.length := Nat.le_antisymm most whole
  obtain ⟨slot, fresh⟩ := keeps.owned thread msg (by rw [call]; rfl)
  have owns : (s.calls thread).msg = some msg := by rw [call]; rfl
  obtain ⟨queue, held⟩ := d
  cases urgent with
  | false =>
    obtain ⟨pool, relinks⟩ := keeps.pool.linkLast slot fresh (link rfl)
    have room := keeps.room pool relinks.maxMsgs_eq (by simp)
    obtain ⟨next, sent⟩ : ∃ next, queue.send buffer = some next := ⟨_, dif_pos room⟩
    refine ⟨⟨next, held⟩, queued ++ [msg], unused, Keeps.rtIpcListResume ?_, .put sent⟩
    refine keeps.of_change pool relinks.msgSize_eq relinks.maxMsgs_eq (fun _ => relinks.isSlot)
      (fun other slot' outside _ => same_of_relinks relinks slot' fun member => outside ?_)
      (fun _ _ => rfl) ?_ nothing (by simp [MqCall.msg]) ?_ ?_
    · exact List.mem_append_left unused member
    · dsimp only
      rw [Fifo.messages_send sent]
      refine List.rel_append (keeps.stored relinks) (.cons ?_ .nil)
      exact Stored.congr ⟨fits, carries⟩ relinks.msgSize_eq (relinks.payload msg slot)
    · intro other member
      rw [List.append_assoc, List.singleton_append] at member
      rcases List.mem_cons.mp (List.perm_middle.mem_iff.mp member) with rfl | before
      · exact .inr owns
      · exact .inl before
    · rw [owns]
      simp [MqCall.msg]
      omega
  | true =>
    obtain ⟨pool, relinks⟩ := keeps.pool.linkFirst slot fresh
    have room := keeps.room pool relinks.maxMsgs_eq rfl
    obtain ⟨next, sent⟩ : ∃ next, queue.sendFirst buffer = some next := ⟨_, dif_pos room⟩
    refine ⟨⟨next, held⟩, msg :: queued, unused, Keeps.rtIpcListResume ?_, .urgent sent⟩
    refine keeps.of_change pool relinks.msgSize_eq relinks.maxMsgs_eq (fun _ => relinks.isSlot)
      (fun other slot' _ foreign => same_of_relinks relinks slot' ?_)
      (fun _ _ => rfl) ?_ nothing (by simp [MqCall.msg]) ?_ ?_
    · rw [List.mem_singleton]
      rintro rfl
      exact foreign owns
    · dsimp only
      rw [Fifo.messages_sendFirst sent]
      refine .cons ?_ (keeps.stored relinks)
      exact Stored.congr ⟨fits, carries⟩ relinks.msgSize_eq (relinks.payload msg slot)
    · intro other member
      rcases List.mem_cons.mp member with rfl | before
      · exact .inr owns
      · exact .inl before
    · rw [owns]
      simp [MqCall.msg]
      omega

theorem Keeps.fill (keeps : Keeps msgSize s d queued unused) {urgent : Bool}
    {buffer : List UInt8} {copied : Nat} {byte : UInt8}
    (call : s.calls thread = .filling urgent msg buffer copied)
    (more : buffer[copied]? = some byte) :
    Keeps msgSize ⟨{ s.mq with ram := Function.update s.mq.ram (msg + sizeofMqMessage + copied) byte },
      Function.update s.calls thread (.filling urgent msg buffer (copied + 1))⟩ d queued unused := by
  have agrees := keeps.agrees thread
  rw [call] at agrees
  obtain ⟨fits, -, carries, link, nothing⟩ := agrees
  have owns : (s.calls thread).msg = some msg := by rw [call]; rfl
  obtain ⟨slot, fresh⟩ := keeps.owned thread msg owns
  obtain ⟨less, -⟩ := List.getElem?_eq_some_iff.mp more
  have inside : copied < s.mq.msgSize := less.trans_le fits
  refine keeps.of_change (keeps.pool.write slot inside byte) rfl rfl (fun _ => .rfl) ?_
    (fun _ _ => rfl) ?_ ?_ ?_ (fun _ member => .inl member) (by rw [owns]; rfl)
  · intro other slot' _ foreign
    have apart : other ≠ msg := by
      rintro rfl
      exact foreign owns
    exact ⟨fun j within => payload_write slot slot' apart inside byte within,
      next_write slot slot' inside byte⟩
  · refine stored_congr keeps.messages rfl fun other member j within => ?_
    have either := List.mem_append_left unused member
    refine payload_write slot (keeps.pool.slots other either) ?_ inside byte within
    rintro rfl
    exact fresh either
  · refine ⟨fits, less, fun i upto => ?_, ?_, nothing⟩
    · dsimp only
      rcases Nat.lt_succ_iff_lt_or_eq.mp upto with before | rfl
      · rw [Function.update_of_ne (by omega)]
        exact carries i before
      · rw [Function.update_self, more]
    · intro ordinary
      rw [next_write slot slot inside byte]
      exact link ordinary
  · rintro other ⟨⟩
    exact ⟨slot, fresh, .inr owns⟩

theorem Keeps.advance (keeps : Keeps msgSize s d queued unused)
    (taken : s.advance thread = some (s', outcome)) :
    ∃ d' queued' unused', Keeps msgSize s' d' queued' unused' ∧ Follows msgSize d outcome d' := by
  have agrees := keeps.agrees thread
  cases call : s.calls thread with
  | idle => simp [Messaging.advance, call] at taken
  | clearing msg buffer =>
    rw [call] at agrees
    have owns : (s.calls thread).msg = some msg := by rw [call]; rfl
    obtain ⟨slot, fresh⟩ := keeps.owned thread msg owns
    obtain ⟨pool, ends, relinks⟩ := keeps.pool.clear slot fresh
    simp only [Messaging.advance, call] at taken
    cases taken
    refine ⟨d, queued, unused, ?_, rfl⟩
    refine keeps.of_change pool rfl rfl (fun _ => relinks.isSlot)
      (fun other slot' _ foreign => same_of_relinks relinks slot' ?_) (fun _ _ => rfl)
      (keeps.stored relinks) ?_ ?_ (fun _ member => .inl member) (by rw [owns]; rfl)
    · rw [List.mem_singleton]
      rintro rfl
      exact foreign owns
    · exact ⟨agrees.1, Nat.zero_le _, fun i less => absurd less (Nat.not_lt_zero i), fun _ => ends,
        agrees.2⟩
    · rintro other ⟨⟩
      exact ⟨slot, fresh, .inr owns⟩
  | filling urgent msg buffer copied =>
    cases more : buffer[copied]? with
    | none =>
      simp only [Messaging.advance, call, more] at taken
      cases taken
      exact keeps.post call (List.getElem?_eq_none_iff.mp more)
    | some byte =>
      simp only [Messaging.advance, call, more] at taken
      cases taken
      exact ⟨d, queued, unused, keeps.fill call more, rfl⟩
  | waiting => simp [Messaging.advance, call] at taken
  | woken => simp [Messaging.advance, call] at taken
  | emptying msg size bytes =>
    rw [call] at agrees
    have owns : (s.calls thread).msg = some msg := by rw [call]; rfl
    obtain ⟨slot, fresh⟩ := keeps.owned thread msg owns
    obtain ⟨most, carries, message, holds, stored⟩ := agrees
    simp only [Messaging.advance, call] at taken
    by_cases more : bytes.length < min size s.mq.msgSize
    · rw [if_pos more] at taken
      cases taken
      refine ⟨d, queued, unused, keeps.become s.mq.suspendThread ?_ owns.symm, rfl⟩
      refine ⟨by simpa using more, fun i upto => ?_, message, holds, stored⟩
      rw [List.length_append, List.length_singleton] at upto
      rcases Nat.lt_succ_iff_lt_or_eq.mp upto with before | rfl
      · rw [List.getElem?_append_left before]
        exact carries i before
      · rw [List.getElem?_concat_length]
    · rw [if_neg more] at taken
      cases taken
      obtain ⟨queue, held⟩ := d
      obtain ⟨pool, relinks⟩ := keeps.pool.release slot fresh
      refine ⟨⟨queue, Function.update held thread none⟩, queued, msg :: unused, ?_,
        .deliver holds ⟨?_, ?_⟩⟩
      · refine keeps.of_change pool rfl rfl (fun _ => relinks.isSlot)
          (fun other slot' _ foreign => same_of_relinks relinks slot' ?_)
          (fun _ apart => Function.update_of_ne apart _ _) (keeps.stored relinks)
          (Function.update_self ..) (by simp [MqCall.msg]) ?_ ?_
        · rw [List.mem_singleton]
          rintro rfl
          exact foreign owns
        · intro other member
          rcases List.mem_cons.mp (List.perm_middle.mem_iff.mp member) with rfl | before
          · exact .inr owns
          · exact .inl before
        · rw [owns]
          simp [MqCall.msg]
          omega
      · rw [← keeps.msgSize_eq]
        omega
      · intro i seen sent
        rw [carries i seen, stored.2 i sent]

/-- The queue is emptied, and every suspended thread becomes ready. -/
theorem Keeps.reset (keeps : Keeps msgSize s d queued unused) {currentPriority : Thread → Nat}
    (taken : s.step currentPriority .reset = some (s', outcome)) :
    ∃ d' queued' unused', Keeps msgSize s' d' queued' unused' ∧ Follows msgSize d outcome d' := by
  simp only [Messaging.step] at taken
  generalize calls_eq : (fun thread => if thread ∈ s.mq.suspendThread then
    (s.calls thread).wake .error else s.calls thread) = calls at taken
  have same : ∀ thread, (calls thread).msg = (s.calls thread).msg := by
    intro thread
    rw [← calls_eq]
    dsimp only
    split_ifs
    · exact msg_wake .error (s.calls thread)
    · rfl
  have woken : Keeps msgSize ⟨{ s.mq with suspendThread := [] }, calls⟩ d queued unused := by
    refine keeps.of_calls (fun thread => ?_) same
    rw [← calls_eq]
    dsimp only
    split_ifs
    · exact (keeps.agrees thread).wake .error
    · exact keeps.agrees thread
  have enough : queued.length < s.mq.maxMsgs + 1 := by
    have most := keeps.pool.length_le
    omega
  obtain ⟨q', code, lists, relinks⟩ := woken.pool.toLists.drain enough
  rw [code] at taken
  cases taken
  obtain ⟨queue, held⟩ := d
  have members : ∀ msg, msg ∈ [] ++ (queued.reverse ++ unused) ↔ msg ∈ queued ++ unused := by simp
  refine ⟨⟨.empty _ _, held⟩, [], queued.reverse ++ unused, ?_, .clear⟩
  refine ⟨⟨⟨⟨lists.placed.positive, lists.placed.inside, lists.placed.few⟩, lists.queue,
    lists.tail_eq, lists.free, lists.nodup, lists.slots⟩, rfl⟩, ?_, ?_, .nil, ?_, ?_, woken.unique, ?_⟩
  · exact relinks.msgSize_eq.trans keeps.msgSize_eq
  · exact relinks.maxMsgs_eq.trans keeps.capacity_eq
  · intro thread
    refine (woken.agrees thread).congr relinks.msgSize_eq fun msg owns => ?_
    obtain ⟨slot, fresh⟩ := woken.owned thread msg owns
    have outside : msg ∉ queued := fun member => fresh (List.mem_append_left unused member)
    exact ⟨relinks.payload msg slot, relinks.links msg slot outside⟩
  · intro thread msg owns
    obtain ⟨slot, fresh⟩ := woken.owned thread msg owns
    exact ⟨relinks.isSlot.mpr slot, fun member => fresh ((members msg).mp member)⟩
  · have count := woken.count
    dsimp only at count
    simp only [List.length_nil, List.length_append, List.length_reverse]
    omega

/-- What every step does. -/
theorem Keeps.step (keeps : Keeps msgSize s d queued unused) {currentPriority : Thread → Nat}
    {action : MqAction Thread} (taken : s.step currentPriority action = some (s', outcome)) :
    ∃ d' queued' unused', Keeps msgSize s' d' queued' unused' ∧ Follows msgSize d outcome d' := by
  cases action with
  | send thread urgent buffer => exact keeps.send taken
  | recv thread size timeout =>
    have agrees := keeps.agrees thread
    cases call : s.calls thread with
    | idle =>
      rw [call] at agrees
      simp only [Messaging.step, call] at taken
      exact keeps.await agrees (by rw [call]; rfl) taken
    | clearing => simp [Messaging.step, call] at taken
    | filling => simp [Messaging.step, call] at taken
    | waiting => simp [Messaging.step, call] at taken
    | woken => simp [Messaging.step, call] at taken
    | emptying => simp [Messaging.step, call] at taken
  | advance thread => exact keeps.advance taken
  | expire thread =>
    have agrees := keeps.agrees thread
    cases call : s.calls thread with
    | waiting size timeout =>
      rw [call] at agrees
      simp only [Messaging.step, call, Option.ite_none_right_eq_some] at taken
      cases taken.2
      exact ⟨d, queued, unused, keeps.become _ agrees (by rw [call]; rfl), rfl⟩
    | idle => simp [Messaging.step, call] at taken
    | clearing => simp [Messaging.step, call] at taken
    | filling => simp [Messaging.step, call] at taken
    | woken => simp [Messaging.step, call] at taken
    | emptying => simp [Messaging.step, call] at taken
  | resume thread elapsed =>
    have agrees := keeps.agrees thread
    cases call : s.calls thread with
    | woken size timeout errno =>
      rw [call] at agrees
      have failing : ∀ code, some (s.become thread .idle, MqOutcome.failed thread code) =
          some (s', outcome) →
          ∃ d' queued' unused', Keeps msgSize s' d' queued' unused' ∧
            Follows msgSize d outcome d' := by
        intro code taken
        cases taken
        exact ⟨d, queued, unused, keeps.become s.mq.suspendThread agrees (by rw [call]; rfl), rfl⟩
      cases errno with
      | eok =>
        simp only [Messaging.step, call] at taken
        exact keeps.await agrees (by rw [call]; rfl) taken
      | error =>
        simp only [Messaging.step, call] at taken
        exact failing _ taken
      | etimeout =>
        simp only [Messaging.step, call] at taken
        exact failing _ taken
      | efull =>
        simp only [Messaging.step, call] at taken
        exact failing _ taken
    | idle => simp [Messaging.step, call] at taken
    | clearing => simp [Messaging.step, call] at taken
    | filling => simp [Messaging.step, call] at taken
    | waiting => simp [Messaging.step, call] at taken
    | emptying => simp [Messaging.step, call] at taken
  | reset => exact keeps.reset taken

end Steps

end BadmintonRobot.Kernel.Messaging
