import Mathlib
import BadmintonRobot.Log.Pipeline

/-!
# The texts that reach the files

As long as every text fits into its buffer and every message finds room in the queue, the
content of a file and the texts on the way to it are the texts sent for it, in order. A
longer text is written behind the buffer, and the text of a message that finds no room is
lost, so nothing weaker would do.
-/

namespace BadmintonRobot.Log

open Semantics

/-- The bytes that entries hold for a file. -/
def textsFor (file : FilPtr) (entries : List Entry) : List UInt8 :=
  (entries.filter (·.1 = file)).flatMap Prod.snd

@[simp] theorem textsFor_append (file : FilPtr) (first second : List Entry) :
    textsFor file (first ++ second) = textsFor file first ++ textsFor file second := by
  simp [textsFor]

@[simp] theorem textsFor_nil (file : FilPtr) : textsFor file [] = [] := rfl

theorem textsFor_cons (file : FilPtr) (entry : Entry) (entries : List Entry) :
    textsFor file (entry :: entries) =
      (if entry.1 = file then entry.2 else []) ++ textsFor file entries := by
  by_cases same : entry.1 = file
  · simp [textsFor, same]
  · simp [textsFor, same]

/-- The file and the text that the FATfs thread takes from a message. -/
def Message.entry (buf : Message) : Entry :=
  (Message.fileTmp buf, (buf.load 8 (Message.writeCount buf)).getD [])

/-- The message that the FATfs thread has taken and not yet written. -/
def Fatfs.inHand : Fatfs → List Message
  | .received buf => [buf]
  | _ => []

namespace Pipeline

variable {Thread : Type}

/-- The texts on the way to their files. -/
def pending (s : Pipeline Thread) : List Entry :=
  (s.fatfs.inHand ++ s.mqSd.messages).map Message.entry

/-- What a file holds and will hold of the texts sent. -/
def arrived (s : Pipeline Thread) (file : FilPtr) : List UInt8 :=
  (s.files file).content ++ textsFor file s.pending

/-- Every access was inside its buffer, and no text is lost, cut or moved. -/
def Faithful (s : Pipeline Thread) : Prop :=
  s.inBounds = true ∧ ∀ file, s.arrived file = textsFor file s.sent

/-- The statement before which a text fits and a message has room. -/
def Fits (s : Pipeline Thread) : Event Thread → Prop
  | .advance thread =>
    match s.producers thread with
    | .pointed _ text _ => text.length < 120
    | .counted _ text _ => text = [] ∨ s.mqSd.messages.length < mqSdMsgs
    | _ => True
  | _ => True

end Pipeline

/-- A text that does not close its file. -/
def Ordinary (text : List UInt8) : Prop := cString text ≠ theEnd

def Event.Ordinary {Thread : Type} : Event Thread → Prop
  | .call _ _ text _ => Log.Ordinary text
  | _ => True

instance {Thread : Type} (event : Event Thread) : Decidable event.Ordinary :=
  match event with
  | .call _ _ text _ => inferInstanceAs (Decidable (cString text ≠ theEnd))
  | .advance _ => .isTrue trivial
  | .fatfs => .isTrue trivial

/-- A message for a file with a text. -/
structure Carries (buf : Message) (fp : FilPtr) (text : List UInt8) : Prop where
  pointer : buf.load 0 4 = some (wordBytes fp)
  count : buf.load 4 4 = some (wordBytes (UInt32.ofNat text.length))
  text : buf.load 8 (text.length + 1) = some (text ++ [0])

section Message

variable {buf : Message} {fp : FilPtr} {text : List UInt8}

theorem Carries.load_text (carries : Carries buf fp text) :
    buf.load 8 (Message.writeCount buf) = some text := by
  have inside := (Buffer.load_eq_some_iff.mp carries.text).1
  have count : Message.writeCount buf = text.length := by
    rw [Message.writeCount, carries.count, Option.getD_some, wordOfBytes_wordBytes]
    exact UInt32.toNat_ofNat_of_lt' (by rw [UInt32.size]; omega)
  rw [count, Buffer.load_take carries.text (Nat.le_succ _), List.take_left]

theorem Carries.fileTmp (carries : Carries buf fp text) : Message.fileTmp buf = fp := by
  rw [Message.fileTmp, carries.pointer, Option.getD_some, wordOfBytes_wordBytes]

theorem Carries.entry (carries : Carries buf fp text) : Message.entry buf = (fp, text) := by
  rw [Message.entry, carries.load_text, carries.fileTmp, Option.getD_some]

theorem Carries.not_isString (carries : Carries buf fp text) (ordinary : Ordinary text) :
    buf.isString 8 theEnd = false := by
  by_contra same
  rw [Bool.not_eq_false] at same
  exact ordinary (cString_eq_of_isString carries.text (by simp [theEnd]) same)

end Message

/-- What the buffer of a call holds before each statement. -/
def ProducerOk : Producer → Prop
  | .called _ text _ => Ordinary text
  | .pointed fp text buf => Ordinary text ∧ buf.load 0 4 = some (wordBytes fp)
  | .formatted fp text temp buf =>
    Ordinary text ∧ buf.load 0 4 = some (wordBytes fp) ∧ temp = UInt32.ofNat text.length ∧
      buf.load 8 (text.length + 1) = some (text ++ [0])
  | .counted fp text buf => Ordinary text ∧ Carries buf fp text
  | _ => True

/-- A message that does not close its file. -/
def MessageOk (buf : Message) : Prop := ∃ fp text, Ordinary text ∧ Carries buf fp text

def FatfsOk : Fatfs → Prop
  | .receiving => True
  | .received buf => MessageOk buf
  | .written _ buf => MessageOk buf
  | .closing _ => False
  | .overrun => False

/-- What holds in every run, whether or not texts are lost. -/
structure WellFormed {Thread : Type} (s : Pipeline Thread) : Prop where
  producers : ∀ thread, ProducerOk (s.producers thread)
  messages : ∀ buf ∈ s.mqSd.messages, MessageOk buf
  fatfs : FatfsOk s.fatfs
  isOpen : ∀ file, (s.files file).isOpen = true

/-- What a step does to the texts. -/
inductive Outcome {Thread : Type} (s : Pipeline Thread) (event : Event Thread)
    (next : Pipeline Thread) : Prop where
  | kept (new : List Entry) (fits : s.Fits event) (inBounds : next.inBounds = s.inBounds)
      (sent : next.sent = s.sent ++ new)
      (arrived : ∀ file, next.arrived file = s.arrived file ++ textsFor file new)
  | overran (outside : ¬s.Fits event) (inBounds : next.inBounds = false)
  | lost (fp : FilPtr) (text : List UInt8) (full : ¬s.Fits event) (nonempty : text ≠ [])
      (inBounds : next.inBounds = s.inBounds) (sent : next.sent = s.sent ++ [(fp, text)])
      (arrived : ∀ file, next.arrived file = s.arrived file)

section Step

variable {Thread : Type} [DecidableEq Thread] {s next : Pipeline Thread} {thread : Thread}

theorem WellFormed.become (wellFormed : WellFormed s) {producer : Producer}
    (ok : ProducerOk producer) : WellFormed (s.become thread producer) where
  producers := by
    intro other
    rw [Pipeline.become]
    by_cases same : other = thread
    · subst same
      simpa using ok
    · simpa [same] using wellFormed.producers other
  messages := wellFormed.messages
  fatfs := wellFormed.fatfs
  isOpen := wellFormed.isOpen

/-- A step of a call that leaves the queue alone. -/
theorem Outcome.become {event : Event Thread} (fits : s.Fits event) (producer : Producer) :
    Outcome s event (s.become thread producer) :=
  .kept [] fits rfl (List.append_nil _).symm fun _ => (List.append_nil _).symm

/-- A write inside the buffer of a call. -/
theorem storing_some {event : Event Thread} {stored : Option Message} {buf : Message}
    {rest : Message → Producer} (wellFormed : WellFormed s) (fits : s.Fits event)
    (inside : stored = some buf) (ok : ProducerOk (rest buf)) :
    WellFormed (s.storing thread stored rest) ∧
      Outcome s event (s.storing thread stored rest) := by
  subst inside
  exact ⟨wellFormed.become ok, .become fits _⟩

/-- `vsprintf` writes the text and its end, inside the buffer or not. -/
theorem vsprintf_outcome (wellFormed : WellFormed s) {fp : FilPtr} {text : List UInt8}
    {buf : Message} (pointed : s.producers thread = .pointed fp text buf)
    (taken : s.sdPrintfMq thread = some next) :
    WellFormed next ∧ Outcome s (.advance thread) next := by
  have ok := wellFormed.producers thread
  rw [pointed] at ok
  obtain ⟨ordinary, pointer⟩ := ok
  simp only [Pipeline.sdPrintfMq, pointed, Option.some.injEq] at taken
  subst taken
  cases stored : buf.store 8 (text ++ [0]) with
  | none =>
    have outside : ¬s.Fits (.advance thread) := by
      rw [Buffer.store_eq_none, List.length_append, List.length_singleton] at stored
      simp only [Pipeline.Fits, pointed]
      omega
    have stopped : WellFormed (s.become thread .overrun) := wellFormed.become trivial
    exact ⟨⟨stopped.producers, stopped.messages, stopped.fatfs, stopped.isOpen⟩,
      .overran outside rfl⟩
  | some formatted =>
    have fits : s.Fits (.advance thread) := by
      have inside := Buffer.le_of_store stored
      rw [List.length_append, List.length_singleton] at inside
      simp only [Pipeline.Fits, pointed]
      omega
    have written := Buffer.load_store stored
    rw [List.length_append, List.length_singleton] at written
    exact storing_some wellFormed fits rfl
      ⟨ordinary, Buffer.load_store_of_disjoint stored (by omega) pointer, rfl, written⟩

/-- `rt_mq_send` appends the message, or loses it if the queue is full. -/
theorem rtMqSend_outcome (wellFormed : WellFormed s) {fp : FilPtr} {text : List UInt8}
    {buf : Message} (counted : s.producers thread = .counted fp text buf)
    (taken : s.sdPrintfMq thread = some next) :
    WellFormed next ∧ Outcome s (.advance thread) next := by
  have ok := wellFormed.producers thread
  rw [counted] at ok
  obtain ⟨ordinary, carries⟩ := ok
  rw [Pipeline.sdPrintfMq] at taken
  cases sending : s.mqSd.send buf with
  | none =>
    simp only [counted, sending, Option.some.injEq] at taken
    subst taken
    have stopped : WellFormed (s.become thread .delayed) := wellFormed.become trivial
    refine ⟨⟨stopped.producers, stopped.messages, stopped.fatfs, stopped.isOpen⟩, ?_⟩
    rw [Fifo.send_eq_none] at sending
    by_cases empty : text = []
    · -- an empty text is not missed
      have fits : s.Fits (.advance thread) := by simp [Pipeline.Fits, counted, empty]
      refine .kept [(fp, text)] fits rfl rfl fun file => ?_
      rw [textsFor_cons, empty, ite_self, textsFor_nil, List.append_nil, List.append_nil]
      rfl
    · have full : ¬s.Fits (.advance thread) := by simp [Pipeline.Fits, counted, empty, sending]
      exact .lost fp text full empty rfl rfl fun _ => rfl
  | some mqSd =>
    simp only [counted, sending, Option.some.injEq] at taken
    subst taken
    have queued := Fifo.messages_send sending
    have stopped : WellFormed (s.become thread .idle) := wellFormed.become trivial
    refine ⟨⟨stopped.producers, ?_, stopped.fatfs, stopped.isOpen⟩, ?_⟩
    · intro other member
      change other ∈ mqSd.messages at member
      rw [queued, List.mem_append, List.mem_singleton] at member
      rcases member with earlier | rfl
      · exact wellFormed.messages other earlier
      · exact ⟨fp, text, ordinary, carries⟩
    · have fits : s.Fits (.advance thread) := by
        have bounded := mqSd.bounded
        rw [queued, List.length_append, List.length_singleton] at bounded
        simp only [Pipeline.Fits, counted]
        exact .inr bounded
      refine .kept [(fp, text)] fits rfl rfl fun file => ?_
      change (s.files file).content ++
        textsFor file ((s.fatfs.inHand ++ mqSd.messages).map Message.entry) = _
      rw [queued, ← List.append_assoc, List.map_append, textsFor_append, List.map_singleton,
        carries.entry, ← List.append_assoc]
      rfl

/-- The statements of `SD_Printf_MQ`. -/
theorem sdPrintfMq_outcome (wellFormed : WellFormed s) (taken : s.sdPrintfMq thread = some next) :
    WellFormed next ∧ Outcome s (.advance thread) next := by
  have ok := wellFormed.producers thread
  cases before : s.producers thread with
  | idle => simp [Pipeline.sdPrintfMq, before] at taken
  | overrun => simp [Pipeline.sdPrintfMq, before] at taken
  | pointed fp text buf => exact vsprintf_outcome wellFormed before taken
  | counted fp text buf => exact rtMqSend_outcome wellFormed before taken
  | delayed =>
    have fits : s.Fits (.advance thread) := by simp [Pipeline.Fits, before]
    simp only [Pipeline.sdPrintfMq, before, Option.some.injEq] at taken
    subst taken
    exact ⟨wellFormed.become trivial, .become fits _⟩
  | called fp text buf =>
    have fits : s.Fits (.advance thread) := by simp [Pipeline.Fits, before]
    simp only [Pipeline.sdPrintfMq, before, Option.some.injEq] at taken
    subst taken
    rw [before] at ok
    cases stored : buf.store 0 (wordBytes fp) with
    | none =>
      rw [Buffer.store_eq_none, length_wordBytes] at stored
      omega
    | some pointed =>
      exact storing_some wellFormed fits rfl ⟨ok, Buffer.load_store stored⟩
  | formatted fp text temp buf =>
    have fits : s.Fits (.advance thread) := by simp [Pipeline.Fits, before]
    simp only [Pipeline.sdPrintfMq, before, Option.some.injEq] at taken
    subst taken
    rw [before] at ok
    obtain ⟨ordinary, pointer, rfl, written⟩ := ok
    cases stored : buf.store 4 (wordBytes (UInt32.ofNat text.length)) with
    | none =>
      rw [Buffer.store_eq_none, length_wordBytes] at stored
      omega
    | some counted =>
      refine storing_some wellFormed fits rfl ⟨ordinary, ?_, Buffer.load_store stored, ?_⟩
      · exact Buffer.load_store_of_disjoint stored (by omega) pointer
      · exact Buffer.load_store_of_disjoint stored (by rw [length_wordBytes]; omega) written

omit [DecidableEq Thread] in
/-- `f_write` moves a text from the message in hand to the end of its file. -/
theorem fWrite_arrived {buf : Message} {fp : FilPtr} {text : List UInt8}
    (carries : Carries buf fp text) (inHand : s.fatfs = .received buf)
    (isOpen : (s.files fp).isOpen = true) (file : FilPtr) :
    { s with
      files := Function.update s.files fp ((s.files fp).fWrite text)
      fatfs := .written fp buf : Pipeline Thread }.arrived file = s.arrived file := by
  simp only [Pipeline.arrived, Pipeline.pending, inHand, Fatfs.inHand, List.nil_append,
    List.singleton_append, List.map_cons, carries.entry, textsFor_cons]
  by_cases same : fp = file
  · subst same
    simp [File.fWrite, isOpen]
  · simp [same, Function.update_of_ne (Ne.symm same)]

omit [DecidableEq Thread] in
/-- The statements of the loop of `rt_thread_entry_FATfs`. -/
theorem rtThreadEntryFatfs_outcome (wellFormed : WellFormed s)
    (taken : s.rtThreadEntryFatfs = some next) :
    WellFormed next ∧ Outcome s .fatfs next := by
  have ok := wellFormed.fatfs
  rw [Pipeline.rtThreadEntryFatfs] at taken
  cases before : s.fatfs with
  | overrun =>
    rw [before] at ok
    exact ok.elim
  | closing fileTmp =>
    rw [before] at ok
    exact ok.elim
  | receiving =>
    rw [before, Option.map_eq_some_iff] at taken
    obtain ⟨⟨buf, mqSd⟩, received, rfl⟩ := taken
    have queued := Fifo.messages_recv received
    have messages := wellFormed.messages
    rw [queued] at messages
    refine ⟨⟨wellFormed.producers, ?_, messages buf List.mem_cons_self, wellFormed.isOpen⟩, ?_⟩
    · intro other member
      exact messages other (List.mem_cons_of_mem buf member)
    · refine .kept [] trivial rfl (List.append_nil _).symm fun file => ?_
      simp [Pipeline.arrived, Pipeline.pending, before, Fatfs.inHand, queued]
  | received buf =>
    rw [before] at ok
    obtain ⟨fp, text, ordinary, carries⟩ := ok
    simp only [before, carries.load_text, carries.fileTmp, Option.some.injEq] at taken
    subst taken
    have isOpen := wellFormed.isOpen fp
    refine ⟨⟨wellFormed.producers, wellFormed.messages, ⟨fp, text, ordinary, carries⟩, ?_⟩, ?_⟩
    · intro file
      by_cases same : file = fp
      · subst same
        simp [File.fWrite, isOpen]
      · simpa [same] using wellFormed.isOpen file
    · refine .kept [] trivial rfl (List.append_nil _).symm fun file => ?_
      rw [textsFor_nil, List.append_nil]
      exact fWrite_arrived carries before isOpen file
  | written fileTmp buf =>
    rw [before] at ok
    obtain ⟨fp, text, ordinary, carries⟩ := ok
    simp only [before, carries.not_isString ordinary, Bool.false_eq_true, if_false,
      Option.some.injEq] at taken
    subst taken
    refine ⟨⟨wellFormed.producers, wellFormed.messages, trivial, wellFormed.isOpen⟩, ?_⟩
    refine .kept [] trivial rfl (List.append_nil _).symm fun file => ?_
    simp [Pipeline.arrived, Pipeline.pending, before, Fatfs.inHand]

/-- What a step does, whatever the texts and the queue. -/
theorem step_outcome {event : Event Thread} (wellFormed : WellFormed s)
    (ordinary : event.Ordinary) (taken : s.step event = some next) :
    WellFormed next ∧ Outcome s event next := by
  cases event with
  | call thread fp text stack =>
    cases before : s.producers thread <;> simp only [Pipeline.step, before] at taken
    case idle =>
      rw [← Option.some.inj taken]
      have fits : s.Fits (.call thread fp text stack) := trivial
      exact ⟨wellFormed.become ordinary, .become fits _⟩
    all_goals cases taken
  | advance thread => exact sdPrintfMq_outcome wellFormed taken
  | fatfs => exact rtThreadEntryFatfs_outcome wellFormed taken

end Step

section Outcome

variable {Thread : Type} {s next : Pipeline Thread} {event : Event Thread}

theorem wellFormed_start : WellFormed (Pipeline.start : Pipeline Thread) where
  producers := fun _ => trivial
  messages := by simp [Pipeline.start, Fifo.empty]
  fatfs := trivial
  isOpen := fun _ => rfl

theorem faithful_start : (Pipeline.start : Pipeline Thread).Faithful :=
  ⟨rfl, fun _ => rfl⟩

/-- A step that fits keeps the texts. -/
theorem Outcome.faithful (outcome : Outcome s event next) (fits : s.Fits event)
    (faithful : s.Faithful) : next.Faithful := by
  cases outcome with
  | kept new _ inBounds sent arrived =>
    refine ⟨inBounds.trans faithful.1, fun file => ?_⟩
    rw [arrived, sent, textsFor_append, faithful.2 file]
  | overran outside _ => exact absurd fits outside
  | lost _ _ full _ _ _ _ => exact absurd fits full

/-- An access outside a buffer, or a file that misses bytes. -/
def Broken (s : Pipeline Thread) : Prop :=
  s.inBounds = false ∨ ∃ file, (s.arrived file).length < (textsFor file s.sent).length

theorem Broken.not_faithful (broken : Broken s) : ¬s.Faithful := by
  rintro ⟨inBounds, same⟩
  rcases broken with outside | ⟨file, missing⟩
  · rw [inBounds] at outside
    cases outside
  · rw [same file] at missing
    exact lt_irrefl _ missing

/-- What is broken stays broken. -/
theorem Outcome.broken (outcome : Outcome s event next) (broken : Broken s) : Broken next := by
  cases outcome with
  | kept new _ inBounds sent arrived =>
    refine broken.imp inBounds.trans ?_
    rintro ⟨file, missing⟩
    refine ⟨file, ?_⟩
    rw [arrived, sent, textsFor_append, List.length_append, List.length_append]
    exact Nat.add_lt_add_right missing _
  | overran _ inBounds => exact .inl inBounds
  | lost fp text _ _ inBounds sent arrived =>
    refine broken.imp inBounds.trans ?_
    rintro ⟨file, missing⟩
    refine ⟨file, ?_⟩
    rw [arrived, sent, textsFor_append, List.length_append]
    exact Nat.lt_add_right _ missing

/-- A step that does not fit breaks what was right. -/
theorem Outcome.broken_of_not_fits (outcome : Outcome s event next) (outside : ¬s.Fits event)
    (faithful : s.Faithful) : Broken next := by
  cases outcome with
  | kept _ fits _ _ _ => exact absurd fits outside
  | overran _ inBounds => exact .inl inBounds
  | lost fp text _ nonempty _ sent arrived =>
    refine .inr ⟨fp, ?_⟩
    rw [arrived, sent, textsFor_append, faithful.2 fp, List.length_append, textsFor_cons,
      if_pos rfl, textsFor_nil, List.append_nil]
    exact Nat.lt_add_of_pos_right (List.length_pos_of_ne_nil nonempty)

end Outcome

section Run

variable {Thread : Type} [DecidableEq Thread] {final : Pipeline Thread}
  {events : List (Event Thread)}

theorem wellFormed_of_steps (ordinary : ∀ event ∈ events, event.Ordinary)
    (steps : Steps (Takes Pipeline.step) Pipeline.start events final) : WellFormed final := by
  induction steps with
  | refl => exact wellFormed_start
  | step _ transition ih =>
    have earlier := ih fun event member => ordinary event (List.mem_append_left _ member)
    exact (step_outcome earlier (ordinary _ (by simp)) transition).1

theorem faithful_of_fits (ordinary : ∀ event ∈ events, event.Ordinary)
    (steps : Steps (TakesWhen Pipeline.Fits Pipeline.step) Pipeline.start events final) :
    final.Faithful := by
  induction steps with
  | refl => exact faithful_start
  | @step events current next event prior transition ih =>
    have earlier : ∀ event ∈ events, event.Ordinary :=
      fun event member => ordinary event (List.mem_append_left _ member)
    have wellFormed := wellFormed_of_steps earlier (prior.mono fun _ _ _ taken => taken.2)
    have outcome := (step_outcome wellFormed (ordinary _ (by simp)) transition.2).2
    exact outcome.faithful transition.1 (ih earlier)

theorem fits_of_not_broken (ordinary : ∀ event ∈ events, event.Ordinary)
    (steps : Steps (Takes Pipeline.step) Pipeline.start events final) (whole : ¬Broken final) :
    Steps (TakesWhen Pipeline.Fits Pipeline.step) Pipeline.start events final := by
  induction steps with
  | refl => exact .refl
  | @step events current next event prior transition ih =>
    have earlier : ∀ event ∈ events, event.Ordinary :=
      fun event member => ordinary event (List.mem_append_left _ member)
    have wellFormed := wellFormed_of_steps earlier prior
    have outcome := (step_outcome wellFormed (ordinary event (by simp)) transition).2
    have fitted := ih earlier fun broken => whole (outcome.broken broken)
    refine fitted.step ⟨?_, transition⟩
    by_contra outside
    exact whole (outcome.broken_of_not_fits outside (faithful_of_fits earlier fitted))

/-- The texts of a run arrive, and every access is inside its buffer, exactly if every text
fits into its buffer and every message finds room in the queue. -/
theorem log_faithful_iff (ordinary : ∀ event ∈ events, event.Ordinary)
    (steps : Steps (Takes Pipeline.step) Pipeline.start events final) :
    final.Faithful ↔ Steps (TakesWhen Pipeline.Fits Pipeline.step) Pipeline.start events final :=
  ⟨fun faithful => fits_of_not_broken ordinary steps fun broken => broken.not_faithful faithful,
    faithful_of_fits ordinary⟩

end Run

/-- Two threads write `ab` and `c` to one file, the second call inside the first. -/
def nestedCalls : List (Event Bool) :=
  [.call true 7 [0x61, 0x62] fun _ => 0xff, .advance true, .advance true,
    .call false 7 [0x63] fun _ => 0xff, .advance false, .advance false, .advance false,
    .advance false, .advance true, .advance true, .fatfs, .fatfs, .fatfs, .fatfs, .fatfs]

theorem log_faithful_nested :
    ∃ final, Steps (Takes Pipeline.step) Pipeline.start nestedCalls final ∧
      (final.files 7).content = [0x63, 0x61, 0x62] ∧
      (final.Faithful ↔
        Steps (TakesWhen Pipeline.Fits Pipeline.step) Pipeline.start nestedCalls final) := by
  have written : ((run Pipeline.step Pipeline.start nestedCalls).map
      fun final => (final.files 7).content) = some [0x63, 0x61, 0x62] := by decide
  obtain ⟨final, taken, content⟩ := Option.map_eq_some_iff.mp written
  exact ⟨final, steps_of_run taken, content, log_faithful_iff (by decide) (steps_of_run taken)⟩

/-- A call with a text of 120 bytes, up to the end of `vsprintf`. -/
def longCall : List (Event Unit) :=
  [.call () 7 (List.replicate 120 0x41) fun _ => 0, .advance (), .advance ()]

/-- The end of a text of 120 bytes is written behind the buffer. -/
theorem not_log_faithful_long :
    ∃ final, Steps (Takes Pipeline.step) Pipeline.start longCall final ∧
      (∀ event ∈ longCall, event.Ordinary) ∧ ¬final.Faithful := by
  have outside : ((run Pipeline.step Pipeline.start longCall).map Pipeline.inBounds) =
      some false := by decide +kernel
  obtain ⟨final, taken, inBounds⟩ := Option.map_eq_some_iff.mp outside
  refine ⟨final, steps_of_run taken, by decide +kernel, fun faithful => ?_⟩
  rw [faithful.1] at inBounds
  cases inBounds

end BadmintonRobot.Log
