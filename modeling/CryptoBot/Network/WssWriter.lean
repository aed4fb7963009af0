/-
# The writer of a websocket session

`AsyncWrite` queues a message on the strand and starts a `WriteLoop` unless
`is_writing_` says that one runs already.  The loop takes message after message,
waits a second and writes, and clears the flag when the queue is empty.

The end of `Run` starts a `WriteLoop` as well, without a look at the flag, and
outside of the strand; and a loop that ends with an error, or because the session
was canceled, leaves the flag set.  Up to the first of these the flag is right:
there is one loop exactly while it is set, and messages are written one by one in
the order they were queued.  Each of these breaks it at once.

Messages are of any type with a default, the empty string of a `try_dequeue` that
found nothing.
-/

import CryptoBot.Math.Machine

namespace CryptoBot.Network

open CryptoBot.Math

universe um

/-- Where a `WriteLoop` waits.  A loop on the strand checks and dequeues in one
step, since the handlers of `AsyncWrite` run on the strand too; the loop of `Run`
may be overtaken in between. -/
inductive LoopStage (M : Type um)
  | check
  | clear
  | dequeue
  | waiting (message : M)
  | writing (message : M)
  deriving DecidableEq, Repr

namespace LoopStage

variable {M : Type um}

def isCheck : LoopStage M → Bool
  | .check => true
  | _ => false

def isWriting : LoopStage M → Bool
  | .writing _ => true
  | _ => false

/-- The message that was dequeued and not yet handed over. -/
def held : LoopStage M → List M
  | .waiting message => [message]
  | _ => []

end LoopStage

structure WriteLoop (M : Type um) where
  onStrand : Bool
  stage : LoopStage M
  deriving DecidableEq, Repr

/-- The fields of `WssSession3` that its writer uses, and the loops that were
started and did not return.  `enqueued` and `handed` are ghosts: the messages in
the order they were queued and in the order they were handed to `async_write`. -/
structure WssSession3 (M : Type um) where
  messageQueue : List M := []
  isWriting : Bool := false
  needRead : Bool := true
  isConnected : Bool := false
  writeLoops : List (WriteLoop M) := []
  enqueued : List M := []
  handed : List M := []
  deriving DecidableEq, Repr

inductive WriterEvent (M : Type um)
  | asyncWrite (message : M)
  | runCompleted
  | handleCancellation
  | advance (index : Nat)
  | writeCompleted (index : Nat)
  | writeFailed (index : Nat)
  deriving DecidableEq, Repr

namespace WssSession3

variable {M : Type um} [Inhabited M] (session : WssSession3 M)

/-- The handler of `AsyncWrite` on the strand. -/
def asyncWrite (message : M) : WssSession3 M :=
  let next := { session with
    messageQueue := session.messageQueue ++ [message]
    enqueued := session.enqueued ++ [message] }
  if session.isWriting then next
  else { next with isWriting := true, writeLoops := next.writeLoops ++ [⟨true, .check⟩] }

/-- The last lines of `Run`. -/
def runCompleted : WssSession3 M :=
  if session.isConnected then session
  else
    { session with
      isConnected := true
      writeLoops := session.writeLoops ++ [⟨false, .check⟩] }

def setLoop (index : Nat) (loop : WriteLoop M) : WssSession3 M :=
  { session with writeLoops := session.writeLoops.set index loop }

def endLoop (index : Nat) : WssSession3 M :=
  { session with writeLoops := session.writeLoops.eraseIdx index }

/-- `try_dequeue`; without a message the string stays empty. -/
def takeMessage (index : Nat) (onStrand : Bool) : WssSession3 M :=
  { session with messageQueue := session.messageQueue.tail }.setLoop index
    ⟨onStrand, .waiting (session.messageQueue.headD default)⟩

/-- The loop goes on to where it waits next. -/
def advance (index : Nat) (loop : WriteLoop M) : WssSession3 M :=
  match loop.stage with
  | .check =>
      if session.needRead then
        match loop.onStrand, session.messageQueue with
        | true, [] => { session with isWriting := false }.endLoop index
        | true, _ :: _ => session.takeMessage index true
        | false, [] => session.setLoop index ⟨false, .clear⟩
        | false, _ :: _ => session.setLoop index ⟨false, .dequeue⟩
      else session.endLoop index
  | .clear => { session with isWriting := false }.endLoop index
  | .dequeue => session.takeMessage index loop.onStrand
  | .waiting message =>
      { session with handed := session.handed ++ [message] }.setLoop index
        ⟨loop.onStrand, .writing message⟩
  | .writing _ => session

/-- The loop whose write is in flight. -/
def writingLoop (index : Nat) : Option (WriteLoop M) :=
  session.writeLoops[index]?.filter fun loop => loop.stage.isWriting

def step : WriterEvent M → WssSession3 M
  | .asyncWrite message => session.asyncWrite message
  | .runCompleted => session.runCompleted
  | .handleCancellation => { session with needRead := false }
  | .advance index =>
      match session.writeLoops[index]? with
      | some loop => session.advance index loop
      | none => session
  | .writeCompleted index =>
      match session.writingLoop index with
      | some loop => session.setLoop index ⟨loop.onStrand, .check⟩
      | none => session
  | .writeFailed index =>
      match session.writingLoop index with
      | some _ => session.endLoop index
      | none => session

end WssSession3

/-- The runs of a session. -/
def wssSession (M : Type um) [Inhabited M] : Machine (WssSession3 M) (WriterEvent M) Empty :=
  ⟨{}, fun session event => (session.step event, [])⟩

namespace WssSession3

variable {M : Type um}

/-- One loop at most, the flag set exactly while there is one, messages handed
over one at a time in their order, and no message left without a loop. -/
structure SingleWriter (session : WssSession3 M) : Prop where
  one : session.writeLoops.length ≤ 1
  flag : session.isWriting = true ↔ session.writeLoops ≠ []
  order : session.handed <+: session.enqueued
  inFlight : session.writeLoops.countP (fun loop => loop.stage.isWriting) ≤ 1
  served : session.needRead = true → session.messageQueue ≠ [] → session.writeLoops ≠ []

/-- `Run` does not complete, no write fails, and no loop returns because the
session was canceled. -/
def Undisturbed (session : WssSession3 M) : WriterEvent M → Prop
  | .runCompleted => session.isConnected = true
  | .writeFailed index => session.writingLoop index = none
  | .advance index => ∀ loop ∈ session.writeLoops[index]?, loop.stage.isCheck →
      session.needRead = true
  | _ => True

/-! ## The loop of the strand -/

/-- The session with the loop of the strand, or with no loop and nothing to
write. -/
inductive Driven (session : WssSession3 M) : Prop
  | idle (hloops : session.writeLoops = []) (hflag : session.isWriting = false)
      (hqueue : session.messageQueue = []) (horder : session.enqueued = session.handed)
  | busy (stage : LoopStage M) (hloops : session.writeLoops = [⟨true, stage⟩])
      (hflag : session.isWriting = true) (hclear : stage ≠ .clear)
      (hdequeue : stage ≠ .dequeue)
      (horder : session.enqueued = session.handed ++ stage.held ++ session.messageQueue)

namespace Driven

variable {session : WssSession3 M}

theorem single (h : Driven session) : SingleWriter session := by
  cases h with
  | idle hloops hflag hqueue horder =>
      refine ⟨by simp [hloops], by simp [hloops, hflag], by simp [horder], by simp [hloops], ?_⟩
      intro _ hmessage
      exact (hmessage hqueue).elim
  | busy stage hloops hflag hclear hdequeue horder =>
      refine ⟨by simp [hloops], by simp [hloops, hflag], ?_, ?_, by simp [hloops]⟩
      · rw [horder, List.append_assoc]
        exact List.prefix_append _ _
      · rw [hloops]
        exact List.countP_le_length

/-- The only index of a loop is the first. -/
theorem getElem?_singleton {loop found : WriteLoop M} {index : Nat}
    (h : [loop][index]? = some found) : index = 0 ∧ loop = found := by
  cases index with
  | zero => exact ⟨rfl, Option.some.inj h⟩
  | succ index => simp at h

theorem asyncWrite (h : Driven session) (message : M) : Driven (session.asyncWrite message) := by
  cases h with
  | idle hloops hflag hqueue horder =>
      refine .busy .check ?_ ?_ (by simp) (by simp) ?_
      · simp [WssSession3.asyncWrite, hflag, hloops]
      · simp [WssSession3.asyncWrite, hflag]
      · simp [WssSession3.asyncWrite, hflag, hqueue, horder, LoopStage.held]
  | busy stage hloops hflag hclear hdequeue horder =>
      refine .busy stage ?_ ?_ hclear hdequeue ?_
      · simp [WssSession3.asyncWrite, hflag, hloops]
      · simp [WssSession3.asyncWrite, hflag]
      · simp [WssSession3.asyncWrite, hflag, horder]

variable [Inhabited M]

/-- A step of the loop that the session keeps. -/
theorem advance {stage : LoopStage M} (hloops : session.writeLoops = [⟨true, stage⟩])
    (hflag : session.isWriting = true) (hclear : stage ≠ .clear) (hdequeue : stage ≠ .dequeue)
    (horder : session.enqueued = session.handed ++ stage.held ++ session.messageQueue)
    (hneed : stage.isCheck → session.needRead = true) :
    Driven (session.advance 0 ⟨true, stage⟩) := by
  cases stage with
  | check =>
      have hread := hneed rfl
      cases hqueue : session.messageQueue with
      | nil =>
          refine .idle ?_ ?_ ?_ ?_
          · simp [WssSession3.advance, hread, hqueue, endLoop, hloops]
          · simp [WssSession3.advance, hread, hqueue, endLoop]
          · simp [WssSession3.advance, hread, hqueue, endLoop]
          · simpa [WssSession3.advance, hread, hqueue, endLoop, LoopStage.held] using horder
      | cons message rest =>
          refine .busy (.waiting message) ?_ ?_ (by simp) (by simp) ?_
          · simp [WssSession3.advance, hread, hqueue, takeMessage, setLoop, hloops]
          · simp [WssSession3.advance, hread, hqueue, takeMessage, setLoop, hflag]
          · simpa [WssSession3.advance, hread, hqueue, takeMessage, setLoop, LoopStage.held]
              using horder
  | clear => exact (hclear rfl).elim
  | dequeue => exact (hdequeue rfl).elim
  | waiting message =>
      refine .busy (.writing message) ?_ hflag (by simp) (by simp) ?_
      · simp [WssSession3.advance, setLoop, hloops]
      · simpa [WssSession3.advance, setLoop, LoopStage.held] using horder
  | writing message => exact .busy _ hloops hflag hclear hdequeue horder

/-- An undisturbed step keeps the loop and the flag together. -/
theorem step (h : Driven session) {event : WriterEvent M} (hevent : session.Undisturbed event) :
    Driven (session.step event) := by
  cases event with
  | asyncWrite message => exact h.asyncWrite message
  | runCompleted =>
      have hconnected : session.isConnected = true := hevent
      simpa [WssSession3.step, runCompleted, hconnected] using h
  | handleCancellation =>
      cases h with
      | idle hloops hflag hqueue horder => exact .idle hloops hflag hqueue horder
      | busy stage hloops hflag hclear hdequeue horder =>
          exact .busy stage hloops hflag hclear hdequeue horder
  | advance index =>
      simp only [WssSession3.step]
      split
      · rename_i loop hloop
        cases h with
        | idle hloops => simp [hloops] at hloop
        | busy stage hloops hflag hclear hdequeue horder =>
            have hneed := hevent loop hloop
            rw [hloops] at hloop
            obtain ⟨rfl, rfl⟩ := getElem?_singleton hloop
            exact advance hloops hflag hclear hdequeue horder hneed
      · exact h
  | writeCompleted index =>
      simp only [WssSession3.step]
      split
      · rename_i loop hloop
        obtain ⟨hfound, hwriting⟩ := Option.filter_eq_some_iff.mp hloop
        cases h with
        | idle hloops => simp [hloops] at hfound
        | busy stage hloops hflag hclear hdequeue horder =>
            rw [hloops] at hfound
            obtain ⟨rfl, rfl⟩ := getElem?_singleton hfound
            cases stage with
            | writing message =>
                refine .busy .check ?_ hflag (by simp) (by simp) ?_
                · simp [setLoop, hloops]
                · simpa [setLoop, LoopStage.held] using horder
            | check => simp [LoopStage.isWriting] at hwriting
            | clear => simp [LoopStage.isWriting] at hwriting
            | dequeue => simp [LoopStage.isWriting] at hwriting
            | waiting => simp [LoopStage.isWriting] at hwriting
      · exact h
  | writeFailed index =>
      have hnone : session.writingLoop index = none := hevent
      simpa [WssSession3.step, hnone] using h

/-- Any other step puts the flag and the loops at odds. -/
theorem not_single (h : Driven session) {event : WriterEvent M}
    (hevent : ¬ session.Undisturbed event) : ¬ SingleWriter (session.step event) := by
  intro hsingle
  cases event with
  | asyncWrite message => exact hevent trivial
  | handleCancellation => exact hevent trivial
  | writeCompleted index => exact hevent trivial
  | runCompleted =>
      have hconnected : session.isConnected = false := by
        simpa [Undisturbed] using hevent
      cases h with
      | idle hloops hflag =>
          have hset := hsingle.flag.mpr (by simp [WssSession3.step, runCompleted, hconnected])
          simp [WssSession3.step, runCompleted, hconnected, hflag] at hset
      | busy stage hloops =>
          have hone := hsingle.one
          simp [WssSession3.step, runCompleted, hconnected, hloops] at hone
  | advance index =>
      simp only [Undisturbed, not_forall] at hevent
      obtain ⟨loop, hloop, hcheck, hneed⟩ := hevent
      cases h with
      | idle hloops => simp [hloops] at hloop
      | busy stage hloops hflag =>
          rw [hloops] at hloop
          obtain ⟨rfl, rfl⟩ := getElem?_singleton hloop
          have hset := hsingle.flag
          cases stage with
          | check =>
              simp [WssSession3.step, WssSession3.advance, hneed, endLoop, hloops, hflag] at hset
          | clear => simp [LoopStage.isCheck] at hcheck
          | dequeue => simp [LoopStage.isCheck] at hcheck
          | waiting => simp [LoopStage.isCheck] at hcheck
          | writing => simp [LoopStage.isCheck] at hcheck
  | writeFailed index =>
      obtain ⟨loop, hloop⟩ := Option.ne_none_iff_exists'.mp hevent
      obtain ⟨hfound, -⟩ := Option.filter_eq_some_iff.mp hloop
      cases h with
      | idle hloops => simp [hloops] at hfound
      | busy stage hloops hflag =>
          rw [hloops] at hfound
          obtain ⟨rfl, -⟩ := getElem?_singleton hfound
          have hset := hsingle.flag
          simp [WssSession3.step, hloop, endLoop, hloops, hflag] at hset

theorem run {events : List (WriterEvent M)}
    (h : EveryStep (fun before event => ((wssSession M).run before).Undisturbed event) events) :
    Driven ((wssSession M).run events) := by
  induction events using List.reverseRecOn with
  | nil => exact .idle rfl rfl rfl rfl
  | append_singleton events event ih =>
      obtain ⟨hinit, hlast⟩ := EveryStep.concat_iff.mp h
      rw [Machine.run_concat]
      exact (ih hinit).step hlast

end Driven

/-- The session has a single writer in every state of a run if and only if `Run`
did not complete, no write failed and no loop was canceled. -/
theorem singleWriter_iff [Inhabited M] (events : List (WriterEvent M)) :
    (∀ before after, events = before ++ after → SingleWriter ((wssSession M).run before)) ↔
      EveryStep (fun before event => ((wssSession M).run before).Undisturbed event) events := by
  constructor
  · intro h
    induction events using List.reverseRecOn with
    | nil => exact EveryStep.nil
    | append_singleton events event ih =>
        have hearlier := ih fun before after heq => h before (after ++ [event]) (by simp [heq])
        refine EveryStep.concat_iff.mpr ⟨hearlier, ?_⟩
        by_contra hevent
        have hsingle := h (events ++ [event]) [] (by simp)
        rw [Machine.run_concat] at hsingle
        exact (Driven.run hearlier).not_single hevent hsingle
  · intro h before after heq
    subst heq
    exact (Driven.run h.left).single

/-- Two messages are queued before `Run` completes, and the loop of `Run` takes
the second. -/
def overtaking : List (WriterEvent Nat) :=
  [.asyncWrite 1, .asyncWrite 2, .runCompleted, .advance 0, .advance 1, .advance 1, .advance 1,
    .advance 0]

/-- The first write fails and another message is queued. -/
def wedged : List (WriterEvent Nat) :=
  [.asyncWrite 1, .advance 0, .advance 0, .writeFailed 0, .asyncWrite 2]

/-- Two loops write at once and in the wrong order; and after a failed write the
flag keeps every later message in the queue. -/
theorem overtaking_and_wedged :
    ((wssSession Nat).run overtaking).writeLoops = [⟨true, .writing 1⟩, ⟨false, .writing 2⟩] ∧
      ((wssSession Nat).run overtaking).handed = [2, 1] ∧
      ¬ SingleWriter ((wssSession Nat).run overtaking) ∧
      (wssSession Nat).run wedged =
        { messageQueue := [2], isWriting := true, enqueued := [1, 2], handed := [1] } ∧
      ¬ SingleWriter ((wssSession Nat).run wedged) := by
  have hloops : ((wssSession Nat).run overtaking).writeLoops =
      [⟨true, .writing 1⟩, ⟨false, .writing 2⟩] := by decide
  have hwedged : (wssSession Nat).run wedged =
      { messageQueue := [2], isWriting := true, enqueued := [1, 2], handed := [1] } := by decide
  refine ⟨hloops, by decide, ?_, hwedged, ?_⟩
  · intro hsingle
    have hone := hsingle.one
    simp [hloops] at hone
  · intro hsingle
    have hserved := hsingle.served
    simp [hwedged] at hserved

/-! ## The loop of `Run` -/

/-- `Run` completed while nothing was written, and its loop did not look at the
queue yet or is about to return. -/
structure Pending (session : WssSession3 M) : Prop where
  connected : session.isConnected = true
  loops : session.writeLoops = [⟨false, .check⟩] ∨ session.writeLoops = [⟨false, .clear⟩]
  flag : session.isWriting = false
  queue : session.messageQueue = []
  order : session.enqueued = session.handed

/-- `Run` completes while nothing is written, no message is queued until its loop
returned, no write fails and no loop is canceled. -/
def Settled (session : WssSession3 M) : WriterEvent M → Prop
  | .asyncWrite _ => ∀ loop ∈ session.writeLoops, loop.onStrand = true
  | .runCompleted => session.isConnected = false → session.isWriting = false
  | event => session.Undisturbed event

namespace Pending

variable {session : WssSession3 M}

/-- A session that writes nothing may wait for the loop of `Run`. -/
theorem of_driven (h : Driven session) (hconnected : session.isConnected = false)
    (hwriting : session.isWriting = false) : Pending session.runCompleted := by
  cases h with
  | idle hloops hflag hqueue horder =>
      refine ⟨?_, .inl ?_, ?_, ?_, ?_⟩ <;> simp [runCompleted, hconnected, hloops, hflag, hqueue,
        horder]
  | busy stage hloops hflag => simp [hwriting] at hflag

/-- The loop of `Run` writes nothing. -/
theorem writingLoop_eq_none (h : Pending session) (index : Nat) :
    session.writingLoop index = none := by
  rw [writingLoop, Option.filter_eq_none_iff]
  intro loop hloop
  have hmem := List.mem_of_getElem? hloop
  rcases h.loops with hloops | hloops
  all_goals
    rw [hloops, List.mem_singleton] at hmem
    subst hmem
    simp [LoopStage.isWriting]

variable [Inhabited M]

theorem advance (h : Pending session) {loop : WriteLoop M}
    (hloops : session.writeLoops = [loop])
    (hneed : loop.stage.isCheck → session.needRead = true) :
    Driven (session.advance 0 loop) ∨ Pending (session.advance 0 loop) := by
  rcases h.loops with hcheck | hclear
  · right
    obtain rfl : loop = ⟨false, .check⟩ := by simpa [hloops] using hcheck
    have hread := hneed rfl
    refine ⟨?_, .inr ?_, ?_, ?_, ?_⟩ <;> simp [WssSession3.advance, hread, h.queue, setLoop,
      hloops, h.connected, h.flag, h.order]
  · left
    obtain rfl : loop = ⟨false, .clear⟩ := by simpa [hloops] using hclear
    refine .idle ?_ ?_ ?_ ?_ <;> simp [WssSession3.advance, endLoop, hloops, h.queue, h.order]

theorem step (h : Pending session) {event : WriterEvent M} (hevent : session.Settled event) :
    Driven (session.step event) ∨ Pending (session.step event) := by
  cases event with
  | asyncWrite message =>
      have hstrand : ∀ loop ∈ session.writeLoops, loop.onStrand = true := hevent
      rcases h.loops with hloops | hloops <;> simp [hloops] at hstrand
  | runCompleted => exact .inr (by simpa [WssSession3.step, runCompleted, h.connected] using h)
  | handleCancellation => exact .inr ⟨h.connected, h.loops, h.flag, h.queue, h.order⟩
  | advance index =>
      simp only [WssSession3.step]
      split
      · rename_i loop hloop
        have hneed := hevent loop hloop
        obtain ⟨only, honly⟩ : ∃ only, session.writeLoops = [only] := by
          rcases h.loops with hloops | hloops
          · exact ⟨_, hloops⟩
          · exact ⟨_, hloops⟩
        rw [honly] at hloop
        obtain ⟨rfl, rfl⟩ := Driven.getElem?_singleton hloop
        exact h.advance honly hneed
      · exact .inr h
  | writeCompleted index =>
      exact .inr (by simpa [WssSession3.step, h.writingLoop_eq_none index] using h)
  | writeFailed index =>
      exact .inr (by simpa [WssSession3.step, h.writingLoop_eq_none index] using h)

/-- Before `Run` completes the session is driven by the strand. -/
theorem step_of_driven (h : Driven session) {event : WriterEvent M}
    (hevent : session.Settled event) :
    Driven (session.step event) ∨ Pending (session.step event) := by
  cases event with
  | asyncWrite message => exact .inl (h.asyncWrite message)
  | runCompleted =>
      cases hconnected : session.isConnected with
      | true => exact .inl (h.step (show session.Undisturbed .runCompleted from hconnected))
      | false => exact .inr (of_driven h hconnected (hevent hconnected))
  | handleCancellation =>
      exact .inl (h.step (show session.Undisturbed .handleCancellation from hevent))
  | advance index => exact .inl (h.step (show session.Undisturbed (.advance index) from hevent))
  | writeCompleted index =>
      exact .inl (h.step (show session.Undisturbed (.writeCompleted index) from hevent))
  | writeFailed index =>
      exact .inl (h.step (show session.Undisturbed (.writeFailed index) from hevent))

end Pending

/-- A session that is connected before it is used: there is never more than one
loop, messages are handed over in the order they were queued, and the session has
a single writer except while the loop of `Run` is about to return. -/
theorem ordered_of_settled [Inhabited M] (events : List (WriterEvent M))
    (h : EveryStep (fun before event => ((wssSession M).run before).Settled event) events) :
    ((wssSession M).run events).writeLoops.length ≤ 1 ∧
      ((wssSession M).run events).handed <+: ((wssSession M).run events).enqueued ∧
      ((∀ loop ∈ ((wssSession M).run events).writeLoops, loop.onStrand = true) →
        SingleWriter ((wssSession M).run events)) := by
  have hinvariant : Driven ((wssSession M).run events) ∨ Pending ((wssSession M).run events) := by
    induction events using List.reverseRecOn with
    | nil => exact .inl (.idle rfl rfl rfl rfl)
    | append_singleton events event ih =>
        obtain ⟨hinit, hlast⟩ := EveryStep.concat_iff.mp h
        rw [Machine.run_concat]
        rcases ih hinit with hdriven | hpending
        · exact Pending.step_of_driven hdriven hlast
        · exact hpending.step hlast
  rcases hinvariant with hdriven | hpending
  · exact ⟨hdriven.single.one, hdriven.single.order, fun _ => hdriven.single⟩
  · refine ⟨?_, by simp [hpending.order], ?_⟩
    · rcases hpending.loops with hloops | hloops <;> simp [hloops]
    · intro hstrand
      rcases hpending.loops with hloops | hloops <;> simp [hloops] at hstrand

end WssSession3

end CryptoBot.Network
