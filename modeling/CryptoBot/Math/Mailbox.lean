/-
# Components with mailboxes

Machines that post to each other.  What a machine emits is published as events,
each event is posted to a list of receivers, and a receiver takes what was posted
to it later, in a step of its own.  A list of moves is one interleaving of the
components and of the posts from outside.

A receiver takes its events in the order of the posts, or in any order.  Either
way nothing is lost or doubled: what a receiver has taken and what is pending for
it are, for each sender, what the sender has published for it.  Where a receiver
has kept the order, it has it sender by sender; nothing is said about two senders.
-/

import CryptoBot.Math.Machine
import Mathlib.Data.List.Perm.Basic
import Mathlib.Logic.Function.Basic

namespace CryptoBot.Math

universe ui us ue uo

namespace Machine

variable {σ : Type us} {ε ε' : Type ue} {ω : Type uo}

/-- The machine after some first events, for events of which it reads a part. -/
def reading (M : Machine σ ε' ω) (first : List ε') (read : ε → Option ε') : Machine σ ε ω where
  init := M.run first
  step state event :=
    match read event with
    | some event => M.step state event
    | none => (state, [])

variable (M : Machine σ ε' ω) (first : List ε') (read : ε → Option ε') (events : List ε)

theorem run_reading :
    (M.reading first read).run events = M.run (first ++ events.filterMap read) := by
  induction events using List.reverseRecOn with
  | nil => simp [run, runFrom, reading]
  | append_singleton events event ih =>
      rw [run_concat, ih]
      cases hread : read event with
      | none => simp [reading, hread]
      | some event => simp [reading, hread, ← List.append_assoc, run_concat]

theorem outputs_reading :
    (M.reading first read).outputs events =
      M.outputsFrom (M.run first) (events.filterMap read) := by
  suffices happend : M.outputs first ++ (M.reading first read).outputs events =
      M.outputs (first ++ events.filterMap read) by
    rw [outputs_append] at happend
    exact List.append_cancel_left happend
  induction events using List.reverseRecOn with
  | nil => simp [outputs, outputsFrom, traceFrom]
  | append_singleton events event ih =>
      rw [outputs_concat, ← List.append_assoc, ih, emitted, run_reading]
      cases hread : read event with
      | none => simp [reading, hread]
      | some event' =>
          have hlast : first ++ (events ++ [event]).filterMap read =
              (first ++ events.filterMap read) ++ [event'] := by
            simp [hread]
          rw [hlast, outputs_concat]
          simp [reading, hread, emitted]

end Machine

/-- Whether a receiver takes its events in the order of the posts. -/
inductive Discipline
  | inOrder
  | anyOrder
  deriving DecidableEq, Repr

/-- The components, what they publish, and who receives it. -/
structure Network (ι : Type ui) (σ : ι → Type us) (ω : ι → Type uo) (ε : Type ue) where
  component : (i : ι) → Machine (σ i) ε (ω i)
  publish : (i : ι) → ω i → List ε
  receivers : ι → ε → List ι
  discipline : ι → Discipline

/-- The states of the components, and for each of them the events that are pending and those it has
taken, with their senders; `none` is the outside. -/
structure Configuration (ι : Type ui) (σ : ι → Type us) (ε : Type ue) where
  state : (i : ι) → σ i
  pending : ι → List (Option ι × ε) := fun _ => []
  taken : ι → List (Option ι × ε) := fun _ => []

inductive Move (ι : Type ui) (ε : Type ue)
  /-- An event from outside. -/
  | post (receiver : ι) (event : ε)
  /-- The receiver takes the pending event at the position. -/
  | take (receiver : ι) (position : ℕ)
  deriving DecidableEq, Repr

namespace Network

variable {ι : Type ui} [DecidableEq ι] {σ : ι → Type us} {ω : ι → Type uo} {ε : Type ue}

/-- One event is posted. -/
def postTo (config : Configuration ι σ ε) (sender : Option ι) (receiver : ι) (event : ε) :
    Configuration ι σ ε :=
  { config with
    pending := Function.update config.pending receiver
      (config.pending receiver ++ [(sender, event)]) }

variable (network : Network ι σ ω ε)

/-- One event is posted to each of its receivers in turn. -/
def send (sender : ι) (config : Configuration ι σ ε) (event : ε) : Configuration ι σ ε :=
  (network.receivers sender event).foldl
    (fun config receiver => postTo config (some sender) receiver event) config

/-- Whether the receiver may take the event at the position. -/
def mayTake (receiver : ι) (position : ℕ) : Bool :=
  match network.discipline receiver with
  | .inOrder => position = 0
  | .anyOrder => true

/-- The receiver handles an event and publishes what it emits. -/
def handle (config : Configuration ι σ ε) (receiver : ι) (entry : Option ι × ε) (position : ℕ) :
    Configuration ι σ ε :=
  let outcome := (network.component receiver).step (config.state receiver) entry.2
  let config : Configuration ι σ ε :=
    { state := Function.update config.state receiver outcome.1
      pending := Function.update config.pending receiver
        ((config.pending receiver).eraseIdx position)
      taken := Function.update config.taken receiver (config.taken receiver ++ [entry]) }
  (outcome.2.flatMap (network.publish receiver)).foldl (network.send receiver) config

def move (config : Configuration ι σ ε) : Move ι ε → Configuration ι σ ε
  | .post receiver event => postTo config none receiver event
  | .take receiver position =>
      if network.mayTake receiver position then
        match (config.pending receiver)[position]? with
        | some entry => network.handle config receiver entry position
        | none => config
      else config

/-- All moves from the initial states. -/
def machine : Machine (Configuration ι σ ε) (Move ι ε) Empty where
  init := { state := fun i => (network.component i).init }
  step config move := (network.move config move, [])

/-! ## What was sent -/

/-- The events of a sender in a list of entries. -/
def ofSender (sender : Option ι) (entries : List (Option ι × ε)) : List ε :=
  (entries.filter fun entry => entry.1 = sender).map Prod.snd

/-- The events a component has handled. -/
def handled (config : Configuration ι σ ε) (i : ι) : List ε := (config.taken i).map Prod.snd

/-- What a component has published. -/
def published (config : Configuration ι σ ε) (i : ι) : List ε :=
  ((network.component i).outputs (handled config i)).flatMap (network.publish i)

/-- The copies of published events that go to one receiver. -/
def copiesFor (sender receiver : ι) (events : List ε) : List ε :=
  events.flatMap fun event =>
    List.replicate ((network.receivers sender event).count receiver) event

/-- The events posted to a receiver from outside. -/
def posted (receiver : ι) : List (Move ι ε) → List ε :=
  List.filterMap fun
    | .post other event => if other = receiver then some event else none
    | .take _ _ => none

/-- All that a sender has sent to a receiver. -/
def sent (moves : List (Move ι ε)) (config : Configuration ι σ ε) (sender : Option ι)
    (receiver : ι) : List ε :=
  match sender with
  | none => posted receiver moves
  | some sender => network.copiesFor sender receiver (network.published config sender)

/-- What has come to a receiver. -/
def received (config : Configuration ι σ ε) (receiver : ι) : List (Option ι × ε) :=
  config.taken receiver ++ config.pending receiver

section Sending

variable (config : Configuration ι σ ε) (sender receiver other : ι) (events : List ε)

/-- A post goes to the end of one mailbox, and moves nothing else. -/
theorem pending_foldl_postTo (event : ε) (receivers : List ι) :
    (receivers.foldl (fun config receiver => postTo config (some sender) receiver event)
        config).pending other =
      config.pending other ++
        List.replicate (receivers.count other) (some sender, event) := by
  induction receivers generalizing config with
  | nil => simp
  | cons first rest ih =>
      rw [List.foldl_cons, ih]
      by_cases hfirst : first = other
      · subst hfirst
        simp [postTo, List.replicate_succ]
      · simp [postTo, List.count_cons_of_ne hfirst, Function.update_of_ne (Ne.symm hfirst)]

theorem foldl_postTo_frame (event : ε) (receivers : List ι) :
    (receivers.foldl (fun config receiver => postTo config (some sender) receiver event)
        config).state = config.state ∧
      (receivers.foldl (fun config receiver => postTo config (some sender) receiver event)
        config).taken = config.taken := by
  induction receivers generalizing config with
  | nil => exact ⟨rfl, rfl⟩
  | cons first rest ih => exact ih _

theorem pending_foldl_send :
    (events.foldl (network.send sender) config).pending other =
      config.pending other ++
        (network.copiesFor sender other events).map fun event => (some sender, event) := by
  induction events generalizing config with
  | nil => simp [copiesFor]
  | cons event rest ih =>
      rw [List.foldl_cons, ih, send, pending_foldl_postTo]
      simp [copiesFor]

theorem foldl_send_frame :
    (events.foldl (network.send sender) config).state = config.state ∧
      (events.foldl (network.send sender) config).taken = config.taken := by
  induction events generalizing config with
  | nil => exact ⟨rfl, rfl⟩
  | cons event rest ih =>
      obtain ⟨hstate, htaken⟩ := foldl_postTo_frame config sender event
        (network.receivers sender event)
      rw [List.foldl_cons, (ih _).1, (ih _).2]
      exact ⟨hstate, htaken⟩

end Sending

theorem ofSender_append (sender : Option ι) (first second : List (Option ι × ε)) :
    ofSender sender (first ++ second) = ofSender sender first ++ ofSender sender second := by
  simp [ofSender]

theorem ofSender_map (sender other : Option ι) (events : List ε) :
    ofSender sender (events.map fun event => (other, event)) =
      if sender = other then events else [] := by
  by_cases hsame : sender = other
  · subst hsame
    simp [ofSender, List.filter_map, Function.comp_def]
  · simp [ofSender, List.filter_map, Function.comp_def, hsame, Ne.symm hsame]

/-- A reading of the entries that ignores all senders but one. -/
theorem filterMap_ofSender {β : Type*} (read : ε → Option β) {sender : Option ι}
    {entries : List (Option ι × ε)}
    (h : ∀ entry ∈ entries, (read entry.2).isSome → entry.1 = sender) :
    (ofSender sender entries).filterMap read =
      (entries.map Prod.snd).filterMap read := by
  induction entries with
  | nil => rfl
  | cons entry rest ih =>
      have hrest := ih fun entry hmem => h entry (by simp [hmem])
      by_cases hsender : entry.1 = sender
      · simp only [ofSender, List.filter_cons, hsender, decide_true, if_true, List.map_cons,
          List.filterMap_cons] at hrest ⊢
        rw [hrest]
      · have hnone : read entry.2 = none := by
          by_contra hsome
          exact hsender (h entry (by simp) (Option.isSome_iff_ne_none.mpr hsome))
        simp only [ofSender, List.filter_cons, hsender, decide_false, Bool.false_eq_true, if_false,
          List.map_cons, List.filterMap_cons, hnone] at hrest ⊢
        exact hrest

/-! ## One move -/

section Handling

variable (config : Configuration ι σ ε) (receiver : ι) (entry : Option ι × ε) (position : ℕ)

/-- What the component publishes while it handles the event. -/
def publishedBy (event : ε) : List ε :=
  ((network.component receiver).step (config.state receiver) event).2.flatMap
    (network.publish receiver)

theorem taken_handle (other : ι) :
    (network.handle config receiver entry position).taken other =
      if other = receiver then config.taken receiver ++ [entry] else config.taken other := by
  rw [handle, (network.foldl_send_frame _ _ _).2]
  by_cases hother : other = receiver
  · simp [hother]
  · simp [hother]

theorem state_handle :
    (network.handle config receiver entry position).state =
      Function.update config.state receiver
        ((network.component receiver).step (config.state receiver) entry.2).1 := by
  rw [handle, (network.foldl_send_frame _ _ _).1]

/-- The event moves from the pending ones to the taken ones, and the published ones are added. -/
theorem received_handle (other : ι) :
    received (network.handle config receiver entry position) other =
      (if other = receiver then
        config.taken receiver ++ entry :: (config.pending receiver).eraseIdx position
      else received config other) ++
        (network.copiesFor receiver other (network.publishedBy config receiver entry.2)).map
          fun event => (some receiver, event) := by
  rw [received, taken_handle, handle, pending_foldl_send, publishedBy]
  by_cases hother : other = receiver
  · subst hother
    simp
  · simp [hother, received]

end Handling

/-- The receiver takes the events in the order of the posts: it always does, or it did in these
moves. -/
def TakesInOrder (receiver : ι) (moves : List (Move ι ε)) : Prop :=
  network.discipline receiver = .inOrder ∨
    ∀ position, Move.take receiver position ∈ moves → position = 0

/-- The account of a run: each state is that of the handled events, and what has come to a receiver
is what was sent to it. -/
structure Accounted (moves : List (Move ι ε)) (config : Configuration ι σ ε) : Prop where
  state : ∀ i, config.state i = (network.component i).run (handled config i)
  all : ∀ sender receiver,
    (ofSender sender (received config receiver)).Perm (network.sent moves config sender receiver)
  inOrder : ∀ receiver, network.TakesInOrder receiver moves → ∀ sender,
    ofSender sender (received config receiver) = network.sent moves config sender receiver

namespace Accounted

variable {network} {moves : List (Move ι ε)} {config : Configuration ι σ ε}

theorem init : network.Accounted [] network.machine.init where
  state _ := rfl
  all sender receiver := by cases sender <;> rfl
  inOrder receiver _ sender := by cases sender <;> rfl

/-- The rule for one move: the mailboxes and what was sent grow by the same events. -/
theorem grow (h : network.Accounted moves config) {last : Move ι ε}
    {config' : Configuration ι σ ε} (more : Option ι → ι → List ε)
    (hstate : ∀ i, config'.state i = (network.component i).run (handled config' i))
    (hreceived : ∀ sender receiver, (ofSender sender (received config' receiver)).Perm
      (ofSender sender (received config receiver) ++ more sender receiver))
    (hinOrder : ∀ receiver, network.TakesInOrder receiver (moves ++ [last]) → ∀ sender,
      ofSender sender (received config' receiver) =
        ofSender sender (received config receiver) ++ more sender receiver)
    (hsent : ∀ sender receiver, network.sent (moves ++ [last]) config' sender receiver =
      network.sent moves config sender receiver ++ more sender receiver) :
    network.Accounted (moves ++ [last]) config' where
  state := hstate
  all sender receiver := by
    rw [hsent]
    exact (hreceived sender receiver).trans ((h.all sender receiver).append_right _)
  inOrder receiver htakes sender := by
    have hearlier : network.TakesInOrder receiver moves :=
      htakes.imp_right fun hzero position hmem => hzero position (by simp [hmem])
    rw [hsent, hinOrder receiver htakes, h.inOrder receiver hearlier]

theorem post (h : network.Accounted moves config) (receiver : ι) (event : ε) :
    network.Accounted (moves ++ [.post receiver event]) (postTo config none receiver event) := by
  have hreceived : ∀ sender other,
      ofSender sender (received (postTo config none receiver event) other) =
        ofSender sender (received config other) ++
          if sender = none ∧ receiver = other then [event] else [] := by
    intro sender other
    by_cases hother : receiver = other
    · subst hother
      have happend : received (postTo config none receiver event) receiver =
          received config receiver ++ [event].map fun event => (none, event) := by
        simp [received, postTo]
      rw [happend, ofSender_append, ofSender_map]
      simp
    · simp [received, postTo, hother, Ne.symm hother]
  apply h.grow (fun sender other => if sender = none ∧ receiver = other then [event] else [])
  · exact h.state
  · exact fun sender other => .of_eq (hreceived sender other)
  · exact fun other _ sender => hreceived sender other
  · intro sender other
    cases sender with
    | none => by_cases hother : receiver = other <;> simp [sent, posted, hother]
    | some sender => simp [sent, published, handled, postTo]

theorem handle (h : network.Accounted moves config) {receiver : ι} {position : ℕ}
    (hmay : network.mayTake receiver position = true) {entry : Option ι × ε}
    (hentry : (config.pending receiver)[position]? = some entry) :
    network.Accounted (moves ++ [.take receiver position])
      (network.handle config receiver entry position) := by
  have hhandled : ∀ i, handled (network.handle config receiver entry position) i =
      if i = receiver then handled config receiver ++ [entry.2] else handled config i := by
    intro i
    rw [handled, taken_handle]
    split_ifs <;> simp [handled]
  obtain ⟨hlt, hget⟩ := List.getElem?_eq_some_iff.mp hentry
  have hmoved : (entry :: (config.pending receiver).eraseIdx position).Perm
      (config.pending receiver) := by
    rw [← hget]
    exact List.getElem_cons_eraseIdx_perm hlt
  let more (sender : Option ι) (other : ι) : List ε :=
    if sender = some receiver then
      network.copiesFor receiver other (network.publishedBy config receiver entry.2)
    else []
  apply h.grow more
  · intro i
    rw [state_handle, hhandled]
    by_cases hi : i = receiver
    · subst hi
      rw [Function.update_self, if_pos rfl, Machine.run_concat, h.state]
    · rw [Function.update_of_ne hi, if_neg hi, h.state]
  · intro sender other
    rw [received_handle, ofSender_append, ofSender_map]
    apply List.Perm.append_right
    split_ifs with hother
    · subst hother
      exact ((hmoved.append_left _).filter _).map _
    · exact .refl _
  · intro other htakes sender
    rw [received_handle, ofSender_append, ofSender_map]
    congr 1
    split_ifs with hother
    · subst hother
      -- The event that is taken is the first of the pending ones.
      have hfirst : position = 0 := by
        rcases htakes with hdiscipline | hzero
        · simpa [mayTake, hdiscipline] using hmay
        · exact hzero position (by simp)
      subst hfirst
      cases hpending : config.pending other with
      | nil => simp [hpending] at hentry
      | cons first rest =>
          have hsame : first = entry := by simpa [hpending] using hentry
          simp [received, hpending, hsame]
    · rfl
  · intro sender other
    cases sender with
    | none => simp [sent, posted, more]
    | some sender =>
        simp only [sent, published, hhandled, more, Option.some.injEq]
        split_ifs with hsender
        · subst hsender
          rw [Machine.outputs_concat, Machine.emitted, ← h.state, List.flatMap_append]
          simp [copiesFor, publishedBy]
        · simp

/-- What has come to a receiver was sent. -/
theorem mem_sent (h : network.Accounted moves config) {receiver : ι} {entry : Option ι × ε}
    (hentry : entry ∈ received config receiver) :
    entry.2 ∈ network.sent moves config entry.1 receiver := by
  rw [← (h.all entry.1 receiver).mem_iff, ofSender, List.mem_map]
  exact ⟨entry, List.mem_filter.mpr ⟨hentry, by simp⟩, rfl⟩

/-- What a receiver reads of one sender, if it reads nothing of the others: it has handled the
first part, and the rest is pending. -/
theorem filterMap_handled (h : network.Accounted moves config) {β : Type*}
    (read : ε → Option β) (sender : Option ι) (receiver : ι)
    (htakes : network.TakesInOrder receiver moves)
    (honly : ∀ entry ∈ received config receiver, (read entry.2).isSome → entry.1 = sender) :
    (handled config receiver).filterMap read ++
        ((config.pending receiver).map Prod.snd).filterMap read =
      (network.sent moves config sender receiver).filterMap read := by
  rw [← h.inOrder receiver htakes sender, filterMap_ofSender read honly, received,
    List.map_append, List.filterMap_append, handled]

/-- The same in any order. -/
theorem filterMap_handled_perm (h : network.Accounted moves config) {β : Type*}
    (read : ε → Option β) (sender : Option ι) (receiver : ι)
    (honly : ∀ entry ∈ received config receiver, (read entry.2).isSome → entry.1 = sender) :
    ((handled config receiver).filterMap read ++
        ((config.pending receiver).map Prod.snd).filterMap read).Perm
      ((network.sent moves config sender receiver).filterMap read) := by
  refine .trans (.of_eq ?_) ((h.all sender receiver).filterMap read)
  rw [filterMap_ofSender read honly, received, List.map_append, List.filterMap_append, handled]

end Accounted

/-- The account of every run. -/
theorem accounted_run (moves : List (Move ι ε)) :
    network.Accounted moves (network.machine.run moves) := by
  induction moves using List.reverseRecOn with
  | nil => exact .init
  | append_singleton moves last ih =>
      rw [Machine.run_concat]
      have hidle : ∀ receiver position,
          network.Accounted (moves ++ [.take receiver position]) (network.machine.run moves) := by
        intro receiver position
        apply ih.grow fun _ _ => []
        · exact ih.state
        · simp
        · simp
        · intro sender other
          cases sender <;> simp [sent, posted]
      cases last with
      | post receiver event => exact ih.post receiver event
      | take receiver position =>
          change network.Accounted (moves ++ [.take receiver position])
            (network.move (network.machine.run moves) (.take receiver position))
          rw [move]
          split_ifs with hmay
          · split
            · rename_i entry hentry
              exact ih.handle hmay hentry
            · exact hidle receiver position
          · exact hidle receiver position

end Network

end CryptoBot.Math
