/-
# The order book service

The older way from a feed to a book: `AddToQueue` of a snapshot or a diff turns its
levels into updates of a queue, and the thread of `OrderBookService` takes up to 50 of
them at a time and hands them to a `MarketOrderBook`.  A snapshot puts each of its sides
on the queue at once and tries until the queue takes it.  A diff puts its levels on the
queue one by one, and a level that the queue refuses is lost with a log line.

The newer way hands the messages to a `MarketOrderBook2` as they are.  For one snapshot
and the diffs after it the two books list the same levels, once the service has caught up
and nothing was refused.  A second snapshot is another matter: `AddToQueue` sends no CLEAR
before it.
-/

import CryptoBot.Math.BulkQueue
import CryptoBot.Book.SharedRepresentation

namespace CryptoBot.Book

open CryptoBot.Common CryptoBot.MarketData CryptoBot.Math

/-- What is left to do of the calls of `AddToQueue`. -/
inductive Instruction
  /-- The loop around `try_enqueue_bulk`. -/
  | tryEnqueueBulk (bulk : List MEMarketUpdate)
  | tryEnqueue (event : MEMarketUpdate)
  deriving DecidableEq, Repr

inductive FeedMessage
  | snapshot (snapshot : BookSnapshot)
  | diff (diff : BookDiffSnapshot)
  deriving DecidableEq, Repr

/-- The update of a level. -/
def levelUpdate (side : Side) (level : BookSnapshotElem) : MEMarketUpdate :=
  { side, price := level.price, qty := level.qty }

namespace FeedMessage

def addToQueue : FeedMessage → List Instruction
  | .snapshot book =>
      [.tryEnqueueBulk (book.bids.map (levelUpdate .kBid)),
        .tryEnqueueBulk (book.asks.map (levelUpdate .kAsk))]
  | .diff book =>
      book.bids.map (fun bid => .tryEnqueue (levelUpdate .kBid bid)) ++
        book.asks.map fun ask => .tryEnqueue (levelUpdate .kAsk ask)

/-- The updates of a message. -/
def updates : FeedMessage → List MEMarketUpdate
  | .snapshot book =>
      book.bids.map (levelUpdate .kBid) ++ book.asks.map (levelUpdate .kAsk)
  | .diff book => book.bids.map (levelUpdate .kBid) ++ book.asks.map (levelUpdate .kAsk)

/-- The message as `MarketOrderBook2` gets it. -/
def message : FeedMessage → BookMessage
  | .snapshot book => .snapshot (some
      { exchangeId := book.exchangeId
        tradingPair := book.tradingPair
        bids := book.bids
        asks := book.asks
        lastUpdateId := book.lastUpdateId })
  | .diff book => .diff (some
      { exchangeId := book.exchangeId
        tradingPair := book.tradingPair
        bids := book.bids
        asks := book.asks
        firstId := book.firstId
        lastId := book.lastId
        prevId := book.prevId })

end FeedMessage

def Instruction.updates : Instruction → List MEMarketUpdate
  | .tryEnqueueBulk bulk => bulk
  | .tryEnqueue event => [event]

theorem FeedMessage.updates_addToQueue (message : FeedMessage) :
    message.addToQueue.flatMap Instruction.updates = message.updates := by
  cases message with
  | snapshot book => simp [addToQueue, updates, Instruction.updates]
  | diff book =>
      simp [addToQueue, updates, Instruction.updates, List.flatMap_map, ← List.map_eq_flatMap]

/-- The feed's thread, the queue, and the thread of the service with its book. -/
structure OrderBookService (containers : Containers) where
  feed : List Instruction := []
  queue : List MEMarketUpdate := []
  /-- What is left of the updates `Run` dequeued. -/
  batch : List MEMarketUpdate := []
  book : MarketOrderBook containers := .new containers

namespace OrderBookService

inductive Event
  /-- The feed calls `AddToQueue`. -/
  | addToQueue (message : FeedMessage)
  /-- A step of the feed's thread, with the answer of the queue. -/
  | feed (status : Bool)
  /-- A step of `Run`; a dequeue returns at most the number. -/
  | run (count : ℕ)
  deriving DecidableEq, Repr

inductive Output
  | added (update : MEMarketUpdate)
  | accepted (update : MEMarketUpdate)
  | refused (update : MEMarketUpdate)
  | processed (update : MEMarketUpdate)
  deriving DecidableEq, Repr

variable {containers : Containers} (service : OrderBookService containers)

def feedStep (status : Bool) : OrderBookService containers × List Output :=
  match service.feed with
  | [] => (service, [])
  | .tryEnqueueBulk bulk :: rest =>
      if status then
        ({ service with feed := rest, queue := service.queue ++ bulk }, bulk.map .accepted)
      else (service, [])
  | .tryEnqueue event :: rest =>
      if status then
        ({ service with feed := rest, queue := service.queue ++ [event] }, [.accepted event])
      else ({ service with feed := rest }, [.refused event])

def runStep (count : ℕ) : OrderBookService containers × List Output :=
  match service.batch with
  | update :: rest =>
      ({ service with batch := rest, book := service.book.onMarketUpdate update },
        [.processed update])
  | [] =>
      let (batch, queue) := tryDequeueBulk service.queue count
      ({ service with queue, batch }, [])

def step : Event → OrderBookService containers × List Output
  | .addToQueue message =>
      ({ service with feed := service.feed ++ message.addToQueue },
        message.updates.map .added)
  | .feed status => service.feedStep status
  | .run count => service.runStep count

variable (containers) in
def machine : Machine (OrderBookService containers) Event Output := ⟨{}, step⟩

/-! ## The queue -/

def Event.message : Event → Option FeedMessage
  | .addToQueue message => some message
  | .feed _ | .run _ => none

namespace Output

def addedUpdate : Output → Option MEMarketUpdate
  | .added update => some update
  | _ => none

def acceptedUpdate : Output → Option MEMarketUpdate
  | .accepted update => some update
  | _ => none

/-- An update that the queue answered, taken or not. -/
def answeredUpdate : Output → Option MEMarketUpdate
  | .accepted update | .refused update => some update
  | _ => none

def processedUpdate : Output → Option MEMarketUpdate
  | .processed update => some update
  | _ => none

def isRefused : Output → Bool
  | .refused _ => true
  | _ => false

end Output

/-- The updates on the queue and in the batch. -/
def pending : List MEMarketUpdate := service.batch ++ service.queue

/-- The updates the feed has not put on the queue yet. -/
def ahead : List MEMarketUpdate := service.feed.flatMap Instruction.updates

theorem step_pending (event : Event) :
    (service.step event).2.filterMap Output.processedUpdate ++ (service.step event).1.pending =
      service.pending ++ (service.step event).2.filterMap Output.acceptedUpdate := by
  cases event with
  | addToQueue message =>
      simp [step, pending, List.filterMap_map, Function.comp_def, Output.processedUpdate,
        Output.acceptedUpdate]
  | feed status =>
      rcases hfeed : service.feed with _ | ⟨_ | _, rest⟩ <;> cases status <;>
        simp [step, feedStep, hfeed, pending, List.filterMap_map, Function.comp_def,
          List.filterMap_cons, Output.processedUpdate, Output.acceptedUpdate]
  | run count =>
      cases hbatch : service.batch with
      | nil => simp [step, runStep, hbatch, pending]
      | cons update rest =>
          simp [step, runStep, hbatch, pending, List.filterMap_cons, Output.processedUpdate,
            Output.acceptedUpdate]

theorem step_ahead (event : Event) :
    (service.step event).2.filterMap Output.answeredUpdate ++ (service.step event).1.ahead =
      service.ahead ++ (service.step event).2.filterMap Output.addedUpdate := by
  cases event with
  | addToQueue message =>
      simp [step, ahead, message.updates_addToQueue, List.filterMap_map, Function.comp_def,
        Output.answeredUpdate, Output.addedUpdate]
  | feed status =>
      rcases hfeed : service.feed with _ | ⟨_ | _, rest⟩ <;> cases status <;>
        simp [step, feedStep, hfeed, ahead, Instruction.updates, List.filterMap_map,
          Function.comp_def, List.filterMap_cons, Output.answeredUpdate, Output.addedUpdate]
  | run count =>
      cases hbatch : service.batch <;>
        simp [step, runStep, hbatch, ahead, List.filterMap_cons, Output.answeredUpdate,
          Output.addedUpdate]

theorem step_book (event : Event) :
    (service.step event).1.book = (MarketOrderBook.machine containers).runFrom service.book
      ((service.step event).2.filterMap Output.processedUpdate) := by
  cases event with
  | addToQueue message =>
      simp [step, List.filterMap_map, Function.comp_def, Output.processedUpdate, Machine.runFrom]
  | feed status =>
      rcases hfeed : service.feed with _ | ⟨_ | _, rest⟩ <;> cases status <;>
        simp [step, feedStep, hfeed, List.filterMap_map, Function.comp_def, List.filterMap_cons,
          Output.processedUpdate, Machine.runFrom]
  | run count =>
      cases hbatch : service.batch <;>
        simp [step, runStep, hbatch, Output.processedUpdate, Machine.runFrom,
          MarketOrderBook.machine]

/-- The book has processed the updates that the run shows as processed. -/
theorem book_run (containers : Containers) (schedule : List Event) :
    ((machine containers).run schedule).book =
      (MarketOrderBook.machine containers).run
        (((machine containers).outputs schedule).filterMap Output.processedUpdate) := by
  induction schedule using List.reverseRecOn with
  | nil => rfl
  | append_singleton schedule event ih =>
      have happend := (MarketOrderBook.machine containers).runFrom_append
        (MarketOrderBook.machine containers).init
        (((machine containers).outputs schedule).filterMap Output.processedUpdate)
        (((machine containers).emitted schedule event).filterMap Output.processedUpdate)
      rw [Machine.run_concat, Machine.outputs_concat, List.filterMap_append]
      refine (step_book _ event).trans ?_
      rw [ih]
      exact happend.symm

/-- Where nothing was refused, what the queue answered is what it took. -/
theorem answered_of_accepted {outputs : List Output}
    (h : ∀ output ∈ outputs, output.isRefused = false) :
    outputs.filterMap Output.answeredUpdate = outputs.filterMap Output.acceptedUpdate := by
  apply List.filterMap_congr
  intro output hmem
  cases output with
  | refused update => exact absurd (h _ hmem) (by simp [Output.isRefused])
  | added | accepted | processed => rfl

/-- The updates a run adds are those of its messages. -/
theorem added_outputs (containers : Containers) (schedule : List Event) :
    ((machine containers).outputs schedule).filterMap Output.addedUpdate =
      (schedule.filterMap Event.message).flatMap FeedMessage.updates := by
  induction schedule using List.reverseRecOn with
  | nil => rfl
  | append_singleton schedule event ih =>
      rw [Machine.outputs_concat, List.filterMap_append, ih, List.filterMap_append,
        List.flatMap_append, Machine.emitted]
      generalize (machine containers).run schedule = service
      congr 1
      cases event with
      | addToQueue message =>
          simp [machine, step, Event.message, List.filterMap_map, Function.comp_def,
            Output.addedUpdate]
      | feed status =>
          rcases hfeed : service.feed with _ | ⟨_ | _, rest⟩ <;> cases status <;>
            simp [machine, step, feedStep, hfeed, Event.message, List.filterMap_map,
              Function.comp_def, List.filterMap_cons, Output.addedUpdate]
      | run count =>
          cases hbatch : service.batch <;>
            simp [machine, step, runStep, hbatch, Event.message, List.filterMap_cons,
              Output.addedUpdate]

/-- A service that has caught up, with nothing refused, has processed all updates. -/
theorem processed_of_idle {schedule : List Event}
    (haccepted : ∀ output ∈ (machine containers).outputs schedule, output.isRefused = false)
    (hfeed : ((machine containers).run schedule).feed = [])
    (hpending : ((machine containers).run schedule).pending = []) :
    ((machine containers).outputs schedule).filterMap Output.processedUpdate =
      (schedule.filterMap Event.message).flatMap FeedMessage.updates := by
  have hqueue := (machine containers).taken_append_pending Output.processedUpdate
    Output.acceptedUpdate pending rfl (fun service event => service.step_pending event) schedule
  have hahead := (machine containers).taken_append_pending Output.answeredUpdate
    Output.addedUpdate ahead rfl (fun service event => service.step_ahead event) schedule
  rw [hpending, List.append_nil] at hqueue
  rw [ahead, hfeed, List.flatMap_nil, List.append_nil] at hahead
  rw [hqueue, ← answered_of_accepted haccepted, hahead, added_outputs]

end OrderBookService

/-! ## The levels -/

namespace Levels

theorem foldl_levelUpdate_bid (levels : Levels) (bids : List BookSnapshotElem) :
    (bids.map (levelUpdate .kBid)).foldl onUpdate levels =
      ⟨writes levels.bids (bids.map BookSnapshotElem.entry), levels.asks⟩ := by
  induction bids generalizing levels with
  | nil => rfl
  | cons bid rest ih =>
      rw [List.map_cons, List.foldl_cons, onUpdate_bid _ rfl rfl, ih, List.map_cons, writes_cons]
      rfl

theorem foldl_levelUpdate_ask (levels : Levels) (asks : List BookSnapshotElem) :
    (asks.map (levelUpdate .kAsk)).foldl onUpdate levels =
      ⟨levels.bids, writes levels.asks (asks.map BookSnapshotElem.entry)⟩ := by
  induction asks generalizing levels with
  | nil => rfl
  | cons ask rest ih =>
      rw [List.map_cons, List.foldl_cons, onUpdate_ask _ rfl rfl, ih, List.map_cons, writes_cons]
      rfl

/-- The updates of a diff write its levels, as the diff does. -/
theorem foldl_updates_diff (levels : Levels) (diff : BookDiffSnapshot) :
    (FeedMessage.diff diff).updates.foldl onUpdate levels =
      levels.apply (FeedMessage.diff diff).message.batch := by
  rw [FeedMessage.updates, List.foldl_append, foldl_levelUpdate_bid, foldl_levelUpdate_ask]
  rfl

/-- On an empty book the updates of a snapshot do what the snapshot does. -/
theorem foldl_updates_first (first : FeedMessage) :
    first.updates.foldl onUpdate empty = empty.apply first.message.batch := by
  cases first with
  | snapshot book =>
      rw [FeedMessage.updates, List.foldl_append, foldl_levelUpdate_bid, foldl_levelUpdate_ask]
      rfl
  | diff book => exact foldl_updates_diff empty book

theorem foldl_updates_diffs (levels : Levels) (diffs : List BookDiffSnapshot) :
    ((diffs.map FeedMessage.diff).flatMap FeedMessage.updates).foldl onUpdate levels =
      levels.foldFrom ((diffs.map FeedMessage.diff).map FeedMessage.message) := by
  induction diffs generalizing levels with
  | nil => rfl
  | cons diff rest ih =>
      rw [List.map_cons, List.flatMap_cons, List.foldl_append, foldl_updates_diff, ih]
      rfl

theorem ofUpdates_eq_fold (first : FeedMessage) (diffs : List BookDiffSnapshot) :
    ofUpdates ((first :: diffs.map FeedMessage.diff).flatMap FeedMessage.updates) =
      fold ((first :: diffs.map FeedMessage.diff).map FeedMessage.message) := by
  rw [ofUpdates, List.flatMap_cons, List.foldl_append, foldl_updates_first, foldl_updates_diffs]
  rfl

end Levels

theorem FeedMessage.wellSided (message : FeedMessage) : message.message.WellSided := by
  cases message <;> trivial

theorem FeedMessage.isLevel_of_mem {message : FeedMessage} {update : MEMarketUpdate}
    (h : update ∈ message.updates) : IsLevel update := by
  cases message <;>
    (rcases List.mem_append.mp h with hbid | hask
     · obtain ⟨level, -, rfl⟩ := List.mem_map.mp hbid
       exact ⟨rfl, .inl rfl⟩
     · obtain ⟨level, -, rfl⟩ := List.mem_map.mp hask
       exact ⟨rfl, .inr rfl⟩)

/-- The service and `MarketOrderBook2` agree on one message and the diffs after it.  In
every interleaving of the feed and the service in which nothing is refused, once the
service has caught up its book lists the same bids and the same asks as a
`MarketOrderBook2` that got the messages as they are.  The older book keeps both sides in
one map and has a bounded pool, so the conditions on it are that no update names a price
of the other side and that the pool lasts. -/
theorem service_agrees (containers : Containers) (schedule : List OrderBookService.Event)
    (first : FeedMessage) (diffs : List BookDiffSnapshot)
    (hmessages : schedule.filterMap OrderBookService.Event.message =
      first :: diffs.map FeedMessage.diff)
    (haccepted : ∀ output ∈ (OrderBookService.machine containers).outputs schedule,
      output.isRefused = false)
    (hfeed : ((OrderBookService.machine containers).run schedule).feed = [])
    (hpending : ((OrderBookService.machine containers).run schedule).pending = [])
    (hlasts : MarketOrderBook.PoolLasts containers
      ((first :: diffs.map FeedMessage.diff).flatMap FeedMessage.updates))
    (hseparated : MarketOrderBook.Separated
      ((first :: diffs.map FeedMessage.diff).flatMap FeedMessage.updates)) :
    let older := ((OrderBookService.machine containers).run schedule).book
    let newer := (MarketOrderBook2.machine containers).run
      ((first :: diffs.map FeedMessage.diff).map FeedMessage.message)
    older.levelsOf older.bidNodes = newer.bids.levels ∧
      older.levelsOf older.askNodes = newer.asks.levels := by
  intro older newer
  have holder : older.Holds (Levels.fold
      ((first :: diffs.map FeedMessage.diff).map FeedMessage.message)) := by
    have hprocessed := OrderBookService.processed_of_idle haccepted hfeed hpending
    rw [hmessages] at hprocessed
    rw [← Levels.ofUpdates_eq_fold]
    have hbook := OrderBookService.book_run containers schedule
    rw [hprocessed] at hbook
    simp only [older, hbook]
    apply MarketOrderBook.holds_run _ hlasts hseparated
    intro update hmem
    obtain ⟨message, -, hupdate⟩ := List.mem_flatMap.mp hmem
    exact FeedMessage.isLevel_of_mem hupdate
  have hnewer := representation containers
    ((first :: diffs.map FeedMessage.diff).map FeedMessage.message) (by
      intro message hmem
      obtain ⟨original, -, rfl⟩ := List.mem_map.mp hmem
      exact original.wellSided)
  constructor
  · have hbids := hnewer.1
    rw [← (Shares.owned holder).get_ladder] at hbids
    exact hbids.levels_eq.symm
  · have hasks := hnewer.2
    rw [← (Shares.opposed holder).get_ladder] at hasks
    exact hasks.levels_eq.symm

def firstSnapshot : FeedMessage :=
  .snapshot { bids := [⟨100, 5⟩, ⟨99, 7⟩], asks := [⟨101, 4⟩] }

/-- A level that moves from the bids to the asks. -/
def movingDiff : BookDiffSnapshot := { bids := [⟨100, 0⟩], asks := [⟨100, 2⟩] }

/-- The service starts on the bids while the queue refuses the asks of the snapshot. -/
def caughtUp : List OrderBookService.Event :=
  [.addToQueue firstSnapshot, .feed true, .run 1, .feed false, .run 0, .feed true,
    .addToQueue (.diff movingDiff), .run 50, .feed true, .run 0, .run 0, .feed true, .run 50,
    .run 0, .run 0]

theorem service_agrees_caughtUp :
    let older := ((OrderBookService.machine .lists).run caughtUp).book
    let newer := (MarketOrderBook2.machine .lists).run
      ([firstSnapshot, .diff movingDiff].map FeedMessage.message)
    older.levelsOf older.bidNodes = newer.bids.levels ∧
      older.levelsOf older.askNodes = newer.asks.levels :=
  service_agrees .lists caughtUp firstSnapshot [movingDiff] (by decide) (by decide) (by decide)
    (by decide) (MarketOrderBook.poolLasts_of_length (by decide)) (by decide)

end CryptoBot.Book
