/-
Module: ZidaBot.Proofs.Replica
Purpose: What the brain makes of a stream of published events.  `absorb` is the effect of one event on the
  controller of its venue book; a stream of acceptable events leaves the book of its key with the fold of
  `absorb`, whatever other feeds send in between.  A replica agrees with the publisher's controller once it
  has absorbed a baseline, and goes on agreeing with every increment the publisher accepts, although it
  tolerates gaps and never bridges.
Trusted boundary: none
Main exports: OrderBook.Acceptable, loadSnapshot_of_valid, absorb, Follows, Mirrors, Tracks, Carries,
  venueBook_controller
-/
import ZidaBot.Feed.Venue
import ZidaBot.Proofs.SnapshotLoad
import ZidaBot.Proofs.UnifiedBook
import ZidaBot.Proofs.Wire

namespace ZidaBot

open OrderBookController

/-!
### Books that survive the wire

`parse_level` refuses a resting level without a positive price. A book made of acceptable levels has none,
whatever was applied to it.
-/

namespace OrderBook

/-- Every resting level passes the checks of `parse_level`. -/
def Acceptable (book : OrderBook) : Prop := ∀ s, ∀ level ∈ book.side s, level.Acceptable

theorem acceptable_clear (book : OrderBook) : book.clear.Acceptable := by
  intro s level hlevel
  rw [side_clear] at hlevel
  exact absurd hlevel List.not_mem_nil

/-- A side of a book is replaced. -/
theorem Acceptable.setSide {book : OrderBook} (ok : book.Acceptable) (s : Side) {vec : List Level}
    (vecOk : ∀ level ∈ vec, level.Acceptable) : (book.setSide s vec).Acceptable := by
  intro s' level hlevel
  by_cases hside : s' = s
  · subst hside
    rw [side_setSide_self] at hlevel
    exact vecOk level hlevel
  · rw [side_setSide_of_ne hside] at hlevel
    exact ok s' level hlevel

/-- A placement leaves acceptable levels behind. -/
theorem acceptable_of_mem_placeIn {s : Side} {depth : Nat} {vec : List Level} {placed level : Level}
    (vecOk : ∀ l ∈ vec, l.Acceptable) (placedOk : placed.Acceptable)
    (member : level ∈ placeIn s depth vec placed) : level.Acceptable := by
  rcases of_mem_placeIn member with hold | rfl | ⟨found, -, htick, rfl⟩
  · exact vecOk level hold
  · exact placedOk
  · exact placedOk.congr htick rfl

theorem Acceptable.update {book : OrderBook} (ok : book.Acceptable) (s : Side) {level : Level}
    (levelOk : level.Acceptable) : (book.update s level).Acceptable := by
  rw [OrderBook.update]
  split
  · exact ok.setSide s fun l hl => ok s l (mem_of_mem_removeFrom hl)
  · exact ok.setSide s fun l hl => acceptable_of_mem_placeIn (ok s) levelOk hl

end OrderBook

theorem acceptable_updateAll {s : Side} {levels : List Level} {book : OrderBook} (ok : book.Acceptable)
    (levelsOk : ∀ level ∈ levels, level.Acceptable) : (updateAll s book levels).Acceptable := by
  induction levels generalizing book with
  | nil => exact ok
  | cons level levels ih =>
      apply ih (ok.update s (levelsOk level (List.mem_cons_self ..)))
      exact fun l hl => levelsOk l (List.mem_cons_of_mem level hl)

theorem acceptable_applyIncrementUpdate {book : OrderBook} (ok : book.Acceptable)
    {msg : GenericIncrementalFormat} (msgOk : AllAcceptable msg.bids msg.asks) :
    (applyIncrementUpdate book msg).Acceptable :=
  acceptable_updateAll (acceptable_updateAll ok msgOk.1) msgOk.2

theorem acceptable_loadSnapshot (book : OrderBook) {msg : GenericSnapshotFormat}
    (msgOk : AllAcceptable msg.bids msg.asks) : (loadSnapshot book msg).Acceptable := by
  have hlevels : ∀ s levels, (∀ l ∈ levels, Level.Acceptable l) →
      ∀ l ∈ snapshotLevels s levels, l.Acceptable := by
    intro s levels hok l hl
    have hfiltered := (List.perm_insertionSort _ _).mem_iff.mp hl
    exact hok l (List.mem_of_mem_filter hfiltered)
  exact acceptable_updateAll
    (acceptable_updateAll book.acceptable_clear (hlevels _ _ msgOk.1)) (hlevels _ _ msgOk.2)

/-!
### A published book comes back as it was

A side that is well formed is its own snapshot: sorting and cutting leave it as it is.
-/

open SortedSeq

/-- Levels that continue a side are appended one by one. -/
theorem updateAll_of_valid {s : Side} {levels : List Level} {book : OrderBook}
    (valid : SideValid s book.depth (book.side s ++ levels)) :
    updateAll s book levels = book.setSide s (book.side s ++ levels) := by
  have hfits : (book.side s).length ≤ book.depth := by
    have hlength := valid.length_le
    rw [List.length_append] at hlength
    omega
  have hresting : ∀ level ∈ levels, level.quantityLot ≠ 0 := fun level hlevel =>
    valid.resting level (List.mem_append_right _ hlevel)
  rw [updateAll_of_ascending valid.ascending hresting hfits, List.take_of_length_le valid.length_le]

/-- A well-formed side is a snapshot of itself. -/
theorem snapshotLevels_of_valid {s : Side} {depth : Nat} {vec : List Level}
    (valid : SideValid s depth vec) : snapshotLevels s vec = vec := by
  have hfilter : (vec.filter fun l => !l.isEmpty) = vec := by
    rw [List.filter_eq_self]
    intro level hlevel
    simpa [Level.isEmpty] using valid.resting level hlevel
  rw [snapshotLevels, hfilter]
  apply List.Pairwise.insertionSort_eq
  refine valid.ascending.imp ?_
  intro first second hlt
  rw [← Bool.not_eq_true, Side.before_iff]
  exact not_lt.mpr (le_of_lt hlt)

/-- Loading the levels of a well-formed book gives that book. -/
theorem loadSnapshot_of_valid {book other : OrderBook} (valid : book.Valid)
    (depthEq : other.depth = book.depth) {msg : GenericSnapshotFormat}
    (bids : msg.bids = book.side .bid) (asks : msg.asks = book.side .ask) :
    loadSnapshot other msg = book := by
  have hbids : updateAll .bid other.clear (book.side .bid) =
      other.clear.setSide .bid (book.side .bid) := by
    apply updateAll_of_valid
    rw [OrderBook.side_clear, OrderBook.depth_clear, depthEq]
    exact valid .bid
  have hasks : updateAll .ask (other.clear.setSide .bid (book.side .bid)) (book.side .ask) =
      (other.clear.setSide .bid (book.side .bid)).setSide .ask (book.side .ask) := by
    apply updateAll_of_valid
    rw [OrderBook.side_setSide_of_ne (by decide), OrderBook.side_clear, OrderBook.depth_setSide,
      OrderBook.depth_clear, depthEq]
    exact valid .ask
  rw [loadSnapshot, bids, asks, snapshotLevels_of_valid (valid .bid), snapshotLevels_of_valid (valid .ask),
    hbids, hasks]
  apply OrderBook.ext_side
  · exact depthEq
  · intro s
    cases s <;> rfl

/-- The pointers of a well-formed book reach every level. -/
theorem pointedLevels_eq {book : OrderBook} (valid : book.Valid) (s : Side) (i n : Nat) :
    Feed.pointedLevels book s i n = ((book.side s).drop i).take n := by
  induction n generalizing i with
  | zero => simp [Feed.pointedLevels]
  | succ n ih =>
      rw [Feed.pointedLevels, OrderBook.levelPtr]
      cases hget : (book.side s)[i]? with
      | none =>
          have hpast : (book.side s).length ≤ i := List.getElem?_eq_none_iff.mp hget
          simp [List.drop_eq_nil_of_le hpast]
      | some level =>
          have hresting := (valid s).resting level (List.mem_of_getElem? hget)
          obtain ⟨hi, hlevel⟩ := List.getElem?_eq_some_iff.mp hget
          rw [List.drop_eq_getElem_cons hi, hlevel]
          simp [Level.isEmpty, hresting, ih]

namespace Feed

open Brain

/-!
### One event at the brain

`absorb` is what later modules know of the brain. It does not look at stamps, times of arrival or checksums.
-/

/-- The snapshot the brain makes of a book state. -/
def bookStateSnapshot (book : OrderBook) (appliedSeq : UInt64) (topN : Nat) (tsBookNs : Int) :
    GenericSnapshotFormat :=
  { lastUpdateId := appliedSeq, tsRecvNs := wrap64 tsBookNs, checksum := 0
    bids := bookStateLevels book topN .bid, asks := bookStateLevels book topN .ask }

/-- The effect of an event on the controller of its venue book. -/
def absorb (replica : OrderBookController) : PubEvent → OrderBookController
  | .status feedState _ => if feedState = "disconnected" then replica.resetBook else replica
  | .snapshot snap _ => (replica.onSnapshot venueBookConfig snap .wsAuthoritative).1
  | .incremental inc _ => (replica.onIncrement venueBookConfig inc).1
  | .bookState book appliedSeq topN _ tsBookNs =>
      (replica.onSnapshot venueBookConfig (bookStateSnapshot book appliedSeq topN tsBookNs)
        .wsAuthoritative).1

/-- The levels of the event pass the checks of the brain's parsers. -/
def PubEvent.Acceptable : PubEvent → Prop
  | .status _ _ => True
  | .snapshot snap _ => AllAcceptable snap.bids snap.asks
  | .incremental inc _ => AllAcceptable inc.bids inc.asks
  | .bookState book _ topN _ _ =>
      AllAcceptable (bookStateLevels book topN .bid) (bookStateLevels book topN .ask)

instance : DecidablePred PubEvent.Acceptable
  | .status _ _ => isTrue trivial
  | .snapshot snap _ => inferInstanceAs (Decidable (AllAcceptable snap.bids snap.asks))
  | .incremental inc _ => inferInstanceAs (Decidable (AllAcceptable inc.bids inc.asks))
  | .bookState book _ topN _ _ =>
      inferInstanceAs
        (Decidable (AllAcceptable (bookStateLevels book topN .bid) (bookStateLevels book topN .ask)))

@[simp] theorem absorb_snapshot (replica : OrderBookController) (snap : GenericSnapshotFormat)
    (source : String) : absorb replica (.snapshot snap source) = replica.loaded snap .synced := by
  rw [absorb, onSnapshot_of_no_checksum rfl]
  rfl

@[simp] theorem absorb_bookState (replica : OrderBookController) (book : OrderBook) (appliedSeq : UInt64)
    (topN : Nat) (source : String) (tsBookNs : Int) :
    absorb replica (.bookState book appliedSeq topN source tsBookNs) =
      replica.loaded (bookStateSnapshot book appliedSeq topN tsBookNs) .synced := by
  rw [absorb, onSnapshot_of_no_checksum rfl]
  rfl

@[simp] theorem depth_absorb (replica : OrderBookController) (e : PubEvent) :
    (absorb replica e).book.depth = replica.book.depth := by
  cases e with
  | status feedState reason =>
      rw [absorb]
      split
      · exact OrderBook.depth_clear _
      · rfl
  | snapshot snap source => simp [loaded]
  | incremental inc source => exact depth_onIncrement venueBookConfig replica inc
  | bookState book appliedSeq topN source tsBookNs => simp [loaded]

theorem depth_foldl_absorb (replica : OrderBookController) (events : List PubEvent) :
    (events.foldl absorb replica).book.depth = replica.book.depth := by
  induction events generalizing replica with
  | nil => rfl
  | cons e events ih => exact (ih (absorb replica e)).trans (depth_absorb replica e)

/-- The time of arrival and the checksum play no part at the brain. -/
theorem onIncrement_venueBookConfig (replica : OrderBookController) (inc : GenericIncrementalFormat)
    (ts checksum : Int) :
    replica.onIncrement venueBookConfig { inc with tsRecvNs := ts, checksum := checksum } =
      replica.onIncrement venueBookConfig inc := rfl

/-- The frame of an acceptable event has the effect of the event. -/
theorem onEvent_controller {e : PubEvent} (ok : e.Acceptable) (stamp : Stamp) (now : Int)
    (vb : VenueBook) {hdr : EventHeader} (header : parseHeader (e.toJson stamp) = .ok hdr) :
    (vb.onEvent now hdr (e.toJson stamp)).1.controller = absorb vb.controller e := by
  rw [parseHeader_toJson] at header
  cases header
  cases e with
  | status feedState reason => exact VenueBook.onEvent_status rfl rfl rfl
  | snapshot snap source =>
      rw [VenueBook.onEvent_snapshot rfl (parseSnapshot_toJson ok stamp source), absorb_snapshot,
        onSnapshot_of_no_checksum rfl]
      rfl
  | incremental inc source =>
      rw [VenueBook.onEvent_incremental rfl (parseIncremental_toJson ok stamp source),
        onIncrement_venueBookConfig]
      rfl
  | bookState book appliedSeq topN source tsBookNs =>
      exact VenueBook.onEvent_bookState rfl
        (extractTsBookNs_toJson stamp book appliedSeq topN source tsBookNs)
        (parseBookState_toJson ok stamp appliedSeq source tsBookNs)

/-!
### Following the publisher

The brain's controller tolerates gaps and never bridges, so it takes every increment that the publisher has
accepted; and what the publisher has refused ends with a new baseline.
-/

/-- Two controllers hold the same book at the same sequence number. -/
structure Agree (c replica : OrderBookController) : Prop where
  book : replica.book = c.book
  lastSeq : replica.lastSeq = c.lastSeq
  expectedSeq : replica.expectedSeq = c.expectedSeq

/-- A replica that is not synced has given up until the next baseline, which a publisher without a checksum
    function never makes it do; a synced one agrees with the publisher. -/
structure Follows (cfg : ControllerConfig) (c replica : OrderBookController) : Prop where
  unbridged : replica.state ≠ .waitingBridge
  synced : cfg.checksumFn = none → replica.state = .synced
  agree : replica.state = .synced → Agree c replica

variable {cfg : ControllerConfig} {c replica : OrderBookController}

/-- Both sides have loaded the same snapshot. -/
theorem follows_loaded (depthEq : replica.book.depth = c.book.depth) (snap : GenericSnapshotFormat)
    (state : BookSyncState) : Follows cfg (c.loaded snap state) (replica.loaded snap .synced) :=
  ⟨nofun, fun _ => rfl, fun _ => ⟨loadSnapshot_congr depthEq snap, rfl, rfl⟩⟩

/-- A book state that shows the whole book of the publisher. -/
theorem follows_bookState (inv : c.Inv) (baseline : c.state ≠ .waitingSnapshot)
    (depthEq : replica.book.depth = c.book.depth) {topN : Nat}
    (complete : ∀ s, (c.book.side s).length ≤ topN) (source : String) (tsBookNs : Int) :
    Follows cfg c (absorb replica (.bookState c.book c.getAppliedSeqID topN source tsBookNs)) := by
  have hlevels : ∀ s, bookStateLevels c.book topN s = c.book.side s := by
    intro s
    rw [bookStateLevels, pointedLevels_eq inv.valid, List.drop_zero, List.take_of_length_le (complete s)]
  rw [absorb_bookState]
  refine ⟨fun h => (by cases h), fun _ => rfl, fun _ => ⟨?_, rfl, (inv.next baseline).symm⟩⟩
  exact loadSnapshot_of_valid inv.valid depthEq (hlevels .bid) (hlevels .ask)

/-- A replica that agrees with a publisher applies what the publisher applies: its own checks are the
    crossed-book test, which the publisher has passed on the same book, and the sequence number. -/
theorem onIncrement_applied (agree : Agree c replica) (synced : replica.state = .synced)
    {inc : GenericIncrementalFormat} (applies : Applies cfg c inc) (numbered : inc.lastSeq ≠ 0)
    (uncrossed : crossed (applyIncrementUpdate c.book inc) = false) :
    replica.onIncrement venueBookConfig inc = (replica.applied inc, none) := by
  have hcurrent : ¬ inc.lastSeq < replica.expectedSeq := by
    rw [agree.expectedSeq]
    exact applies.current numbered
  have hcrossed : crossed (applyIncrementUpdate replica.book inc) = false := by
    rw [agree.book]
    exact uncrossed
  simp [onIncrement, synced, numbered, hcurrent, venueBookConfig, steadyGuards, hcrossed, checksumGuards]

/-- An increment that leaves the publisher with a baseline. -/
theorem Follows.increment (follows : Follows cfg c replica) (inc : GenericIncrementalFormat)
    (baseline : (c.onIncrement cfg inc).1.state ≠ .waitingSnapshot) :
    Follows cfg (c.onIncrement cfg inc).1 (replica.onIncrement venueBookConfig inc).1 := by
  cases hreplica : replica.state with
  | waitingSnapshot =>
      -- the replica waits for a baseline and skips the increment
      rw [onIncrement_skipped (Or.inl hreplica)]
      refine ⟨follows.unbridged, follows.synced, fun hsynced => ?_⟩
      rw [hreplica] at hsynced
      cases hsynced
  | waitingBridge => exact absurd hreplica follows.unbridged
  | synced =>
      have agree := follows.agree hreplica
      have hcase := onIncrement_cases cfg c inc
      generalize c.onIncrement cfg inc = outcome at hcase baseline
      cases hcase with
      | skipped reason =>
          rcases reason with hwaiting | ⟨hseq, hold⟩
          · exact absurd hwaiting baseline
          · rw [← agree.expectedSeq] at hold
            rw [onIncrement_skipped (Or.inr ⟨hseq, hold⟩)]
            exact follows
      | resynced reason counter => exact absurd rfl baseline
      | applied counter applies uncrossed checked =>
          by_cases hseq : inc.lastSeq = 0
          · -- only the checksum lets the publisher go on; the replica has none and gives up
            have hgone : replica.onIncrement venueBookConfig inc =
                replica.needResync .incrementalMissingSeqAndChecksum := by
              simp [onIncrement, hreplica, hseq, venueBookConfig]
            rw [hgone]
            refine ⟨fun h => (by cases h), fun hnone => ?_, fun h => by cases h⟩
            have hsome := applies.guarded hseq
            rw [hnone] at hsome
            cases hsome
          · rw [onIncrement_applied agree hreplica applies hseq uncrossed]
            refine ⟨fun h => (by cases h), fun _ => rfl, fun _ => ⟨?_, ?_, ?_⟩⟩
            · exact congrArg (fun book => applyIncrementUpdate book inc) agree.book
            · simp [applied, appliedWith, hseq]
            · simp [applied, appliedWith, hseq]

/-!
### Streams of events

The publisher does not wait for the brain, so the relation has to be about what was published and not about
time. `Mirrors` says which part of the stream a replica has taken, and `Tracks` that any replica which
mirrors it follows the controller.
-/

/-- Events that replace the book. -/
def PubEvent.Baseline : PubEvent → Prop
  | .snapshot _ _ => True
  | .bookState _ _ _ _ _ => True
  | _ => False

instance : DecidablePred PubEvent.Baseline
  | .status _ _ => isFalse id
  | .snapshot _ _ => isTrue trivial
  | .incremental _ _ => isFalse id
  | .bookState _ _ _ _ _ => isTrue trivial

/-- Events that accompany a change of the publisher's book. -/
def PubEvent.ChangesBook : PubEvent → Prop
  | .snapshot _ _ => True
  | .incremental _ _ => True
  | _ => False

instance : DecidablePred PubEvent.ChangesBook
  | .status _ _ => isFalse id
  | .snapshot _ _ => isTrue trivial
  | .incremental _ _ => isTrue trivial
  | .bookState _ _ _ _ _ => isFalse id

/-- A book state shows every level of the book; the other events always say all. -/
def PubEvent.Complete : PubEvent → Prop
  | .bookState book _ topN _ _ => ∀ s, (book.side s).length ≤ topN
  | _ => True

instance : DecidablePred PubEvent.Complete
  | .status _ _ => isTrue trivial
  | .snapshot _ _ => isTrue trivial
  | .incremental _ _ => isTrue trivial
  | .bookState book _ topN _ _ =>
      decidable_of_iff ((book.side .bid).length ≤ topN ∧ (book.side .ask).length ≤ topN)
        ⟨fun ⟨bids, asks⟩ s => match s with
          | .bid => bids
          | .ask => asks,
        fun all => ⟨all .bid, all .ask⟩⟩

/-- A replica has taken up a published stream at a complete baseline and has missed nothing since that
    goes with a change of the book. -/
inductive Mirrors (depth : Nat) : List PubEvent → OrderBookController → Prop where
  | baseline {events : List PubEvent} {e : PubEvent} {replica : OrderBookController}
      (base : e.Baseline) (complete : e.Complete) (depthEq : replica.book.depth = depth) :
      Mirrors depth (events ++ [e]) (absorb replica e)
  | received {events : List PubEvent} {e : PubEvent} {replica : OrderBookController}
      (mirrors : Mirrors depth events replica) (complete : e.Complete) :
      Mirrors depth (events ++ [e]) (absorb replica e)
  | missed {events : List PubEvent} {e : PubEvent} {replica : OrderBookController}
      (mirrors : Mirrors depth events replica) (still : ¬ e.ChangesBook) :
      Mirrors depth (events ++ [e]) replica

variable {depth : Nat} {events : List PubEvent} {e : PubEvent}

theorem Mirrors.depth_eq (mirrors : Mirrors depth events replica) : replica.book.depth = depth := by
  induction mirrors with
  | baseline base complete depthEq => exact (depth_absorb _ _).trans depthEq
  | received mirrors complete ih => exact (depth_absorb _ _).trans ih
  | missed mirrors still ih => exact ih

/-- How the last event of a stream was taken. -/
theorem Mirrors.last (mirrors : Mirrors depth (events ++ [e]) replica) :
    (∃ before, before.book.depth = depth ∧ e.Complete ∧ replica = absorb before e ∧
        (e.Baseline ∨ Mirrors depth events before)) ∨
      (Mirrors depth events replica ∧ ¬ e.ChangesBook) := by
  generalize hstream : events ++ [e] = stream at mirrors
  cases mirrors with
  | baseline base complete depthEq =>
      obtain ⟨rfl, hlast⟩ := List.append_inj' hstream rfl
      cases hlast
      exact Or.inl ⟨_, depthEq, complete, rfl, Or.inl base⟩
  | received mirrors complete =>
      obtain ⟨rfl, hlast⟩ := List.append_inj' hstream rfl
      cases hlast
      exact Or.inl ⟨_, mirrors.depth_eq, complete, rfl, Or.inr mirrors⟩
  | missed mirrors still =>
      obtain ⟨rfl, hlast⟩ := List.append_inj' hstream rfl
      cases hlast
      exact Or.inr ⟨mirrors, still⟩

/-- A whole stream after its first complete baseline. -/
theorem Mirrors.append (mirrors : Mirrors depth events replica) {more : List PubEvent}
    (complete : ∀ e ∈ more, e.Complete) : Mirrors depth (events ++ more) (more.foldl absorb replica) := by
  induction more generalizing events replica with
  | nil =>
      rw [List.append_nil]
      exact mirrors
  | cons e more ih =>
      rw [List.append_cons]
      apply ih (mirrors.received (complete e (List.mem_cons_self ..)))
      exact fun e' he' => complete e' (List.mem_cons_of_mem e he')

/-- A lossless stream that holds a baseline. -/
theorem mirrors_foldl (depthEq : replica.book.depth = depth) (complete : ∀ e ∈ events, e.Complete)
    (base : ∃ e ∈ events, e.Baseline) : Mirrors depth events (events.foldl absorb replica) := by
  obtain ⟨e, he, hbase⟩ := base
  obtain ⟨before, after, rfl⟩ := List.append_of_mem he
  have hfirst : Mirrors depth (before ++ [e]) (absorb (before.foldl absorb replica) e) :=
    .baseline hbase (complete e he) ((depth_foldl_absorb replica before).trans depthEq)
  rw [List.foldl_append, List.foldl_cons, List.append_cons]
  apply hfirst.append
  exact fun e' he' => complete e' (List.mem_append_right before (List.mem_cons_of_mem e he'))

/-- With a baseline, the publisher is followed by every replica that mirrors what was published. -/
def Tracks (cfg : ControllerConfig) (depth : Nat) (c : OrderBookController) (published : List PubEvent) :
    Prop :=
  c.state ≠ .waitingSnapshot → ∀ replica, Mirrors depth published replica → Follows cfg c replica

namespace Tracks

theorem reset (c : OrderBookController) (published : List PubEvent) :
    Tracks cfg depth c.resetBook published :=
  fun baseline => absurd rfl baseline

/-- A status that does not say `disconnected`. -/
theorem status (tracks : Tracks cfg depth c events) {feedState : String}
    (up : feedState ≠ "disconnected") (reason : String) :
    Tracks cfg depth c (events ++ [.status feedState reason]) := by
  intro baseline replica mirrors
  rcases mirrors.last with ⟨before, -, -, rfl, hbase | hbefore⟩ | ⟨hmirrors, -⟩
  · exact absurd hbase id
  · rw [absorb, if_neg up]
    exact tracks baseline before hbefore
  · exact tracks baseline replica hmirrors

/-- A snapshot is published, then loaded or refused. -/
theorem snapshot (depthEq : c.book.depth = depth) (snap : GenericSnapshotFormat) (kind : BaselineKind)
    (source : String) :
    Tracks cfg depth (c.onSnapshot cfg snap kind).1 (events ++ [.snapshot snap source]) := by
  intro baseline replica mirrors
  rcases onSnapshot_cases cfg c snap kind with ⟨hrefused, -⟩ | hloaded
  · rw [hrefused] at baseline
    exact absurd rfl baseline
  · rw [hloaded]
    rcases mirrors.last with ⟨before, hdepth, -, rfl, -⟩ | ⟨-, hstill⟩
    · rw [absorb_snapshot]
      exact follows_loaded (hdepth.trans depthEq.symm) snap _
    · exact absurd trivial hstill

/-- An increment is handed to the controller, then published whatever became of it. -/
theorem increment (tracks : Tracks cfg depth c events) (inc : GenericIncrementalFormat)
    (source : String) :
    Tracks cfg depth (c.onIncrement cfg inc).1 (events ++ [.incremental inc source]) := by
  intro baseline replica mirrors
  have hbefore : c.state ≠ .waitingSnapshot := by
    intro hwaiting
    rw [onIncrement_skipped (Or.inl hwaiting)] at baseline
    exact baseline hwaiting
  rcases mirrors.last with ⟨before, -, -, rfl, hbase | hmirrors⟩ | ⟨-, hstill⟩
  · exact absurd hbase id
  · exact (tracks hbefore before hmirrors).increment inc baseline
  · exact absurd trivial hstill

/-- The book of the controller is published. -/
theorem bookState (tracks : Tracks cfg depth c events) (inv : c.Inv) (depthEq : c.book.depth = depth)
    (topN : Nat) (source : String) (tsBookNs : Int) :
    Tracks cfg depth c (events ++ [.bookState c.book c.getAppliedSeqID topN source tsBookNs]) := by
  intro baseline replica mirrors
  rcases mirrors.last with ⟨before, hdepth, hcomplete, rfl, -⟩ | ⟨hmirrors, -⟩
  · exact follows_bookState inv baseline (hdepth.trans depthEq.symm) hcomplete source tsBookNs
  · exact tracks baseline replica hmirrors

end Tracks

/-!
### The venue book of a feed

Frames of other feeds come in between. They leave the book of the key alone, so it is the fold of its own
stream.
-/

/-- The input of the brain carries the stream of a feed: the frames of the feed in order, and in between
    whatever is not routed to the book of the feed. -/
inductive Carries (venue : VenueId) (symbol : String) : List PubEvent → List (Int × Json) → Prop where
  | nil : Carries venue symbol [] []
  | own {published : List PubEvent} {input : List (Int × Json)} (e : PubEvent) (now : Int) (stamp : Stamp)
      (sameVenue : stamp.venue = venue.name) (sameSymbol : stamp.symbol = symbol)
      (rest : Carries venue symbol published input) :
      Carries venue symbol (e :: published) ((now, e.toJson stamp) :: input)
  | other {published : List PubEvent} {input : List (Int × Json)} (event : Int × Json)
      (foreign : ∀ hdr, UnifiedBook.Routed event.2 hdr → UnifiedBook.headerKey hdr ≠ (venue.name, symbol))
      (rest : Carries venue symbol published input) :
      Carries venue symbol published (event :: input)

/-- A frame of a feed is routed to the book of the feed. -/
theorem routed_toJson {venue : VenueId} {symbol : String} (e : PubEvent) {stamp : Stamp}
    (sameVenue : stamp.venue = venue.name) (sameSymbol : stamp.symbol = symbol) :
    ∃ hdr, UnifiedBook.Routed (e.toJson stamp) hdr ∧ UnifiedBook.headerKey hdr = (venue.name, symbol) := by
  refine ⟨_, ⟨parseHeader_toJson stamp e, ?_, e.eventType_ne_empty⟩, Prod.ext sameVenue sameSymbol⟩
  rw [sameVenue]
  exact venue.name_ne_empty

variable {venue : VenueId} {symbol : String} {published : List PubEvent} {input : List (Int × Json)}

/-- The frames of one feed alone, all with one stamp. -/
theorem carries_frames (venue : VenueId) (symbol : String) (published : List PubEvent) (persistSeq : Nat)
    (nowNs now : Int) :
    Carries venue symbol published
      (published.map fun e => (now, e.toJson ⟨venue.name, symbol, persistSeq, nowNs⟩)) := by
  induction published with
  | nil => exact .nil
  | cons e published ih => exact .own e now _ rfl rfl ih

/-- The controller of the feed's book has absorbed the stream. -/
theorem Carries.controller (carries : Carries venue symbol published input)
    (acceptable : ∀ e ∈ published, e.Acceptable) (ub : UnifiedBook) :
    ((Runs.run UnifiedBook.step ub input).bookAt (venue.name, symbol)).controller =
      published.foldl absorb (ub.bookAt (venue.name, symbol)).controller := by
  induction carries generalizing ub with
  | nil => rfl
  | own e now stamp sameVenue sameSymbol rest ih =>
      obtain ⟨hdr, routed, hkey⟩ := routed_toJson e sameVenue sameSymbol
      have hself : (ub.step (now, e.toJson stamp)).bookAt (venue.name, symbol) =
          ((ub.bookAt (venue.name, symbol)).onEvent now hdr (e.toJson stamp)).1 :=
        hkey ▸ UnifiedBook.bookAt_onEvent_self routed
      rw [Runs.run_cons, ih (fun e' he' => acceptable e' (List.mem_cons_of_mem e he')), hself,
        onEvent_controller (acceptable e (List.mem_cons_self ..)) stamp now _ routed.header]
      rfl
  | other event foreign rest ih =>
      have hother : (ub.step event).bookAt (venue.name, symbol) = ub.bookAt (venue.name, symbol) :=
        UnifiedBook.bookAt_onEvent_other foreign
      rw [Runs.run_cons, ih acceptable, hother]

/-- Once something was published, the feed has a book. -/
theorem Carries.mem_keys (carries : Carries venue symbol published input) (ub : UnifiedBook)
    (begun : published ≠ [] ∨ (venue.name, symbol) ∈ ub.keys) :
    (venue.name, symbol) ∈ (Runs.run UnifiedBook.step ub input).keys := by
  induction carries generalizing ub with
  | nil => exact begun.resolve_left fun hne => hne rfl
  | own e now stamp sameVenue sameSymbol rest ih =>
      obtain ⟨hdr, routed, hkey⟩ := routed_toJson e sameVenue sameSymbol
      apply ih
      exact Or.inr (hkey ▸ UnifiedBook.mem_keys_onEvent routed)
  | other event foreign rest ih =>
      apply ih
      exact begun.imp_right fun hmem => UnifiedBook.keys_subset_onEvent ub event.1 event.2 hmem

/-- Every book of the feed's key, after any input that carries the stream of the feed. -/
theorem venueBook_controller (carries : Carries venue symbol published input)
    (acceptable : ∀ e ∈ published, e.Acceptable) {depth : Nat} (depth_pos : 0 < depth) {vb : VenueBook}
    (member : vb ∈ (Runs.run UnifiedBook.step (UnifiedBook.new depth depth_pos) input).venues)
    (key : vb.key = (venue.name, symbol)) :
    vb.controller = published.foldl absorb (OrderBookController.new depth depth_pos) := by
  have hkeys : UnifiedBook.KeysFrom (fun _ => True)
      (Runs.run UnifiedBook.step (UnifiedBook.new depth depth_pos) input) :=
    UnifiedBook.keysFrom_run depth depth_pos fun _ _ _ _ => trivial
  rw [UnifiedBook.eq_bookAt hkeys.nodup member, key, carries.controller acceptable]
  rfl

end Feed

end ZidaBot
