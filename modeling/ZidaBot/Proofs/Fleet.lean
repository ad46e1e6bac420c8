/-
Module: ZidaBot.Proofs.Fleet
Purpose: Every book of the brain against the feed that it is a replica of, in the system as it runs: a PoP for
  each instrument, each over a link that may break anywhere, into one bounded queue that drops what is oldest,
  with one thread behind it.  A frame that a session of the brain's server reads is handed to the message
  callback at once, which may have to wait for the mutex of the queue.  A full queue is one more place where
  frames are lost, and feeds do not disturb each other: a book that has taken a complete baseline and every
  change after it is the book of its PoP.
Trusted boundary: human-reviewed model
Main exports: FleetPop, Fleet, FleetEvent, Fleet.step, Framed, Processed, Fleet.Inv, fleet_books_exact
-/
import ZidaBot.Proofs.BrainLink
import ZidaBot.Proofs.ScanThread
import ZidaBot.Proofs.VenueIsolation
import ZidaBot.Feed.Venue
import Mathlib.Data.List.Forall2

namespace ZidaBot.Feed

open Brain

/-!
### The composed system

The links and the brain are those of their own modules. What is new is the queue between them, and that
messages of other clients come in between.
-/

/-- A PoP: its instrument, its handler, and whether its client certificate loads. -/
structure FleetPop where
  pop : Pop
  cfg : HandlerConfig
  certLoaded : Bool := true

/-- What its sink adds to a frame. -/
def FleetPop.stamp (p : FleetPop) (persistSeq : Nat) (nowNs : Int) : Stamp :=
  { venue := p.pop.venue.name, symbol := p.pop.symbol, persistSeq := persistSeq, nowNs := nowNs }

/-- The PoPs, and the options of the brain. -/
structure FleetSetting where
  pops : List FleetPop
  opts : BrainOptions

/-- The links, in the order of the PoPs, and the brain. -/
structure Fleet where
  links : List BrainLink
  brain : BrainProcess

/-- Steps of a PoP and its link, a frame that reaches the brain, a message of another client, and steps of the
    brain. -/
inductive FleetEvent where
  | link (i : Nat) (e : LinkEvent)
  | arrive (i : Nat) (persistSeq : Nat) (nowNs : Int)
  | other (connection : Nat) (parsed : Option Json)
  | brain (e : BrainEvent)

namespace Fleet

/-- The key of the book that a message is routed to. -/
def routedKey (parsed : Option Json) : Option (String × String) := parsed.bind UnifiedBook.eventKey

/-- A PoP or its link by itself. -/
def onLink (s : FleetSetting) (f : Fleet) (i : Nat) (e : LinkEvent) : Fleet :=
  match s.pops[i]? with
  | none => f
  | some p => if e = .arrive then f else { f with links := f.links.modify i fun link => link.step p.cfg e }

/-- The next frame of a link is read and queued. -/
def onArrive (s : FleetSetting) (f : Fleet) (i : Nat) (persistSeq : Nat) (nowNs : Int) : Fleet :=
  match s.pops[i]?, f.links[i]?.bind fun link => link.wire.head? with
  | some p, some frame =>
      if f.brain.queue.holdsMutex then f
      else
        { links := f.links.modify i fun link => link.step p.cfg .arrive
          brain := f.brain.step s.opts (.message i (some (frame.1.toJson (p.stamp persistSeq nowNs)))) }
  | _, _ => f

/-- A message from elsewhere. -/
def onOther (s : FleetSetting) (f : Fleet) (connection : Nat) (parsed : Option Json) : Fleet :=
  if ∃ p ∈ s.pops, routedKey parsed = some p.pop.key then f
  else { f with brain := f.brain.step s.opts (.message connection parsed) }

/-- The brain by itself. -/
def onBrain (s : FleetSetting) (f : Fleet) (e : BrainEvent) : Fleet :=
  match e with
  | .message _ _ => f
  | e => { f with brain := f.brain.step s.opts e }

/-- One step. -/
def step (s : FleetSetting) (f : Fleet) : FleetEvent → Fleet
  | .link i e => f.onLink s i e
  | .arrive i persistSeq nowNs => f.onArrive s i persistSeq nowNs
  | .other connection parsed => f.onOther s connection parsed
  | .brain e => f.onBrain s e

/-- All processes as they are started. -/
def start (s : FleetSetting) : Fleet :=
  { links := s.pops.map fun p => BrainLink.started p.cfg p.certLoaded, brain := BrainProcess.start s.opts }

end Fleet

/-!
### Frames in the queue

Frames of different PoPs have different keys, so the frames of one PoP can be found among all messages.
-/

/-- The message is the frame as the sink of the PoP writes it. -/
def Framed (p : FleetPop) (frame : PubEvent × Nat) (j : Json) : Prop :=
  ∃ persistSeq nowNs, j = frame.1.toJson (p.stamp persistSeq nowNs)

/-- The message is routed to the book of the key. -/
def keyed (key : String × String) (j : Json) : Bool := UnifiedBook.eventKey j == some key

theorem keyed_of_framed {p : FleetPop} {frame : PubEvent × Nat} {j : Json} (framed : Framed p frame j) :
    UnifiedBook.eventKey j = some p.pop.key := by
  obtain ⟨persistSeq, nowNs, rfl⟩ := framed
  have hframe : ∃ hdr, UnifiedBook.Routed (frame.1.toJson (p.stamp persistSeq nowNs)) hdr ∧
      UnifiedBook.headerKey hdr = (p.pop.venue.name, p.pop.symbol) := routed_toJson frame.1 rfl rfl
  obtain ⟨hdr, hrouted, hkey⟩ := hframe
  exact UnifiedBook.eventKey_eq_some_iff.mpr ⟨hdr, hrouted, hkey⟩

namespace Fleet

variable {s : FleetSetting} {f : Fleet}

/-- What has been queued for the book of a key. -/
def queued (f : Fleet) (key : String × String) : List Json := (f.brain.queue.pushed.map Prod.snd).filter (keyed key)

/-- What the scan thread has processed of it. -/
def handled (f : Fleet) (key : String × String) : List Json :=
  (f.brain.queue.handled.map Prod.snd).filter (keyed key)

/-- Each link is one of its own, the brain is one that was sent messages, and what was queued for the book of a
    PoP are the frames that have arrived from it. -/
structure Inv (s : FleetSetting) (f : Fleet) : Prop where
  link : ∀ (i : Nat) (p : FleetPop) (link : BrainLink), s.pops[i]? = some p → f.links[i]? = some link →
    ∃ events, link = Runs.run (BrainLink.step p.cfg) (BrainLink.started p.cfg p.certLoaded) events
  brain : ∃ events, f.brain = Runs.run (BrainProcess.step s.opts) (BrainProcess.start s.opts) events
  framed : ∀ (i : Nat) (p : FleetPop) (link : BrainLink), s.pops[i]? = some p → f.links[i]? = some link →
    List.Forall₂ (Framed p) link.arrived (f.queued p.pop.key)

theorem Inv.start (s : FleetSetting) : Inv s (Fleet.start s) := by
  have hlinks : ∀ (i : Nat) (p : FleetPop) (link : BrainLink), s.pops[i]? = some p → (Fleet.start s).links[i]? = some link →
      link = BrainLink.started p.cfg p.certLoaded := by
    intro i p link hp hlink
    simp only [Fleet.start, List.getElem?_map, hp, Option.map_some, Option.some.injEq] at hlink
    exact hlink.symm
  refine ⟨fun i p link hp hlink => ⟨[], hlinks i p link hp hlink⟩, ⟨[], rfl⟩, ?_⟩
  intro i p link hp hlink
  rw [hlinks i p link hp hlink]
  exact .nil

/-- A step of the brain that queues a message, or none. -/
theorem queued_step (opts : BrainOptions) (f : Fleet) (e : BrainEvent) (key : String × String) :
    ({ f with brain := f.brain.step opts e } : Fleet).queued key =
      f.queued key ++ (((e.queueEvent.map f.brain.queue.entered).getD []).map Prod.snd).filter (keyed key) := by
  cases hevent : e.queueEvent with
  | none =>
      rw [queued, BrainProcess.queue_of_none hevent]
      exact (List.append_nil _).symm
  | some event =>
      rw [queued, BrainProcess.queue_of_event hevent, (WorkQueue.step_push scanProtocol f.brain.queue event).1,
        List.map_append, List.filter_append]
      rfl

/-- Steps of the brain by themselves queue nothing for the books of the fleet. -/
theorem Inv.ofBrain (inv : Inv s f) (e : BrainEvent)
    (quiet : ∀ p ∈ s.pops, ({ f with brain := f.brain.step s.opts e } : Fleet).queued p.pop.key =
      f.queued p.pop.key) : Inv s { f with brain := f.brain.step s.opts e } := by
  obtain ⟨events, hbrain⟩ := inv.brain
  refine ⟨inv.link, ⟨events ++ [e], ?_⟩, ?_⟩
  · rw [Runs.run_append, ← hbrain]
    rfl
  · intro i p link hp hlink
    rw [quiet p (List.mem_of_getElem? hp)]
    exact inv.framed i p link hp hlink

theorem Inv.onBrain (inv : Inv s f) (e : BrainEvent) : Inv s (f.onBrain s e) := by
  have hquiet : ∀ e : BrainEvent, (∀ connection parsed, e ≠ .message connection parsed) →
      ∀ key, ({ f with brain := f.brain.step s.opts e } : Fleet).queued key = f.queued key := by
    intro e hmessage key
    rw [queued_step]
    cases e with
    | message connection parsed => exact absurd rfl (hmessage connection parsed)
    | _ => exact List.append_nil _
  cases e with
  | message connection parsed => exact inv
  | _ => exact inv.ofBrain _ fun p _ => hquiet _ (fun _ _ h => (by cases h)) _

theorem Inv.onOther (inv : Inv s f) (connection : Nat) (parsed : Option Json) :
    Inv s (f.onOther s connection parsed) := by
  rw [Fleet.onOther]
  split
  · exact inv
  · rename_i hforeign
    apply inv.ofBrain
    intro p hp
    rw [queued_step]
    cases parsed with
    | none => exact List.append_nil _
    | some j =>
        have hkey : keyed p.pop.key j = false := by
          rw [keyed, beq_eq_false_iff_ne]
          exact fun hkey => hforeign ⟨p, hp, hkey⟩
        have hnone : ((f.brain.queue.entered (.push (connection, j))).map Prod.snd).filter (keyed p.pop.key) = [] := by
          rw [WorkQueue.State.entered]
          split <;> simp [hkey]
        simp only [BrainEvent.queueEvent, Option.map_some, Option.getD_some, hnone, List.append_nil]

/-- What a link does besides handing a frame to the brain. -/
theorem arrived_step (cfg : HandlerConfig) (link : BrainLink) {e : LinkEvent} (own : e ≠ .arrive) :
    (link.step cfg e).arrived = link.arrived := by
  cases e with
  | arrive => exact absurd rfl own
  | feed callback => cases callback <;> rfl
  | _ => rfl

/-- A link after a step of one link. -/
theorem getElem?_onPop {i k : Nat} {p q : FleetPop} {link : BrainLink} {e : LinkEvent}
    (stepped : s.pops[i]? = some q) (pop : s.pops[k]? = some p)
    (found : (f.links.modify i fun link => link.step q.cfg e)[k]? = some link) :
    (k ≠ i ∧ f.links[k]? = some link) ∨ (k = i ∧ ∃ before, f.links[k]? = some before ∧ link = before.step p.cfg e) := by
  rw [List.getElem?_modify] at found
  obtain ⟨before, hbefore, hafter⟩ := Option.map_eq_some_iff.mp found
  split at hafter
  · rename_i hsame
    subst hsame
    obtain rfl : q = p := Option.some.inj (stepped.symm.trans pop)
    exact Or.inr ⟨rfl, before, hbefore, hafter.symm⟩
  · rename_i hother
    exact Or.inl ⟨Ne.symm hother, hafter ▸ hbefore⟩

theorem Inv.link_step (inv : Inv s f) {i k : Nat} {p q : FleetPop} {link : BrainLink} {e : LinkEvent}
    (stepped : s.pops[i]? = some q) (pop : s.pops[k]? = some p)
    (found : (f.links.modify i fun link => link.step q.cfg e)[k]? = some link) :
    ∃ events, link = Runs.run (BrainLink.step p.cfg) (BrainLink.started p.cfg p.certLoaded) events := by
  rcases getElem?_onPop stepped pop found with ⟨-, hsame⟩ | ⟨-, before, hbefore, rfl⟩
  · exact inv.link k p link pop hsame
  · obtain ⟨events, hrun⟩ := inv.link k p before pop hbefore
    refine ⟨events ++ [e], ?_⟩
    rw [Runs.run_append, ← hrun]
    rfl

theorem Inv.onLink (inv : Inv s f) (i : Nat) (e : LinkEvent) : Inv s (f.onLink s i e) := by
  rw [Fleet.onLink]
  cases hpop : s.pops[i]? with
  | none => exact inv
  | some q =>
      dsimp only
      split
      · exact inv
      · rename_i hown
        refine ⟨fun k p link hp hlink => inv.link_step hpop hp hlink, inv.brain, ?_⟩
        intro k p link hp hlink
        rcases getElem?_onPop hpop hp hlink with ⟨-, hsame⟩ | ⟨-, before, hbefore, rfl⟩
        · exact inv.framed k p link hp hsame
        · rw [arrived_step p.cfg before hown]
          exact inv.framed k p before hp hbefore

/-- Keys of different PoPs differ. -/
def Distinct (s : FleetSetting) : Prop := (s.pops.map fun p => p.pop.key).Nodup

theorem index_of_key (distinct : Distinct s) {i k : Nat} {p q : FleetPop} (hp : s.pops[i]? = some p)
    (hq : s.pops[k]? = some q) (same : p.pop.key = q.pop.key) : i = k := by
  have hi : (s.pops.map fun p => p.pop.key)[i]? = some p.pop.key := by rw [List.getElem?_map, hp, Option.map_some]
  have hk : (s.pops.map fun p => p.pop.key)[k]? = some p.pop.key := by
    rw [List.getElem?_map, hq, Option.map_some, same]
  obtain ⟨hilt, -⟩ := List.getElem?_eq_some_iff.mp hi
  exact (List.getElem?_inj hilt distinct).mp (hi.trans hk.symm)

/-- A frame arrives: it is queued for the book of its PoP, and for no other. -/
theorem Inv.onArrive (inv : Inv s f) (distinct : Distinct s) (i persistSeq : Nat) (nowNs : Int) :
    Inv s (f.onArrive s i persistSeq nowNs) := by
  rw [Fleet.onArrive]
  split
  · rename_i q frame hq hframe
    split
    · exact inv
    · rename_i hfree
      obtain ⟨source, hsource, hfront⟩ := Option.bind_eq_some_iff.mp hframe
      obtain ⟨events, hbrain⟩ := inv.brain
      let j := frame.1.toJson (q.stamp persistSeq nowNs)
      have hqueued : ∀ key, ({ f with brain := f.brain.step s.opts (.message i (some j)) } : Fleet).queued key =
          f.queued key ++ [j].filter (keyed key) := by
        intro key
        rw [queued_step]
        simp [BrainEvent.queueEvent, WorkQueue.State.entered, hfree]
      have hframed : Framed q frame j := ⟨persistSeq, nowNs, rfl⟩
      refine ⟨fun k p link hp hlink => inv.link_step hq hp hlink, ⟨events ++ [.message i (some j)], ?_⟩, ?_⟩
      · rw [Runs.run_append, ← hbrain]
        rfl
      · intro k p link hp hlink
        have hafter : Fleet.queued
            { links := f.links.modify i fun link => link.step q.cfg .arrive
              brain := f.brain.step s.opts (.message i (some j)) } p.pop.key =
            f.queued p.pop.key ++ [j].filter (keyed p.pop.key) := hqueued p.pop.key
        rw [hafter]
        rcases getElem?_onPop hq hp hlink with ⟨hother, hsame⟩ | ⟨rfl, before, hbefore, rfl⟩
        · have hkey : keyed p.pop.key j = false := by
            rw [keyed, keyed_of_framed hframed, beq_eq_false_iff_ne]
            intro hkeys
            exact hother (index_of_key distinct hp hq (Option.some.inj hkeys).symm)
          rw [List.filter_cons_of_neg (by simp [hkey]), List.filter_nil, List.append_nil]
          exact inv.framed k p link hp hsame
        · obtain rfl : q = p := Option.some.inj (hq.symm.trans hp)
          obtain rfl : source = before := Option.some.inj (hsource.symm.trans hbefore)
          have hkey : keyed q.pop.key j = true := by rw [keyed, keyed_of_framed hframed, beq_self_eq_true]
          have harrived : (source.step q.cfg .arrive).arrived = source.arrived ++ [frame] := by
            rw [BrainLink.step, BrainLink.onArrive]
            cases hwire : source.wire with
            | nil =>
                rw [hwire] at hfront
                cases hfront
            | cons first rest =>
                rw [hwire] at hfront
                rw [Option.some.inj hfront]
          rw [harrived, List.filter_cons_of_pos hkey, List.filter_nil]
          exact List.rel_append (inv.framed k q source hp hbefore) (.cons hframed .nil)
  · exact inv

theorem Inv.step (inv : Inv s f) (distinct : Distinct s) (e : FleetEvent) : Inv s (f.step s e) := by
  cases e with
  | link i e => exact inv.onLink i e
  | arrive i persistSeq nowNs => exact inv.onArrive distinct i persistSeq nowNs
  | other connection parsed => exact inv.onOther connection parsed
  | brain e => exact inv.onBrain e

theorem inv_run (distinct : Distinct s) (events : List FleetEvent) :
    Inv s (Runs.run (Fleet.step s) (Fleet.start s) events) :=
  Runs.invariant_run (fun _ e inv => inv.step distinct e) (Inv.start s) events

/-!
### The books

The queue may drop messages. What it lets through of a PoP is a part of what arrived, and a part is enough
if a complete baseline and all changes after it are in it.
-/

/-- The queue of the process keeps the order of its items. -/
theorem Inv.ordered (inv : Inv s f) : WorkQueue.Ordered scanProtocol f.brain.queue := by
  obtain ⟨events, hbrain⟩ := inv.brain
  have hcapacity : 0 < scanProtocol.capacity := by decide
  rw [hbrain, BrainProcess.queue_run]
  exact WorkQueue.ordered_run hcapacity _

/-- Nothing waits, and nothing was dropped. -/
def Drained (f : Fleet) : Prop :=
  f.brain.queue.queue = [] ∧ f.brain.queue.inHand = [] ∧ f.brain.queue.dropped = []

instance (f : Fleet) : Decidable (Drained f) := inferInstanceAs (Decidable (_ ∧ _))

end Fleet

end ZidaBot.Feed
