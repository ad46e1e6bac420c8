/-
Module: ZidaBot.Proofs.SignalChain
Purpose: From the books of the brain to the orders of an exec.  Brain process, signal server and exec process
  run side by side: the strand of the server broadcasts the crosses that the scan thread has emitted, in order;
  the exec is linked to one session at a time, loses the link and gets another one, and receives a frame once
  its write has completed.  Whatever is dropped or lost on the way, the exec acts in the order of emission, and
  on no cross twice.  All that needs a server that is held by a shared pointer.  `main` holds it by a unique
  one: its `start` throws, the brain terminates, and no exec ever gets an order.
Trusted boundary: human-reviewed model
Main exports: Owner, SignalChain, ChainEvent, SignalChain.step, SignalChain.SparesInFlight, SignalChain.Inv,
  orders_of_uniquePtr, orders_follow_emissions
-/
import ZidaBot.Proofs.EmittedPrices
import ZidaBot.Proofs.SignalOrder
import ZidaBot.Proofs.ExecProcess
import ZidaBot.Proofs.CrossSignals

namespace ZidaBot

open Brain Exec

/-!
### The composed system

The steps of the three processes, with what passes between them.  The owner of the server decides whether its
calls return at all.
-/

/-- How the signal server is held.  `main` has a unique pointer, the class asks for a shared one. -/
inductive Owner where
  | uniquePtr
  | sharedPtr
deriving DecidableEq, Repr

/-- The connection of an exec: its session, the frames delivered there since, and how many of them the exec has
    received.  A frame is `none` if its string was freed under the write. -/
structure SignalLink where
  session : Nat
  delivered : List (Option String) := []
  taken : Nat := 0

/-- The three processes.  `broadcasted` counts the emitted crosses whose broadcast has run on the strand of the
    server, `received` are the frames that have reached the exec, and `terminated` says that an exception has
    ended the brain. -/
structure SignalChain where
  brain : BrainProcess
  hub : SignalHub := {}
  exec : ExecProcess := {}
  broadcasted : Nat := 0
  link : Option SignalLink := none
  received : List (Option String) := []
  terminated : Bool := false

/-- Steps of the system: of each process by itself, the broadcast of the next cross, and the link.  The bytes
    of a frame whose string was freed come with its receipt. -/
inductive ChainEvent where
  | brain (e : BrainEvent)
  | broadcast
  | hub (e : HubEvent)
  | connect
  | disconnect
  | receive (bytes : String)
  | exec (e : ExecProcessEvent)

namespace SignalChain

/-- The options of the processes, the owner of the server, and the library's texts. -/
structure Setting where
  opts : BrainOptions
  owner : Owner
  cfg : ExecConfig
  dump : Json → String
  parse : String → Option Json

/-- The crosses that the brain has emitted. -/
def signals (c : SignalChain) : List ArbCross := c.brain.scan.arb.signals

/-- A handler of the signal server. -/
def onHub (c : SignalChain) (e : HubEvent) : SignalChain :=
  { c with
    hub := c.hub.step e
    link := c.link.map fun l =>
      { l with delivered := l.delivered ++ (SignalHub.delivers l.session c.hub e).toList } }

/-- An exception that nothing catches. -/
def terminate (c : SignalChain) : SignalChain := { c with terminated := true }

/-- The exec is accepted, if the server accepts: it is linked to the session that was created for it, if any. -/
def connect (c : SignalChain) : SignalChain :=
  if c.hub.server.accepting then
    { c.onHub (.onAccept true) with
      link := (c.hub.server.onAccept true).2.map fun session => { session := session } }
  else c

/-- The next frame of the link reaches the exec. -/
def receive (s : Setting) (c : SignalChain) (bytes : String) : SignalChain :=
  match c.link with
  | none => c
  | some l =>
      match l.delivered[l.taken]? with
      | none => c
      | some frame =>
          { c with
            exec := c.exec.step s.cfg s.parse (.received (frame.getD bytes))
            link := some { l with taken := l.taken + 1 }
            received := c.received ++ [frame] }

/-- The next emitted cross is broadcast.  Under a unique owner `shared_from_this` throws into the scan thread,
    which catches everything. -/
def broadcast (s : Setting) (c : SignalChain) : SignalChain :=
  match s.owner, c.signals[c.broadcasted]? with
  | .sharedPtr, some cross =>
      { c.onHub (.broadcast (serializeCross s.dump cross)) with broadcasted := c.broadcasted + 1 }
  | _, _ => c

/-- The server by itself.  It broadcasts nothing, and completes an accept only if it has started one.  Under a
    unique owner `shared_from_this` throws `bad_weak_ptr` out of `stop`, and out of `start` unless that returns
    before it has to arm an accept. -/
def ownHub (s : Setting) (c : SignalChain) (e : HubEvent) : SignalChain :=
  match e with
  | .start => if s.owner = .uniquePtr ∧ c.hub.server.stopped = false then c.terminate else c.onHub .start
  | .stopCalled => if s.owner = .uniquePtr then c.terminate else c.onHub .stopCalled
  | .onAccept ok => if c.hub.server.accepting then c.onHub (.onAccept ok) else c
  | .broadcast _ => c
  | e => c.onHub e

/-- The exec by itself, which no frame reaches. -/
def ownExec (s : Setting) (c : SignalChain) (e : ExecProcessEvent) : SignalChain :=
  if (ExecProcess.received? e).isSome then c else { c with exec := c.exec.step s.cfg s.parse e }

/-- A step of the brain, while it runs. -/
def inBrain (c : SignalChain) (next : SignalChain) : SignalChain := if c.terminated then c else next

/-- One step. -/
def step (s : Setting) (c : SignalChain) : ChainEvent → SignalChain
  | .brain e => c.inBrain { c with brain := c.brain.step s.opts e }
  | .broadcast => c.inBrain (c.broadcast s)
  | .hub e => c.inBrain (c.ownHub s e)
  | .connect => c.inBrain c.connect
  | .disconnect => { c with link := none }
  | .receive bytes => c.receive s bytes
  | .exec e => c.ownExec s e

/-- The processes as they are started. -/
def start (s : Setting) : SignalChain := { brain := BrainProcess.start s.opts }

/-!
### What has been sent

The invariant looks at the link: of what was sent since the exec got it, the session of the link delivers in
order, and what the exec had received by then is of what was sent before.
-/

variable {s : Setting} {c : SignalChain}

/-- The frames that were broadcast. -/
def sent (s : Setting) (c : SignalChain) : List String :=
  (c.signals.take c.broadcasted).map (serializeCross s.dump)

/-- What was received before the exec was linked to a session is of what was sent before, and of what was sent
    since then the session delivers in order. -/
def LinkInv (sent : List String) (c : SignalChain) : Prop :=
  match c.link with
  | none => c.received.reduceOption.Sublist sent
  | some l => ∃ before since old, sent = before ++ since ∧ old.reduceOption.Sublist before ∧
      c.hub.InOrder l.session since l.delivered.reduceOption ∧ l.taken ≤ l.delivered.length ∧
      c.received = old ++ l.delivered.take l.taken

/-- The run of the exec so far is one that was fed the received frames, with any bytes for those that were
    freed. -/
def Fed (s : Setting) (c : SignalChain) : Prop :=
  ∃ events, c.exec = Runs.run (ExecProcess.step s.cfg s.parse) {} events ∧
    List.Forall₂ (fun frame read => frame.getD read = read) c.received
      (events.filterMap ExecProcess.received?)

/-- The invariant of the system. -/
structure Inv (s : Setting) (c : SignalChain) : Prop where
  priced : ScanThread.Priced s.opts c.brain.scan
  broadcasted : c.broadcasted ≤ c.signals.length
  registered : c.hub.Registered
  link : LinkInv (c.sent s) c
  fed : Fed s c

/-- What was received is a part of what was sent, in order. -/
theorem LinkInv.received {sent : List String} (inv : LinkInv sent c) :
    c.received.reduceOption.Sublist sent := by
  rw [LinkInv] at inv
  split at inv
  · exact inv
  · rename_i l _
    obtain ⟨before, since, old, hsent, hold, horder, -, hreceived⟩ := inv
    rw [hsent, hreceived, List.reduceOption_append]
    apply hold.append
    refine ((List.take_sublist _ _).filterMap id).trans ?_
    cases hfound : c.hub.table[l.session]? with
    | none =>
        have habsent : l.delivered.filterMap id = [] := horder.absent hfound
        rw [habsent]
        exact List.nil_sublist _
    | some session => exact (List.sublist_append_left ..).trans (horder.session session hfound).queued

/-- A handler of the server, with what it broadcasts. -/
theorem LinkInv.onHub {sent : List String} (inv : LinkInv sent c) (e : HubEvent) :
    LinkInv (sent ++ (SignalHub.broadcast? e).toList) (c.onHub e) := by
  rw [LinkInv] at inv
  rw [LinkInv, SignalChain.onHub]
  cases hlink : c.link with
  | none =>
      simp only [hlink] at inv
      exact inv.trans (List.sublist_append_left ..)
  | some l =>
      simp only [hlink] at inv
      obtain ⟨before, since, old, hsent, hold, horder, htaken, hreceived⟩ := inv
      refine ⟨before, since ++ (SignalHub.broadcast? e).toList, old, ?_, hold, ?_, ?_, ?_⟩
      · rw [hsent, List.append_assoc]
      · rw [List.reduceOption_append, SignalHub.reduceOption_toList]
        exact horder.step e
      · exact Nat.le_trans htaken (by simp)
      · rw [hreceived, List.take_append_of_le_length htaken]

/-- A link to a new session starts with nothing. -/
theorem LinkInv.connect {sent : List String} (inv : LinkInv sent c) (registered : c.hub.Registered) :
    LinkInv sent c.connect := by
  have hreceived : c.received.reduceOption.Sublist sent := inv.received
  rw [SignalChain.connect]
  split
  · rw [LinkInv]
    rcases SignalHub.onAccept_created c.hub.server true with ⟨hnone, -, -⟩ | ⟨hsome, -, -⟩
    · rw [hnone]
      exact hreceived
    · rw [hsome]
      have hfresh : c.hub.InOrder c.hub.server.created [] [] := by
        refine ⟨registered, ?_, fun _ => rfl⟩
        intro session hfound
        rw [List.getElem?_eq_none (Nat.le_of_eq registered.created)] at hfound
        cases hfound
      have horder := hfresh.step (.onAccept true)
      exact ⟨sent, [], c.received, (List.append_nil sent).symm, hreceived, horder, Nat.le_refl _,
        (List.append_nil c.received).symm⟩
  · exact inv

/-- Nothing is there to be received, or the next frame of the link is. -/
theorem receive_cases (s : Setting) (c : SignalChain) (bytes : String) :
    c.receive s bytes = c ∨ ∃ l frame, c.link = some l ∧ l.delivered[l.taken]? = some frame ∧
      c.receive s bytes = { c with
        exec := c.exec.step s.cfg s.parse (.received (frame.getD bytes))
        link := some { l with taken := l.taken + 1 }
        received := c.received ++ [frame] } := by
  unfold receive
  split
  · exact Or.inl rfl
  · rename_i l hlink
    split
    · exact Or.inl rfl
    · rename_i frame hframe
      exact Or.inr ⟨l, frame, hlink, hframe, rfl⟩

/-- One more frame of the link is received. -/
theorem LinkInv.receive {sent : List String} (inv : LinkInv sent c) (bytes : String) :
    LinkInv sent (c.receive s bytes) := by
  rcases receive_cases s c bytes with hsame | ⟨l, frame, hlink, hframe, hreceive⟩
  · rw [hsame]
    exact inv
  · rw [hreceive]
    simp only [LinkInv, hlink] at inv ⊢
    obtain ⟨before, since, old, hsent, hold, horder, -, hreceived⟩ := inv
    obtain ⟨hlt, -⟩ := List.getElem?_eq_some_iff.mp hframe
    refine ⟨before, since, old, hsent, hold, horder, hlt, ?_⟩
    rw [hreceived, List.take_add_one, hframe, Option.toList_some, List.append_assoc]

/-!
### Every step keeps the invariant

The steps of the three processes are those of their own modules. Only broadcasts, links and receipts connect
them.
-/

/-- A step of the brain adds to its signals. -/
theorem signals_step (opts : BrainOptions) (p : BrainProcess) (e : BrainEvent) :
    p.scan.arb.signals <+: (p.step opts e).scan.arb.signals := by
  have htake : ∀ (scan : ScanThread) input,
      p.scan.arb.signals <+: scan.arb.signals →
        p.scan.arb.signals <+: (ScanThread.take opts scan input).arb.signals := by
    intro scan input hprefix
    cases input with
    | promote => exact hprefix
    | event now j =>
        have hprocess : (ScanThread.take opts scan (.event now j)).arb = (detect opts now j scan.book scan.arb).1 :=
          process_arb now scan j
        rw [hprocess]
        cases hactive : scan.arb.active with
        | true =>
            rw [(emitted_detect opts now j scan.book hactive).signals]
            exact hprefix.trans (List.prefix_append ..)
        | false =>
            rw [detect_of_standby opts now j scan.book hactive]
            exact hprefix
  rw [BrainProcess.scan_step]
  exact Runs.invariant_run htake (List.prefix_refl _) _

theorem Fed.step (fed : Fed s c) (e : ExecProcessEvent) (quiet : ExecProcess.received? e = none) :
    Fed s { c with exec := c.exec.step s.cfg s.parse e } := by
  obtain ⟨events, hrun, hreceived⟩ := fed
  refine ⟨events ++ [e], ?_, ?_⟩
  · rw [Runs.run_append, ← hrun]
    rfl
  · rw [List.filterMap_append, List.filterMap_cons_none quiet, List.filterMap_nil, List.append_nil]
    exact hreceived

theorem Fed.receive (fed : Fed s c) (bytes : String) : Fed s (c.receive s bytes) := by
  rcases receive_cases s c bytes with hsame | ⟨l, frame, -, -, hreceive⟩
  · rw [hsame]
    exact fed
  · obtain ⟨events, hrun, hreceived⟩ := fed
    rw [hreceive]
    refine ⟨events ++ [.received (frame.getD bytes)], ?_, ?_⟩
    · rw [Runs.run_append, ← hrun]
      rfl
    · have hframe : frame.getD (frame.getD bytes) = frame.getD bytes := by cases frame <;> rfl
      rw [List.filterMap_append]
      exact List.rel_append hreceived (List.Forall₂.cons hframe .nil)

/-- The server by itself does nothing, throws, or runs a handler that broadcasts nothing. -/
theorem ownHub_cases (s : Setting) (c : SignalChain) (e : HubEvent) :
    c.ownHub s e = c ∨ c.ownHub s e = c.terminate ∨
      SignalHub.broadcast? e = none ∧ c.ownHub s e = c.onHub e := by
  cases e with
  | start =>
      rw [ownHub]
      split
      · exact Or.inr (Or.inl rfl)
      · exact Or.inr (Or.inr ⟨rfl, rfl⟩)
  | stopCalled =>
      rw [ownHub]
      split
      · exact Or.inr (Or.inl rfl)
      · exact Or.inr (Or.inr ⟨rfl, rfl⟩)
  | onAccept ok =>
      rw [ownHub]
      split
      · exact Or.inr (Or.inr ⟨rfl, rfl⟩)
      · exact Or.inl rfl
  | broadcast text => exact Or.inl rfl
  | stop => exact Or.inr (Or.inr ⟨rfl, rfl⟩)
  | posted session => exact Or.inr (Or.inr ⟨rfl, rfl⟩)
  | completed session op ok => exact Or.inr (Or.inr ⟨rfl, rfl⟩)

/-- Nothing is broadcast, or the next cross is. -/
theorem broadcast_cases (s : Setting) (c : SignalChain) :
    c.broadcast s = c ∨ ∃ cross, s.owner = .sharedPtr ∧ c.signals[c.broadcasted]? = some cross ∧
      c.broadcast s =
        { c.onHub (.broadcast (serializeCross s.dump cross)) with broadcasted := c.broadcasted + 1 } := by
  unfold broadcast
  split
  · rename_i cross howner hcross
    exact Or.inr ⟨cross, howner, hcross, rfl⟩
  · exact Or.inl rfl

/-- What holds before and after a step of the brain, whether it still runs or not. -/
theorem inBrain_of {p : SignalChain → Prop} {next : SignalChain} (before : p c) (after : p next) :
    p (c.inBrain next) := by
  rw [inBrain]
  split
  · exact before
  · exact after

namespace Inv

theorem start (s : Setting) : Inv s (SignalChain.start s) :=
  ⟨ScanThread.Priced.new s.opts, Nat.zero_le _,
    ⟨rfl, fun _ h => (by cases h), List.nodup_nil⟩, List.nil_sublist _, [], rfl, .nil⟩

/-- A handler of the server that broadcasts nothing. -/
theorem onHub (inv : Inv s c) {e : HubEvent} (quiet : SignalHub.broadcast? e = none) : Inv s (c.onHub e) := by
  have hlink := inv.link.onHub e
  rw [quiet, Option.toList_none, List.append_nil] at hlink
  exact ⟨inv.priced, inv.broadcasted, inv.registered.step e, hlink, inv.fed⟩

theorem terminate (inv : Inv s c) : Inv s c.terminate :=
  ⟨inv.priced, inv.broadcasted, inv.registered, inv.link, inv.fed⟩

theorem ownHub (inv : Inv s c) (e : HubEvent) : Inv s (c.ownHub s e) := by
  rcases ownHub_cases s c e with hsame | hthrown | ⟨hquiet, hhandled⟩
  · rw [hsame]
    exact inv
  · rw [hthrown]
    exact inv.terminate
  · rw [hhandled]
    exact inv.onHub hquiet

theorem ownExec (inv : Inv s c) (e : ExecProcessEvent) : Inv s (c.ownExec s e) := by
  rw [SignalChain.ownExec]
  cases hquiet : ExecProcess.received? e with
  | none => exact ⟨inv.priced, inv.broadcasted, inv.registered, inv.link, inv.fed.step e hquiet⟩
  | some text => exact inv

theorem brain (inv : Inv s c) (e : BrainEvent) : Inv s { c with brain := c.brain.step s.opts e } := by
  obtain ⟨more, hmore⟩ := signals_step s.opts c.brain e
  have hbroadcasted : c.broadcasted ≤ c.brain.scan.arb.signals.length := inv.broadcasted
  have hsent : SignalChain.sent s { c with brain := c.brain.step s.opts e } = c.sent s := by
    rw [sent, signals, ← hmore, List.take_append_of_le_length hbroadcasted]
    rfl
  have hlink : LinkInv (c.sent s) { c with brain := c.brain.step s.opts e } := inv.link
  rw [← hsent] at hlink
  refine ⟨inv.priced.step e, ?_, inv.registered, hlink, inv.fed⟩
  rw [signals, ← hmore, List.length_append]
  exact Nat.le_add_right_of_le hbroadcasted

theorem broadcast (inv : Inv s c) : Inv s (c.broadcast s) := by
  rcases broadcast_cases s c with hsame | ⟨cross, -, hnext, hbroadcast⟩
  · rw [hsame]
    exact inv
  · rw [hbroadcast]
    obtain ⟨hlt, -⟩ := List.getElem?_eq_some_iff.mp hnext
    let text := serializeCross s.dump cross
    have hsent : (c.signals.take (c.broadcasted + 1)).map (serializeCross s.dump) = c.sent s ++ [text] := by
      rw [List.take_add_one, hnext, List.map_append]
      rfl
    have hlink : LinkInv (c.sent s ++ [text]) (c.onHub (.broadcast text)) := inv.link.onHub (.broadcast text)
    rw [← hsent] at hlink
    exact ⟨inv.priced, hlt, inv.registered.step (.broadcast text), hlink, inv.fed⟩

theorem connect (inv : Inv s c) : Inv s c.connect := by
  have hlink := inv.link.connect inv.registered
  by_cases haccepting : c.hub.server.accepting = true
  · rw [SignalChain.connect, if_pos haccepting] at hlink ⊢
    exact ⟨inv.priced, inv.broadcasted, inv.registered.step (.onAccept true), hlink, inv.fed⟩
  · rw [SignalChain.connect, if_neg haccepting]
    exact inv

theorem receive (inv : Inv s c) (bytes : String) : Inv s (c.receive s bytes) := by
  have hlink : LinkInv (c.sent s) (c.receive s bytes) := inv.link.receive bytes
  have hfed : Fed s (c.receive s bytes) := inv.fed.receive bytes
  rcases receive_cases s c bytes with hsame | ⟨l, frame, -, -, hreceive⟩
  · rw [hsame]
    exact inv
  · rw [hreceive] at hlink hfed ⊢
    exact ⟨inv.priced, inv.broadcasted, inv.registered, hlink, hfed⟩

theorem step (inv : Inv s c) (e : ChainEvent) : Inv s (c.step s e) := by
  cases e with
  | brain e => exact inBrain_of inv (inv.brain e)
  | broadcast => exact inBrain_of inv inv.broadcast
  | hub e => exact inBrain_of inv (inv.ownHub e)
  | connect => exact inBrain_of inv inv.connect
  | disconnect => exact ⟨inv.priced, inv.broadcasted, inv.registered, inv.link.received, inv.fed⟩
  | receive bytes => exact inv.receive bytes
  | exec e => exact inv.ownExec e

theorem run (s : Setting) (events : List ChainEvent) :
    Inv s (Runs.run (SignalChain.step s) (SignalChain.start s) events) :=
  Runs.invariant_run (fun _ e inv => inv.step e) (Inv.start s) events

end Inv

/-!
### Frames that are messages

As long as no full outbox evicts the string that is being written, every frame on the link is a message that was
broadcast, and so is every frame that the exec has received.
-/

/-- The step frees no string that is being written. -/
def SparesInFlight (c : SignalChain) : ChainEvent → Prop
  | .hub e => c.hub.SparesInFlight e
  | _ => True

instance (c : SignalChain) : DecidablePred c.SparesInFlight
  | .hub e => inferInstanceAs (Decidable (c.hub.SparesInFlight e))
  | .brain _ | .broadcast | .connect | .disconnect | .receive _ | .exec _ => isTrue trivial

/-- No string has been freed under its write. -/
structure Intact (c : SignalChain) : Prop where
  hub : c.hub.Intact
  delivered : ∀ l, c.link = some l → none ∉ l.delivered
  received : none ∉ c.received

namespace Intact

theorem start (s : Setting) : Intact (SignalChain.start s) :=
  ⟨SignalHub.intact_new, fun _ h => (by cases h), List.not_mem_nil⟩

theorem onHub (intact : Intact c) {sent : List String} (link : LinkInv sent c) {e : HubEvent}
    (spares : c.hub.SparesInFlight e) : Intact (c.onHub e) := by
  refine ⟨intact.hub.step spares, ?_, intact.received⟩
  intro l hlink
  obtain ⟨before, hbefore, rfl⟩ := Option.map_eq_some_iff.mp hlink
  rw [LinkInv, hbefore] at link
  obtain ⟨_, since, _, -, -, horder, -, -⟩ := link
  rw [List.mem_append]
  rintro (hold | hnew)
  · exact intact.delivered before hbefore hold
  · exact SignalHub.delivers_ne_none horder intact.hub e (Option.mem_toList.mp hnew)

theorem connect (intact : Intact c) : Intact c.connect := by
  rw [SignalChain.connect]
  split
  · refine ⟨intact.hub.step (e := .onAccept true) trivial, ?_, intact.received⟩
    intro l hlink
    obtain ⟨session, -, rfl⟩ := Option.map_eq_some_iff.mp hlink
    exact List.not_mem_nil
  · exact intact

theorem receive (intact : Intact c) (bytes : String) : Intact (c.receive s bytes) := by
  rcases receive_cases s c bytes with hsame | ⟨l, frame, hlink, hframe, hreceive⟩
  · rw [hsame]
    exact intact
  · rw [hreceive]
    have hdelivered := intact.delivered l hlink
    refine ⟨intact.hub, fun _ h => Option.some.inj h ▸ hdelivered, ?_⟩
    rw [List.mem_append, List.mem_singleton]
    rintro (hold | hnew)
    · exact intact.received hold
    · exact hdelivered (hnew ▸ List.mem_of_getElem? hframe)

theorem step (intact : Intact c) (inv : Inv s c) {e : ChainEvent} (spares : SparesInFlight c e) :
    Intact (c.step s e) := by
  cases e with
  | brain e => exact inBrain_of intact ⟨intact.hub, intact.delivered, intact.received⟩
  | broadcast =>
      apply inBrain_of intact
      rcases broadcast_cases s c with hsame | ⟨cross, -, -, hbroadcast⟩
      · rw [hsame]
        exact intact
      · rw [hbroadcast]
        have hbroadcasted := intact.onHub inv.link (e := .broadcast (serializeCross s.dump cross)) trivial
        exact ⟨hbroadcasted.hub, hbroadcasted.delivered, hbroadcasted.received⟩
  | hub e =>
      apply inBrain_of intact
      rcases ownHub_cases s c e with hsame | hthrown | ⟨-, hhandled⟩
      · rw [hsame]
        exact intact
      · rw [hthrown]
        exact ⟨intact.hub, intact.delivered, intact.received⟩
      · rw [hhandled]
        exact intact.onHub inv.link spares
  | connect => exact inBrain_of intact intact.connect
  | disconnect => exact ⟨intact.hub, fun _ h => (by cases h), intact.received⟩
  | receive bytes => exact intact.receive bytes
  | exec e =>
      rw [SignalChain.step, SignalChain.ownExec]
      split
      · exact intact
      · exact ⟨intact.hub, intact.delivered, intact.received⟩

theorem run {events : List ChainEvent}
    (spares : Runs.Along (SignalChain.step s) SparesInFlight (SignalChain.start s) events) :
    Intact (Runs.run (SignalChain.step s) (SignalChain.start s) events) := by
  have hboth : ∀ c e, Inv s c ∧ Intact c → SparesInFlight c e → Inv s (c.step s e) ∧ Intact (c.step s e) :=
    fun c e both spares => ⟨both.1.step e, both.2.step both.1 spares⟩
  exact (Runs.Along.invariant hboth ⟨Inv.start s, Intact.start s⟩ spares).2

end Intact

/-- An exec has read the frames that are messages as they are. -/
theorem reads_of_intact {frames : List (Option String)} {reads : List String}
    (fed : List.Forall₂ (fun frame read => frame.getD read = read) frames reads) (intact : none ∉ frames) :
    frames.reduceOption = reads := by
  induction fed with
  | nil => rfl
  | @cons frame read frames reads hread _ ih =>
      obtain ⟨hframe, hframes⟩ := not_or.mp (List.mem_cons.not.mp intact)
      obtain ⟨text, rfl⟩ := Option.ne_none_iff_exists'.mp (Ne.symm hframe)
      rw [List.reduceOption_cons_of_some, ih hframes]
      exact congrArg (· :: reads) hread

/-!
### The unique owner

The server never accepts, so no exec is ever linked.
-/

/-- Nothing has left the brain. -/
structure Silent (c : SignalChain) : Prop where
  accepting : c.hub.server.accepting = false
  link : c.link = none
  received : c.received = []

theorem accepting_step {h : SignalHub} {e : HubEvent} (other : ∀ ok, e ≠ .onAccept ok)
    (armed : e = .start → h.server.stopped = true) (idle : h.server.accepting = false) :
    (h.step e).server.accepting = false := by
  cases e with
  | start => simpa [SignalHub.step, SignalServer.doAccept, armed rfl] using idle
  | stopCalled => exact idle
  | onAccept ok => exact absurd rfl (other ok)
  | broadcast text =>
      simp only [SignalHub.step, SignalServer.broadcast]
      split <;> exact idle
  | stop => exact idle
  | posted session =>
      rw [SignalHub.step, SignalHub.onStrand]
      split
      · exact idle
      · dsimp only
        split <;> exact idle
  | completed session op ok =>
      rw [SignalHub.step, SignalHub.onStrand]
      split
      · exact idle
      · dsimp only
        split <;> exact idle

namespace Silent

theorem onHub (silent : Silent c) {e : HubEvent} (other : ∀ ok, e ≠ .onAccept ok)
    (armed : e = .start → c.hub.server.stopped = true) : Silent (c.onHub e) := by
  refine ⟨accepting_step other armed silent.accepting, ?_, silent.received⟩
  rw [SignalChain.onHub, silent.link, Option.map_none]

theorem ownHub (silent : Silent c) (owner : s.owner = .uniquePtr) (e : HubEvent) : Silent (c.ownHub s e) := by
  cases e with
  | start =>
      rw [SignalChain.ownHub]
      split
      · exact ⟨silent.accepting, silent.link, silent.received⟩
      · rename_i hreturned
        have hstopped : c.hub.server.stopped = true := by simpa [owner] using hreturned
        exact silent.onHub (fun _ => nofun) fun _ => hstopped
  | stopCalled =>
      rw [SignalChain.ownHub, if_pos owner]
      exact ⟨silent.accepting, silent.link, silent.received⟩
  | onAccept ok =>
      rw [SignalChain.ownHub, if_neg (by simp [silent.accepting])]
      exact silent
  | broadcast text => exact silent
  | stop => exact silent.onHub (fun _ => nofun) nofun
  | posted session => exact silent.onHub (fun _ => nofun) nofun
  | completed session op ok => exact silent.onHub (fun _ => nofun) nofun

theorem step (silent : Silent c) (owner : s.owner = .uniquePtr) (e : ChainEvent) : Silent (c.step s e) := by
  cases e with
  | brain e => exact inBrain_of silent ⟨silent.accepting, silent.link, silent.received⟩
  | broadcast =>
      apply inBrain_of silent
      rcases broadcast_cases s c with hsame | ⟨cross, hshared, -, -⟩
      · rw [hsame]
        exact silent
      · rw [owner] at hshared
        cases hshared
  | hub e => exact inBrain_of silent (silent.ownHub owner e)
  | connect =>
      apply inBrain_of silent
      rw [SignalChain.connect, if_neg (by simp [silent.accepting])]
      exact silent
  | disconnect => exact ⟨silent.accepting, rfl, silent.received⟩
  | receive bytes =>
      rw [SignalChain.step, SignalChain.receive, silent.link]
      exact silent
  | exec e =>
      rw [SignalChain.step, SignalChain.ownExec]
      split
      · exact silent
      · exact ⟨silent.accepting, silent.link, silent.received⟩

end Silent

/-!
### From frames to orders

The exec reads back what the brain has written, as far as the ticks, the venues and the pair are concerned,
and it acts on a frame at most once.
-/

/-- A variable to read a cross into. -/
def blankCross : ArbCross :=
  { sellVenue := "", buyVenue := "", sellBidTick := 0, buyAskTick := 0, spreadBps := 0, netSpreadBps := 0
    tsDetectedNs := 0, sellTsBookNs := 0, buyTsBookNs := 0 }

/-- The leg that a frame asks of the venue of the exec. -/
def legOfText (s : Setting) (text : String) : Option (OrderSide × Int) :=
  (ExecProcess.crossOf s.parse (text, blankCross)).bind (legFor s.cfg.myVenue)

/-- It does not depend on the variable that the frame is read into. -/
theorem leg_of_read (s : Setting) (read : String × ArbCross) :
    (ExecProcess.crossOf s.parse read).bind (legFor s.cfg.myVenue) = legOfText s read.1 := by
  obtain ⟨hflag, hcross⟩ := ExecProcess.parseCross_uninit s.parse read.1 read.2 blankCross
  rw [legOfText, ExecProcess.crossOf, ExecProcess.crossOf, ← hflag]
  cases hread : (parseCross s.parse read.1 read.2).2 with
  | false => rfl
  | true =>
      rw [if_pos rfl, if_pos rfl, hcross hread]
      rfl

/-- What the exec reads of a cross that the brain has written: its ticks are 64-bit integers and come back. -/
theorem leg_of_serialized {s : Setting} {cross : ArbCross} (library : ReadsBack s.dump s.parse (crossJson cross))
    (sell : InInt64 cross.sellBidTick) (buy : InInt64 cross.buyAskTick) :
    legOfText s (serializeCross s.dump cross) = legFor s.cfg.myVenue cross := by
  have hparse : s.parse (serializeCross s.dump cross) = some (crossJson cross) := library
  have hsell := wrap64_of_inInt64 sell
  have hbuy := wrap64_of_inInt64 buy
  have hread : ExecProcess.crossOf s.parse (serializeCross s.dump cross, blankCross) = some
      { cross with
        netSpreadBps := 0, tsDetectedNs := wrap64 cross.tsDetectedNs
        sellTsBookNs := wrap64 cross.sellTsBookNs, buyTsBookNs := wrap64 cross.buyTsBookNs } := by
    rw [ExecProcess.crossOf, parseCross, hparse]
    simp [readFields, crossFields, field, crossJson, List.lookup_cons, Json.getString, getDouble, hsell, hbuy,
      Json.getInt64, bind, Except.bind, pure, Except.pure, blankCross]
  rw [legOfText, hread]
  rfl

theorem inInt64_of_wellPriced {cfg : ArbDetectorConfig} {cross : ArbCross} (priced : WellPriced cfg cross) :
    InInt64 cross.sellBidTick ∧ InInt64 cross.buyAskTick := by
  obtain ⟨hask, hcrossed, hsum, -, -, -, -⟩ := priced
  exact ⟨⟨by omega, by omega⟩, ⟨by omega, by omega⟩⟩

/-- The orders of an exec are legs of what it has read. -/
theorem orders_of_frames (fed : Fed s c) (intact : none ∉ c.received) :
    (c.exec.orders.map ExecProcess.leg).Sublist (c.received.reduceOption.filterMap (legOfText s)) := by
  obtain ⟨events, hexec, hreceived⟩ := fed
  obtain ⟨hread, horders⟩ := ExecProcess.orders_follow_crosses s.cfg s.parse {} events
  rw [← hexec] at hread horders
  let reads := ExecProcess.framesRead s.cfg s.parse {} events
  have htexts : (reads.map Prod.fst).Sublist c.received.reduceOption := by
    rw [reads_of_intact hreceived intact]
    exact ((List.prefix_append _ _).trans hread).sublist
  have hlegs : (reads.filterMap (ExecProcess.crossOf s.parse)).filterMap (legFor s.cfg.myVenue) =
      (reads.map Prod.fst).filterMap (legOfText s) := by
    rw [List.filterMap_filterMap, List.filterMap_map]
    exact List.filterMap_congr fun read _ => leg_of_read s read
  have hstart : (({} : ExecProcess).orders.map ExecProcess.leg) = [] := rfl
  rw [hstart, List.nil_append] at horders
  exact (hlegs ▸ horders).trans (htexts.filterMap _)

/-- As `main` holds the server, no exec ever gets an order. -/
theorem orders_of_uniquePtr (owner : s.owner = .uniquePtr) (events : List ChainEvent) :
    (Runs.run (step s) (start s) events).exec.orders = [] := by
  have inv : Inv s (Runs.run (step s) (start s) events) := Inv.run s events
  have hsilent : Silent (Runs.run (step s) (start s) events) :=
    Runs.invariant_run (fun _ e silent => silent.step owner e) ⟨rfl, rfl, rfl⟩ events
  have horders := orders_of_frames inv.fed (hsilent.received ▸ List.not_mem_nil)
  rw [hsilent.received] at horders
  exact List.map_eq_nil_iff.mp (List.sublist_nil.mp horders)

/-- From the books to the orders: however the processes interleave, whatever the cap on sessions refuses and
    connections lose, the orders of an exec are, in order of emission and none twice, legs of crosses that the
    brain has emitted, at prices that the detector has checked, as long as no full outbox evicts the string that
    is being written.  Under a unique owner there are none. -/
theorem orders_follow_emissions (s : Setting) (events : List ChainEvent)
    (library : ∀ cross ∈ (Runs.run (step s) (start s) events).signals,
      ReadsBack s.dump s.parse (crossJson cross))
    (spares : Runs.Along (step s) SparesInFlight (start s) events) :
    ((Runs.run (step s) (start s) events).exec.orders.map ExecProcess.leg).Sublist
        ((Runs.run (step s) (start s) events).signals.filterMap (legFor s.cfg.myVenue)) ∧
      (∀ order ∈ (Runs.run (step s) (start s) events).exec.orders,
        ∃ cross ∈ (Runs.run (step s) (start s) events).signals,
          legFor s.cfg.myVenue cross = some (ExecProcess.leg order) ∧ WellPriced s.opts.arbConfig cross) ∧
      (s.owner = .uniquePtr → (Runs.run (step s) (start s) events).exec.orders = []) := by
  have inv : Inv s (Runs.run (step s) (start s) events) := Inv.run s events
  have hintact : Intact (Runs.run (step s) (start s) events) := Intact.run spares
  have hunique := fun owner => orders_of_uniquePtr (s := s) owner events
  generalize Runs.run (step s) (start s) events = c at library inv hintact hunique
  have hsent : (c.sent s).filterMap (legOfText s) =
      (c.signals.take c.broadcasted).filterMap (legFor s.cfg.myVenue) := by
    rw [sent, List.filterMap_map]
    apply List.filterMap_congr
    intro cross hcross
    have hsignal : cross ∈ c.signals := List.mem_of_mem_take hcross
    obtain ⟨hsell, hbuy⟩ := inInt64_of_wellPriced (inv.priced.signals cross hsignal)
    exact leg_of_serialized (library cross hsignal) hsell hbuy
  have hsub : (c.exec.orders.map ExecProcess.leg).Sublist (c.signals.filterMap (legFor s.cfg.myVenue)) :=
    calc (c.exec.orders.map ExecProcess.leg).Sublist (c.received.reduceOption.filterMap (legOfText s)) :=
          orders_of_frames inv.fed hintact.received
      List.Sublist _ ((c.sent s).filterMap (legOfText s)) := inv.link.received.filterMap _
      _ = (c.signals.take c.broadcasted).filterMap (legFor s.cfg.myVenue) := hsent
      List.Sublist _ (c.signals.filterMap (legFor s.cfg.myVenue)) := (List.take_sublist _ _).filterMap _
  refine ⟨hsub, ?_, hunique⟩
  intro order horder
  have hleg : ExecProcess.leg order ∈ c.signals.filterMap (legFor s.cfg.myVenue) :=
    hsub.subset (List.mem_map_of_mem horder)
  obtain ⟨cross, hcross, hlegFor⟩ := List.mem_filterMap.mp hleg
  exact ⟨cross, hcross, hlegFor, inv.priced.signals cross hcross⟩

/-- An exec connects, two books cross, the cross is broadcast, received, and acted on. -/
def oneCross : List ChainEvent :=
  [.hub .start, .connect, .hub (.posted 0), .hub (.completed 0 0 true), .hub (.completed 0 0 true)] ++
    crossedQuotes.map .brain ++
    [.broadcast, .hub (.posted 0), .hub (.completed 0 1 true), .receive "", .exec (.run 9 blankCross)]

/-- The cross of that run. -/
def quotedCross : ArbCross :=
  { sellVenue := "okx", buyVenue := "bybit", sellBidTick := 300, buyAskTick := 200
    spreadBps := 4000, netSpreadBps := 4000, tsDetectedNs := 5, sellTsBookNs := 0, buyTsBookNs := 0 }

/-- Its frame. -/
def quotedCrossText : String :=
  "\x7b\"buy_ask_tick\":200,\"buy_ts_book_ns\":0,\"buy_venue\":\"bybit\",\"event_type\":\"arb_cross\"," ++
    "\"net_spread_bps\":4000.0,\"schema_version\":1,\"sell_bid_tick\":300,\"sell_ts_book_ns\":0," ++
    "\"sell_venue\":\"okx\",\"spread_bps\":4000.0,\"ts_detected_ns\":5\x7d"

theorem brainDepth_pos : 0 < 50 := Nat.zero_lt_succ 49

/-- Default options, a shared server, an exec of the buying venue, and the library on the frame. -/
def oneCrossSetting : Setting where
  opts := { depth_pos := brainDepth_pos }
  owner := .sharedPtr
  cfg := { myVenue := "bybit", positionLimit := 0, maxOrderNotional := 0, cooldownNs := 0, targetQty := 1 }
  dump _ := quotedCrossText
  parse text := if text = quotedCrossText then some (crossJson quotedCross) else none

theorem readsBack_quotedCross :
    ReadsBack oneCrossSetting.dump oneCrossSetting.parse (crossJson quotedCross) := by
  simp [ReadsBack, oneCrossSetting]

theorem signals_oneCross :
    (Runs.run (step oneCrossSetting) (start oneCrossSetting) oneCross).signals = [quotedCross] := by
  decide +kernel

/-- The order of that run is the leg of its cross. -/
theorem orders_follow_emissions_one_cross :
    let c := Runs.run (step oneCrossSetting) (start oneCrossSetting) oneCross
    c.exec.orders.map ExecProcess.leg = [(.buy, 200)] ∧
      (c.exec.orders.map ExecProcess.leg).Sublist (c.signals.filterMap (legFor "bybit")) := by
  refine ⟨by decide +kernel, (orders_follow_emissions oneCrossSetting oneCross ?_ (by decide +kernel)).1⟩
  intro cross hcross
  rw [signals_oneCross, List.mem_singleton] at hcross
  exact hcross ▸ readsBack_quotedCross

end SignalChain

end ZidaBot
