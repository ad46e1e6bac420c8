/-
Module: ZidaBot.Proofs.SignalOrder
Purpose: What an exec gets from the signal server.  In every run of the server with its sessions, the messages
  whose write on a session has completed, and then the one that is being written, are a subsequence of the
  broadcasts: a session may lose messages, since its outbox is bounded and a failed write is tried again with
  what stands in front by then, but it delivers in order and nothing twice.  A full outbox makes room at the
  front, where the string of the write in flight stands; only such a write sends anything but a message.
Trusted boundary: none
Main exports: LiveSession.InOrder, LiveSession.FreesInFlight, SignalHub.delivered, SignalHub.onWire,
  SignalHub.inOrder_run, SignalHub.SparesInFlight, SignalHub.Intact, delivered_in_order
-/
import ZidaBot.Proofs.SignalServer
import ZidaBot.Proofs.SignalSessions
import Mathlib.Data.List.Nodup
import Mathlib.Data.List.ReduceOption

namespace ZidaBot.Brain

/-- The message of a posted lambda. -/
def Posted.msg? : Posted → Option String
  | .run => none
  | .send msg => some msg
  | .close => none

namespace LiveSession

variable {c : LiveSession} {sent done : List String}

/-- The messages on the strand. -/
def messages (c : LiveSession) : List String := c.strand.filterMap Posted.msg?

/-- The message of the write that was started last. -/
def lastStarted (c : LiveSession) : Option String := c.started.getLast?.bind fun w => w.outbox.head?

/-- What that write sends: its message, or bytes that stood in its memory later, which are `none`. -/
def sending (c : LiveSession) : Option String := if c.dangling then none else c.lastStarted

/-- A session that was sent `sent` and has written `done`: what is written, queued and on the strand is in the
    order of sending, and so is what is written and being written with the rest of the queue.  The message
    being written need not stand in the queue any more. -/
structure InOrder (sent done : List String) (c : LiveSession) : Prop where
  loop : c.Loop
  queued : (done ++ (c.outbox ++ c.messages)).Sublist sent
  writing : c.writing = true →
    ∃ msg, c.lastStarted = some msg ∧ (done ++ msg :: (c.outbox.tail ++ c.messages)).Sublist sent

theorem InOrder.new (sent : List String) : InOrder sent [] {} :=
  ⟨loop_new, List.nil_sublist _, fun h => (by cases h)⟩

/-- More is sent, but not to this session. -/
theorem InOrder.more {later : List String} (order : InOrder sent done c) (more : sent.Sublist later) :
    InOrder later done c := by
  refine ⟨order.loop, order.queued.trans more, ?_⟩
  intro hwriting
  obtain ⟨msg, hstarted, hsub⟩ := order.writing hwriting
  exact ⟨msg, hstarted, hsub.trans more⟩

/-- A message is posted. -/
theorem InOrder.post (order : InOrder sent done c) (posted : Posted) :
    InOrder (sent ++ posted.msg?.toList) done (c.post posted) := by
  have hmessages : (c.post posted).messages = c.messages ++ posted.msg?.toList := by
    cases posted <;> simp [LiveSession.post, messages, Posted.msg?]
  refine ⟨order.loop.strand _, ?_, ?_⟩
  · rw [hmessages, ← List.append_assoc (c.post posted).outbox, ← List.append_assoc]
    exact order.queued.append (List.Sublist.refl _)
  · intro hwriting
    obtain ⟨msg, hstarted, hsub⟩ := order.writing hwriting
    refine ⟨msg, hstarted, ?_⟩
    rw [hmessages, ← List.append_assoc (c.post posted).outbox.tail, ← List.cons_append, ← List.append_assoc]
    exact hsub.append (List.Sublist.refl _)

/-- A write is started with the front of the queue. -/
theorem lastStarted_doWrite (c : LiveSession) : c.doWrite.lastStarted = c.outbox.head? := by
  simp [lastStarted, LiveSession.doWrite]

theorem writing_doWrite (queued : c.outbox ≠ []) (order : (done ++ (c.outbox ++ c.messages)).Sublist sent) :
    ∃ msg, c.doWrite.lastStarted = some msg ∧
      (done ++ msg :: (c.doWrite.outbox.tail ++ c.doWrite.messages)).Sublist sent := by
  rw [lastStarted_doWrite]
  cases houtbox : c.outbox with
  | nil => exact absurd houtbox queued
  | cons front rest =>
      refine ⟨front, rfl, ?_⟩
      have htail : c.doWrite.outbox.tail = rest := congrArg List.tail houtbox
      rw [htail]
      rw [houtbox] at order
      exact order

/-- The message at the front of the strand is sent. -/
theorem InOrder.send {msg : String} {strand : List Posted} (order : InOrder sent done c)
    (front : c.strand = .send msg :: strand) :
    InOrder sent done (({ c with strand := strand } : LiveSession).send msg) := by
  let rest : LiveSession := { c with strand := strand }
  let kept := if c.full then c.outbox.tail else c.outbox
  let freed := c.dangling || (c.full && c.writing)
  have hmessages : c.messages = msg :: rest.messages := by
    rw [messages, front]
    rfl
  have hkept : kept.Sublist c.outbox := by
    simp only [kept]
    split
    · exact List.tail_sublist _
    · exact List.Sublist.refl _
  have hqueue : (done ++ (kept ++ [msg] ++ rest.messages)).Sublist sent := by
    have hqueued := order.queued
    rw [hmessages] at hqueued
    refine List.Sublist.trans ?_ hqueued
    rw [List.append_assoc kept, List.singleton_append]
    exact (List.Sublist.refl done).append (hkept.append (List.Sublist.refl _))
  have hloop : (rest.send msg).Loop := (order.loop.strand strand).send msg
  by_cases hwriting : c.writing = true
  · -- the write in flight goes on, even if its message was dropped
    have hbusy : ¬ (!c.writing) = true := by simp [hwriting]
    have hsend : rest.send msg = { rest with outbox := kept ++ [msg], dangling := freed } := if_neg hbusy
    rw [hsend] at hloop ⊢
    refine ⟨hloop, hqueue, fun _ => ?_⟩
    obtain ⟨msg', hstarted, hsub⟩ := order.writing hwriting
    refine ⟨msg', hstarted, List.Sublist.trans ?_ hsub⟩
    have htail : (kept ++ [msg]).tail.Sublist (c.outbox.tail ++ [msg]) := by
      simp only [kept]
      split
      · exact List.tail_sublist _
      · rw [List.tail_append_of_ne_nil (order.loop.busy hwriting)]
    rw [hmessages, List.append_cons c.outbox.tail]
    exact (List.Sublist.refl done).append ((htail.append (List.Sublist.refl _)).cons_cons msg')
  · have hsend : rest.send msg = LiveSession.doWrite { rest with outbox := kept ++ [msg] } := by
      have hidle : c.writing = false := by simpa using hwriting
      simp only [LiveSession.send, rest, hidle, kept]
      rfl
    rw [hsend] at hloop ⊢
    refine ⟨hloop, hqueue, fun _ => ?_⟩
    exact writing_doWrite (c := { rest with outbox := kept ++ [msg], dangling := freed }) (by simp) hqueue

/-- The members that the order is about. -/
def SameQueue (c c' : LiveSession) : Prop :=
  c'.outbox = c.outbox ∧ c'.messages = c.messages ∧ c'.started = c.started ∧ c'.writing = c.writing

theorem InOrder.same {c' : LiveSession} (order : InOrder sent done c) (loop : c'.Loop) (same : SameQueue c c') :
    InOrder sent done c' := by
  obtain ⟨houtbox, hmessages, hstarted, hwriting⟩ := same
  refine ⟨loop, ?_, ?_⟩
  · rw [houtbox, hmessages]
    exact order.queued
  · rw [houtbox, hmessages, hwriting, lastStarted, hstarted]
    exact order.writing

/-- The completion of another operation than a write. -/
theorem completed_other {i : Nat} (other : c.ops[i]? ≠ some .write) (ok : Bool) :
    SameQueue c (c.completed i ok) := by
  rw [LiveSession.completed]
  split
  · exact ⟨rfl, rfl, rfl, rfl⟩
  · rename_i op hfound
    cases op with
    | tlsHandshake => cases ok <;> exact ⟨rfl, rfl, rfl, rfl⟩
    | wsAccept => cases ok <;> exact ⟨rfl, rfl, rfl, rfl⟩
    | read => cases ok <;> exact ⟨rfl, rfl, rfl, rfl⟩
    | write => exact absurd hfound other

/-- What a completion delivers. -/
def delivers (c : LiveSession) (i : Nat) (ok : Bool) : Option (Option String) :=
  if ok = true ∧ c.ops[i]? = some .write then some c.sending else none

/-- What a write sends, if it is a message at all, is the one that it was started with. -/
theorem sending_sublist {msg : String} (started : c.lastStarted = some msg) :
    c.sending.toList.Sublist [msg] := by
  rw [sending, started]
  split
  · exact List.nil_sublist _
  · exact List.Sublist.refl _

theorem InOrder.completed (order : InOrder sent done c) (i : Nat) (ok : Bool) :
    InOrder sent (done ++ (c.delivers i ok).join.toList) (c.completed i ok) := by
  have hloop := order.loop.completed i ok
  by_cases hwrite : c.ops[i]? = some .write
  · obtain ⟨hwriting, -⟩ := order.loop.completed_write hwrite
    obtain ⟨msg, hstarted, hsub⟩ := order.writing hwriting
    cases ok with
    | false =>
        have hcompleted : c.completed i false = { c with ops := c.ops.eraseIdx i, writing := false } := by
          simp [LiveSession.completed, hwrite, onWrite]
        rw [hcompleted] at hloop ⊢
        rw [delivers, if_neg (by simp), Option.join_none, Option.toList_none, List.append_nil]
        exact ⟨hloop, order.queued, fun h => (by cases h)⟩
    | true =>
        rw [delivers, if_pos ⟨rfl, hwrite⟩, Option.join_some]
        have hdone : (done ++ c.sending.toList ++ (c.outbox.tail ++ c.messages)).Sublist sent := by
          refine List.Sublist.trans ?_ hsub
          rw [List.append_cons done]
          exact ((List.Sublist.refl done).append (sending_sublist hstarted)).append (List.Sublist.refl _)
        let rest : LiveSession := { c with ops := c.ops.eraseIdx i, outbox := c.outbox.tail }
        by_cases hempty : c.outbox.tail = []
        · have hcompleted : c.completed i true = { rest with writing := false } := by
            simp [LiveSession.completed, hwrite, onWrite, hempty, rest]
          rw [hcompleted] at hloop ⊢
          exact ⟨hloop, hdone, fun h => (by cases h)⟩
        · have hcompleted : c.completed i true = rest.doWrite := by
            simp [LiveSession.completed, hwrite, onWrite, hempty, rest]
          rw [hcompleted] at hloop ⊢
          exact ⟨hloop, hdone, fun _ => writing_doWrite (c := rest) hempty hdone⟩
  · rw [delivers, if_neg (fun both => hwrite both.2), Option.join_none, Option.toList_none, List.append_nil]
    exact order.same hloop (completed_other hwrite ok)

/-- The oldest lambda on the strand runs. -/
theorem InOrder.runPosted (order : InOrder sent done c) : InOrder sent done c.runPosted := by
  have hloop := order.loop.runPosted
  rw [LiveSession.runPosted] at hloop ⊢
  split at hloop
  · exact order
  · rename_i strand hstrand
    have hmessages : strand.filterMap Posted.msg? = c.messages := by
      rw [messages, hstrand]
      rfl
    exact order.same hloop ⟨rfl, hmessages, rfl, rfl⟩
  · rename_i msg strand hstrand
    exact order.send hstrand
  · rename_i strand hstrand
    have hmessages : strand.filterMap Posted.msg? = c.messages := by
      rw [messages, hstrand]
      rfl
    exact order.same hloop ⟨rfl, hmessages, rfl, rfl⟩

/-! ### The string in flight

`send` evicts at the front, and the front is what a write in flight reads.  That a session is sent something
while it is writing with a full outbox is the only way in which the string goes. -/

/-- The next message on the strand evicts the string in flight. -/
def FreesInFlight (c : LiveSession) : Prop :=
  c.full = true ∧ c.writing = true ∧ (c.strand.head?.bind Posted.msg?).isSome = true

instance : DecidablePred FreesInFlight := fun _ => inferInstanceAs (Decidable (_ ∧ _))

theorem dangling_runPosted (intact : c.dangling = false) (spares : ¬ c.FreesInFlight) :
    c.runPosted.dangling = false := by
  rw [LiveSession.runPosted]
  split
  · exact intact
  · exact intact
  · rename_i msg strand hstrand
    by_cases hwriting : c.writing = true
    · have hroom : ¬ kMaxOutbox ≤ c.outbox.length := fun hfull =>
        spares ⟨decide_eq_true hfull, hwriting, by rw [hstrand]; rfl⟩
      simp [LiveSession.send, LiveSession.full, hwriting, hroom, intact]
    · simp [LiveSession.send, LiveSession.doWrite, hwriting]
  · exact intact

theorem dangling_onWrite (intact : c.dangling = false) (ok : Bool) : (c.onWrite ok).dangling = false := by
  rcases onWrite_cases c ok with ⟨outbox, -, hnext⟩ | ⟨outbox, hrest⟩
  · rw [hnext]
    rfl
  · rw [hrest]
    exact intact

theorem dangling_completed (intact : c.dangling = false) (i : Nat) (ok : Bool) :
    (c.completed i ok).dangling = false := by
  rw [LiveSession.completed]
  split
  · exact intact
  · rename_i op _
    cases op with
    | tlsHandshake => cases ok <;> exact intact
    | wsAccept => cases ok <;> exact intact
    | read => cases ok <;> exact intact
    | write => exact dangling_onWrite (by exact intact) ok

end LiveSession

/-!
### The hub

What one session is sent is decided by the list of the server: a session is listed once, under its own number,
so a broadcast reaches it once or not at all.
-/

namespace SignalHub

variable {h : SignalHub}

/-- Every entry of the server's list is the number of a session in the table, and stands in it once. -/
structure Registered (h : SignalHub) : Prop where
  created : h.table.length = h.server.created
  listed : ∀ session ∈ h.server.sessions, session < h.server.created
  nodup : h.server.sessions.Nodup

theorem mem_unexpired {s : SignalServer} {session : Nat} (mem : session ∈ s.unexpired) : session ∈ s.sessions :=
  List.mem_of_mem_filter mem

theorem length_postAll (targets : List Nat) (posted : Posted) (table : List LiveSession) :
    (postAll targets posted table).length = table.length := by
  induction targets generalizing table with
  | nil => rfl
  | cons session targets ih =>
      rw [postAll, List.foldl_cons, ← postAll, ih]
      exact List.length_modify ..

/-- A session gets the message if it is among the targets. -/
theorem getElem?_postAll {targets : List Nat} (nodup : targets.Nodup) (posted : Posted)
    (table : List LiveSession) (k : Nat) :
    (postAll targets posted table)[k]? = table[k]?.map fun c => if k ∈ targets then c.post posted else c := by
  induction targets generalizing table with
  | nil => simp [postAll]
  | cons session targets ih =>
      obtain ⟨hfresh, hrest⟩ := List.nodup_cons.mp nodup
      rw [postAll, List.foldl_cons, ← postAll, ih hrest, List.getElem?_modify]
      cases table[k]? with
      | none => rfl
      | some c =>
          by_cases hsession : session = k
          · subst hsession
            simp [hfresh]
          · simp [hsession, Ne.symm hsession]

/-- The server after a handler on the strand of a session: its list is the same. -/
theorem onStrand_server (h : SignalHub) (session : Nat) (handler : LiveSession → LiveSession) :
    (h.onStrand session handler).server.sessions = h.server.sessions ∧
      (h.onStrand session handler).server.created = h.server.created ∧
      (h.onStrand session handler).table.length = h.table.length := by
  rw [onStrand]
  split
  · exact ⟨rfl, rfl, rfl⟩
  · rename_i c hfound
    dsimp only
    split <;> exact ⟨rfl, rfl, List.length_set⟩

@[simp] theorem doAccept_created (s : SignalServer) : s.doAccept.created = s.created := by
  rw [SignalServer.doAccept]
  split <;> rfl

/-- A completed accept creates the session with the next number, or none. -/
theorem onAccept_created (s : SignalServer) (ok : Bool) :
    ((s.onAccept ok).2 = none ∧ (s.onAccept ok).1.created = s.created ∧
        (s.onAccept ok).1.sessions.Sublist s.sessions) ∨
      ((s.onAccept ok).2 = some s.created ∧ (s.onAccept ok).1.created = s.created + 1 ∧
        (s.onAccept ok).1.sessions = s.unexpired ++ [s.created]) := by
  have hunexpired : SignalServer.unexpired { s with accepting := false } = s.unexpired := rfl
  cases ok with
  | false => exact Or.inl ⟨rfl, rfl, List.Sublist.refl _⟩
  | true =>
      simp only [SignalServer.onAccept, Bool.not_true, Bool.false_eq_true, if_false, hunexpired]
      by_cases hfull : kMaxSessions ≤ s.unexpired.length
      · left
        simp only [hfull, if_true]
        refine ⟨trivial, doAccept_created _, ?_⟩
        rw [SignalServer.doAccept_sessions]
        exact List.filter_sublist
      · right
        simp only [hfull, if_false]
        exact ⟨trivial, doAccept_created _, SignalServer.doAccept_sessions _⟩

theorem step_onAccept (h : SignalHub) (ok : Bool) :
    h.step (.onAccept ok) =
      { server := (h.server.onAccept ok).1
        table := h.table ++ if (h.server.onAccept ok).2.isSome then [{}] else [] } := by
  rw [step]
  rcases h.server.onAccept ok with ⟨server, _ | _⟩ <;> simp

@[simp] theorem broadcast_created (s : SignalServer) : s.broadcast.created = s.created := by
  rw [SignalServer.broadcast]
  split <;> rfl

theorem Registered.step (registered : Registered h) (e : HubEvent) : Registered (h.step e) := by
  have hunexpired : h.server.unexpired.Nodup := registered.nodup.filter _
  have hlisted : ∀ session ∈ h.server.unexpired, session < h.server.created :=
    fun session hmem => registered.listed session (mem_unexpired hmem)
  cases e with
  | start =>
      refine ⟨registered.created.trans (doAccept_created _).symm, ?_, ?_⟩
      · simp only [SignalHub.step, SignalServer.doAccept_sessions, doAccept_created]
        exact registered.listed
      · simp only [SignalHub.step, SignalServer.doAccept_sessions]
        exact registered.nodup
  | stopCalled => exact ⟨registered.created, registered.listed, registered.nodup⟩
  | onAccept ok =>
      rcases onAccept_created h.server ok with ⟨hnone, hcreated, hsub⟩ | ⟨hsome, hcreated, hsessions⟩
      · rw [step_onAccept, hnone]
        refine ⟨(List.length_append.trans (by simp [registered.created])).trans hcreated.symm, ?_,
          hsub.nodup registered.nodup⟩
        intro session hmem
        exact hcreated.symm ▸ registered.listed session (hsub.subset hmem)
      · rw [step_onAccept, hsome]
        refine ⟨?_, ?_, ?_⟩
        · rw [hcreated, List.length_append, registered.created]
          rfl
        · intro session hmem
          rw [hsessions] at hmem
          rw [hcreated]
          rcases List.mem_append.mp hmem with hold | hnew
          · exact Nat.lt_succ_of_lt (hlisted session hold)
          · rw [List.mem_singleton.mp hnew]
            exact Nat.lt_succ_self _
        · rw [hsessions, ← List.concat_eq_append]
          refine List.Nodup.concat ?_ hunexpired
          intro hmem
          exact Nat.lt_irrefl _ (hlisted _ hmem)
  | broadcast text =>
      refine ⟨(length_postAll ..).trans (registered.created.trans (broadcast_created _).symm), ?_, ?_⟩
      · simp only [SignalHub.step, SignalServer.broadcast_sessions, broadcast_created]
        exact hlisted
      · simp only [SignalHub.step, SignalServer.broadcast_sessions]
        exact hunexpired
  | stop =>
      refine ⟨(length_postAll ..).trans registered.created, ?_, List.nodup_nil⟩
      intro session hmem
      cases hmem
  | posted session =>
      obtain ⟨hsessions, hcreated, hlength⟩ := h.onStrand_server session LiveSession.runPosted
      refine ⟨hlength.trans (registered.created.trans hcreated.symm), ?_, ?_⟩
      · rw [SignalHub.step, hsessions, hcreated]
        exact registered.listed
      · rw [SignalHub.step, hsessions]
        exact registered.nodup
  | completed session op ok =>
      obtain ⟨hsessions, hcreated, hlength⟩ := h.onStrand_server session fun c => c.completed op ok
      refine ⟨hlength.trans (registered.created.trans hcreated.symm), ?_, ?_⟩
      · rw [SignalHub.step, hsessions, hcreated]
        exact registered.listed
      · rw [SignalHub.step, hsessions]
        exact registered.nodup

/-!
### Delivery

What a session has written is a history of completions. The frame in flight comes last: whether its write
completes or fails is open, and it is a message or the bytes of a string that is gone.
-/

/-- The message of a broadcast. -/
def broadcast? : HubEvent → Option String
  | .broadcast text => some text
  | _ => none

/-- The broadcasts of a run. -/
def broadcasts (events : List HubEvent) : List String := events.filterMap broadcast?

/-- What a step delivers on a session: a write of the session completes. -/
def delivers (k : Nat) (h : SignalHub) (e : HubEvent) : Option (Option String) :=
  match e with
  | .completed session op ok =>
      if session = k then h.table[k]?.bind fun c => c.delivers op ok else none
  | _ => none

/-- What a run delivers on a session; `none` stands for bytes of a string that was freed under its write. -/
def delivered (k : Nat) (h : SignalHub) (events : List HubEvent) : List (Option String) :=
  Runs.outputs step (delivers k) h events

/-- What is being written on a session, if anything is. -/
def beingWritten (k : Nat) (h : SignalHub) : Option (Option String) :=
  h.table[k]?.bind fun c => if c.writing then some c.sending else none

/-- What a run has put on the wire of a session, down to the write in flight. -/
def onWire (k : Nat) (events : List HubEvent) : List (Option String) :=
  delivered k {} events ++ (beingWritten k (Runs.run step {} events)).toList

/-- The session with this number, if it exists, delivers in order. -/
structure InOrder (k : Nat) (sent done : List String) (h : SignalHub) : Prop where
  registered : Registered h
  session : ∀ c, h.table[k]? = some c → c.InOrder sent done
  absent : h.table[k]? = none → done = []

theorem getElem?_onStrand (h : SignalHub) (session : Nat) (handler : LiveSession → LiveSession) (k : Nat) :
    (h.onStrand session handler).table[k]? =
      if session = k then h.table[k]?.map handler else h.table[k]? := by
  rw [onStrand]
  by_cases hsession : session = k
  · subst hsession
    rw [if_pos rfl]
    cases hfound : h.table[session]? with
    | none => simp [hfound]
    | some c =>
        obtain ⟨hlt, -⟩ := List.getElem?_eq_some_iff.mp hfound
        simp [hlt]
  · rw [if_neg hsession]
    cases h.table[session]? with
    | none => rfl
    | some c => simp [hsession]

/-- A handler on some strand. -/
theorem InOrder.onStrand {k session : Nat} {sent done more : List String} {handler : LiveSession → LiveSession}
    (order : InOrder k sent done h) (registered : Registered (h.onStrand session handler))
    (handled : ∀ c, session = k → h.table[k]? = some c → (handler c).InOrder sent (done ++ more))
    (other : session ≠ k → more = []) (none : h.table[k]? = none → more = []) :
    InOrder k sent (done ++ more) (h.onStrand session handler) := by
  refine ⟨registered, ?_, ?_⟩
  · intro c hc
    rw [getElem?_onStrand] at hc
    by_cases hsession : session = k
    · rw [if_pos hsession] at hc
      obtain ⟨before, hbefore, rfl⟩ := Option.map_eq_some_iff.mp hc
      exact handled before hsession hbefore
    · rw [if_neg hsession] at hc
      rw [other hsession, List.append_nil]
      exact order.session c hc
  · intro hnone
    rw [getElem?_onStrand] at hnone
    have hbefore : h.table[k]? = .none := by
      split at hnone
      · exact Option.map_eq_none_iff.mp hnone
      · exact hnone
    rw [order.absent hbefore, none hbefore]
    rfl

theorem InOrder.step {k : Nat} {sent done : List String} (order : InOrder k sent done h) (e : HubEvent) :
    InOrder k (sent ++ (broadcast? e).toList) (done ++ (delivers k h e).join.toList) (h.step e) := by
  have hregistered : Registered (h.step e) := order.registered.step e
  cases e with
  | start =>
      simp only [broadcast?, delivers, Option.join_none, Option.toList_none, List.append_nil]
      exact ⟨hregistered, order.session, order.absent⟩
  | stopCalled =>
      simp only [broadcast?, delivers, Option.join_none, Option.toList_none, List.append_nil]
      exact ⟨hregistered, order.session, order.absent⟩
  | onAccept ok =>
      simp only [broadcast?, delivers, Option.join_none, Option.toList_none, List.append_nil]
      refine ⟨hregistered, ?_, ?_⟩
      · intro c hc
        rw [step_onAccept] at hc
        simp only [List.getElem?_append] at hc
        split at hc
        · exact order.session c hc
        · rename_i hbeyond
          have hnew : c = {} := by
            have hmem := List.mem_of_getElem? hc
            split at hmem
            · exact List.mem_singleton.mp hmem
            · cases hmem
          rw [hnew, order.absent (List.getElem?_eq_none (Nat.le_of_not_lt hbeyond))]
          exact LiveSession.InOrder.new sent
      · intro hnone
        rw [step_onAccept, List.getElem?_eq_none_iff, List.length_append] at hnone
        exact order.absent (List.getElem?_eq_none (Nat.le_trans (Nat.le_add_right _ _) hnone))
  | broadcast text =>
      have htargets : h.server.broadcast.sessions.Nodup := hregistered.nodup
      simp only [delivers, Option.join_none, Option.toList_none, List.append_nil]
      refine ⟨hregistered, ?_, ?_⟩
      · intro c hc
        simp only [SignalHub.step, getElem?_postAll htargets] at hc
        obtain ⟨before, hbefore, hafter⟩ := Option.map_eq_some_iff.mp hc
        have hold := order.session before hbefore
        split at hafter
        · rw [← hafter]
          exact hold.post (.send text)
        · rw [← hafter]
          exact hold.more (List.sublist_append_left ..)
      · intro hnone
        simp only [SignalHub.step, getElem?_postAll htargets, Option.map_eq_none_iff] at hnone
        exact order.absent hnone
  | stop =>
      have htargets : h.server.unexpired.Nodup := order.registered.nodup.filter _
      simp only [broadcast?, delivers, Option.join_none, Option.toList_none, List.append_nil]
      refine ⟨hregistered, ?_, ?_⟩
      · intro c hc
        simp only [SignalHub.step, getElem?_postAll htargets] at hc
        obtain ⟨before, hbefore, hafter⟩ := Option.map_eq_some_iff.mp hc
        have hold := order.session before hbefore
        split at hafter
        · rw [← hafter]
          have hposted := hold.post .close
          rw [Posted.msg?, Option.toList_none, List.append_nil] at hposted
          exact hposted
        · rw [← hafter]
          exact hold
      · intro hnone
        simp only [SignalHub.step, getElem?_postAll htargets, Option.map_eq_none_iff] at hnone
        exact order.absent hnone
  | posted session =>
      simp only [broadcast?, delivers, Option.join_none, Option.toList_none, List.append_nil]
      have hstrand : InOrder k sent (done ++ []) (h.onStrand session LiveSession.runPosted) := by
        apply order.onStrand hregistered
        · intro c _ hfound
          rw [List.append_nil]
          exact (order.session c hfound).runPosted
        · exact fun _ => rfl
        · exact fun _ => rfl
      rw [List.append_nil] at hstrand
      exact hstrand
  | completed session op ok =>
      simp only [broadcast?, Option.toList_none, List.append_nil]
      apply order.onStrand hregistered
      · intro c hsession hfound
        simp only [delivers, if_pos hsession, hfound, Option.bind_some]
        exact (order.session c hfound).completed op ok
      · intro hsession
        simp only [delivers, if_neg hsession, Option.join_none, Option.toList_none]
      · intro hnone
        simp only [delivers, hnone, Option.bind_none, ite_self, Option.join_none, Option.toList_none]

theorem reduceOption_toList {α : Type*} (o : Option (Option α)) : o.toList.reduceOption = o.join.toList := by
  rcases o with _ | _ | a <;> rfl

theorem inOrder_run {k : Nat} {sent done : List String} (order : InOrder k sent done h) (events : List HubEvent) :
    InOrder k (sent ++ broadcasts events) (done ++ (delivered k h events).reduceOption)
      (Runs.run step h events) := by
  induction events generalizing h sent done with
  | nil => simpa [broadcasts, delivered, Runs.outputs] using order
  | cons e events ih =>
      have hnext := ih (order.step e)
      have hbroadcasts : broadcasts (e :: events) = (broadcast? e).toList ++ broadcasts events := by
        cases e <;> rfl
      have hdelivered : (delivered k h (e :: events)).reduceOption =
          (delivers k h e).join.toList ++ (delivered k (h.step e) events).reduceOption := by
        rw [delivered, Runs.outputs, List.reduceOption_append, reduceOption_toList]
        rfl
      rw [Runs.run_cons, hbroadcasts, hdelivered, ← List.append_assoc, ← List.append_assoc]
      exact hnext

/-! ### Strings that outlive their writes

As long as no session is sent anything while it is writing with a full outbox, no string is freed under its
write, and all that comes out of the server are messages. -/

/-- The step frees no string that is being written. -/
def SparesInFlight (h : SignalHub) : HubEvent → Prop
  | .posted session => ∀ c, h.table[session]? = some c → ¬ c.FreesInFlight
  | _ => True

instance (h : SignalHub) : DecidablePred h.SparesInFlight
  | .posted session => inferInstanceAs (Decidable (∀ c ∈ h.table[session]?, ¬ c.FreesInFlight))
  | .start | .stopCalled | .onAccept _ | .broadcast _ | .stop | .completed .. => isTrue trivial

/-- No string has been freed under its write. -/
def Intact (h : SignalHub) : Prop := ∀ c ∈ h.table, c.dangling = false

theorem intact_new : Intact {} := by simp [Intact]

theorem Intact.step (intact : Intact h) {e : HubEvent} (spares : h.SparesInFlight e) : Intact (h.step e) := by
  apply forall_step e intact rfl
  · exact fun c posted intact => intact
  · exact fun c op ok intact => LiveSession.dangling_completed intact op ok
  · intro session c he hfound
    subst he
    exact LiveSession.dangling_runPosted (intact c (List.mem_of_getElem? hfound)) (spares c hfound)

/-- A session whose string stands sends a message. -/
theorem sending_ne_none {c : LiveSession} {sent done : List String} (order : c.InOrder sent done)
    (intact : c.dangling = false) (writing : c.writing = true) : c.sending ≠ none := by
  obtain ⟨msg, hstarted, -⟩ := order.writing writing
  rw [LiveSession.sending, intact, hstarted]
  exact Option.some_ne_none msg

theorem delivers_ne_none {k : Nat} {sent done : List String} (order : InOrder k sent done h)
    (intact : Intact h) (e : HubEvent) : delivers k h e ≠ some none := by
  cases e with
  | completed session op ok =>
      rw [delivers]
      split
      · cases hfound : h.table[k]? with
        | none => simp
        | some c =>
            rw [Option.bind_some, LiveSession.delivers]
            split
            · rename_i hwrite
              have hsession := order.session c hfound
              obtain ⟨hwriting, -⟩ := hsession.loop.completed_write hwrite.2
              have hmessage := sending_ne_none hsession (intact c (List.mem_of_getElem? hfound)) hwriting
              exact fun hnone => hmessage (Option.some.inj hnone)
            · exact nofun
      · exact nofun
  | _ => exact nofun

theorem delivered_intact {k : Nat} {sent done : List String} (order : InOrder k sent done h) (intact : Intact h)
    {events : List HubEvent} (spares : Runs.Along step SparesInFlight h events) :
    none ∉ delivered k h events := by
  induction events generalizing h sent done with
  | nil => exact List.not_mem_nil
  | cons e events ih =>
      rw [delivered, Runs.outputs, List.mem_append]
      rintro (hnow | hlater)
      · exact delivers_ne_none order intact e (Option.mem_toList.mp hnow)
      · exact ih (order.step e) (intact.step spares.1) spares.2 hlater

/-- A session delivers in order.  In every run of the signal server, with any number of connections in any
    state, the messages whose write on a session has completed, and then the one being written, are a
    subsequence of the broadcasts.  And as long as no session is sent a message while it is writing with a full
    outbox, nothing else is written: no bytes of a string that was freed under its write. -/
theorem delivered_in_order (k : Nat) (events : List HubEvent) :
    (onWire k events).reduceOption.Sublist (broadcasts events) ∧
      (Runs.Along step SparesInFlight {} events → none ∉ onWire k events) := by
  have hstart : InOrder k [] [] {} :=
    ⟨⟨rfl, fun _ h => (by cases h), List.nodup_nil⟩, fun _ h => (by cases h), fun _ => rfl⟩
  have horder := inOrder_run hstart events
  rw [List.nil_append, List.nil_append] at horder
  constructor
  · rw [onWire, List.reduceOption_append, beingWritten]
    cases hfound : (Runs.run step {} events).table[k]? with
    | none =>
        rw [horder.absent hfound]
        exact List.nil_sublist _
    | some c =>
        have hsession := horder.session c hfound
        rw [Option.bind_some]
        split
        · rename_i hwriting
          obtain ⟨msg, hstarted, hsub⟩ := hsession.writing hwriting
          rw [reduceOption_toList, Option.join_some]
          rw [List.append_cons] at hsub
          have hmessage := LiveSession.sending_sublist hstarted
          exact ((List.Sublist.refl _).append hmessage).trans ((List.sublist_append_left ..).trans hsub)
        · rw [Option.toList_none, List.reduceOption_nil, List.append_nil]
          exact (List.sublist_append_left ..).trans hsession.queued
  · intro spares
    have hstep : ∀ (h : SignalHub) (e : HubEvent), Intact h → h.SparesInFlight e → Intact (h.step e) :=
      fun h e intact spares => intact.step spares
    have hintact : Intact (Runs.run step {} events) := Runs.Along.invariant hstep intact_new spares
    rw [onWire, List.mem_append]
    rintro (hdone | hwriting)
    · exact delivered_intact hstart intact_new spares hdone
    · obtain ⟨c, hfound, hc⟩ := Option.bind_eq_some_iff.mp (Option.mem_toList.mp hwriting)
      split at hc
      · rename_i hbusy
        exact sending_ne_none (horder.session c hfound) (hintact c (List.mem_of_getElem? hfound)) hbusy
          (Option.some.inj hc)
      · cases hc

/-- A session that is writing gets 64 more messages.  The last of them evicts the string in flight. -/
example :
    let late := List.replicate 65 [HubEvent.broadcast "cross", .posted 0]
    onWire 0 ([.start, .onAccept true, .posted 0, .completed 0 0 true, .completed 0 0 true] ++ late.flatten) =
      [none] := by
  decide +kernel

end SignalHub

end ZidaBot.Brain
