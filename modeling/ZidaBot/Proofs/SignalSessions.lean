/-
Module: ZidaBot.Proofs.SignalSessions
Purpose: The writes of signal sessions.  In every run a session has at most one write in flight and starts
  none with an empty outbox.  But a session is in the list of the server as soon as its socket is accepted,
  and `send` does not ask how far its connection has come: a message that reaches the session before the
  WebSocket accept has completed is written at once.  Writes start on accepted WebSockets exactly if no
  message runs on the strand of a session before that.
Trusted boundary: none
Main exports: LiveSession.Loop, WriteStart.Proper, LiveSession.Orderly, LiveSession.orderly_runPosted_iff,
  SignalHub.forall_step, SignalHub.server_run, hasOutbox_run, SendsAfterAccept, writes_alone,
  writes_on_accepted_iff, write_before_accept
-/
import ZidaBot.Brain.SignalServer
import ZidaBot.Library.Runs
import Mathlib.Data.List.Perm.Basic

namespace ZidaBot.Brain

/-- The write was started on an accepted WebSocket, alone, and with something to write. -/
structure WriteStart.Proper (w : WriteStart) : Prop where
  accepted : w.accepted = true
  alone : w.inFlight = 0
  queued : w.outbox ≠ []

namespace LiveSession

variable {c : LiveSession}

/-!
### The write loop

`writing_` and the outbox decide together when a write starts. The loop is right between handlers, not
inside them, so `Past` is the part that holds throughout.
-/

/-- Writes have only been started alone and with something to write, and those on an accepted WebSocket show
    that it is. -/
structure Past (c : LiveSession) : Prop where
  marked : ∀ w ∈ c.started, w.accepted = true → c.accepted = true
  alone : ∀ w ∈ c.started, w.inFlight = 0 ∧ w.outbox ≠ []

/-- What holds between handlers: `writing_` says whether a write is in flight, and then there is something to
    write. -/
structure Loop (c : LiveSession) : Prop where
  past : c.Past
  one : c.ops.count .write = if c.writing then 1 else 0
  busy : c.writing = true → c.outbox ≠ []
  begun : c.writing = true → c.started ≠ []

/-- All writes were proper. -/
def Orderly (c : LiveSession) : Prop := ∀ w ∈ c.started, w.Proper

theorem loop_new : ({} : LiveSession).Loop := by
  refine ⟨⟨?_, ?_⟩, rfl, ?_, ?_⟩ <;> simp

/-- `do_write_`, called without a write in flight and with something to write. -/
theorem Past.doWrite (past : c.Past) (idle : c.ops.count .write = 0) (queued : c.outbox ≠ []) :
    c.doWrite.Loop := by
  refine ⟨⟨?_, ?_⟩, ?_, fun _ => queued, ?_⟩
  · intro w hw haccepted
    rcases List.mem_append.mp hw with hold | hnew
    · exact past.marked w hold haccepted
    · rw [List.mem_singleton.mp hnew] at haccepted
      exact haccepted
  · intro w hw
    rcases List.mem_append.mp hw with hold | hnew
    · exact past.alone w hold
    · rw [List.mem_singleton.mp hnew]
      exact ⟨idle, queued⟩
  · simp [LiveSession.doWrite, idle]
  · simp [LiveSession.doWrite]

theorem orderly_doWrite_iff (idle : c.ops.count .write = 0) (queued : c.outbox ≠ []) (orderly : c.Orderly) :
    c.doWrite.Orderly ↔ c.accepted = true := by
  constructor
  · intro hafter
    exact (hafter _ (List.mem_append_right _ (List.mem_singleton_self _))).accepted
  · intro haccepted w hw
    rcases List.mem_append.mp hw with hold | hnew
    · exact orderly w hold
    · rw [List.mem_singleton.mp hnew]
      exact ⟨haccepted, idle, queued⟩

/-- `on_write_`, the write being no longer in flight: the next one is started, or none is. -/
theorem onWrite_cases (c : LiveSession) (ok : Bool) :
    (∃ outbox, outbox ≠ [] ∧ c.onWrite ok = doWrite { c with outbox := outbox }) ∨
      ∃ outbox, c.onWrite ok = { c with outbox := outbox, writing := false } := by
  cases ok with
  | false => exact Or.inr ⟨c.outbox, rfl⟩
  | true =>
      cases hrest : c.outbox.tail with
      | nil => exact Or.inr ⟨[], by simp [onWrite, hrest]⟩
      | cons front rest => exact Or.inl ⟨front :: rest, by simp, by simp [onWrite, hrest]⟩

theorem Past.onWrite (past : c.Past) (idle : c.ops.count .write = 0) (ok : Bool) : (c.onWrite ok).Loop := by
  rcases onWrite_cases c ok with ⟨outbox, hqueued, hnext⟩ | ⟨outbox, hrest⟩
  · rw [hnext]
    exact Past.doWrite ⟨past.marked, past.alone⟩ idle hqueued
  · rw [hrest]
    exact ⟨⟨past.marked, past.alone⟩, idle, by simp, by simp⟩

theorem orderly_onWrite (orderly : c.Orderly) (idle : c.ops.count .write = 0) (accepted : c.accepted = true)
    (ok : Bool) : (c.onWrite ok).Orderly := by
  rcases onWrite_cases c ok with ⟨outbox, hqueued, hnext⟩ | ⟨outbox, hrest⟩
  · rw [hnext]
    exact (orderly_doWrite_iff (c := { c with outbox := outbox }) idle hqueued orderly).mpr accepted
  · rw [hrest]
    exact orderly

namespace Loop

theorem idle (loop : c.Loop) (waiting : c.writing = false) : c.ops.count .write = 0 := by
  rw [loop.one, waiting]
  rfl

/-- A session that has only started proper writes and is writing has been accepted. -/
theorem accepted_of_writing (loop : c.Loop) (orderly : c.Orderly) (writing : c.writing = true) :
    c.accepted = true := by
  obtain ⟨w, hw⟩ := List.exists_mem_of_ne_nil _ (loop.begun writing)
  exact loop.past.marked w hw (orderly w hw).accepted

/-- An operation other than a write is started. -/
theorem start (loop : c.Loop) {op : SessionOp} (other : op ≠ .write) :
    ({ c with ops := c.ops ++ [op] } : LiveSession).Loop := by
  refine ⟨⟨loop.past.marked, loop.past.alone⟩, ?_, loop.busy, loop.begun⟩
  have hcount : (c.ops ++ [op]).count .write = c.ops.count .write := by
    simp [List.count_append, other]
  exact hcount.trans loop.one

theorem strand (loop : c.Loop) (strand : List Posted) : ({ c with strand := strand } : LiveSession).Loop :=
  ⟨⟨loop.past.marked, loop.past.alone⟩, loop.one, loop.busy, loop.begun⟩

end Loop

/-!
### Messages

`send` looks at `writing_` only. Before the WebSocket accept nothing is being written, so the first message
that comes then is written at once.
-/

/-- The lambda of `send` starts a write unless one is in flight. -/
theorem send_cases (c : LiveSession) (msg : String) :
    ∃ outbox dangling, outbox ≠ [] ∧
      c.send msg =
        let queued : LiveSession := { c with outbox := outbox, dangling := dangling }
        if c.writing then queued else queued.doWrite := by
  let kept := if c.full then c.outbox.tail else c.outbox
  refine ⟨kept ++ [msg], c.dangling || (c.full && c.writing), by simp, ?_⟩
  rw [send]
  cases c.writing <;> rfl

theorem Loop.send (loop : c.Loop) (msg : String) : (c.send msg).Loop := by
  obtain ⟨outbox, dangling, hqueued, hsend⟩ := send_cases c msg
  rw [hsend]
  dsimp only
  by_cases hwriting : c.writing = true
  · rw [if_pos hwriting]
    exact ⟨⟨loop.past.marked, loop.past.alone⟩, loop.one, fun _ => hqueued, loop.begun⟩
  · rw [if_neg hwriting]
    exact Past.doWrite ⟨loop.past.marked, loop.past.alone⟩ (loop.idle (by simpa using hwriting)) hqueued

/-- It is the message that decides: whoever sends to a session must have waited for its accept. -/
theorem orderly_send_iff (loop : c.Loop) (orderly : c.Orderly) (msg : String) :
    (c.send msg).Orderly ↔ c.accepted = true := by
  obtain ⟨outbox, dangling, hqueued, hsend⟩ := send_cases c msg
  rw [hsend]
  dsimp only
  by_cases hwriting : c.writing = true
  · rw [if_pos hwriting]
    exact iff_of_true orderly (loop.accepted_of_writing orderly hwriting)
  · rw [if_neg hwriting]
    have hidle := loop.idle (by simpa using hwriting)
    exact orderly_doWrite_iff (c := { c with outbox := outbox, dangling := dangling }) hidle hqueued orderly

/-!
### Handlers

Each handler takes one operation from the outstanding ones and may start others. Completions of reads,
handshakes and accepts start no write.
-/

theorem Loop.runPosted (loop : c.Loop) : c.runPosted.Loop := by
  rw [LiveSession.runPosted]
  split
  · exact loop
  · exact (loop.strand _).start (by decide)
  · exact (loop.strand _).send _
  · exact loop.strand _

/-- What is next on the strand is not a message that is too early. -/
def Ready (c : LiveSession) : Prop := ∀ msg strand, c.strand = .send msg :: strand → c.accepted = true

theorem orderly_runPosted_iff (loop : c.Loop) (orderly : c.Orderly) : c.runPosted.Orderly ↔ c.Ready := by
  rw [LiveSession.runPosted]
  split
  · rename_i hstrand
    exact iff_of_true orderly (by simp [Ready, hstrand])
  · rename_i strand hstrand
    exact iff_of_true orderly (by simp [Ready, hstrand])
  · rename_i msg strand hstrand
    rw [orderly_send_iff (loop.strand strand) orderly]
    simp [Ready, hstrand]
  · rename_i strand hstrand
    exact iff_of_true orderly (by simp [Ready, hstrand])

theorem count_eraseIdx {i : Nat} {op : SessionOp} (found : c.ops[i]? = some op) :
    (op :: c.ops.eraseIdx i).count .write = c.ops.count .write := by
  obtain ⟨hi, rfl⟩ := List.getElem?_eq_some_iff.mp found
  exact (List.getElem_cons_eraseIdx_perm hi).count_eq _

/-- The only write is not outstanding any more. -/
theorem Loop.completed_write (loop : c.Loop) {i : Nat} (found : c.ops[i]? = some .write) :
    c.writing = true ∧ (c.ops.eraseIdx i).count .write = 0 := by
  have hcount := count_eraseIdx found
  rw [List.count_cons_self, loop.one] at hcount
  cases hwriting : c.writing with
  | true =>
      rw [hwriting, if_pos rfl] at hcount
      exact ⟨rfl, Nat.succ.inj hcount⟩
  | false =>
      rw [hwriting] at hcount
      cases hcount

/-- Some other operation is not outstanding any more. -/
theorem Loop.erase (loop : c.Loop) {i : Nat} {op : SessionOp} (found : c.ops[i]? = some op)
    (other : op ≠ .write) : ({ c with ops := c.ops.eraseIdx i } : LiveSession).Loop := by
  have hcount := count_eraseIdx found
  rw [List.count_cons_of_ne other] at hcount
  exact ⟨⟨loop.past.marked, loop.past.alone⟩, hcount.trans loop.one, loop.busy, loop.begun⟩

theorem Loop.completed (loop : c.Loop) (i : Nat) (ok : Bool) : (c.completed i ok).Loop := by
  rw [LiveSession.completed]
  split
  · exact loop
  · rename_i op hfound
    cases op with
    | tlsHandshake =>
        have herased := loop.erase hfound (by decide)
        cases ok with
        | true => exact herased.start (by decide)
        | false => exact herased
    | wsAccept =>
        have herased := loop.erase hfound (by decide)
        cases ok with
        | true =>
            have hmarked : ({ c with ops := c.ops.eraseIdx i, accepted := true } : LiveSession).Loop :=
              ⟨⟨fun _ _ _ => rfl, herased.past.alone⟩, herased.one, herased.busy, herased.begun⟩
            exact hmarked.start (by decide)
        | false => exact herased
    | read =>
        have herased := loop.erase hfound (by decide)
        cases ok with
        | true => exact herased.start (by decide)
        | false => exact herased
    | write =>
        have hpast : ({ c with ops := c.ops.eraseIdx i } : LiveSession).Past :=
          ⟨loop.past.marked, loop.past.alone⟩
        exact hpast.onWrite (loop.completed_write hfound).2 ok

/-- Completions start further writes on accepted WebSockets only. -/
theorem orderly_completed (loop : c.Loop) (orderly : c.Orderly) (i : Nat) (ok : Bool) :
    (c.completed i ok).Orderly := by
  rw [LiveSession.completed]
  split
  · exact orderly
  · rename_i op hfound
    cases op with
    | tlsHandshake => cases ok <;> exact orderly
    | wsAccept => cases ok <;> exact orderly
    | read => cases ok <;> exact orderly
    | write =>
        obtain ⟨hwriting, hidle⟩ := loop.completed_write hfound
        exact orderly_onWrite (by exact orderly) hidle (by exact loop.accepted_of_writing orderly hwriting) ok

end LiveSession

namespace SignalHub

variable {h : SignalHub}

/-!
### The server and its sessions

A step of the hub runs one handler on one strand and posts to others. What is to hold of all sessions has to
hold of a new one, and be kept by posts and by handlers.
-/

section Sessions

variable {p : LiveSession → Prop}

theorem forall_postAll {posted : Posted} (kept : ∀ c, p c → p (c.post posted)) (targets : List Nat)
    {table : List LiveSession} (all : ∀ c ∈ table, p c) : ∀ c ∈ postAll targets posted table, p c := by
  induction targets generalizing table with
  | nil => exact all
  | cons session targets ih =>
      apply ih
      intro c hc
      obtain ⟨i, hi⟩ := List.mem_iff_getElem?.mp hc
      rw [List.getElem?_modify] at hi
      obtain ⟨before, hbefore, hchanged⟩ := Option.map_eq_some_iff.mp hi
      have hold := all before (List.mem_of_getElem? hbefore)
      split at hchanged
      · rw [← hchanged]
        exact kept before hold
      · rw [← hchanged]
        exact hold

theorem forall_onStrand {session : Nat} {handler : LiveSession → LiveSession} (all : ∀ c ∈ h.table, p c)
    (handled : ∀ c, h.table[session]? = some c → p (handler c)) :
    ∀ c ∈ (h.onStrand session handler).table, p c := by
  rw [onStrand]
  split
  · exact all
  · rename_i c hfound
    intro other hother
    rcases List.mem_or_eq_of_mem_set hother with hold | rfl
    · exact all other hold
    · exact handled c hfound

/-- The session whose handler runs is in the table afterwards. -/
theorem mem_onStrand {session : Nat} {c : LiveSession} (found : h.table[session]? = some c)
    (handler : LiveSession → LiveSession) : handler c ∈ (h.onStrand session handler).table := by
  obtain ⟨hsession, -⟩ := List.getElem?_eq_some_iff.mp found
  rw [onStrand, found]
  exact List.mem_set hsession _

/-- What one event leaves true of all sessions: what new ones, messages and handlers leave true. -/
theorem forall_step (e : HubEvent) (all : ∀ c ∈ h.table, p c) (new : p {})
    (post : ∀ c posted, p c → p (c.post posted)) (completed : ∀ c op ok, p c → p (c.completed op ok))
    (runs : ∀ session c, e = .posted session → h.table[session]? = some c → p c.runPosted) :
    ∀ c ∈ (h.step e).table, p c := by
  cases e with
  | start => exact all
  | stopCalled => exact all
  | onAccept ok =>
      rw [step]
      split
      · exact all
      · intro c hc
        rcases List.mem_append.mp hc with hold | hnew
        · exact all c hold
        · rw [List.mem_singleton.mp hnew]
          exact new
  | broadcast text => exact forall_postAll (fun c => post c _) _ all
  | stop => exact forall_postAll (fun c => post c _) _ all
  | posted session => exact forall_onStrand all fun c hfound => runs session c rfl hfound
  | completed session op ok =>
      exact forall_onStrand all fun c hfound => completed c op ok (all c (List.mem_of_getElem? hfound))

end Sessions

/-- In every run, and whatever the order of handlers. -/
theorem loop_step (loops : ∀ c ∈ h.table, c.Loop) (e : HubEvent) : ∀ c ∈ (h.step e).table, c.Loop := by
  apply forall_step e loops LiveSession.loop_new
  · exact fun c posted loop => loop.strand _
  · exact fun c op ok loop => loop.completed op ok
  · exact fun session c _ hfound => (loops c (List.mem_of_getElem? hfound)).runPosted

/-- Every session has only started proper writes. -/
def WritesProperly (h : SignalHub) : Prop := ∀ c ∈ h.table, c.Orderly

/-- A message runs on the strand of a session only after the WebSocket accept has completed successfully. -/
def SendsAfterAccept (h : SignalHub) : HubEvent → Prop
  | .posted session => ∀ c, h.table[session]? = some c → c.Ready
  | _ => True

theorem writesProperly_step (loops : ∀ c ∈ h.table, c.Loop) (proper : h.WritesProperly) {e : HubEvent}
    (ready : h.SendsAfterAccept e) : (h.step e).WritesProperly := by
  have hbefore : ∀ c ∈ h.table, c.Loop ∧ c.Orderly := fun c hc => ⟨loops c hc, proper c hc⟩
  have hboth : ∀ c ∈ (h.step e).table, c.Loop ∧ c.Orderly := by
    apply forall_step e hbefore
    · exact ⟨LiveSession.loop_new, by simp [LiveSession.Orderly]⟩
    · exact fun c posted both => ⟨both.1.strand _, both.2⟩
    · exact fun c op ok both => ⟨both.1.completed op ok, LiveSession.orderly_completed both.1 both.2 op ok⟩
    · intro session c he hfound
      have hmem := List.mem_of_getElem? hfound
      subst he
      exact ⟨(loops c hmem).runPosted,
        (LiveSession.orderly_runPosted_iff (loops c hmem) (proper c hmem)).mpr (ready c hfound)⟩
  exact fun c hc => (hboth c hc).2

theorem writesProperly_step_iff (loops : ∀ c ∈ h.table, c.Loop) (proper : h.WritesProperly) (e : HubEvent) :
    (h.step e).WritesProperly ↔ h.SendsAfterAccept e := by
  refine ⟨?_, writesProperly_step loops proper⟩
  intro hafter
  cases e with
  | posted session =>
      intro c hfound
      have hmem := List.mem_of_getElem? hfound
      have hran : c.runPosted.Orderly := hafter _ (mem_onStrand hfound LiveSession.runPosted)
      exact (LiveSession.orderly_runPosted_iff (loops c hmem) (proper c hmem)).mp hran
  | _ => trivial

end SignalHub

/-!
### The models of the parts

The server and the outbox of a session were also modelled by themselves. Here the hub is seen to run them.
-/

namespace SignalHub

/-- What an event of the hub is for the server: a handler on its own strand, or the end of a session. -/
def serverEvents (h : SignalHub) : HubEvent → List ServerEvent
  | .start => [.start]
  | .stopCalled => [.stopCalled]
  | .onAccept ok => [.onAccept ok]
  | .broadcast _ => [.broadcast]
  | .stop => [.stop]
  | .posted session => ended session LiveSession.runPosted
  | .completed session op ok => ended session fun c => c.completed op ok
where
  ended (session : Nat) (handler : LiveSession → LiveSession) : List ServerEvent :=
    match h.table[session]? with
    | none => []
    | some c => if (handler c).unreferenced then [.expire session] else []

theorem server_onStrand (h : SignalHub) (session : Nat) (handler : LiveSession → LiveSession) :
    (h.onStrand session handler).server =
      Runs.run SignalServer.step h.server (serverEvents.ended h session handler) := by
  rw [onStrand, serverEvents.ended]
  cases h.table[session]? with
  | none => rfl
  | some c =>
      dsimp only
      split <;> rfl

theorem server_step (h : SignalHub) (e : HubEvent) :
    (h.step e).server = Runs.run SignalServer.step h.server (h.serverEvents e) := by
  cases e with
  | onAccept ok =>
      simp only [step, serverEvents, Runs.run_cons, Runs.run_nil, SignalServer.step]
      split <;> simp_all
  | posted session => exact server_onStrand h session _
  | completed session op ok => exact server_onStrand h session _
  | _ => rfl

/-- With its sessions around it, the server takes its own steps only, and sessions expire between them. -/
theorem server_run (h : SignalHub) (events : List HubEvent) :
    ∃ steps, (Runs.run step h events).server = Runs.run SignalServer.step h.server steps := by
  induction events generalizing h with
  | nil => exact ⟨[], rfl⟩
  | cons e events ih =>
      obtain ⟨steps, hsteps⟩ := ih (h.step e)
      refine ⟨h.serverEvents e ++ steps, ?_⟩
      rw [Runs.run_cons, hsteps, server_step, Runs.run_append]

end SignalHub

/-- What the strand of a session does to its outbox. -/
inductive OutboxCall where
  | send (msg : String)
  | onWrite (ok : Bool)

/-- One of them. -/
def SignalSession.call (s : SignalSession String) : OutboxCall → SignalSession String
  | .send msg => s.send msg
  | .onWrite ok => s.onWrite ok

namespace LiveSession

variable {c : LiveSession} {s : SignalSession String}

/-- A session and its outbox. -/
structure Agrees (c : LiveSession) (s : SignalSession String) : Prop where
  outbox : s.outbox = c.outbox
  writing : s.inFlight.isSome = c.writing

theorem Agrees.doWrite (agrees : c.Agrees s) (queued : c.outbox ≠ []) : c.doWrite.Agrees s.doWrite := by
  refine ⟨agrees.outbox, ?_⟩
  show s.outbox.head?.isSome = true
  rw [agrees.outbox]
  exact List.isSome_head?.mpr queued

theorem Agrees.send (agrees : c.Agrees s) (msg : String) : (c.send msg).Agrees (s.send msg) := by
  have hidle : s.inFlight.isNone = !c.writing := by
    rw [← agrees.writing, Option.not_isSome]
  simp only [LiveSession.send, SignalSession.send, full, decide_eq_true_eq, agrees.outbox, hidle]
  split
  · exact Agrees.doWrite ⟨rfl, agrees.writing⟩ (by simp)
  · exact ⟨rfl, agrees.writing⟩

theorem Agrees.onWrite (agrees : c.Agrees s) (ok : Bool) : (c.onWrite ok).Agrees (s.onWrite ok) := by
  cases ok with
  | false => exact ⟨agrees.outbox, rfl⟩
  | true =>
      simp only [LiveSession.onWrite, SignalSession.onWrite, agrees.outbox, Bool.not_true, Bool.false_eq_true,
        if_false]
      cases hrest : c.outbox.tail with
      | nil => exact ⟨rfl, rfl⟩
      | cons front rest => exact Agrees.doWrite ⟨rfl, agrees.writing⟩ (List.cons_ne_nil _ _)

/-- The outbox of a session is what messages and completed writes make of an empty one. -/
def HasOutbox (c : LiveSession) : Prop := ∃ calls, c.Agrees (Runs.run SignalSession.call {} calls)

theorem hasOutbox_runPosted (has : c.HasOutbox) : c.runPosted.HasOutbox := by
  obtain ⟨calls, hagrees⟩ := has
  rw [LiveSession.runPosted]
  split
  · exact ⟨calls, hagrees⟩
  · exact ⟨calls, hagrees.outbox, hagrees.writing⟩
  · rename_i msg strand _
    refine ⟨calls ++ [.send msg], ?_⟩
    rw [Runs.run_append]
    have hstrand : ({ c with strand := strand } : LiveSession).Agrees (Runs.run SignalSession.call {} calls) :=
      ⟨hagrees.outbox, hagrees.writing⟩
    exact hstrand.send msg
  · exact ⟨calls, hagrees.outbox, hagrees.writing⟩

theorem hasOutbox_completed (has : c.HasOutbox) (i : Nat) (ok : Bool) : (c.completed i ok).HasOutbox := by
  obtain ⟨calls, hagrees⟩ := has
  rw [LiveSession.completed]
  split
  · exact ⟨calls, hagrees⟩
  · rename_i op hfound
    have herased : ({ c with ops := c.ops.eraseIdx i } : LiveSession).Agrees
        (Runs.run SignalSession.call {} calls) := ⟨hagrees.outbox, hagrees.writing⟩
    cases op with
    | write =>
        refine ⟨calls ++ [.onWrite ok], ?_⟩
        rw [Runs.run_append]
        exact herased.onWrite ok
    | _ => cases ok <;> exact ⟨calls, hagrees.outbox, hagrees.writing⟩

end LiveSession

/-- The sessions of the hub refine the outbox of a session. -/
theorem hasOutbox_run (events : List HubEvent) :
    ∀ c ∈ (Runs.run SignalHub.step {} events).table, c.HasOutbox := by
  have hstep : ∀ (h : SignalHub) (e : HubEvent), (∀ c ∈ h.table, c.HasOutbox) →
      ∀ c ∈ (h.step e).table, c.HasOutbox := by
    intro h e all
    apply SignalHub.forall_step e all ⟨[], rfl, rfl⟩
    · exact fun c posted ⟨calls, hagrees⟩ => ⟨calls, hagrees.outbox, hagrees.writing⟩
    · exact fun c op ok has => LiveSession.hasOutbox_completed has op ok
    · exact fun session c _ hfound => LiveSession.hasOutbox_runPosted (all c (List.mem_of_getElem? hfound))
  exact Runs.invariant_run hstep (s := {}) (by simp) events

/-! ### Results -/

/-- In every run, writes are started one at a time and with something to write. -/
theorem writes_alone (events : List HubEvent) :
    ∀ c ∈ (Runs.run SignalHub.step {} events).table, ∀ w ∈ c.started, w.inFlight = 0 ∧ w.outbox ≠ [] := by
  have hstep : ∀ (h : SignalHub) (e : HubEvent), (∀ c ∈ h.table, c.Loop) → ∀ c ∈ (h.step e).table, c.Loop :=
    fun h e loops => SignalHub.loop_step loops e
  have hloops := Runs.invariant_run hstep (s := {}) (by simp) events
  exact fun c hc => (hloops c hc).past.alone

/-- Writes on accepted WebSockets.  For every order of accepts, handshakes that complete or fail, broadcasts,
    stops, messages that run on the strands of the sessions and completed writes: in every state that is
    passed, all sessions have started writes only after their WebSocket accept had completed successfully,
    one at a time and with something to write, exactly if no message runs on the strand of a session before
    its accept has completed successfully. -/
theorem writes_on_accepted_iff (events : List HubEvent) :
    (∀ reached, reached <+: events → (Runs.run SignalHub.step {} reached).WritesProperly) ↔
      Runs.Along SignalHub.step SignalHub.SendsAfterAccept {} events := by
  have hloops : ∀ (h : SignalHub) (e : HubEvent), (∀ c ∈ h.table, c.Loop) → h.WritesProperly →
      ∀ c ∈ (h.step e).table, c.Loop := fun h e loops _ => SignalHub.loop_step loops e
  have hexact : ∀ (h : SignalHub) (e : HubEvent), (∀ c ∈ h.table, c.Loop) → h.WritesProperly →
      ((h.step e).WritesProperly ↔ h.SendsAfterAccept e) :=
    fun h e loops proper => SignalHub.writesProperly_step_iff loops proper e
  exact Runs.Along.iff_of_step hloops hexact (by simp) (by simp [SignalHub.WritesProperly]) events

/-- A signal is broadcast while a client is still in its TLS handshake: it is written at once. -/
theorem write_before_accept :
    let reached := Runs.run SignalHub.step {} [.start, .onAccept true, .posted 0, .broadcast "cross", .posted 0]
    reached.table.map LiveSession.started = [[{ accepted := false, inFlight := 0, outbox := ["cross"] }]] ∧
      ¬ reached.WritesProperly := by
  intro reached
  refine ⟨by decide, ?_⟩
  intro proper
  have hwrite : ∃ c ∈ reached.table, ∃ w ∈ c.started, w.accepted = false := by decide
  obtain ⟨c, hc, w, hw, hearly⟩ := hwrite
  rw [(proper c hc w hw).accepted] at hearly
  cases hearly

end ZidaBot.Brain
