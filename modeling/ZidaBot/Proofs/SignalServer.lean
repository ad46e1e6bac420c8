/-
Module: ZidaBot.Proofs.SignalServer
Purpose: The counter of the signal server.  Expired entries leave the session list in three places: a
  broadcast subtracts them from the counter and a stop sets it to zero, but an accept drops them silently.
  So the counter is the size of the list exactly as long as no accept finds an expired entry; and until then
  no subtraction goes below zero.
Trusted boundary: none
Main exports: onAccept_cases, length_sessions_le, Tracks, PrunesNothing, tracks_step_iff, liveCount_tracks_iff,
  count_drifts
-/
import ZidaBot.Brain.SignalServer
import ZidaBot.Library.Runs

namespace ZidaBot.Brain

namespace SignalServer

variable {s : SignalServer}

/-!
### What a step does to the list and the counter

The list holds weak pointers, and an entry expires without the server taking part. Three handlers remove
expired entries.
-/

@[simp] theorem doAccept_sessions (s : SignalServer) : s.doAccept.sessions = s.sessions := by
  rw [doAccept]
  split <;> rfl

@[simp] theorem doAccept_liveCount (s : SignalServer) : s.doAccept.liveCount = s.liveCount := by
  rw [doAccept]
  split <;> rfl

@[simp] theorem doAccept_fetchSubs (s : SignalServer) : s.doAccept.fetchSubs = s.fetchSubs := by
  rw [doAccept]
  split <;> rfl

/-- A completed accept creates a session or is refused at the cap. -/
theorem onAccept_cases (s : SignalServer) :
    kMaxSessions ≤ s.unexpired.length ∧ (s.onAccept true).1.sessions = s.unexpired ∧
        (s.onAccept true).1.liveCount = s.liveCount ∨
      s.unexpired.length < kMaxSessions ∧ (s.onAccept true).1.sessions = s.unexpired ++ [s.created] ∧
        (s.onAccept true).1.liveCount = s.liveCount + 1 := by
  have hunexpired : unexpired { s with accepting := false } = s.unexpired := rfl
  simp only [onAccept, Bool.not_true, Bool.false_eq_true, if_false, hunexpired]
  by_cases hfull : kMaxSessions ≤ s.unexpired.length
  · left
    simp [hfull]
  · right
    simp [hfull, Nat.lt_of_not_le hfull]

theorem onAccept_fetchSubs (s : SignalServer) (ok : Bool) : (s.onAccept ok).1.fetchSubs = s.fetchSubs := by
  cases ok with
  | false => rfl
  | true =>
      simp only [onAccept, Bool.not_true, Bool.false_eq_true, if_false]
      split
      · exact doAccept_fetchSubs _
      · exact doAccept_fetchSubs _

theorem length_unexpired_le (s : SignalServer) : s.unexpired.length ≤ s.sessions.length :=
  List.length_filter_le _ _

theorem broadcast_sessions (s : SignalServer) : s.broadcast.sessions = s.unexpired := by
  rw [broadcast]
  split <;> rfl

/-- The cap holds in every run. -/
theorem length_sessions_le (bounded : s.sessions.length ≤ kMaxSessions) (e : ServerEvent) :
    (s.step e).sessions.length ≤ kMaxSessions := by
  have hunexpired : s.unexpired.length ≤ kMaxSessions := Nat.le_trans s.length_unexpired_le bounded
  cases e with
  | start =>
      rw [step, doAccept_sessions]
      exact bounded
  | stopCalled => exact bounded
  | onAccept ok =>
      cases ok with
      | false => exact bounded
      | true =>
          rcases s.onAccept_cases with ⟨-, hsessions, -⟩ | ⟨hroom, hsessions, -⟩
          · rw [step, hsessions]
            exact hunexpired
          · rw [step, hsessions, List.length_append]
            exact hroom
  | broadcast =>
      rw [step, broadcast_sessions]
      exact hunexpired
  | stop => exact Nat.zero_le _
  | expire session => exact bounded

/-!
### The counter

Each handler is compared by what it removes from the list and what it takes off the counter. An accept
removes and takes nothing off.
-/

/-- The counter is the size of the list, and no subtraction has gone below zero. -/
structure Tracks (s : SignalServer) : Prop where
  count_eq : s.liveCount.toNat = s.sessions.length
  subtracted : ∀ call ∈ s.fetchSubs, call.2 ≤ call.1

/-- A completed accept finds no expired session in the list. -/
def PrunesNothing (s : SignalServer) : ServerEvent → Prop
  | .onAccept true => ∀ session ∈ s.sessions, s.expired session = false
  | _ => True

theorem length_unexpired_eq_iff :
    s.unexpired.length = s.sessions.length ↔ ∀ session ∈ s.sessions, s.expired session = false := by
  rw [unexpired, List.length_filter_eq_length_iff]
  simp

/-- A broadcast subtracts what it removes. -/
theorem Tracks.broadcast (tracks : s.Tracks) (bounded : s.sessions.length ≤ kMaxSessions) :
    s.broadcast.Tracks := by
  have hle := s.length_unexpired_le
  have hcount := tracks.count_eq
  let pruned := s.sessions.length - s.unexpired.length
  have hpruned : (UInt64.ofNat pruned).toNat = pruned := by
    rw [UInt64.toNat_ofNat', Nat.mod_eq_of_lt]
    simp only [pruned, kMaxSessions] at bounded ⊢
    omega
  have henough : UInt64.ofNat pruned ≤ s.liveCount := by
    rw [UInt64.le_iff_toNat_le, hpruned, hcount]
    exact Nat.sub_le _ _
  have hbroadcast : s.broadcast =
      if 0 < pruned then ({ s with sessions := s.unexpired } : SignalServer).fetchSub (UInt64.ofNat pruned)
      else { s with sessions := s.unexpired } := rfl
  rw [hbroadcast]
  split
  · refine ⟨?_, ?_⟩
    · show (s.liveCount - UInt64.ofNat pruned).toNat = s.unexpired.length
      rw [UInt64.toNat_sub_of_le _ _ henough, hpruned, hcount]
      omega
    · intro call hcall
      rcases List.mem_append.mp hcall with hold | hnew
      · exact tracks.subtracted call hold
      · rw [List.mem_singleton.mp hnew]
        exact henough
  · have hnone : s.unexpired.length = s.sessions.length := by omega
    exact ⟨hcount.trans hnone.symm, tracks.subtracted⟩

/-- After a completed accept the counter is right exactly if nothing was dropped. -/
theorem tracks_onAccept_iff (bounded : s.sessions.length ≤ kMaxSessions) (tracks : s.Tracks) :
    (s.onAccept true).1.Tracks ↔ s.unexpired.length = s.sessions.length := by
  have hle := s.length_unexpired_le
  have hcount := tracks.count_eq
  have hsubtracted : ∀ call ∈ (s.onAccept true).1.fetchSubs, call.2 ≤ call.1 := by
    rw [onAccept_fetchSubs]
    exact tracks.subtracted
  have hnext : (s.liveCount + 1).toNat = s.sessions.length + 1 := by
    rw [UInt64.toNat_add, hcount]
    simp only [kMaxSessions] at bounded
    exact Nat.mod_eq_of_lt (by simp; omega)
  rcases s.onAccept_cases with ⟨hfull, hsessions, hlive⟩ | ⟨hroom, hsessions, hlive⟩
  · -- at the cap the list is full, so that nothing can have been dropped from it
    have hall : s.unexpired.length = s.sessions.length := by omega
    refine iff_of_true ⟨?_, hsubtracted⟩ hall
    rw [hsessions, hlive, hcount, hall]
  · constructor
    · intro htracks
      have hafter := htracks.count_eq
      rw [hsessions, hlive, hnext, List.length_append, List.length_singleton] at hafter
      omega
    · intro hall
      refine ⟨?_, hsubtracted⟩
      rw [hsessions, hlive, hnext, List.length_append, List.length_singleton, hall]

theorem tracks_step_iff (bounded : s.sessions.length ≤ kMaxSessions) (tracks : s.Tracks) (e : ServerEvent) :
    (s.step e).Tracks ↔ s.PrunesNothing e := by
  cases e with
  | start =>
      refine iff_of_true ⟨?_, ?_⟩ trivial
      · rw [step, doAccept_liveCount, doAccept_sessions]
        exact tracks.count_eq
      · rw [step, doAccept_fetchSubs]
        exact tracks.subtracted
  | stopCalled => exact iff_of_true ⟨tracks.count_eq, tracks.subtracted⟩ trivial
  | onAccept ok =>
      cases ok with
      | false => exact iff_of_true ⟨tracks.count_eq, tracks.subtracted⟩ trivial
      | true => exact (tracks_onAccept_iff bounded tracks).trans length_unexpired_eq_iff
  | broadcast => exact iff_of_true (tracks.broadcast bounded) trivial
  | stop => exact iff_of_true ⟨rfl, tracks.subtracted⟩ trivial
  | expire session => exact iff_of_true ⟨tracks.count_eq, tracks.subtracted⟩ trivial

end SignalServer

/-! ### Result -/

/-- The counter of live sessions.  For every sequence of accepts (completed, refused at the cap or failed),
    broadcasts and stops, with sessions expiring anywhere between them: after every step the counter is the
    size of the session list and no subtraction has gone below zero, exactly if no completed accept finds an
    expired session in the list. -/
theorem liveCount_tracks_iff (events : List ServerEvent) :
    (∀ reached, reached <+: events → (Runs.run SignalServer.step {} reached).Tracks) ↔
      Runs.Along SignalServer.step SignalServer.PrunesNothing {} events := by
  have hpreserved : ∀ (s : SignalServer) (e : ServerEvent), s.sessions.length ≤ kMaxSessions → s.Tracks →
      (s.step e).sessions.length ≤ kMaxSessions :=
    fun s e bounded _ => SignalServer.length_sessions_le bounded e
  have hexact : ∀ (s : SignalServer) (e : ServerEvent), s.sessions.length ≤ kMaxSessions → s.Tracks →
      ((s.step e).Tracks ↔ s.PrunesNothing e) :=
    fun s e bounded tracks => SignalServer.tracks_step_iff bounded tracks e
  have hstart : ({} : SignalServer).Tracks := ⟨rfl, by simp⟩
  exact Runs.Along.iff_of_step hpreserved hexact (Nat.zero_le _) hstart events

/-- A client connects and goes, and the next one connects: the list has one entry, the counter says two. -/
theorem count_drifts :
    let reached := Runs.run SignalServer.step {} [.start, .onAccept true, .expire 0, .onAccept true]
    reached.sessions = [1] ∧ reached.liveCount = 2 ∧ ¬ reached.Tracks := by
  intro reached
  refine ⟨by decide, by decide, ?_⟩
  intro tracks
  exact absurd tracks.count_eq (by decide)

end ZidaBot.Brain
