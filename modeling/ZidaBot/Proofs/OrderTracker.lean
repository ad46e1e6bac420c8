/-
Module: ZidaBot.Proofs.OrderTracker
Purpose: Outcomes of tracked orders.  A timer handler that is queued when its order is filled or cancelled
  still runs with a success code and does not look whether the order is pending, so it reports a timeout on
  top.  In every run in which fills and shutdowns never meet such a handler each order gets one outcome at
  most; otherwise running the queued handlers breaks this.
Trusted boundary: none
Main exports: settled, liveIds, Queued, Prompt, Inv, Inv.step, Doomed, one_outcome_iff
-/
import ZidaBot.Exec.DeadlineOrderTracker
import ZidaBot.Library.Runs
import Mathlib.Data.List.Nodup

namespace ZidaBot.Exec

namespace DeadlineOrderTracker

variable {t : DeadlineOrderTracker} {oid : String} {seen : List String}

/-- The orders that have an outcome, in the order of the outcomes. -/
def settled (t : DeadlineOrderTracker) : List String := t.outcomes.map Prod.fst

/-- The order whose deadline a wait stands for, unless the wait was cancelled in time. -/
def liveId (w : DeadlineWait) : Option String := if w.status = .aborted then none else some w.oid

/-- The orders whose deadline lies ahead or whose timer handler is queued with a success code. -/
def liveIds (t : DeadlineOrderTracker) : List String := t.waits.filterMap liveId

/-- The deadline of the order has passed and its handler has not run. -/
def Queued (t : DeadlineOrderTracker) (oid : String) : Prop :=
  ∃ w ∈ t.waits, w.oid = oid ∧ w.status = .expired

instance (t : DeadlineOrderTracker) (oid : String) : Decidable (t.Queued oid) :=
  inferInstanceAs (Decidable (∃ w ∈ t.waits, _))

/-- No fill and no shutdown takes away an order whose timer handler is queued. -/
def Prompt (t : DeadlineOrderTracker) : TrackerEvent → Prop
  | .onFill fill => fill.clientOrderId ∈ t.pendingIds → ¬ t.Queued fill.clientOrderId
  | .cancelAll => ∀ oid ∈ t.pendingIds, ¬ t.Queued oid
  | _ => True

instance (t : DeadlineOrderTracker) : DecidablePred t.Prompt
  | .onFill fill =>
      inferInstanceAs (Decidable (fill.clientOrderId ∈ t.pendingIds → ¬ t.Queued fill.clientOrderId))
  | .cancelAll => inferInstanceAs (Decidable (∀ oid ∈ t.pendingIds, ¬ t.Queued oid))
  | .registerPending _ => instDecidableTrue
  | .expire _ => instDecidableTrue
  | .handler _ => instDecidableTrue

/-- At most one outcome per order, and no timeout after another outcome. -/
def OneOutcome (t : DeadlineOrderTracker) : Prop :=
  t.settled.Nodup ∧
    ∀ before oid after, t.outcomes = before ++ (oid, .timedOut) :: after →
      ∀ outcome, (oid, outcome) ∉ before

theorem oneOutcome_iff : t.OneOutcome ↔ t.settled.Nodup := by
  refine ⟨And.left, fun hnodup => ⟨hnodup, ?_⟩⟩
  intro before oid after hsplit outcome hmem
  rw [settled, hsplit, List.map_append, List.map_cons] at hnodup
  have hdisjoint := (List.nodup_append.mp hnodup).2.2
  exact hdisjoint oid (List.mem_map_of_mem hmem) oid (List.mem_cons_self ..) rfl

/-!
### Waits

A wait that is cancelled before its deadline completes with `operation_aborted`; one whose handler is queued
already is not. `liveIds` are the orders that a handler can still report as timed out.
-/

theorem liveId_eq_some {w : DeadlineWait} : liveId w = some oid ↔ w.oid = oid ∧ w.status ≠ .aborted := by
  by_cases hstatus : w.status = .aborted <;> simp [liveId, hstatus]

theorem mem_liveIds : oid ∈ t.liveIds ↔ ∃ w ∈ t.waits, w.oid = oid ∧ w.status ≠ .aborted := by
  simp [liveIds, liveId_eq_some]

theorem liveIds_cancelTimers (t : DeadlineOrderTracker) (oids : List String) :
    (t.cancelTimers oids).liveIds.Sublist t.liveIds := by
  apply live_map_sublist
  intro w
  by_cases hmem : w.oid ∈ oids
  · rw [if_pos hmem]
    cases hstatus : w.status <;> simp [liveId, hstatus, WaitStatus.cancel]
  · exact Or.inl (by rw [if_neg hmem])

/-- Cancelling in time leaves no live wait of the orders. -/
theorem not_mem_liveIds_cancelTimers {oids : List String} (prompt : ∀ oid ∈ oids, ¬ t.Queued oid)
    (mem : oid ∈ oids) : oid ∉ (t.cancelTimers oids).liveIds := by
  intro hlive
  obtain ⟨w', hw', hid, hstatus⟩ := mem_liveIds.mp hlive
  obtain ⟨w, hw, rfl⟩ := List.mem_map.mp hw'
  by_cases hmem : w.oid ∈ oids
  · rw [if_pos hmem] at hstatus
    refine prompt w.oid hmem ⟨w, hw, rfl, ?_⟩
    by_contra hnot
    exact hstatus (WaitStatus.cancel_eq_aborted.mpr hnot)
  · rw [if_neg hmem] at hid
    exact hmem (hid ▸ mem)

@[simp] theorem liveIds_timerExpires (t : DeadlineOrderTracker) (i : Nat) :
    (t.timerExpires i).liveIds = t.liveIds := by
  apply live_modify
  intro w
  simp [liveId]

/-- Erasing a live wait takes its order out of the live ones. -/
theorem liveIds_eraseIdx {i : Nat} {w : DeadlineWait} (found : t.waits[i]? = some w)
    (live : w.status ≠ .aborted) :
    ∃ before after, t.liveIds = before ++ w.oid :: after ∧
      liveIds { t with waits := t.waits.eraseIdx i } = before ++ after := by
  obtain ⟨hlt, hget⟩ := List.getElem?_eq_some_iff.mp found
  refine ⟨(t.waits.take i).filterMap liveId, (t.waits.drop (i + 1)).filterMap liveId, ?_, ?_⟩
  · rw [liveIds]
    nth_rewrite 1 [← List.take_append_drop i t.waits]
    rw [List.drop_eq_getElem_cons hlt, hget, List.filterMap_append, List.filterMap_cons]
    simp [liveId, live]
  · rw [liveIds, List.eraseIdx_eq_take_drop_succ, List.filterMap_append]

/-!
### The invariant

An order leaves the table together with its outcome. As long as no fill meets a queued handler, no live wait
is left behind then, so nothing can give a second outcome.
-/

/-- Outcomes are unique, and an order that can still time out is pending and has none yet. -/
structure Inv (seen : List String) (t : DeadlineOrderTracker) : Prop where
  settled_nodup : t.settled.Nodup
  pending_nodup : t.pendingIds.Nodup
  live_nodup : t.liveIds.Nodup
  pending_open : ∀ oid ∈ t.pendingIds, oid ∉ t.settled
  live_pending : ∀ oid ∈ t.liveIds, oid ∈ t.pendingIds
  pending_seen : ∀ oid ∈ t.pendingIds, oid ∈ seen
  settled_seen : ∀ oid ∈ t.settled, oid ∈ seen

theorem inv_start : Inv [] {} := by
  constructor <;> simp [settled, pendingIds, liveIds]

theorem mem_pendingIds_erase {oid' : String} :
    oid' ∈ (t.erase oid).pendingIds ↔ oid' ∈ t.pendingIds ∧ oid' ≠ oid := by
  simp only [pendingIds, erase, List.mem_map, List.mem_filter, decide_eq_true_eq]
  constructor
  · rintro ⟨order, ⟨hmem, hne⟩, rfl⟩
    exact ⟨⟨order, hmem, rfl⟩, hne⟩
  · rintro ⟨⟨order, hmem, rfl⟩, hne⟩
    exact ⟨order, ⟨hmem, hne⟩, rfl⟩

/-- An order leaves with an outcome, and no live wait stays behind for it. -/
theorem Inv.settle (inv : Inv seen t) (pending : oid ∈ t.pendingIds) (outcome : OrderOutcome)
    {t' : DeadlineOrderTracker} (sameIds : t'.pending = t.pending) (sameOutcomes : t'.outcomes = t.outcomes)
    (live : (t'.erase oid).liveIds.Sublist t.liveIds) (gone : oid ∉ (t'.erase oid).liveIds) :
    Inv seen ((t'.erase oid).record oid outcome) := by
  have hpending : ∀ oid', oid' ∈ (t'.erase oid).pendingIds ↔ oid' ∈ t.pendingIds ∧ oid' ≠ oid := by
    intro oid'
    rw [mem_pendingIds_erase, pendingIds, sameIds, pendingIds]
  have hsettled : ((t'.erase oid).record oid outcome).settled = t.settled ++ [oid] := by
    simp [settled, record, erase, cancelTimers, sameOutcomes]
  constructor
  · rw [hsettled, ← List.concat_eq_append]
    exact List.Nodup.concat (inv.pending_open oid pending) inv.settled_nodup
  · have hsub : (t'.erase oid).pendingIds.Sublist t.pendingIds := by
      rw [pendingIds, pendingIds, erase, sameIds]
      exact List.filter_sublist.map _
    exact hsub.nodup inv.pending_nodup
  · exact live.nodup inv.live_nodup
  · intro oid' hoid' hmem
    obtain ⟨hold, hne⟩ := (hpending oid').mp hoid'
    rw [hsettled] at hmem
    rcases List.mem_append.mp hmem with hin | hnew
    · exact inv.pending_open oid' hold hin
    · exact hne (List.mem_singleton.mp hnew)
  · intro oid' hoid'
    refine (hpending oid').mpr ⟨inv.live_pending oid' (live.subset hoid'), ?_⟩
    rintro rfl
    exact gone hoid'
  · intro oid' hoid'
    exact inv.pending_seen oid' ((hpending oid').mp hoid').1
  · intro oid' hoid'
    rw [hsettled] at hoid'
    rcases List.mem_append.mp hoid' with hin | hnew
    · exact inv.settled_seen oid' hin
    · rw [List.mem_singleton.mp hnew]
      exact inv.pending_seen oid pending

theorem Inv.registerPending (inv : Inv seen t) {order : Order} (fresh : order.clientOrderId ∉ seen) :
    Inv (seen ++ [order.clientOrderId]) (t.registerPending order) := by
  have hnew : order.clientOrderId ∉ t.pendingIds := fun h => fresh (inv.pending_seen _ h)
  have hopen : order.clientOrderId ∉ t.settled := fun h => fresh (inv.settled_seen _ h)
  have hlive : order.clientOrderId ∉ t.liveIds := fun h => hnew (inv.live_pending _ h)
  rw [DeadlineOrderTracker.registerPending, if_neg hnew]
  constructor
  · exact inv.settled_nodup
  · simpa [pendingIds] using List.Nodup.concat hnew inv.pending_nodup
  · simpa [liveIds, liveId] using List.Nodup.concat hlive inv.live_nodup
  · intro oid hoid
    simp only [pendingIds, List.map_append, List.map_cons, List.map_nil] at hoid
    rcases List.mem_append.mp hoid with hold | hself
    · exact inv.pending_open oid hold
    · rw [List.mem_singleton.mp hself]
      exact hopen
  · intro oid hoid
    simp only [liveIds, List.filterMap_append, List.filterMap_cons, List.filterMap_nil] at hoid
    simp only [pendingIds, List.map_append, List.map_cons, List.map_nil]
    rcases List.mem_append.mp hoid with hold | hself
    · exact List.mem_append_left _ (inv.live_pending oid hold)
    · exact List.mem_append_right _ (by simpa [liveId] using hself)
  · intro oid hoid
    simp only [pendingIds, List.map_append, List.map_cons, List.map_nil] at hoid
    rcases List.mem_append.mp hoid with hold | hself
    · exact List.mem_append_left _ (inv.pending_seen oid hold)
    · exact List.mem_append_right _ hself
  · exact fun oid hoid => List.mem_append_left _ (inv.settled_seen oid hoid)

theorem Inv.onFill (inv : Inv seen t) {fill : Fill} (prompt : t.Prompt (.onFill fill)) :
    Inv seen (t.onFill fill) := by
  rw [DeadlineOrderTracker.onFill]
  split
  · rename_i hpending
    apply inv.settle hpending .confirmed rfl rfl (liveIds_cancelTimers t _)
    apply not_mem_liveIds_cancelTimers
    · intro oid hoid
      rw [List.mem_singleton.mp hoid]
      exact prompt hpending
    · exact List.mem_singleton_self _
  · exact inv

theorem Inv.cancelAll (inv : Inv seen t) (prompt : t.Prompt .cancelAll) : Inv seen t.cancelAll := by
  have hsettled : t.cancelAll.settled = t.settled ++ t.pendingIds := by
    simp [settled, DeadlineOrderTracker.cancelAll, Function.comp_def]
  constructor
  · rw [hsettled]
    refine inv.settled_nodup.append inv.pending_nodup ?_
    intro oid hdone hpending
    exact inv.pending_open oid hpending hdone
  · exact List.nodup_nil
  · exact (liveIds_cancelTimers t _).nodup inv.live_nodup
  · exact fun oid hoid => absurd hoid List.not_mem_nil
  · intro oid hoid
    have hpending := inv.live_pending oid ((liveIds_cancelTimers t _).subset hoid)
    exact absurd hoid (not_mem_liveIds_cancelTimers prompt hpending)
  · exact fun oid hoid => absurd hoid List.not_mem_nil
  · intro oid hoid
    rw [hsettled] at hoid
    rcases List.mem_append.mp hoid with hold | hpending
    · exact inv.settled_seen oid hold
    · exact inv.pending_seen oid hpending

theorem Inv.timerHandler (inv : Inv seen t) (i : Nat) : Inv seen (t.timerHandler i) := by
  rw [DeadlineOrderTracker.timerHandler]
  split
  · exact inv
  · rename_i w hfound
    split
    · exact inv
    · have hsub : (liveIds { t with waits := t.waits.eraseIdx i }).Sublist t.liveIds :=
        (List.eraseIdx_sublist ..).filterMap _
      exact ⟨inv.settled_nodup, inv.pending_nodup, hsub.nodup inv.live_nodup, inv.pending_open,
        fun oid hoid => inv.live_pending oid (hsub.subset hoid), inv.pending_seen, inv.settled_seen⟩
    · rename_i hexpired
      obtain ⟨before, after, hlive, herased⟩ := liveIds_eraseIdx hfound (by simp [hexpired])
      have hnodup := inv.live_nodup
      rw [hlive, List.nodup_middle] at hnodup
      have hsub := liveIds_cancelTimers { t with waits := t.waits.eraseIdx i } [w.oid]
      rw [herased] at hsub
      have hpending : w.oid ∈ t.pendingIds := inv.live_pending _ (by simp [hlive])
      refine inv.settle hpending .timedOut rfl rfl ?_ ?_
      · rw [hlive]
        exact hsub.trans ((List.sublist_cons_self ..).append_left before)
      · intro hmem
        exact (List.nodup_cons.mp hnodup).1 (hsub.subset hmem)

theorem Inv.timerExpires (inv : Inv seen t) (i : Nat) : Inv seen (t.timerExpires i) :=
  ⟨inv.settled_nodup, inv.pending_nodup, by simpa using inv.live_nodup, inv.pending_open,
    fun oid hoid => inv.live_pending oid (by simpa using hoid), inv.pending_seen, inv.settled_seen⟩

/-- The id an event registers. -/
def registeredId : TrackerEvent → Option String
  | .registerPending order => some order.clientOrderId
  | _ => none

/-- One prompt event keeps the invariant. -/
theorem Inv.step (inv : Inv seen t) {e : TrackerEvent} (prompt : t.Prompt e)
    (fresh : ∀ oid ∈ registeredId e, oid ∉ seen) :
    Inv (seen ++ (registeredId e).toList) (t.step e) := by
  cases e with
  | registerPending order => exact inv.registerPending (fresh _ rfl)
  | expire i => exact (List.append_nil seen).symm ▸ inv.timerExpires i
  | handler i => exact (List.append_nil seen).symm ▸ inv.timerHandler i
  | onFill fill => exact (List.append_nil seen).symm ▸ inv.onFill prompt
  | cancelAll => exact (List.append_nil seen).symm ▸ inv.cancelAll prompt

theorem Inv.run (inv : Inv seen t) {events : List TrackerEvent}
    (prompt : Runs.Along DeadlineOrderTracker.step Prompt t events)
    (distinct : (seen ++ events.filterMap registeredId).Nodup) :
    Inv (seen ++ events.filterMap registeredId) (Runs.run DeadlineOrderTracker.step t events) := by
  induction events generalizing seen t with
  | nil => simpa using inv
  | cons e events ih =>
      have hsplit : seen ++ (e :: events).filterMap registeredId =
          (seen ++ (registeredId e).toList) ++ events.filterMap registeredId := by
        cases hid : registeredId e <;> simp [hid]
      rw [hsplit] at distinct ⊢
      refine ih (inv.step prompt.1 ?_) prompt.2 distinct
      intro oid hoid hseen
      have hhead := (List.nodup_append.mp distinct).1
      exact (List.nodup_append.mp hhead).2.2 oid hseen oid (by simpa using hoid) rfl

/-!
### Late handlers

The handler reports a timeout without looking the order up. Once a fill or a shutdown has met a queued one,
only that handler itself takes it out of the queue, so a continuation in which it runs shows the second
outcome.
-/

/-- Some order has two outcomes, or will have once a queued handler has run. -/
def Doomed (t : DeadlineOrderTracker) : Prop :=
  ¬ t.settled.Nodup ∨ ∃ oid, t.Queued oid ∧ oid ∈ t.settled

theorem queued_cancelTimers {oids : List String} (queued : t.Queued oid) :
    (t.cancelTimers oids).Queued oid := by
  obtain ⟨w, hw, hid, hexpired⟩ := queued
  refine ⟨_, List.mem_map_of_mem hw, ?_, ?_⟩
  · split <;> exact hid
  · split
    · exact WaitStatus.cancel_eq_expired.mpr hexpired
    · exact hexpired

/-- A fill or a shutdown that meets a queued handler. -/
theorem doomed_of_not_prompt (t : DeadlineOrderTracker) (e : TrackerEvent) (late : ¬ t.Prompt e) :
    (t.step e).Doomed := by
  cases e with
  | onFill fill =>
      obtain ⟨hpending, hqueued⟩ := Classical.not_imp.mp late
      rw [DeadlineOrderTracker.step, DeadlineOrderTracker.onFill, if_pos hpending]
      refine Or.inr ⟨fill.clientOrderId, queued_cancelTimers (not_not.mp hqueued), ?_⟩
      simp [settled, record]
  | cancelAll =>
      simp only [Prompt, not_forall, not_not] at late
      obtain ⟨oid, hpending, hqueued⟩ := late
      refine Or.inr ⟨oid, queued_cancelTimers hqueued, ?_⟩
      simp [settled, DeadlineOrderTracker.step, DeadlineOrderTracker.cancelAll, hpending]
  | registerPending order => exact absurd trivial late
  | expire i => exact absurd trivial late
  | handler i => exact absurd trivial late

/-- Outcomes are only added. -/
theorem settled_prefix_step (t : DeadlineOrderTracker) (e : TrackerEvent) :
    t.settled <+: (t.step e).settled := by
  suffices hgrows : t.outcomes <+: (t.step e).outcomes from hgrows.map _
  cases e with
  | registerPending order =>
      rw [DeadlineOrderTracker.step, DeadlineOrderTracker.registerPending]
      split <;> exact List.prefix_refl _
  | expire i => exact List.prefix_refl _
  | handler i =>
      rw [DeadlineOrderTracker.step, DeadlineOrderTracker.timerHandler]
      split
      · exact List.prefix_refl _
      · split
        · exact List.prefix_refl _
        · exact List.prefix_refl _
        · exact List.prefix_append ..
  | onFill fill =>
      rw [DeadlineOrderTracker.step, DeadlineOrderTracker.onFill]
      split
      · exact List.prefix_append ..
      · exact List.prefix_refl _
  | cancelAll => exact List.prefix_append ..

/-- A handler that runs for a settled order gives it a second outcome. -/
theorem not_nodup_of_late_handler {i : Nat} {w : DeadlineWait} (found : t.waits[i]? = some w)
    (expired : w.status = .expired) (settled : w.oid ∈ t.settled) :
    ¬ (t.timerHandler i).settled.Nodup := by
  have hsettled : (t.timerHandler i).settled = t.settled ++ [w.oid] := by
    simp [timerHandler, found, expired, DeadlineOrderTracker.settled, record, erase, cancelTimers]
  rw [hsettled]
  intro hnodup
  exact (List.nodup_append.mp hnodup).2.2 w.oid settled w.oid (List.mem_singleton_self _) rfl

/-- A passing deadline leaves the other handlers where they are. -/
theorem queued_timerExpires (i : Nat) (queued : t.Queued oid) : (t.timerExpires i).Queued oid := by
  obtain ⟨w, hw, hid, hexpired⟩ := queued
  obtain ⟨k, hk⟩ := List.mem_iff_getElem?.mp hw
  refine ⟨if k = i then { w with status := w.status.expire } else w, ?_, ?_, ?_⟩
  · apply List.mem_of_getElem? (i := k)
    simp only [timerExpires, List.getElem?_modify, hk]
    by_cases hki : i = k
    · simp [hki]
    · simp [hki, Ne.symm hki]
  · split <;> exact hid
  · split
    · rw [hexpired]
      rfl
    · exact hexpired

/-- A handler that runs takes itself out of the queue and no other. -/
theorem queued_timerHandler (i : Nat) (queued : t.Queued oid) :
    (t.timerHandler i).Queued oid ∨ ∃ w, t.waits[i]? = some w ∧ w.oid = oid ∧ w.status = .expired := by
  obtain ⟨w, hw, hid, hexpired⟩ := queued
  rw [timerHandler]
  cases hfound : t.waits[i]? with
  | none => exact Or.inl ⟨w, hw, hid, hexpired⟩
  | some found =>
      by_cases hself : found = w
      · exact Or.inr ⟨found, rfl, by rw [hself, hid], by rw [hself, hexpired]⟩
      · have hrest : w ∈ t.waits.eraseIdx i := by
          obtain ⟨k, hk⟩ := List.mem_iff_getElem?.mp hw
          refine List.mem_eraseIdx_iff_getElem?.mpr ⟨k, ?_, hk⟩
          rintro rfl
          exact hself (Option.some.inj (hfound.symm.trans hk))
        left
        have hqueued : Queued { t with waits := t.waits.eraseIdx i } oid := ⟨w, hrest, hid, hexpired⟩
        dsimp only
        split
        · exact ⟨w, hw, hid, hexpired⟩
        · exact hqueued
        · exact queued_cancelTimers hqueued

/-- Nothing but the handler itself takes it out of the queue. -/
theorem queued_step (t : DeadlineOrderTracker) (e : TrackerEvent) (queued : t.Queued oid) :
    (t.step e).Queued oid ∨
      ∃ i w, e = .handler i ∧ t.waits[i]? = some w ∧ w.oid = oid ∧ w.status = .expired := by
  cases e with
  | registerPending order =>
      obtain ⟨w, hw, hid, hexpired⟩ := queued
      refine Or.inl ⟨w, ?_, hid, hexpired⟩
      rw [DeadlineOrderTracker.step, DeadlineOrderTracker.registerPending]
      split <;> exact List.mem_append_left _ hw
  | expire i => exact Or.inl (queued_timerExpires i queued)
  | handler i =>
      rcases queued_timerHandler i queued with hstill | ⟨w, hfound, hid, hexpired⟩
      · exact Or.inl hstill
      · exact Or.inr ⟨i, w, rfl, hfound, hid, hexpired⟩
  | onFill fill =>
      left
      rw [DeadlineOrderTracker.step, DeadlineOrderTracker.onFill]
      split
      · exact queued_cancelTimers queued
      · exact queued
  | cancelAll => exact Or.inl (queued_cancelTimers queued)

theorem doomed_step (t : DeadlineOrderTracker) (e : TrackerEvent) (doomed : t.Doomed) :
    (t.step e).Doomed := by
  rcases doomed with htwice | ⟨oid, hqueued, hsettled⟩
  · exact Or.inl fun hnodup => htwice ((settled_prefix_step t e).sublist.nodup hnodup)
  · rcases queued_step t e hqueued with hstill | ⟨i, w, rfl, hfound, rfl, hexpired⟩
    · exact Or.inr ⟨oid, hstill, (settled_prefix_step t e).subset hsettled⟩
    · exact Or.inl (not_nodup_of_late_handler hfound hexpired hsettled)

/-- One more handler shows it. -/
theorem Doomed.breaks (doomed : t.Doomed) :
    ∃ later : List TrackerEvent, (∀ e ∈ later, ∃ i, e = .handler i) ∧
      ¬ (Runs.run step t later).settled.Nodup := by
  rcases doomed with htwice | ⟨oid, ⟨w, hw, rfl, hexpired⟩, hsettled⟩
  · exact ⟨[], by simp, htwice⟩
  · obtain ⟨i, hfound⟩ := List.mem_iff_getElem?.mp hw
    exact ⟨[.handler i], by simp, not_nodup_of_late_handler hfound hexpired hsettled⟩

/-! ### Result -/

theorem prompt_handler {i : Nat} (t : DeadlineOrderTracker) : t.Prompt (.handler i) := trivial

/-- At most one outcome per order.  For every sequence of registrations under distinct ids, deadlines,
    handlers, fills and shutdowns: whichever queued handlers run afterwards, no order has two outcomes and
    no timeout is reported for an order that was filled or cancelled, exactly if no fill and no shutdown of
    the sequence takes away an order whose timer handler is queued. -/
theorem one_outcome_iff (events : List TrackerEvent) (distinct : (events.filterMap registeredId).Nodup) :
    (∀ later : List TrackerEvent, (∀ e ∈ later, ∃ i, e = .handler i) →
        (Runs.run step {} (events ++ later)).OneOutcome) ↔
      Runs.Along step Prompt {} events := by
  constructor
  · intro hone
    by_contra hlate
    have hdoomed := Runs.Along.trapped doomed_of_not_prompt doomed_step hlate
    obtain ⟨later, hhandlers, htwice⟩ := hdoomed.breaks
    rw [← Runs.run_append] at htwice
    exact htwice (hone later hhandlers).1
  · intro hprompt later hhandlers
    have hlater : Runs.Along step Prompt (Runs.run step {} events) later := by
      apply Runs.Along.of_always
      intro e he t
      obtain ⟨i, rfl⟩ := hhandlers e he
      exact t.prompt_handler
    have hall : Runs.Along step Prompt {} (events ++ later) :=
      Runs.Along.append_iff.mpr ⟨hprompt, hlater⟩
    have hids : (events ++ later).filterMap registeredId = events.filterMap registeredId := by
      have hnone : later.filterMap registeredId = [] := by
        apply List.filterMap_eq_nil_iff.mpr
        intro e he
        obtain ⟨i, rfl⟩ := hhandlers e he
        rfl
      rw [List.filterMap_append, hnone, List.append_nil]
    have hinv := inv_start.run hall (by rw [List.nil_append, hids]; exact distinct)
    exact oneOutcome_iff.mpr hinv.settled_nodup

end DeadlineOrderTracker

/-- An order and its fill. -/
def trackedOrder (oid : String) : Order :=
  { venue := "binance", side := .buy, priceTick := 50000, quantity := 1 / 100, clientOrderId := oid }

def trackedFill (oid : String) : Fill :=
  { clientOrderId := oid, filledQty := 1 / 100, fillPriceTick := 50000, tsNs := 0 }

/-- Three orders: one is filled in time, one times out and is filled too late, one is cancelled. -/
def threeOrders : List TrackerEvent :=
  [.registerPending (trackedOrder "a"), .registerPending (trackedOrder "b"), .onFill (trackedFill "a"),
    .expire 1, .handler 1, .onFill (trackedFill "b"), .registerPending (trackedOrder "c"), .cancelAll]

theorem one_outcome_three_orders :
    (threeOrders.filterMap DeadlineOrderTracker.registeredId).Nodup ∧
      ∀ later : List TrackerEvent, (∀ e ∈ later, ∃ i, e = .handler i) →
        (Runs.run DeadlineOrderTracker.step {} (threeOrders ++ later)).OneOutcome := by
  have hdistinct : (threeOrders.filterMap DeadlineOrderTracker.registeredId).Nodup := by decide
  refine ⟨hdistinct, (DeadlineOrderTracker.one_outcome_iff threeOrders hdistinct).mpr ?_⟩
  simp only [threeOrders, Runs.Along]
  decide

/-- The deadline passes, the fill is processed, and then the queued handler runs: the order is confirmed
    and timed out. -/
theorem timeout_after_fill :
    let events : List TrackerEvent :=
      [.registerPending (trackedOrder "a"), .expire 0, .onFill (trackedFill "a"), .handler 0]
    (events.filterMap DeadlineOrderTracker.registeredId).Nodup ∧
      (Runs.run DeadlineOrderTracker.step {} events).outcomes = [("a", .confirmed), ("a", .timedOut)] ∧
      ¬ (Runs.run DeadlineOrderTracker.step {} events).OneOutcome := by
  refine ⟨by decide, by decide, ?_⟩
  rw [DeadlineOrderTracker.oneOutcome_iff]
  decide

end ZidaBot.Exec
