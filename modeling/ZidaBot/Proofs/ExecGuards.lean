/-
Module: ZidaBot.Proofs.ExecGuards
Purpose: The guards of the execution engine over whole sequences of calls, for every strategy behind it.
  A signal either passes all four guards and is handed to the strategy once, or returns before anything
  was written; the cooldown map therefore holds, for each pair, the time of the last signal the strategy
  has seen.
Trusted boundary: none
Main exports: ExecEngine.onSignal_cases, stamps, Spaced, exec_guard_law
-/
import ZidaBot.Exec.ExecEngine
import ZidaBot.Library.Runs
import Mathlib.Data.List.Chain

namespace ZidaBot.Exec

open Brain

namespace ExecEngine

variable {σ : Type} {cfg : ExecConfig} {strategy : IExecStrategy σ} {e : ExecEngine σ}

/-!
### What a signal can do

The guards come first and write nothing; the cooldown guard writes as it lets a signal through, and the
strategy is called last.
-/

/-- A signal is dropped before anything is written, or it passes while the engine is not paused: then the
    cooldown lets it through and records it, and the strategy gets it. -/
theorem onSignal_cases (cfg : ExecConfig) (strategy : IExecStrategy σ) (e : ExecEngine σ)
    (cross : ArbCross) :
    e.onSignal cfg strategy cross = e ∨
      e.paused = false ∧ (0 < cfg.cooldownNs → cooldownGuard cfg e.guarded cross = false) ∧
        e.onSignal cfg strategy cross =
          { e with
            lastSignalNs := if 0 < cfg.cooldownNs then
              (pairKey cross, cross.tsDetectedNs) :: e.lastSignalNs else e.lastSignalNs
            strategy := strategy.onSignal e.strategy cross } := by
  rw [onSignal]
  split
  · exact Or.inl rfl
  · split
    · exact Or.inl rfl
    · split
      · exact Or.inl rfl
      · rename_i hpaused
        split
        · rename_i hcooldown
          split
          · exact Or.inl rfl
          · rename_i hguard
            exact Or.inr ⟨by simpa using hpaused, fun _ => by simpa using hguard, rfl⟩
        · rename_i hcooldown
          exact Or.inr ⟨by simpa using hpaused, fun h => absurd h hcooldown, rfl⟩

/-- The immediate strategy sees none of the engine's members. -/
theorem joined_strategySignal (cfg : ExecConfig) (nowNs : Int) (s : ExecState) (cross : ArbCross)
    (paused : Bool) (openNotional : ℚ) (recorded : List (String × Int)) :
    strategySignal cfg nowNs
        { s with paused := paused, openNotional := openNotional, lastSignalNs := recorded } cross =
      { strategySignal cfg nowNs s cross with
        paused := paused, openNotional := openNotional, lastSignalNs := recorded } := by
  have horder : orderFor cfg
      { s with paused := paused, openNotional := openNotional, lastSignalNs := recorded } cross =
      orderFor cfg s cross := rfl
  rw [strategySignal, strategySignal, horder]
  cases orderFor cfg s cross with
  | none => rfl
  | some order => rfl

/-- With the immediate strategy behind it, the engine is the one of the position-limit runs. -/
theorem joined_onSignal (cfg : ExecConfig) (nowNs : Int) (e : ExecEngine ExecState)
    (cross : ArbCross) :
    (e.onSignal cfg (immediateStrategy cfg nowNs) cross).joined =
      Exec.onSignal cfg nowNs e.joined cross := by
  have hposition : positionGuard cfg e.joined cross = positionGuard cfg e.guarded cross := rfl
  have hcooldown : cooldownGuard cfg e.joined cross = cooldownGuard cfg e.guarded cross := rfl
  have hpaused : e.joined.paused = e.paused := rfl
  rw [onSignal, Exec.onSignal, hposition, hcooldown, hpaused]
  split
  · rfl
  · split
    · rfl
    · split
      · rfl
      · split
        · split
          · rfl
          · exact (joined_strategySignal cfg nowNs e.strategy cross _ _ _).symm
        · exact (joined_strategySignal cfg nowNs e.strategy cross _ _ _).symm

/-!
### Recording what the strategy is handed

To speak of all signals that a strategy was handed, the strategy is wrapped in one that keeps them. It is
shown to change nothing else.
-/

/-- Forget the record. -/
def unrecorded (e : ExecEngine (σ × List ArbCross)) : ExecEngine σ :=
  { paused := e.paused, openNotional := e.openNotional, lastSignalNs := e.lastSignalNs
    strategy := e.strategy.1 }

/-- The signals the strategy has been handed, oldest first. -/
def invoked (e : ExecEngine (σ × List ArbCross)) : List ArbCross := e.strategy.2

/-- Recording does not disturb the engine. -/
theorem unrecorded_call (cfg : ExecConfig) (strategy : IExecStrategy σ)
    (e : ExecEngine (σ × List ArbCross)) (call : EngineCall) :
    (e.call cfg strategy.recorded call).unrecorded = e.unrecorded.call cfg strategy call := by
  cases call with
  | onSignal cross =>
      have hguarded : e.unrecorded.guarded = e.guarded := rfl
      have hpaused : e.unrecorded.paused = e.paused := rfl
      simp only [ExecEngine.call, onSignal, hguarded, hpaused]
      repeat' split
      all_goals rfl
  | onFill fill => rfl
  | pause => rfl
  | resume => rfl

/-- Between a `pause` and the next `resume` the strategy is handed nothing. -/
theorem invoked_of_paused {e : ExecEngine (σ × List ArbCross)} (paused : e.paused = true)
    {calls : List EngineCall} (noResume : .resume ∉ calls) :
    invoked (Runs.run (ExecEngine.call cfg strategy.recorded) e calls) = e.invoked := by
  induction calls generalizing e with
  | nil => rfl
  | cons next calls ih =>
      have hrest : .resume ∉ calls := fun h => noResume (List.mem_cons_of_mem next h)
      rw [Runs.run_cons]
      cases next with
      | onSignal cross =>
          rcases onSignal_cases cfg strategy.recorded e cross with hdropped | ⟨hopen, -, -⟩
          · rw [ExecEngine.call, hdropped]
            exact ih paused hrest
          · rw [paused] at hopen
            cases hopen
      | onFill fill => exact ih paused hrest
      | pause => exact ih rfl hrest
      | resume => exact absurd (List.mem_cons_self ..) noResume

/-- A signal that the strategy is not handed leaves the engine as it was. -/
theorem onSignal_of_not_invoked {e : ExecEngine (σ × List ArbCross)} {cross : ArbCross}
    (notInvoked : (e.onSignal cfg strategy.recorded cross).invoked = e.invoked) :
    e.onSignal cfg strategy.recorded cross = e := by
  rcases onSignal_cases cfg strategy.recorded e cross with hdropped | ⟨-, -, hpassed⟩
  · exact hdropped
  · rw [hpassed] at notInvoked
    simp [invoked, IExecStrategy.recorded] at notInvoked

end ExecEngine

/-!
### Spacing of what the strategy sees

The cooldown map is overwritten at every dispatch, so it holds the last time of each pair, and the guard
compares with that one only.
-/

/-- Detection times of the signals of one pair. -/
def stamps (key : String) (signals : List ArbCross) : List Int :=
  (signals.filter fun cross => pairKey cross = key).map ArbCross.tsDetectedNs

theorem stamps_append (key : String) (signals : List ArbCross) (cross : ArbCross) :
    stamps key (signals ++ [cross]) =
      if pairKey cross = key then stamps key signals ++ [cross.tsDetectedNs]
      else stamps key signals := by
  by_cases hkey : pairKey cross = key <;> simp [stamps, hkey]

/-- The signals of a sequence of calls. -/
def signals (calls : List EngineCall) : List ArbCross :=
  calls.filterMap fun
    | .onSignal cross => some cross
    | _ => none

/-- Times of the same pair lie close enough together that their differences fit into 64 bits. -/
def DifferencesFit (seen : List ArbCross) : Prop :=
  ∀ earlier ∈ seen, ∀ later ∈ seen, pairKey earlier = pairKey later →
    wrap64 (later.tsDetectedNs - earlier.tsDetectedNs) = later.tsDetectedNs - earlier.tsDetectedNs

/-- The cooldown map holds the last time of every pair, and the times of a pair are apart by at least the
    cooldown. -/
structure Spaced {σ : Type} (cfg : ExecConfig) (seen : List ArbCross)
    (e : ExecEngine (σ × List ArbCross)) : Prop where
  from_seen : ∀ cross ∈ e.invoked, cross ∈ seen
  recorded : ∀ key, e.lastSignalNs.lookup key = (stamps key e.invoked).getLast?
  apart : ∀ key, (stamps key e.invoked).IsChain fun earlier later => cfg.cooldownNs ≤ later - earlier

namespace Spaced

variable {σ : Type} {cfg : ExecConfig} {strategy : IExecStrategy σ} {seen : List ArbCross}
variable {e : ExecEngine (σ × List ArbCross)}

/-- A signal that passes the cooldown comes at least the cooldown after the last one of its pair. -/
theorem after_last (spaced : Spaced cfg seen e) (fit : DifferencesFit seen) {cross : ArbCross}
    (member : cross ∈ seen) (passed : cooldownGuard cfg e.guarded cross = false) {last : Int}
    (hlast : (stamps (pairKey cross) e.invoked).getLast? = some last) :
    cfg.cooldownNs ≤ cross.tsDetectedNs - last := by
  have hlookup := (spaced.recorded (pairKey cross)).trans hlast
  obtain ⟨earlier, hearlier, rfl⟩ : ∃ earlier ∈ e.invoked.filter fun x => pairKey x = pairKey cross,
      earlier.tsDetectedNs = last := List.mem_map.mp (List.mem_of_getLast? hlast)
  obtain ⟨hinvoked, hkey⟩ := List.mem_filter.mp hearlier
  have hwrap := fit earlier (spaced.from_seen earlier hinvoked) cross member (by simpa using hkey)
  simp only [cooldownGuard, ExecEngine.guarded, hlookup, hwrap] at passed
  simpa using passed

/-- Handing over one more signal, recorded in the map, keeps the spacing. -/
theorem handed (spaced : Spaced cfg seen e) {e' : ExecEngine (σ × List ArbCross)} {cross : ArbCross}
    (invoked : e'.invoked = e.invoked ++ [cross])
    (written : e'.lastSignalNs = (pairKey cross, cross.tsDetectedNs) :: e.lastSignalNs)
    (member : cross ∈ seen)
    (after : ∀ last, (stamps (pairKey cross) e.invoked).getLast? = some last →
      cfg.cooldownNs ≤ cross.tsDetectedNs - last) : Spaced cfg seen e' := by
  constructor
  · intro x hx
    rw [invoked] at hx
    rcases List.mem_append.mp hx with hold | hnew
    · exact spaced.from_seen x hold
    · rw [List.mem_singleton.mp hnew]
      exact member
  · intro key
    rw [invoked, written, stamps_append, List.lookup_cons]
    by_cases hkey : pairKey cross = key
    · simp [hkey]
    · have hne : (key == pairKey cross) = false := by simpa using Ne.symm hkey
      simpa [hkey, hne] using spaced.recorded key
  · intro key
    rw [invoked, stamps_append]
    by_cases hkey : pairKey cross = key
    · subst hkey
      rw [if_pos rfl]
      apply (spaced.apart _).append (List.isChain_singleton _)
      intro last hlast first hfirst
      obtain rfl : cross.tsDetectedNs = first := by simpa using hfirst
      exact after last hlast
    · rw [if_neg hkey]
      exact spaced.apart key

/-- One call keeps the spacing. -/
theorem call (spaced : Spaced cfg seen e) (fit : DifferencesFit seen)
    (cooldown : 0 < cfg.cooldownNs) (next : EngineCall) (member : ∀ cross ∈ signals [next], cross ∈ seen) :
    Spaced cfg seen (e.call cfg strategy.recorded next) := by
  cases next with
  | onSignal cross =>
      have hmember : cross ∈ seen := member cross (by simp [signals])
      rcases ExecEngine.onSignal_cases cfg strategy.recorded e cross with
        hdropped | ⟨-, hguard, hpassed⟩
      · rw [ExecEngine.call, hdropped]
        exact spaced
      · rw [ExecEngine.call, hpassed]
        apply spaced.handed rfl (if_pos cooldown) hmember
        intro last hlast
        exact spaced.after_last fit hmember (hguard cooldown) hlast
  | onFill fill => exact ⟨spaced.from_seen, spaced.recorded, spaced.apart⟩
  | pause => exact ⟨spaced.from_seen, spaced.recorded, spaced.apart⟩
  | resume => exact ⟨spaced.from_seen, spaced.recorded, spaced.apart⟩

end Spaced

/-- The engine as constructed, its strategy recorded. -/
def ExecEngine.start {σ : Type} (strategy : σ) : ExecEngine (σ × List ArbCross) :=
  { strategy := (strategy, []) }

/-- The spacing after every sequence of calls. -/
theorem spaced_run {σ : Type} {cfg : ExecConfig} (strategy : IExecStrategy σ) (initial : σ)
    (cooldown : 0 < cfg.cooldownNs) {calls : List EngineCall} (fit : DifferencesFit (signals calls)) :
    Spaced cfg (signals calls)
      (Runs.run (ExecEngine.call cfg strategy.recorded) (ExecEngine.start initial) calls) := by
  have hstart : Spaced cfg (signals calls) (ExecEngine.start initial) :=
    ⟨fun x hx => absurd hx List.not_mem_nil, fun key => rfl, fun key => List.isChain_nil⟩
  have hmembers : ∀ next ∈ calls, ∀ cross ∈ signals [next], cross ∈ signals calls := by
    intro next hnext cross hcross
    obtain ⟨call, hcall, hsome⟩ := List.mem_filterMap.mp hcross
    rw [List.mem_singleton.mp hcall] at hsome
    exact List.mem_filterMap.mpr ⟨next, hnext, hsome⟩
  exact (Runs.along_of_forall hmembers _).invariant
    (fun _ next spaced hnext => spaced.call fit cooldown next hnext) hstart

/-!
### Result
-/

/-- Guard law of the engine, for every strategy and every sequence of calls.  The strategy is handed
    nothing between a `pause` and the next `resume`; with a cooldown, the times of the signals it is
    handed for one pair strictly increase by at least the cooldown each, whatever the order in which the
    signals come; and a signal it is not handed leaves notional and cooldown map as they were. -/
theorem exec_guard_law {σ : Type} (cfg : ExecConfig) (strategy : IExecStrategy σ) (initial : σ)
    (calls : List EngineCall) (fit : DifferencesFit (signals calls)) :
    let after := Runs.run (ExecEngine.call cfg strategy.recorded) (ExecEngine.start initial)
    (∀ before during later, calls = before ++ .pause :: during ++ later → .resume ∉ during →
      (after (before ++ .pause :: during)).invoked = (after before).invoked) ∧
    (0 < cfg.cooldownNs → ∀ key,
      (stamps key (after calls).invoked).Pairwise (fun earlier later => earlier < later) ∧
      (stamps key (after calls).invoked).IsChain
        fun earlier later => cfg.cooldownNs ≤ later - earlier) ∧
    (∀ before cross later, calls = before ++ .onSignal cross :: later →
      (after (before ++ [.onSignal cross])).invoked = (after before).invoked →
        (after (before ++ [.onSignal cross])).openNotional = (after before).openNotional ∧
        (after (before ++ [.onSignal cross])).lastSignalNs = (after before).lastSignalNs) := by
  intro after
  refine ⟨?_, ?_, ?_⟩
  · intro before during later _ hresume
    have hsplit : after (before ++ .pause :: during) =
        Runs.run (ExecEngine.call cfg strategy.recorded) ((after before).pause strategy.recorded)
          during := Runs.run_append ..
    rw [hsplit, ExecEngine.invoked_of_paused rfl hresume]
    rfl
  · intro hcooldown key
    have hchain := (spaced_run strategy initial hcooldown fit).apart key
    refine ⟨List.isChain_iff_pairwise.mp (hchain.imp ?_), hchain⟩
    intro earlier later hapart
    omega
  · intro before cross later _ hsame
    have hsplit : after (before ++ [.onSignal cross]) =
        (after before).onSignal cfg strategy.recorded cross := Runs.run_append ..
    rw [hsplit] at hsame ⊢
    rw [ExecEngine.onSignal_of_not_invoked hsame]
    exact ⟨rfl, rfl⟩

/-- A strategy that counts its signals and ignores the kill switch. -/
def countingStrategy : IExecStrategy Nat where
  onSignal count _ := count + 1
  pause count := count
  resume count := count

/-- Cooldown of ten nanoseconds, no other guard. -/
def cooldownConfig : ExecConfig :=
  { myVenue := "binance", positionLimit := 0, maxOrderNotional := 0, cooldownNs := 10, targetQty := 1 }

/-- A signal of one pair at a given time. -/
def crossAt (tsDetectedNs : Int) : ArbCross :=
  { sellVenue := "binance", buyVenue := "okx", sellBidTick := 50000, buyAskTick := 49900
    spreadBps := 0, netSpreadBps := 0, tsDetectedNs := tsDetectedNs, sellTsBookNs := 0, buyTsBookNs := 0 }

/-- A burst, a signal from the past, and one during a pause. -/
def unsteadyCalls : List EngineCall :=
  [.onSignal (crossAt 5), .onSignal (crossAt 9), .onSignal (crossAt 20), .onSignal (crossAt 3), .pause,
    .onSignal (crossAt 40), .resume, .onSignal (crossAt 31)]

/-- Three of the six signals reach the strategy, apart by the cooldown. -/
theorem exec_guard_law_unsteady :
    DifferencesFit (signals unsteadyCalls) ∧
      let seen := (Runs.run (ExecEngine.call cooldownConfig countingStrategy.recorded)
        (ExecEngine.start 0) unsteadyCalls).invoked
      stamps "binance:okx" seen = [5, 20, 31] ∧
        (stamps "binance:okx" seen).IsChain fun earlier later => 10 ≤ later - earlier := by
  have fit : DifferencesFit (signals unsteadyCalls) := by
    unfold DifferencesFit
    decide +kernel
  have law := exec_guard_law cooldownConfig countingStrategy 0 unsteadyCalls fit
  exact ⟨fit, by decide +kernel, (law.2.1 (by decide) "binance:okx").2⟩

end ZidaBot.Exec
