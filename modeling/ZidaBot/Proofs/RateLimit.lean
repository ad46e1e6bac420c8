/-
Module: ZidaBot.Proofs.RateLimit
Purpose: The rate limiter over whole sequences of scans.  Its memory is tied to the crosses returned so far:
  what it remembers of a key is the time of a returned cross of that key, and no returned cross of the key
  is later.  So two crosses of one pair of venues are at least the limit apart, and a pair that passes every
  guard is held back only by a returned cross of its key within the limit.
Trusted boundary: none
Main exports: Remembered, Spaced, rate_limit_spacing, scan_complete_per_venue_pair
-/
import ZidaBot.Proofs.ScanGuards
import Mathlib.Data.List.Induction
import Mathlib.Tactic.Linarith

namespace ZidaBot.Brain

variable {cfg : ArbDetectorConfig} {tsNow : Int} {d : ArbDetector} {log : List ArbCross}

/-!
### One question to the limiter

The limiter is asked once for each candidate and remembers what it lets through. A scan is a sequence of
such offers, which is how the lemmas below see it.
-/

/-- With a limit, a question is refused for a remembered time that is too close, or answered and
    remembered. -/
theorem checkRateLimit_cases (limited : 0 < cfg.rateLimitNs) (d : ArbDetector) (key : String)
    (tsNow : Int) :
    (∃ last, d.lastEmitNs.lookup key = some last ∧ wrap64 (tsNow - last) < cfg.rateLimitNs ∧
        d.checkRateLimit cfg key tsNow = (d, false)) ∨
      ((∀ last, d.lastEmitNs.lookup key = some last → cfg.rateLimitNs ≤ wrap64 (tsNow - last)) ∧
        d.checkRateLimit cfg key tsNow = ({ d with lastEmitNs := (key, tsNow) :: d.lastEmitNs }, true)) := by
  rw [ArbDetector.checkRateLimit, if_neg (not_le.mpr limited)]
  cases hlast : d.lastEmitNs.lookup key with
  | none => exact Or.inr ⟨fun _ hnone => (by cases hnone), rfl⟩
  | some last =>
      dsimp only
      split
      · rename_i hclose
        exact Or.inl ⟨last, rfl, hclose, rfl⟩
      · rename_i hfar
        refine Or.inr ⟨?_, rfl⟩
        rintro other ⟨rfl⟩
        exact not_lt.mp hfar

@[simp] theorem lastEmitNs_emit (d : ArbDetector) (cross : ArbCross) :
    (d.emit cross).lastEmitNs = d.lastEmitNs := by
  rw [ArbDetector.emit]
  split <;> rfl

/-- What an offer does: the candidate is held back for a remembered time within the limit, or it is
    returned and, with a limit, remembered. -/
theorem offer_cases (cfg : ArbDetectorConfig) (tsNow : Int) (acc : ArbDetector × List Detection)
    (found : Detection) :
    (0 < cfg.rateLimitNs ∧ (∃ last, acc.1.lastEmitNs.lookup (limiterKey found.cross) = some last ∧
        wrap64 (tsNow - last) < cfg.rateLimitNs) ∧ offer cfg tsNow acc found = acc) ∨
      ((offer cfg tsNow acc found).2 = acc.2 ++ [found] ∧
        ((cfg.rateLimitNs ≤ 0 ∧ (offer cfg tsNow acc found).1.lastEmitNs = acc.1.lastEmitNs) ∨
          ((∀ last, acc.1.lastEmitNs.lookup (limiterKey found.cross) = some last →
              cfg.rateLimitNs ≤ wrap64 (tsNow - last)) ∧
            (offer cfg tsNow acc found).1.lastEmitNs =
              (limiterKey found.cross, tsNow) :: acc.1.lastEmitNs))) := by
  rw [offer]
  by_cases hlimit : 0 < cfg.rateLimitNs
  · rcases checkRateLimit_cases hlimit acc.1 (limiterKey found.cross) tsNow with
      ⟨last, hlast, hclose, hcheck⟩ | ⟨hfar, hcheck⟩
    · rw [hcheck]
      exact Or.inl ⟨hlimit, ⟨last, hlast, hclose⟩, rfl⟩
    · rw [hcheck]
      exact Or.inr ⟨rfl, Or.inr ⟨hfar, lastEmitNs_emit _ _⟩⟩
  · rw [ArbDetector.checkRateLimit, if_pos (not_lt.mp hlimit)]
    exact Or.inr ⟨rfl, Or.inl ⟨not_lt.mp hlimit, lastEmitNs_emit _ _⟩⟩

theorem lookup_cons_of_ne {key other : String} {last : Int} {memory : List (String × Int)}
    (different : key ≠ other) : ((other, last) :: memory).lookup key = memory.lookup key := by
  rw [List.lookup_cons, beq_eq_false_iff_ne.mpr different]

/-- The candidates of a scan carry its clock reading. -/
theorem tsDetectedNs_of_mem_candidates {venues : List VenueBook} {found : Detection}
    (mem : found ∈ candidates cfg tsNow venues) : found.cross.tsDetectedNs = tsNow := by
  obtain ⟨sv, bv, -, -, -, -, -, -, -, hcross⟩ := mem_candidates.mp mem
  simp only [pairCross, Option.ite_none_left_eq_some, Option.some.injEq] at hcross
  obtain ⟨-, -, -, -, -, -, hcross⟩ := hcross
  rw [← hcross]

/-!
### The memory and the crosses returned so far

The memory alone would not do for the law: it holds one time for each key, and the law is about all crosses
that were returned. `Limited` ties the two together, in the order of return and not of the clock, which may
go back.
-/

/-- What is remembered of a key is the time of a returned cross of that key. -/
def Remembered (d : ArbDetector) (log : List ArbCross) : Prop :=
  ∀ key last, d.lastEmitNs.lookup key = some last →
    ∃ c ∈ log, limiterKey c = key ∧ c.tsDetectedNs = last

/-- Crosses of the same two venues are at least the limit apart, in the order they were returned. -/
def Spaced (limit : Int) (log : List ArbCross) : Prop :=
  log.Pairwise fun earlier later => earlier.sellVenue = later.sellVenue →
    earlier.buyVenue = later.buyVenue → earlier.tsDetectedNs + limit ≤ later.tsDetectedNs

/-- The crosses returned so far are spaced, and the memory is up to date on each of them. -/
structure Limited (limit : Int) (d : ArbDetector) (log : List ArbCross) : Prop where
  remembered : Remembered d log
  covered : ∀ c ∈ log, ∃ last, d.lastEmitNs.lookup (limiterKey c) = some last ∧ c.tsDetectedNs ≤ last
  spaced : Spaced limit log

/-- The crosses returned once a part of the candidates has been offered. -/
def logged (past : List ArbCross) (acc : ArbDetector × List Detection) : List ArbCross :=
  past ++ acc.2.map Detection.cross

theorem logged_offered {past : List ArbCross} {acc acc' : ArbDetector × List Detection} {found : Detection}
    (returned : acc'.2 = acc.2 ++ [found]) : logged past acc' = logged past acc ++ [found.cross] := by
  simp [logged, returned]

theorem Remembered.offer (cfg : ArbDetectorConfig) {past : List ArbCross}
    {acc : ArbDetector × List Detection} {found : Detection}
    (remembered : Remembered acc.1 (logged past acc)) (now : found.cross.tsDetectedNs = tsNow) :
    Remembered (offer cfg tsNow acc found).1 (logged past (offer cfg tsNow acc found)) := by
  rcases offer_cases cfg tsNow acc found with
    ⟨-, -, hheld⟩ | ⟨hreturned, ⟨-, hmemory⟩ | ⟨-, hmemory⟩⟩
  · rwa [hheld]
  · intro key last hlast
    rw [hmemory] at hlast
    rw [logged_offered hreturned]
    obtain ⟨c, hc, hkey⟩ := remembered key last hlast
    exact ⟨c, List.mem_append_left _ hc, hkey⟩
  · intro key last hlast
    rw [hmemory] at hlast
    rw [logged_offered hreturned]
    by_cases hkey : key = limiterKey found.cross
    · subst hkey
      have hnow : tsNow = last := by simpa using hlast
      exact ⟨found.cross, by simp, rfl, now.trans hnow⟩
    · rw [lookup_cons_of_ne hkey] at hlast
      obtain ⟨c, hc, hkey⟩ := remembered key last hlast
      exact ⟨c, List.mem_append_left _ hc, hkey⟩

/-- One offer keeps the crosses spaced, whatever the clock has done. -/
theorem Limited.offer (limited : 0 < cfg.rateLimitNs) {past : List ArbCross}
    {acc : ArbDetector × List Detection} {found : Detection}
    (inv : Limited cfg.rateLimitNs acc.1 (logged past acc)) (now : found.cross.tsDetectedNs = tsNow)
    (exact : ∀ c ∈ logged past acc, InInt64 (tsNow - c.tsDetectedNs)) :
    Limited cfg.rateLimitNs (offer cfg tsNow acc found).1 (logged past (offer cfg tsNow acc found)) := by
  have hremembered := inv.remembered.offer cfg now
  rcases offer_cases cfg tsNow acc found with
    ⟨-, -, hheld⟩ | ⟨hreturned, ⟨hunlimited, -⟩ | ⟨hfar, hmemory⟩⟩
  · rwa [hheld]
  · exact absurd limited (not_lt.mpr hunlimited)
  · -- every earlier cross of the key is at least the limit old
    have hold : ∀ c ∈ logged past acc, limiterKey c = limiterKey found.cross →
        c.tsDetectedNs + cfg.rateLimitNs ≤ tsNow := by
      intro c hc hkey
      obtain ⟨last, hlast, hle⟩ := inv.covered c hc
      rw [hkey] at hlast
      obtain ⟨c', hc', -, hts⟩ := inv.remembered _ last hlast
      have hdiff := hfar last hlast
      rw [← hts, wrap64_of_inInt64 (exact c' hc'), hts] at hdiff
      omega
    refine ⟨hremembered, ?_, ?_⟩
    · intro c hc
      rw [hmemory]
      rw [logged_offered hreturned] at hc
      by_cases hkey : limiterKey c = limiterKey found.cross
      · refine ⟨tsNow, by simp [hkey], ?_⟩
        rcases List.mem_append.mp hc with hearlier | hnew
        · have := hold c hearlier hkey
          omega
        · rw [List.mem_singleton.mp hnew, now]
      · rw [lookup_cons_of_ne hkey]
        rcases List.mem_append.mp hc with hearlier | hnew
        · exact inv.covered c hearlier
        · exact absurd (congrArg limiterKey (List.mem_singleton.mp hnew)) hkey
    · rw [logged_offered hreturned]
      refine List.pairwise_append.mpr ⟨inv.spaced, List.pairwise_singleton _ _, ?_⟩
      intro c hc c' hc' hsell hbuy
      obtain rfl := List.mem_singleton.mp hc'
      rw [now]
      exact hold c hc (by rw [limiterKey, limiterKey, hsell, hbuy])

/-!
### Sequences of scans

What one offer keeps, a scan keeps, and so do sequences of calls. A switch to standby or back changes
neither the memory nor what was returned.
-/

/-- The clock readings of the scans of a sequence of calls. -/
def clocks (events : List ScanEvent) : List Int :=
  events.filterMap fun
    | .scan tsNow _ => some tsNow
    | .setActive _ => none

/-- A step of the scanner as offers to the limiter. -/
theorem Scanner.step_scan (cfg : ArbDetectorConfig) (s : Scanner) (tsNow : Int) (venues : List VenueBook) :
    let outcome := Runs.run (offer cfg tsNow) (s.detector, []) (candidates cfg tsNow venues)
    (s.step cfg (.scan tsNow venues)).detector = outcome.1 ∧
      (s.step cfg (.scan tsNow venues)).returned = logged s.returned outcome := by
  have hdetector := scanIn_detector cfg tsNow venues (s.detector, s.buffers)
  have hreturned := scanIn_returned cfg tsNow venues (s.detector, s.buffers)
  rw [scan_eq_offers] at hdetector hreturned
  exact ⟨hdetector, congrArg (s.returned ++ ·) hreturned⟩

/-- What every offer of a scan keeps, the scan keeps. -/
theorem Scanner.step_invariant (cfg : ArbDetectorConfig) (s : Scanner) (tsNow : Int)
    (venues : List VenueBook) (property : ArbDetector → List ArbCross → Prop)
    (holds : property s.detector s.returned)
    (offered : ∀ acc found, found.cross.tsDetectedNs = tsNow → property acc.1 (logged s.returned acc) →
      property (offer cfg tsNow acc found).1 (logged s.returned (offer cfg tsNow acc found))) :
    property (s.step cfg (.scan tsNow venues)).detector (s.step cfg (.scan tsNow venues)).returned := by
  obtain ⟨hdetector, hreturned⟩ := s.step_scan cfg tsNow venues
  have along : Runs.Along (offer cfg tsNow) (fun _ found => found.cross.tsDetectedNs = tsNow)
      (s.detector, []) (candidates cfg tsNow venues) :=
    Runs.along_of_forall (fun _ hfound => tsDetectedNs_of_mem_candidates hfound) _
  have hstart : property s.detector (logged s.returned (s.detector, [])) := by
    rw [logged, List.map_nil, List.append_nil]
    exact holds
  rw [hdetector, hreturned]
  exact along.invariant (fun acc found hacc hnow => offered acc found hnow hacc) hstart

/-- The crosses carry readings of the given ones. -/
def Dated (readings : List Int) (log : List ArbCross) : Prop := ∀ c ∈ log, c.tsDetectedNs ∈ readings

theorem Dated.offer (cfg : ArbDetectorConfig) {readings : List Int} {past : List ArbCross}
    {acc : ArbDetector × List Detection} {found : Detection} (dated : Dated readings (logged past acc))
    (now : found.cross.tsDetectedNs = tsNow) (read : tsNow ∈ readings) :
    Dated readings (logged past (offer cfg tsNow acc found)) := by
  rcases offer_cases cfg tsNow acc found with ⟨-, -, hheld⟩ | ⟨hreturned, -⟩
  · rwa [hheld]
  · rw [logged_offered hreturned]
    intro c hc
    rcases List.mem_append.mp hc with hearlier | hnew
    · exact dated c hearlier
    · rw [List.mem_singleton.mp hnew, now]
      exact read

/-- What has been returned stays returned. -/
theorem subset_offers (cfg : ArbDetectorConfig) (tsNow : Int) (acc : ArbDetector × List Detection)
    (offered : List Detection) :
    acc.2 ⊆ (Runs.run (offer cfg tsNow) acc offered).2 := by
  induction offered generalizing acc with
  | nil => exact List.Subset.refl _
  | cons candidate offered ih =>
      refine List.Subset.trans ?_ (ih (offer cfg tsNow acc candidate))
      rcases offer_cases cfg tsNow acc candidate with ⟨-, -, hheld⟩ | ⟨hreturned, -⟩
      · rw [hheld]
        exact List.Subset.refl _
      · rw [hreturned]
        exact List.subset_append_left _ _

/-- A candidate is returned, or held back for a returned cross of its key that is too close. -/
theorem returned_or_held (cfg : ArbDetectorConfig) {past : List ArbCross} (acc : ArbDetector × List Detection)
    {offered : List Detection} (remembered : Remembered acc.1 (logged past acc))
    (now : ∀ found ∈ offered, found.cross.tsDetectedNs = tsNow) {found : Detection}
    (mem : found ∈ offered) :
    found ∈ (Runs.run (offer cfg tsNow) acc offered).2 ∨
      (0 < cfg.rateLimitNs ∧ ∃ c ∈ logged past (Runs.run (offer cfg tsNow) acc offered),
        limiterKey c = limiterKey found.cross ∧ wrap64 (tsNow - c.tsDetectedNs) < cfg.rateLimitNs) := by
  induction offered generalizing acc with
  | nil => cases mem
  | cons candidate offered ih =>
      rw [Runs.run_cons]
      rcases List.mem_cons.mp mem with rfl | hlater
      · have hkept := subset_offers cfg tsNow (offer cfg tsNow acc found) offered
        rcases offer_cases cfg tsNow acc found with
          ⟨hlimited, ⟨last, hlast, hclose⟩, hheld⟩ | ⟨hreturned, -⟩
        · obtain ⟨c, hc, hkey, hts⟩ := remembered _ last hlast
          refine Or.inr ⟨hlimited, c, ?_, hkey, hts ▸ hclose⟩
          rw [hheld] at hkept ⊢
          rcases List.mem_append.mp hc with hpast | hfound
          · exact List.mem_append_left _ hpast
          · exact List.mem_append_right _ (List.map_subset _ hkept hfound)
        · refine Or.inl (hkept ?_)
          rw [hreturned]
          exact List.mem_append_right _ (List.mem_singleton_self found)
      · exact ih _ (remembered.offer cfg (now candidate (List.mem_cons_self ..)))
          (fun other hother => now other (List.mem_cons_of_mem candidate hother)) hlater

section Runs

variable (active : Bool) (buffers : ScanBuffers)

theorem clocks_concat (events : List ScanEvent) (event : ScanEvent) :
    clocks (events ++ [event]) = clocks events ++ clocks [event] :=
  List.filterMap_append

/-- Every returned cross carries a clock reading of the sequence. -/
theorem dated_run (cfg : ArbDetectorConfig) (events : List ScanEvent) :
    Dated (clocks events)
      (Runs.run (Scanner.step cfg) (Scanner.start active buffers) events).returned := by
  induction events using List.reverseRecOn with
  | nil => exact fun c hc => absurd hc List.not_mem_nil
  | append_singleton events event ih =>
      rw [Runs.run_append, Runs.run_cons, Runs.run_nil, clocks_concat]
      have hearlier : Dated (clocks events ++ clocks [event])
          (Runs.run (Scanner.step cfg) (Scanner.start active buffers) events).returned :=
        fun c hc => List.mem_append_left _ (ih c hc)
      cases event with
      | setActive v => exact hearlier
      | scan tsNow venues =>
          exact Scanner.step_invariant cfg _ tsNow venues (fun _ log => Dated _ log) hearlier
            fun acc found hnow hacc => hacc.offer cfg hnow (by simp [clocks])

/-- What the limiter remembers, after every sequence of scans. -/
theorem remembered_run (cfg : ArbDetectorConfig) (events : List ScanEvent) :
    Remembered (Runs.run (Scanner.step cfg) (Scanner.start active buffers) events).detector
      (Runs.run (Scanner.step cfg) (Scanner.start active buffers) events).returned := by
  have hstep : ∀ (s : Scanner) event, Remembered s.detector s.returned →
      Remembered (s.step cfg event).detector (s.step cfg event).returned := by
    intro s event hs
    cases event with
    | setActive v => exact hs
    | scan tsNow venues =>
        exact s.step_invariant cfg tsNow venues Remembered hs fun acc found hnow hacc => hacc.offer cfg hnow
  have hstart : Remembered (Scanner.start active buffers).detector [] := by
    intro key last hlast
    cases hlast
  exact Runs.invariant_run hstep hstart events

/-- The crosses of every sequence of scans are spaced, as long as the differences of its clock readings are
    exact. -/
theorem limited_run (limited : 0 < cfg.rateLimitNs) {events : List ScanEvent}
    (exact : ∀ t ∈ clocks events, ∀ t' ∈ clocks events, InInt64 (t - t')) :
    Limited cfg.rateLimitNs (Runs.run (Scanner.step cfg) (Scanner.start active buffers) events).detector
      (Runs.run (Scanner.step cfg) (Scanner.start active buffers) events).returned := by
  induction events using List.reverseRecOn with
  | nil =>
      exact ⟨remembered_run active buffers cfg [], fun c hc => absurd hc List.not_mem_nil, List.Pairwise.nil⟩
  | append_singleton events event ih =>
      rw [clocks_concat] at exact
      have hearlier := ih fun t ht t' ht' =>
        exact t (List.mem_append_left _ ht) t' (List.mem_append_left _ ht')
      have hdated := dated_run active buffers cfg events
      rw [Runs.run_append, Runs.run_cons, Runs.run_nil]
      cases event with
      | setActive v => exact ⟨hearlier.remembered, hearlier.covered, hearlier.spaced⟩
      | scan tsNow venues =>
          have hread : tsNow ∈ clocks events ++ clocks [.scan tsNow venues] := by simp [clocks]
          have hinv := Scanner.step_invariant cfg _ tsNow venues
            (fun d log => Limited cfg.rateLimitNs d log ∧
              Dated (clocks events ++ clocks [.scan tsNow venues]) log)
            ⟨hearlier, fun c hc => List.mem_append_left _ (hdated c hc)⟩
            fun acc found hnow hacc =>
              ⟨hacc.1.offer limited hnow fun c hc => exact tsNow hread _ (hacc.2 c hc),
                hacc.2.offer cfg hnow hread⟩
          exact hinv.1

end Runs

/-!
### Quoted books under a rate limit
-/

/-- A detector that filters nothing but signals of one key within the limit. -/
def limitedTo (rateLimitNs : Int) : ArbDetectorConfig := { unfiltered with rateLimitNs := rateLimitNs }

/-- A book with one bid and one ask. -/
def quotedAt (venue : Feed.VenueId) (base : String) (bid ask : Int) : VenueBook :=
  { quotedBook ⟨venue, base, "USDT"⟩ 1 Nat.one_pos bid ask with symbol := base ++ "-USDT" }

/-- Without filters a positive ask below a bid crosses. -/
theorem crosses_quotedAt (rateLimitNs tsNow : Int) (scanned : List VenueBook) (venue venue' : Feed.VenueId)
    (base base' : String) {bid ask bid' ask' : Int} (ask_pos : 0 < ask') (above : ask' < bid) :
    Crosses (limitedTo rateLimitNs) tsNow scanned (quotedAt venue base bid ask)
      (quotedAt venue' base' bid' ask') := by
  have hask : (0 : ℚ) < ask' := by exact_mod_cast ask_pos
  have hbid : (ask' : ℚ) < bid := by exact_mod_cast above
  have hmid : (0 : ℚ) < ((bid : ℚ) + ask') / 2 := by linarith
  have hspread : 0 ≤ spreadBps (quotedAt venue base bid ask) (quotedAt venue' base' bid' ask') := by
    have hdiff : (0 : ℚ) ≤ 10000 * ((bid : ℚ) - ask') := by linarith
    exact div_nonneg hdiff hmid.le
  have hsane : ∀ v, PriceSane (limitedTo rateLimitNs) scanned v := fun v hpct => absurd hpct (lt_irrefl 0)
  exact
    { sellSynced := rfl, buySynced := rfl
      bid_ne := by
        change bid ≠ 0
        omega
      ask_ne := ask_pos.ne', above := above, mid_pos := hmid
      fresh := fun hage => absurd hage (lt_irrefl 0)
      sellSane := hsane _, buySane := hsane _
      capped := fun hcap => absurd hcap (lt_irrefl 0)
      profitable := by
        simpa [netSpreadBps, limitedTo, unfiltered, ArbDetectorConfig.feeFor] using hspread }

/-!
### Results
-/

/-- With a rate limit, any two crosses that a sequence of scans returns for the same two venues are at least
    the limit apart, the one returned later being the later one; scans in standby, several books of one
    venue in a scan and clocks that go back are no exception. -/
theorem rate_limit_spacing (cfg : ArbDetectorConfig) (limited : 0 < cfg.rateLimitNs) (active : Bool)
    (buffers : ScanBuffers) (events : List ScanEvent)
    (exact : ∀ t ∈ clocks events, ∀ t' ∈ clocks events, InInt64 (t - t')) :
    (Runs.run (Scanner.step cfg) (Scanner.start active buffers) events).returned.Pairwise
      fun earlier later => earlier.sellVenue = later.sellVenue → earlier.buyVenue = later.buyVenue →
        earlier.tsDetectedNs + cfg.rateLimitNs ≤ later.tsDetectedNs :=
  (limited_run active buffers limited exact).spaced

/-- Three scans, five nanoseconds apart, of two books that cross. -/
theorem rate_limit_spacing_three_scans :
    let venues := [quotedAt .okx "BTC" 300 400, quotedAt .bybit "BTC" 100 200]
    let events : List ScanEvent := [.scan 0 venues, .scan 5 venues, .scan 10 venues]
    let returned :=
      (Runs.run (Scanner.step (limitedTo 10)) (Scanner.start true staleBuffers) events).returned
    returned.map ArbCross.tsDetectedNs = [0, 10] ∧
      returned.Pairwise fun earlier later => earlier.sellVenue = later.sellVenue →
        earlier.buyVenue = later.buyVenue → earlier.tsDetectedNs + 10 ≤ later.tsDetectedNs := by
  intro venues events returned
  refine ⟨by decide +kernel, ?_⟩
  exact rate_limit_spacing (limitedTo 10) (by decide) true staleBuffers events (by decide)

/-- Names without a colon can be read off the limiter's key. -/
theorem limiterKey_inj {c c' : ArbCross} (sell : ':' ∉ c.sellVenue.toList) (buy : ':' ∉ c.buyVenue.toList)
    (same : limiterKey c' = limiterKey c) : c'.sellVenue = c.sellVenue ∧ c'.buyVenue = c.buyVenue := by
  have hchars : c.sellVenue.toList ++ ':' :: c.buyVenue.toList =
      c'.sellVenue.toList ++ ':' :: c'.buyVenue.toList := by
    have htexts := congrArg String.toList same.symm
    simp only [limiterKey, String.toList_append, List.append_assoc] at htexts
    exact htexts
  obtain ⟨hsell, -, hbuy⟩ := (List.append_cons_inj_of_notMem sell buy).mp hchars
  exact ⟨(String.toList_inj.mp hsell).symm, (String.toList_inj.mp hbuy).symm⟩

/-- A scan after any history returns the cross of every ordered pair of distinct positions below the
    capacity that passes every guard, unless a cross with the same limiter key, and so, for names without a
    colon, of the same two venues, was returned less than the rate limit before. -/
theorem scan_complete_per_venue_pair (cfg : ArbDetectorConfig) (active : Bool) (buffers : ScanBuffers)
    (history : List ScanEvent) (tsNow : Int) (venues : List VenueBook)
    (exact : NoOverflow tsNow (venues.take kMaxVenues))
    (exactClock : ∀ t ∈ tsNow :: clocks history, InInt64 (tsNow - t)) {i j : Nat} {sv bv : VenueBook}
    (distinct : i ≠ j) (sellPlace : i < kMaxVenues) (buyPlace : j < kMaxVenues)
    (seller : venues[i]? = some sv) (buyer : venues[j]? = some bv)
    (crosses : Crosses cfg tsNow (venues.take kMaxVenues) sv bv) :
    let before := Runs.run (Scanner.step cfg) (Scanner.start active buffers) history
    let found := (detectionsIn cfg tsNow venues (before.detector, before.buffers)).1.2
    let cross := crossOf cfg tsNow sv bv
    ⟨i, j, cross⟩ ∈ found ∨
      (0 < cfg.rateLimitNs ∧ ∃ c ∈ before.returned ++ found.map Detection.cross,
        limiterKey c = limiterKey cross ∧ tsNow - c.tsDetectedNs < cfg.rateLimitNs ∧
        (':' ∉ sv.venueName.toList → ':' ∉ bv.venueName.toList →
          c.sellVenue = sv.venueName ∧ c.buyVenue = bv.venueName)) := by
  intro before found cross
  have hfound : found = (Runs.run (offer cfg tsNow) (before.detector, []) (candidates cfg tsNow venues)).2 := by
    simp only [found, detectionsIn_eq, detections_eq]
  have hcandidate : (⟨i, j, cross⟩ : Detection) ∈ candidates cfg tsNow venues :=
    (mem_candidates_iff exact).mpr ⟨sv, bv, getElem?_take_kMaxVenues.mpr ⟨sellPlace, seller⟩,
      getElem?_take_kMaxVenues.mpr ⟨buyPlace, buyer⟩, Ne.symm distinct, crosses, rfl⟩
  have hremembered : Remembered before.detector (logged before.returned (before.detector, [])) := by
    rw [logged, List.map_nil, List.append_nil]
    exact remembered_run active buffers cfg history
  have hoffered := returned_or_held cfg (before.detector, []) hremembered
    (fun _ h => tsDetectedNs_of_mem_candidates h) hcandidate
  rw [logged, ← hfound] at hoffered
  refine hoffered.imp_right ?_
  rintro ⟨hlimited, c, hc, hkey, hclose⟩
  -- the clock reading of that cross is one of the history or of this scan
  have hread : c.tsDetectedNs ∈ tsNow :: clocks history := by
    rcases List.mem_append.mp hc with hpast | hnow
    · exact List.mem_cons_of_mem _ (dated_run active buffers cfg history c hpast)
    · obtain ⟨other, hother, rfl⟩ := List.mem_map.mp hnow
      rw [hfound] at hother
      have hoffer := (mem_of_mem_offers hother).resolve_left List.not_mem_nil
      exact List.mem_cons.mpr (Or.inl (tsDetectedNs_of_mem_candidates hoffer))
  rw [wrap64_of_inInt64 (exactClock _ hread)] at hclose
  exact ⟨hlimited, c, hc, hkey, hclose, fun hsell hbuy => limiterKey_inj hsell hbuy hkey⟩

/-- The second of two scans of the same two books, within the limit of the first. -/
theorem scan_complete_second_scan :
    let venues := [quotedAt .okx "BTC" 300 400, quotedAt .bybit "BTC" 100 200]
    let before := Runs.run (Scanner.step (limitedTo 10)) (Scanner.start true staleBuffers) [.scan 0 venues]
    let found := (detectionsIn (limitedTo 10) 5 venues (before.detector, before.buffers)).1.2
    let cross := crossOf (limitedTo 10) 5 (quotedAt .okx "BTC" 300 400) (quotedAt .bybit "BTC" 100 200)
    ⟨0, 1, cross⟩ ∈ found ∨
      (0 < (limitedTo 10).rateLimitNs ∧ ∃ c ∈ before.returned ++ found.map Detection.cross,
        limiterKey c = limiterKey cross ∧ 5 - c.tsDetectedNs < (limitedTo 10).rateLimitNs ∧
        (':' ∉ (quotedAt .okx "BTC" 300 400).venueName.toList →
          ':' ∉ (quotedAt .bybit "BTC" 100 200).venueName.toList →
          c.sellVenue = (quotedAt .okx "BTC" 300 400).venueName ∧
            c.buyVenue = (quotedAt .bybit "BTC" 100 200).venueName)) := by
  intro venues
  have hexact : NoOverflow 5 (venues.take kMaxVenues) := ⟨by decide, by decide, by decide, by decide, by decide⟩
  exact scan_complete_per_venue_pair (limitedTo 10) true staleBuffers [.scan 0 venues] 5 venues hexact
    (by decide) (by decide) (by decide) (by decide) rfl rfl
    (crosses_quotedAt 10 5 _ .okx .bybit "BTC" "BTC" (by decide) (by decide))

/-- Pairs of books that pass every guard and are not returned by the first scan of a detector: one beyond
    the capacity, and one whose seller is a second book of a venue that is returned with the same buyer. -/
theorem scan_misses_crossing_pairs :
    (let quotes := ["A", "B", "C", "D", "E", "F", "G", "H", "I", "J", "K", "L", "M", "N", "O", "P"].map
        fun base => quotedAt .okx base 300 400
     let beyond := quotedAt .bybit "A" 100 200
     let venues := quotes ++ [beyond]
     (venues.map fun v => (v.venueName, v.symbol)).Nodup ∧
       ∃ sv ∈ quotes, Crosses (limitedTo 0) 0 venues sv beyond ∧
        crossOf (limitedTo 0) 0 sv beyond ∉
          (scanIn (limitedTo 0) 0 venues (ArbDetector.new, staleBuffers)).1) ∧
    (let second := quotedAt .okx "ETH" 310 410
     let buyer := quotedAt .bybit "BTC" 100 200
     let venues := [quotedAt .okx "BTC" 300 400, second, buyer]
     (venues.map fun v => (v.venueName, v.symbol)).Nodup ∧ Crosses (limitedTo 1) 0 venues second buyer ∧
       crossOf (limitedTo 1) 0 second buyer ∉
        (scanIn (limitedTo 1) 0 venues (ArbDetector.new, staleBuffers)).1) := by
  refine ⟨⟨by decide, quotedAt .okx "A" 300 400, by decide +kernel, ?_, by decide +kernel⟩, by decide, ?_, ?_⟩
  · exact crosses_quotedAt 0 0 _ .okx .bybit "A" "A" (by decide) (by decide)
  · exact crosses_quotedAt 1 0 _ .okx .bybit "ETH" "BTC" (by decide) (by decide)
  · decide +kernel

end ZidaBot.Brain
