/-
Module: ZidaBot.Proofs.LatencyHistogram
Purpose: The latency histogram holds the samples recorded last, up to the size of its buffer, whatever was
  recorded; its percentiles are elements of these samples in their order, read inside the sorted copy, and
  stand in the order of their ranks.
Trusted boundary: none
Main exports: LatencyHistogram.Holding, LatencyHistogram.holding_run, pctIndex_lt, IsPercentile,
  LatencyHistogram.compute_spec, IsWindow, latency_window
-/
import ZidaBot.Brain.LatencyHistogram
import ZidaBot.Library.RingBuffer
import ZidaBot.Library.Runs
import Mathlib.Tactic.Linarith

namespace ZidaBot.Brain

open RingBuffer

namespace LatencyHistogram

/-!
### The buffer

A ring buffer: which samples it holds does not depend on where it writes next.
-/

/-- The buffer holds these samples, oldest first. -/
def Holding (h : LatencyHistogram) (window : List Int) : Prop := Holds h.buf h.pos h.count window

theorem Holding.record {h : LatencyHistogram} {window : List Int} (holding : h.Holding window) (ns : Int) :
    (h.record ns).Holding (recent kCap (window ++ [ns])) := by
  have hwrite := holding.write ns
  rw [h.buf_size] at hwrite
  exact hwrite

/-- Any number of calls keeps the last samples. -/
theorem holding_run (samples : List Int) :
    (Runs.run record {} samples).Holding (recent kCap samples) := by
  induction samples using List.reverseRecOn with
  | nil =>
      refine Holds.start _ ?_
      rw [buf_size]
      decide
  | append_singleton samples ns ih =>
      rw [Runs.run_append, recent_concat]
      exact ih.record ns

end LatencyHistogram

/-!
### Percentiles

The index is a fraction of the last one, cut to an integer, so it is inside the sorted copy. Without samples
`compute` returns zeros before it looks at any.
-/

theorem pctIndex_mono {p q : ℚ} (order : p ≤ q) (size : Nat) : pctIndex p size ≤ pctIndex q size := by
  apply Nat.floor_mono
  gcongr

/-- A percentile of some samples is one of them. -/
theorem pctIndex_lt {p : ℚ} (whole : p ≤ 100) {size : Nat} (pos : 0 < size) : pctIndex p size < size := by
  have hlast : pctIndex 100 size = size - 1 := by
    rw [pctIndex, div_self (by norm_num), one_mul, Nat.floor_natCast]
  calc pctIndex p size ≤ pctIndex 100 size := pctIndex_mono whole size
    _ = size - 1 := hlast
    _ < size := Nat.sub_one_lt_of_lt pos

/-- `us` is the sample at the index of the percentile, which is inside the list, in microseconds. -/
def IsPercentile (v : List Int) (p : ℚ) (us : Int) : Prop :=
  ∃ inside : pctIndex p v.length < v.length, us = (v.get ⟨pctIndex p v.length, inside⟩).tdiv 1000

theorem pct_of_inside {v : List Int} {p : ℚ} (whole : p ≤ 100) (nonempty : v ≠ []) :
    ∃ us, pct v p = some us ∧ IsPercentile v p us := by
  have hinside : pctIndex p v.length < v.length := pctIndex_lt whole (List.length_pos_of_ne_nil nonempty)
  refine ⟨(v.get ⟨pctIndex p v.length, hinside⟩).tdiv 1000, ?_, hinside, rfl⟩
  rw [pct, List.getElem?_eq_getElem hinside]
  rfl

/-- Percentiles of sorted samples are in the order of their ranks. -/
theorem IsPercentile.mono {v : List Int} (sorted : v.Pairwise (· ≤ ·)) {p q : ℚ} (order : p ≤ q)
    {lower upper : Int} (first : IsPercentile v p lower) (second : IsPercentile v q upper) :
    lower ≤ upper := by
  obtain ⟨hlower, rfl⟩ := first
  obtain ⟨hupper, rfl⟩ := second
  apply Int.tdiv_le_tdiv (by decide)
  rcases Nat.eq_or_lt_of_le (pctIndex_mono order v.length) with hsame | hbefore
  · simp only [hsame, le_refl]
  · exact List.pairwise_iff_get.mp sorted _ _ hbefore

/-- What `compute` returns, in terms of the samples that the buffer holds. -/
theorem LatencyHistogram.compute_spec {h : LatencyHistogram} {window : List Int} (holding : h.Holding window)
    (nonempty : window ≠ []) :
    ∃ p50 p95 p99, h.compute = some { p50Us := p50, p95Us := p95, p99Us := p99, n := h.count } ∧
      IsPercentile (window.insertionSort (· ≤ ·)) 50 p50 ∧
      IsPercentile (window.insertionSort (· ≤ ·)) 95 p95 ∧
      IsPercentile (window.insertionSort (· ≤ ·)) 99 p99 := by
  have hcount : h.count ≠ 0 := by
    rw [holding.count_eq]
    exact fun hzero => nonempty (List.eq_nil_of_length_eq_zero hzero)
  have hsorted : (h.buf.take h.count).insertionSort (· ≤ ·) = window.insertionSort (· ≤ ·) := by
    have hperm := ((List.perm_insertionSort (· ≤ ·) _).trans holding.perm).trans
      (List.perm_insertionSort (· ≤ ·) window).symm
    exact hperm.eq_of_pairwise' (List.pairwise_insertionSort _ _) (List.pairwise_insertionSort _ _)
  have hsamples : window.insertionSort (· ≤ ·) ≠ [] := by
    rw [← List.length_pos_iff_ne_nil, List.length_insertionSort]
    exact List.length_pos_of_ne_nil nonempty
  obtain ⟨p50, h50, is50⟩ := pct_of_inside (p := 50) (by norm_num) hsamples
  obtain ⟨p95, h95, is95⟩ := pct_of_inside (p := 95) (by norm_num) hsamples
  obtain ⟨p99, h99, is99⟩ := pct_of_inside (p := 99) (by norm_num) hsamples
  refine ⟨p50, p95, p99, ?_, is50, is95, is99⟩
  rw [compute, if_neg hcount, hsorted]
  simp only [h50, h95, h99]
  rfl

/-! ### Result -/

/-- The histogram is that of the samples recorded last, oldest first in `window`. -/
structure IsWindow (h : LatencyHistogram) (samples window : List Int) : Prop where
  recent : window = samples.drop (samples.length - kCap)
  count_eq : h.count = min samples.length kCap
  /-- The used front of the buffer, as a multiset. -/
  contents : (h.buf.take h.count).Perm window
  /-- Before the first sample the percentiles are zeros; then they are read inside the sorted window, and
      they are in order. -/
  computed : ∃ percentiles, h.compute = some percentiles ∧ percentiles.n = h.count ∧
    percentiles.p50Us ≤ percentiles.p95Us ∧ percentiles.p95Us ≤ percentiles.p99Us ∧
    (samples = [] ∧ percentiles = {} ∨
      IsPercentile (window.insertionSort (· ≤ ·)) 50 percentiles.p50Us ∧
      IsPercentile (window.insertionSort (· ≤ ·)) 95 percentiles.p95Us ∧
      IsPercentile (window.insertionSort (· ≤ ·)) 99 percentiles.p99Us)

/-- The latency window.  After any sequence of `record` calls the used front of the buffer is, as a
    multiset, the last samples, at most `kCap` of them, and as many as the count says; and `compute` returns
    the elements of the sorted window at the indices of the three percentiles, in microseconds and in
    order. -/
theorem latency_window (samples : List Int) :
    IsWindow (Runs.run LatencyHistogram.record {} samples) samples (recent kCap samples) := by
  have holding := LatencyHistogram.holding_run samples
  have hcount := holding.count_eq.trans (length_recent kCap samples)
  refine ⟨rfl, hcount, holding.perm, ?_⟩
  by_cases hsamples : samples = []
  · subst hsamples
    exact ⟨{}, rfl, rfl, le_rfl, le_rfl, Or.inl ⟨rfl, rfl⟩⟩
  · have hwindow : recent kCap samples ≠ [] := by
      intro hnil
      have hlength := holding.count_eq.symm.trans hcount
      rw [hnil, List.length_nil] at hlength
      have hpos := List.length_pos_of_ne_nil hsamples
      simp only [kCap] at hlength
      omega
    have hsorted : ((recent kCap samples).insertionSort (· ≤ ·)).Pairwise (· ≤ ·) :=
      List.pairwise_insertionSort _ _
    obtain ⟨p50, p95, p99, hcompute, is50, is95, is99⟩ := LatencyHistogram.compute_spec holding hwindow
    exact ⟨_, hcompute, rfl, is50.mono hsorted (by norm_num) is95, is95.mono hsorted (by norm_num) is99,
      Or.inr ⟨is50, is95, is99⟩⟩

end ZidaBot.Brain
