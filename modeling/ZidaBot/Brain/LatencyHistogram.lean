/-
Module: ZidaBot.Brain.LatencyHistogram
Purpose: The latency samples of the detector, `brain/include/brain/LatencyHistogram.hpp`: a circular buffer of
  fixed size with its percentiles on demand.  The index of a percentile is computed in exact arithmetic.
  Reading behind the end of the sorted copy is undefined, which `none` stands for.
Trusted boundary: human-reviewed model
Main exports: LatencyHistogram, LatencyHistogram.record, Percentiles, pctIndex, pct, LatencyHistogram.compute
-/
import Mathlib.Data.List.Sort
import Mathlib.Data.Rat.Floor

namespace ZidaBot.Brain

/-- `kCap`. -/
def kCap : Nat := 10000

/-- The buffer, the slot that is written next and the number of samples, which stops at `kCap`. -/
structure LatencyHistogram where
  buf : List Int := List.replicate kCap 0
  pos : Nat := 0
  count : Nat := 0
  buf_size : buf.length = kCap := by exact List.length_replicate
  pos_lt : pos < kCap := by decide

/-- `Percentiles`, in microseconds. -/
structure Percentiles where
  p50Us : Int := 0
  p95Us : Int := 0
  p99Us : Int := 0
  n : Nat := 0
deriving DecidableEq, Repr

/-- The index that `pct` computes; the cast drops the fraction. -/
def pctIndex (p : ℚ) (size : Nat) : Nat := ⌊p / 100 * ((size - 1 : Nat) : ℚ)⌋₊

/-- `pct`: an element of the sorted samples, with the nanoseconds divided into microseconds. -/
def pct (v : List Int) (p : ℚ) : Option Int :=
  match v[pctIndex p v.length]? with
  | none => none
  | some ns => some (ns.tdiv 1000)

namespace LatencyHistogram

/-- `record`. -/
def record (h : LatencyHistogram) (ns : Int) : LatencyHistogram where
  buf := h.buf.set h.pos ns
  pos := (h.pos + 1) % kCap
  count := if h.count < kCap then h.count + 1 else h.count
  buf_size := List.length_set.trans h.buf_size
  pos_lt := Nat.mod_lt _ (by decide)

/-- `compute`. -/
def compute (h : LatencyHistogram) : Option Percentiles :=
  if h.count = 0 then some {}
  else do
    let v := (h.buf.take h.count).insertionSort (· ≤ ·)
    let p50Us ← pct v 50
    let p95Us ← pct v 95
    let p99Us ← pct v 99
    return { p50Us := p50Us, p95Us := p95Us, p99Us := p99Us, n := h.count }

end LatencyHistogram

end ZidaBot.Brain
