import Mathlib.Algebra.Order.Floor.Ring
import Mathlib.Analysis.Real.Sqrt
import Mathlib.Data.Rat.Floor
import SmoothDemon.Benchmark.RingBuffer
import SmoothDemon.Library.Samples

/-!
# Frame metrics

`FrameMetrics` (include/benchmark/FrameMetrics.h, src/benchmark/FrameMetrics.cpp) with every `f64`
taken in exact rational arithmetic and every timestamp a wrapping `u64`.  Reads that could leave the
ring buffer's storage or a vector return `none`.
-/

namespace SmoothDemon

def kMaxWindow : ℕ := 4096

instance : NeZero kMaxWindow := ⟨by decide⟩

/-- `frametimeStdDevMs` is a square root; the field keeps the number the root is taken of. -/
structure FrameStats where
  avgFps : ℚ := 0
  avgFrametimeMs : ℚ := 0
  minFrametimeMs : ℚ := 0
  maxFrametimeMs : ℚ := 0
  p99FrametimeMs : ℚ := 0
  p999FrametimeMs : ℚ := 0
  onePercentLowFps : ℚ := 0
  pointOnePercentLowFps : ℚ := 0
  frametimeVarianceMs : ℚ := 0
  totalFrames : ℕ := 0
  stutterCount : ℕ := 0
  deriving DecidableEq

noncomputable def FrameStats.frametimeStdDevMs (s : FrameStats) : ℝ := √(s.frametimeVarianceMs : ℝ)

structure FrameMetrics where
  frametimesMs : RingBuffer ℚ kMaxWindow
  window : ℕ
  lastTimestampNs : UInt64 := 0
  haveLast : Bool := false
  maxFrametimeMs : ℚ := 500

/-- The variables of the loop over the samples that finds extremes, variance and stutters. -/
structure Scan where
  mn : ℚ
  mx : ℚ
  sq : ℚ
  stutters : ℕ

def Scan.step (mean : ℚ) (a : Scan) (v : ℚ) : Scan where
  mn := if v < a.mn then v else a.mn
  mx := if v > a.mx then v else a.mx
  sq := a.sq + (v - mean) * (v - mean)
  stutters := if v > 2 * mean then a.stutters + 1 else a.stutters

/-- The `percentile` lambda over the sorted samples; `none` is a read past their end. -/
def percentile (sorted : List ℚ) (n : ℕ) (p : ℚ) : Option ℚ :=
  if n = 0 then some 0
  else
    let idx := ⌈p * n⌉₊
    sorted[if idx ≥ n then n - 1 else idx]?

namespace FrameMetrics

/-- The constructor. -/
def construct (windowSize : ℕ) : FrameMetrics where
  frametimesMs := .empty
  window := if min windowSize kMaxWindow = 0 then 1 else min windowSize kMaxWindow

def setMaxFrametimeMs (m : FrameMetrics) (ms : ℚ) : FrameMetrics := { m with maxFrametimeMs := ms }

def reset (m : FrameMetrics) : FrameMetrics :=
  { m with frametimesMs := m.frametimesMs.clear, lastTimestampNs := 0, haveLast := false }

def recordTimestamp (m : FrameMetrics) (timestampNs : UInt64) : FrameMetrics :=
  if !m.haveLast then { m with lastTimestampNs := timestampNs, haveLast := true }
  else if timestampNs ≤ m.lastTimestampNs then m
  else
    let deltaNs := timestampNs - m.lastTimestampNs
    let deltaMs : ℚ := deltaNs.toNat / 1000000
    let deltaMs := if deltaMs > m.maxFrametimeMs then m.maxFrametimeMs else deltaMs
    { m with lastTimestampNs := timestampNs, frametimesMs := m.frametimesMs.push deltaMs }

/-- From the samples of the window to the record returned. -/
def summarize (samples : List ℚ) (n : ℕ) : Option FrameStats := do
  let mean : ℚ := samples.foldl (· + ·) 0 / n
  let first ← samples[0]?
  let scan := samples.foldl (Scan.step mean) ⟨first, first, 0, 0⟩
  let sorted := samples.mergeSort
  let p99 ← percentile sorted n (99 / 100)
  let p999 ← percentile sorted n (999 / 1000)
  return {
    avgFps := if mean > 0 then 1000 / mean else 0
    avgFrametimeMs := mean
    minFrametimeMs := scan.mn
    maxFrametimeMs := scan.mx
    p99FrametimeMs := p99
    p999FrametimeMs := p999
    onePercentLowFps := if p99 > 0 then 1000 / p99 else 0
    pointOnePercentLowFps := if p999 > 0 then 1000 / p999 else 0
    frametimeVarianceMs := scan.sq / n
    totalFrames := n
    stutterCount := scan.stutters }

/-- `none` is a read outside the ring buffer's storage or past the end of a vector. -/
def computeStats (m : FrameMetrics) : Option FrameStats :=
  let active := m.frametimesMs.size
  if active = 0 then some {}
  else do
    let n := min active m.window
    let start := active - n
    let samples ← (List.range' start (active - start)).mapM m.frametimesMs.get?
    summarize samples n

inductive Op
  | recordTimestamp (timestampNs : UInt64)
  | setMaxFrametimeMs (ms : ℚ)
  | reset

def apply (m : FrameMetrics) : Op → FrameMetrics
  | .recordTimestamp t => m.recordTimestamp t
  | .setMaxFrametimeMs ms => m.setMaxFrametimeMs ms
  | .reset => m.reset

def run (windowSize : ℕ) (ops : List Op) : FrameMetrics := ops.foldl apply (construct windowSize)

end FrameMetrics

end SmoothDemon
