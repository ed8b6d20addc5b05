import ErrorCore.Foundation.OrderStatistic
import ErrorCore.Foundation.RingLog
import ErrorCore.Foundation.Text
import ErrorCore.Foundation.Transition

/-!
# Health metrics

`src/health/health-metrics.ts`: the counters, the last failure, and the latency
samples, which are pushed until there are as many as the capacity and written
over one after another since. `getHealth` of `src/sdk.ts` adds up the drops.

After any run the counters are the calls, the last failure is that of the last
call, and a percentile is the value of its rank among the latest samples.
-/

namespace ErrorCore.HealthMetrics

def LATENCY_CAPACITY : Nat := 512

def FAILURE_REASON_MAX_LENGTH : Nat := 200

structure DroppedBreakdown where
  rateLimited : Nat
  deduplicated : Nat
  captureFailed : Nat
  deadLetterWriteFailed : Nat
  deriving DecidableEq, Repr

structure PayloadSpoolBreakdown where
  pressureWarnings : Nat
  previewFallbacks : Nat
  drops : Nat
  deriving DecidableEq, Repr

structure LastFailureSample where
  reason : Option Text
  at_ : Option Int
  deriving DecidableEq, Repr

structure State where
  captured : Nat
  dropped : DroppedBreakdown
  transportFailures : Nat
  payloadSpool : PayloadSpoolBreakdown
  latencySamples : List Int
  latencyWriteIdx : Nat
  lastFailure : LastFailureSample
  deriving DecidableEq, Repr

def State.initial : State where
  captured := 0
  dropped := ⟨0, 0, 0, 0⟩
  transportFailures := 0
  payloadSpool := ⟨0, 0, 0⟩
  latencySamples := []
  latencyWriteIdx := 0
  lastFailure := ⟨none, none⟩

/-- The calls that record something. -/
inductive Call
  | captured
  | droppedRateLimited
  | droppedDeduplicated
  | droppedCaptureFailed
  | droppedDlqWriteFailed
  | transportFailure (reason : Text) (atUnixMs : Int)
  | payloadSpoolPressure
  | payloadSpoolPreviewFallback
  | payloadSpoolDrop
  | flushLatency (ms : Int)
  deriving DecidableEq, Repr

/-- A number from 0 to 1. -/
structure Fraction where
  numerator : Nat
  denominator : Nat
  le_one : numerator ≤ denominator
  denominator_pos : 0 < denominator

/-- `Math.floor(p * n)`. -/
def Fraction.floorOf (p : Fraction) (n : Nat) : Nat := p.numerator * n / p.denominator

namespace State

variable (s : State)

def recordTransportFailure (reason : Text) (atUnixMs : Int) : State :=
  { s with
    transportFailures := s.transportFailures + 1
    lastFailure := ⟨some (Text.sliceStart FAILURE_REASON_MAX_LENGTH reason), some atUnixMs⟩ }

def recordFlushLatency (ms : Int) : State :=
  if s.latencySamples.length < LATENCY_CAPACITY then
    let latencySamples := s.latencySamples ++ [ms]
    { s with latencySamples, latencyWriteIdx := latencySamples.length % LATENCY_CAPACITY }
  else
    { s with
      latencySamples := s.latencySamples.set s.latencyWriteIdx ms
      latencyWriteIdx := (s.latencyWriteIdx + 1) % LATENCY_CAPACITY }

def record : Call → State
  | .captured => { s with captured := s.captured + 1 }
  | .droppedRateLimited =>
      { s with dropped := { s.dropped with rateLimited := s.dropped.rateLimited + 1 } }
  | .droppedDeduplicated =>
      { s with dropped := { s.dropped with deduplicated := s.dropped.deduplicated + 1 } }
  | .droppedCaptureFailed =>
      { s with dropped := { s.dropped with captureFailed := s.dropped.captureFailed + 1 } }
  | .droppedDlqWriteFailed =>
      { s with
        dropped :=
          { s.dropped with deadLetterWriteFailed := s.dropped.deadLetterWriteFailed + 1 } }
  | .transportFailure reason atUnixMs => s.recordTransportFailure reason atUnixMs
  | .payloadSpoolPressure =>
      { s with
        payloadSpool :=
          { s.payloadSpool with pressureWarnings := s.payloadSpool.pressureWarnings + 1 } }
  | .payloadSpoolPreviewFallback =>
      { s with
        payloadSpool :=
          { s.payloadSpool with previewFallbacks := s.payloadSpool.previewFallbacks + 1 } }
  | .payloadSpoolDrop =>
      { s with payloadSpool := { s.payloadSpool with drops := s.payloadSpool.drops + 1 } }
  | .flushLatency ms => s.recordFlushLatency ms

/-- For the two fractions that are asked for, 0.5 and 0.99, the product of the doubles has this
floor for all numbers of samples there can be. -/
def getLatencyPercentile (p : Fraction) : Int :=
  let n := s.latencySamples.length
  if n = 0 then 0
  else
    let sorted := s.latencySamples.mergeSort (· ≤ ·)
    sorted[p.floorOf (n - 1)]?.getD 0

end State

/-- `dropped` of the health snapshot. -/
def DroppedBreakdown.total (breakdown : DroppedBreakdown) : Nat :=
  breakdown.rateLimited + breakdown.deduplicated + breakdown.captureFailed +
    breakdown.deadLetterWriteFailed

/-! ## What was recorded -/

inductive Counter
  | captured
  | droppedRateLimited
  | droppedDeduplicated
  | droppedCaptureFailed
  | droppedDlqWriteFailed
  | transportFailures
  | payloadSpoolPressureWarnings
  | payloadSpoolPreviewFallbacks
  | payloadSpoolDrops
  deriving DecidableEq, Repr

def State.counter (s : State) : Counter → Nat
  | .captured => s.captured
  | .droppedRateLimited => s.dropped.rateLimited
  | .droppedDeduplicated => s.dropped.deduplicated
  | .droppedCaptureFailed => s.dropped.captureFailed
  | .droppedDlqWriteFailed => s.dropped.deadLetterWriteFailed
  | .transportFailures => s.transportFailures
  | .payloadSpoolPressureWarnings => s.payloadSpool.pressureWarnings
  | .payloadSpoolPreviewFallbacks => s.payloadSpool.previewFallbacks
  | .payloadSpoolDrops => s.payloadSpool.drops

namespace Call

def counter? : Call → Option Counter
  | .captured => some .captured
  | .droppedRateLimited => some .droppedRateLimited
  | .droppedDeduplicated => some .droppedDeduplicated
  | .droppedCaptureFailed => some .droppedCaptureFailed
  | .droppedDlqWriteFailed => some .droppedDlqWriteFailed
  | .transportFailure _ _ => some .transportFailures
  | .payloadSpoolPressure => some .payloadSpoolPressureWarnings
  | .payloadSpoolPreviewFallback => some .payloadSpoolPreviewFallbacks
  | .payloadSpoolDrop => some .payloadSpoolDrops
  | .flushLatency _ => none

def isDrop : Call → Bool
  | .droppedRateLimited | .droppedDeduplicated | .droppedCaptureFailed
  | .droppedDlqWriteFailed => true
  | .captured | .transportFailure _ _ | .payloadSpoolPressure | .payloadSpoolPreviewFallback
  | .payloadSpoolDrop | .flushLatency _ => false

def failure? : Call → Option LastFailureSample
  | .transportFailure reason atUnixMs =>
      some ⟨some (Text.sliceStart FAILURE_REASON_MAX_LENGTH reason), some atUnixMs⟩
  | _ => none

def latency? : Call → Option Int
  | .flushLatency ms => some ms
  | _ => none

end Call

variable {s : State} {calls : List Call} {latencies : List Int}

/-- A call adds one to its own counter and leaves the others. -/
theorem counter_record (call : Call) (counter : Counter) :
    (s.record call).counter counter =
      s.counter counter + if call.counter? = some counter then 1 else 0 := by
  cases call with
  | flushLatency ms =>
      rw [State.record, State.recordFlushLatency]
      split
      · cases counter <;> rfl
      · cases counter <;> rfl
  | captured => cases counter <;> rfl
  | droppedRateLimited => cases counter <;> rfl
  | droppedDeduplicated => cases counter <;> rfl
  | droppedCaptureFailed => cases counter <;> rfl
  | droppedDlqWriteFailed => cases counter <;> rfl
  | transportFailure reason atUnixMs => cases counter <;> rfl
  | payloadSpoolPressure => cases counter <;> rfl
  | payloadSpoolPreviewFallback => cases counter <;> rfl
  | payloadSpoolDrop => cases counter <;> rfl

theorem total_record (call : Call) :
    (s.record call).dropped.total = s.dropped.total + if call.isDrop then 1 else 0 := by
  have hcounters : ∀ t : State, t.dropped.total = t.counter .droppedRateLimited +
      t.counter .droppedDeduplicated + t.counter .droppedCaptureFailed +
      t.counter .droppedDlqWriteFailed := fun _ => rfl
  rw [hcounters, hcounters, counter_record, counter_record, counter_record, counter_record]
  cases call with
  | captured => rfl
  | droppedRateLimited => simp [Call.counter?, Call.isDrop]; omega
  | droppedDeduplicated => simp [Call.counter?, Call.isDrop]; omega
  | droppedCaptureFailed => simp [Call.counter?, Call.isDrop]; omega
  | droppedDlqWriteFailed => simp [Call.counter?, Call.isDrop]; omega
  | transportFailure reason atUnixMs => rfl
  | payloadSpoolPressure => rfl
  | payloadSpoolPreviewFallback => rfl
  | payloadSpoolDrop => rfl
  | flushLatency ms => rfl

/-- The samples are the latest latencies, in the cells of a ring. -/
structure Sampled (s : State) (latencies : List Int) : Prop where
  holds : RingLog.Holds LATENCY_CAPACITY (fun k => s.latencySamples[k]?) latencies
  length : s.latencySamples.length = min latencies.length LATENCY_CAPACITY
  writeIdx : s.latencyWriteIdx = latencies.length % LATENCY_CAPACITY

/-- A sample pushed is the cell behind the last one. -/
theorem getElem?_push (samples : List Int) (ms : Int) :
    (fun k => (samples ++ [ms])[k]?) =
      Function.update (fun k => samples[k]?) samples.length (some ms) := by
  funext k
  rw [Function.update_apply]
  split
  · next heq => rw [heq, List.getElem?_concat_length]
  · next hne =>
      cases Nat.lt_or_gt_of_ne hne with
      | inl hlt => rw [List.getElem?_append_left hlt]
      | inr hgt =>
          rw [List.getElem?_eq_none (Nat.le_of_lt hgt), List.getElem?_eq_none]
          rw [List.length_append, List.length_singleton]
          exact hgt

theorem getElem?_set_update {samples : List Int} {i : Nat} (hi : i < samples.length) (ms : Int) :
    (fun k => (samples.set i ms)[k]?) = Function.update (fun k => samples[k]?) i (some ms) := by
  funext k
  rw [Function.update_apply, List.getElem?_set]
  by_cases heq : i = k
  · rw [if_pos heq, if_pos hi, if_pos heq.symm]
  · rw [if_neg heq, if_neg (Ne.symm heq)]

theorem Sampled.recordFlushLatency (h : Sampled s latencies) (ms : Int) :
    Sampled (s.recordFlushLatency ms) (latencies ++ [ms]) := by
  have hlength := h.length
  have hcapacity : 0 < LATENCY_CAPACITY := by decide
  rw [State.recordFlushLatency]
  split
  · next hroom =>
      have hcount : s.latencySamples.length = latencies.length := by omega
      have hcell : latencies.length % LATENCY_CAPACITY = s.latencySamples.length := by
        rw [← hcount]
        exact Nat.mod_eq_of_lt hroom
      refine ⟨?_, ?_, ?_⟩
      · have hholds := h.holds.append ms
        rw [hcell, ← getElem?_push] at hholds
        exact hholds
      · show (_ ++ [ms]).length = _
        rw [List.length_append, List.length_append, List.length_singleton]
        omega
      · show (_ ++ [ms]).length % _ = _
        rw [List.length_append, List.length_append, hcount]
  · next hfull =>
      have hcount : s.latencySamples.length = LATENCY_CAPACITY := by omega
      have hindex : s.latencyWriteIdx < s.latencySamples.length := by
        rw [h.writeIdx, hcount]
        exact Nat.mod_lt _ hcapacity
      refine ⟨?_, ?_, ?_⟩
      · have hholds := h.holds.append ms
        rw [← h.writeIdx, ← getElem?_set_update hindex] at hholds
        exact hholds
      · show (s.latencySamples.set _ _).length = _
        rw [List.length_set, List.length_append, List.length_singleton]
        omega
      · show (_ + 1) % _ = _
        rw [h.writeIdx, List.length_append, List.length_singleton, Nat.mod_add_mod]

theorem samples_record {call : Call} (h : call.latency? = none) :
    (s.record call).latencySamples = s.latencySamples ∧
      (s.record call).latencyWriteIdx = s.latencyWriteIdx := by
  cases call with
  | flushLatency ms => cases h
  | _ => exact ⟨rfl, rfl⟩

/-- Only a latency moves the samples. -/
theorem Sampled.record (h : Sampled s latencies) (call : Call) :
    Sampled (s.record call) (latencies ++ call.latency?.toList) := by
  cases hlatency : call.latency? with
  | none =>
      obtain ⟨hsamples, hindex⟩ := samples_record (s := s) hlatency
      rw [Option.toList_none, List.append_nil]
      exact ⟨hsamples ▸ h.holds, hsamples ▸ h.length, hindex ▸ h.writeIdx⟩
  | some ms =>
      cases call with
      | flushLatency value =>
          rw [← Option.some.inj hlatency]
          exact h.recordFlushLatency value
      | _ => cases hlatency

/-- The samples are the latest latencies up to their order. -/
theorem Sampled.perm (h : Sampled s latencies) :
    s.latencySamples.Perm (latencies.rtake LATENCY_CAPACITY) := by
  have hlength := h.length
  by_cases hfull : LATENCY_CAPACITY ≤ latencies.length
  · have hperm := h.holds.read_perm hfull
    have hcount : s.latencySamples.length = LATENCY_CAPACITY := by omega
    rw [← hcount, RingLog.filterMap_range_getElem?] at hperm
    rw [← hcount]
    exact hperm
  · have hread := h.holds.read
    rw [if_pos (by omega), ← hlength, RingLog.read] at hread
    rw [← hread]
    have hsamples : ((List.range s.latencySamples.length).filterMap fun i =>
        s.latencySamples[(0 + i) % LATENCY_CAPACITY]?) = s.latencySamples := by
      conv_rhs => rw [← RingLog.filterMap_range_getElem? s.latencySamples]
      apply List.filterMap_congr
      intro i hi
      rw [List.mem_range] at hi
      rw [Nat.zero_add, Nat.mod_eq_of_lt (by omega)]
    rw [hsamples]

/-- What a run of calls has left. -/
structure Recorded (s : State) (calls : List Call) : Prop where
  counters : ∀ counter, s.counter counter = calls.countP fun call => call.counter? = some counter
  drops : s.dropped.total = calls.countP Call.isDrop
  lastFailure : s.lastFailure = (calls.filterMap Call.failure?).getLast?.getD ⟨none, none⟩
  sampled : Sampled s (calls.filterMap Call.latency?)

theorem recorded_initial : Recorded .initial [] where
  counters counter := by cases counter <;> rfl
  drops := rfl
  lastFailure := rfl
  sampled := ⟨RingLog.holds_nil, rfl, rfl⟩

theorem lastFailure_record (call : Call) :
    (s.record call).lastFailure = call.failure?.getD s.lastFailure := by
  cases call with
  | flushLatency ms =>
      rw [State.record, State.recordFlushLatency]
      split
      · rfl
      · rfl
  | _ => rfl

theorem Recorded.record (h : Recorded s calls) (call : Call) :
    Recorded (s.record call) (calls ++ [call]) where
  counters counter := by
    rw [counter_record, h.counters, List.countP_append, List.countP_singleton]
    simp only [decide_eq_true_eq]
  drops := by
    rw [total_record, h.drops, List.countP_append, List.countP_singleton]
  lastFailure := by
    rw [lastFailure_record, List.filterMap_append, h.lastFailure]
    cases hfailure : call.failure? with
    | none => rw [List.filterMap_cons_none hfailure, List.filterMap_nil, List.append_nil]; rfl
    | some sample =>
        rw [List.filterMap_cons_some hfailure, List.filterMap_nil, List.getLast?_concat]
        rfl
  sampled := by
    have hsampled := h.sampled.record call
    rw [List.filterMap_append]
    cases hlatency : call.latency? with
    | none =>
        rw [hlatency] at hsampled
        rw [List.filterMap_cons_none hlatency, List.filterMap_nil]
        exact hsampled
    | some ms =>
        rw [hlatency] at hsampled
        rw [List.filterMap_cons_some hlatency, List.filterMap_nil]
        exact hsampled

theorem recorded_run (calls : List Call) : Recorded (calls.foldl State.record .initial) calls := by
  induction calls using List.reverseRecOn with
  | nil => exact recorded_initial
  | append_singleton calls call ih =>
      rw [List.foldl_append]
      exact ih.record call

theorem Fraction.floorOf_le (p : Fraction) (n : Nat) : p.floorOf n ≤ n := by
  apply Nat.div_le_of_le_mul
  exact Nat.mul_le_mul_right n p.le_one

/-- A percentile is the sample of its rank, and zero without samples. -/
theorem Sampled.percentile (h : Sampled s latencies) (p : Fraction) :
    let window := latencies.rtake LATENCY_CAPACITY
    (window = [] → s.getLatencyPercentile p = 0) ∧
      (window ≠ [] → OrderStatistic.HasRank window (p.floorOf (window.length - 1))
        (s.getLatencyPercentile p)) := by
  have hperm := h.perm
  have hlength := hperm.length_eq
  constructor
  · intro hnone
    rw [hnone, List.length_nil] at hlength
    rw [State.getLatencyPercentile]
    exact if_pos hlength
  · intro hsome
    have hpos := List.length_pos_of_ne_nil hsome
    rw [← hlength] at hpos ⊢
    have hindex : p.floorOf (s.latencySamples.length - 1) <
        (s.latencySamples.mergeSort (· ≤ ·)).length := by
      have hle := p.floorOf_le (s.latencySamples.length - 1)
      rw [List.length_mergeSort]
      omega
    have hrank := OrderStatistic.hasRank_mergeSort (List.getElem?_eq_getElem hindex)
    have hvalue : s.getLatencyPercentile p =
        (s.latencySamples.mergeSort (· ≤ ·))[p.floorOf (s.latencySamples.length - 1)] := by
      rw [State.getLatencyPercentile, if_neg (Nat.ne_of_gt hpos)]
      dsimp only
      rw [List.getElem?_eq_getElem hindex, Option.getD_some]
    rw [hvalue]
    exact hrank.perm hperm

/-- After any run of calls each counter is the number of its calls, the drops are those of all kinds
together, the last failure is the one of the last failing call, and a percentile has its rank among
the latest latencies, as many as the capacity. -/
theorem metrics_faithful (calls : List Call) :
    let s := calls.foldl State.record .initial
    let window := (calls.filterMap Call.latency?).rtake LATENCY_CAPACITY
    (∀ counter, s.counter counter = calls.countP fun call => call.counter? = some counter) ∧
      s.dropped.total = calls.countP Call.isDrop ∧
      s.lastFailure = (calls.filterMap Call.failure?).getLast?.getD ⟨none, none⟩ ∧
      ∀ p : Fraction, (window = [] → s.getLatencyPercentile p = 0) ∧
        (window ≠ [] → OrderStatistic.HasRank window (p.floorOf (window.length - 1))
          (s.getLatencyPercentile p)) := by
  have h := recorded_run calls
  exact ⟨h.counters, h.drops, h.lastFailure, h.sampled.percentile⟩

end ErrorCore.HealthMetrics
