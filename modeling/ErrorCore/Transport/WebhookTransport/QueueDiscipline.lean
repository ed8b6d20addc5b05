import ErrorCore.Transport.WebhookTransport

/-!
# The discipline of the queue

What was acknowledged, what is in flight and what is queued are, one after the
other, a part of what was sent, in its order. Everything the claim about the
queue asks follows from that, except for the length of the queue: a batch that
failed is put back in front of whatever was queued while it was in flight.
-/

namespace ErrorCore.WebhookTransport

open LocalEventStore

namespace State

/-- No record is twice in the queue or both there and in flight, batches are acknowledged in the
order of their sends and no record twice, one batch is in flight, and the queue has its length. -/
structure Disciplined (cfg : WebhookTransportConfig) (s : State) : Prop where
  queue_nodup : (idsOf s.queue).Nodup
  queue_disjoint : ∀ id ∈ idsOf s.queue, id ∉ idsOf s.inFlight
  acknowledged_ordered : s.acknowledged.Sublist s.sent
  acknowledged_nodup : s.acknowledged.Nodup
  one_batch : s.loops.countP Loop.isSending ≤ 1
  bounded : s.queue.length ≤ cfg.maxBufferEvents

/-- A batch that fails for good has room beside what is queued. -/
def FailedBatchFits (cfg : WebhookTransportConfig) (s : State) : Action → Prop
  | .attempt i (.failed retryable) _ =>
      ∀ loop ∈ s.loops[i]?, givesUp cfg loop.attempts retryable = true →
        loop.batch.length + s.queue.length ≤ cfg.maxBufferEvents
  | .attempt _ .acknowledged _ | .send _ | .timer | .flush | .resumeFlush _ | .finalize _
  | .shutdown => True

instance (cfg : WebhookTransportConfig) (s : State) (a : Action) :
    Decidable (FailedBatchFits cfg s a) :=
  match a with
  | .attempt i (.failed retryable) _ =>
      inferInstanceAs (Decidable (∀ loop ∈ s.loops[i]?,
        givesUp cfg loop.attempts retryable = true →
          loop.batch.length + s.queue.length ≤ cfg.maxBufferEvents))
  | .attempt _ .acknowledged _ | .send _ | .timer | .flush | .resumeFlush _ | .finalize _
  | .shutdown => .isTrue trivial

/-- What was acknowledged, is in flight or is queued, in this order. -/
def pipeline (s : State) : List Text :=
  s.acknowledged ++ idsOf s.inFlight ++ idsOf s.queue

/-- Only the loop that `drainPromise` stands for is not closed, and the pipeline is a part of what
was sent. -/
structure Queued (s : State) : Prop where
  single : ∀ i loop, s.loops[i]? = some loop → loop ≠ .closed → s.drainPromise = some i
  ordered : s.pipeline.Sublist s.sent
  nodup : s.sent.Nodup
  issued : ∀ id ∈ s.sent, id ∈ s.issued

variable {numbers : Json.NumberFormat} {cfg : WebhookTransportConfig} {s t : State}
variable {loops : List Loop} {loop : Loop} {i : Nat}

/-! ## Loops -/

def AllClosed (loops : List Loop) : Prop :=
  ∀ (i : Nat) (loop : Loop), loops[i]? = some loop → loop = .closed

theorem flatMap_of_closed (h : AllClosed loops) :
    loops.flatMap Loop.batch = [] := by
  rw [List.flatMap_eq_nil_iff]
  intro loop hmem
  obtain ⟨i, hi⟩ := List.mem_iff_getElem?.mp hmem
  rw [h i loop hi]
  rfl

/-- With the other loops closed, what is in flight is the batch of the one. -/
theorem flatMap_of_single (hloop : loops[i]? = some loop)
    (h : ∀ j other, loops[j]? = some other → other ≠ .closed → j = i) :
    loops.flatMap Loop.batch = loop.batch := by
  induction loops generalizing i with
  | nil => simp at hloop
  | cons first loops ih =>
      rw [List.flatMap_cons]
      cases i with
      | zero =>
          obtain rfl : first = loop := by simpa using hloop
          rw [flatMap_of_closed, List.append_nil]
          intro j other hother
          by_contra hne
          have := h (j + 1) other hother hne
          omega
      | succ i =>
          have hfirst : first = .closed := by
            by_contra hne
            have := h 0 first rfl hne
            omega
          rw [hfirst]
          refine ih hloop fun j other hother hne => ?_
          have := h (j + 1) other hother hne
          omega

theorem countP_of_single
    (h : ∀ j other, loops[j]? = some other → other ≠ .closed → j = i) :
    loops.countP Loop.isSending ≤ 1 := by
  induction loops generalizing i with
  | nil => simp
  | cons first loops ih =>
      rw [List.countP_cons]
      cases i with
      | zero =>
          have hrest : loops.countP Loop.isSending = 0 := by
            rw [List.countP_eq_zero]
            intro other hmem hsending
            obtain ⟨j, hj⟩ := List.mem_iff_getElem?.mp hmem
            have hne : other ≠ .closed := by
              rintro rfl
              contradiction
            have := h (j + 1) other hj hne
            omega
          rw [hrest]
          split <;> omega
      | succ i =>
          have hfirst : first = .closed := by
            by_contra hne
            have := h 0 first rfl hne
            omega
          subst hfirst
          have hle : loops.countP Loop.isSending ≤ 1 := by
            refine ih (i := i) fun j other hother hne => ?_
            have := h (j + 1) other hother hne
            omega
          simpa [Loop.isSending] using hle

theorem Queued.index_eq (h : Queued s) {j : Nat} {other : Loop} (hi : s.loops[i]? = some loop)
    (hne : loop ≠ .closed) (hj : s.loops[j]? = some other) (hother : other ≠ .closed) : j = i := by
  have hsame := (h.single j other hj hother).symm.trans (h.single i loop hi hne)
  exact Option.some.inj hsame

theorem Queued.inFlight_eq (h : Queued s) (hi : s.loops[i]? = some loop) (hne : loop ≠ .closed) :
    s.inFlight = loop.batch :=
  flatMap_of_single hi fun _ _ hj hother => h.index_eq hi hne hj hother

/-- Replacing the loop that is not closed. -/
theorem Queued.inFlight_set (h : Queued s) (hi : s.loops[i]? = some loop) (hne : loop ≠ .closed)
    (next : Loop) : (s.loops.set i next).flatMap Loop.batch = next.batch := by
  obtain ⟨hlt, -⟩ := List.getElem?_eq_some_iff.mp hi
  refine flatMap_of_single (i := i) (List.getElem?_set_self hlt) fun j other hj hother => ?_
  by_cases hsame : i = j
  · exact hsame.symm
  · rw [List.getElem?_set_ne hsame] at hj
    exact h.index_eq hi hne hj hother

theorem Queued.single_set (h : Queued s) (hi : s.loops[i]? = some loop) (hne : loop ≠ .closed)
    (next : Loop) :
    ∀ j other, (s.loops.set i next)[j]? = some other → other ≠ .closed →
      s.drainPromise = some j := by
  intro j other hj hother
  by_cases hsame : i = j
  · subst hsame
    exact h.single i loop hi hne
  · rw [List.getElem?_set_ne hsame] at hj
    exact h.single j other hj hother

/-- Without a promise every loop is closed. -/
theorem Queued.inFlight_nil (h : Queued s) (hpromise : s.drainPromise = none) :
    s.inFlight = [] := by
  refine flatMap_of_closed fun i loop hi => ?_
  by_contra hne
  have := h.single i loop hi hne
  rw [hpromise] at this
  contradiction

/-! ## Batches -/

/-- The next batch and the queue behind it are the queue before. -/
theorem nextBatch_append (s : State) (cfg : WebhookTransportConfig) :
    (s.nextBatch cfg).1.batch ++ (s.nextBatch cfg).2 = s.queue := by
  unfold nextBatch
  split
  · rfl
  · exact List.take_append_drop _ _

theorem nextBatch_length (s : State) (cfg : WebhookTransportConfig) :
    (s.nextBatch cfg).2.length ≤ s.queue.length := by
  unfold nextBatch
  split
  · exact Nat.le_refl _
  · rw [List.length_drop]
    omega

theorem nextBatch_ne_closed (s : State) (cfg : WebhookTransportConfig) :
    (s.nextBatch cfg).1 ≠ .closed := by
  unfold nextBatch
  split <;> nofun

theorem idsOf_append (a b : List LocalEventStoreRecord) : idsOf (a ++ b) = idsOf a ++ idsOf b :=
  List.map_append

/-! ## Steps -/

/-- A drain takes its first batch from the queue. -/
theorem Queued.drainQueue (h : Queued s) : Queued (s.drainQueue cfg) := by
  unfold State.drainQueue
  cases hpromise : s.drainPromise with
  | some i => exact h
  | none =>
      have hclosed : AllClosed s.loops := by
        intro i loop hi
        by_contra hne
        have := h.single i loop hi hne
        rw [hpromise] at this
        contradiction
      refine ⟨?_, ?_, h.nodup, h.issued⟩
      · intro i loop hi hne
        by_cases hlt : i < s.loops.length
        · have hi' : (s.loops ++ [(s.nextBatch cfg).1])[i]? = some loop := hi
          rw [List.getElem?_append_left hlt] at hi'
          exact absurd (hclosed i loop hi') hne
        · have hi' : (s.loops ++ [(s.nextBatch cfg).1])[i]? = some loop := hi
          obtain ⟨hlt', -⟩ := List.getElem?_eq_some_iff.mp hi'
          rw [List.length_append, List.length_singleton] at hlt'
          have heq : s.loops.length = i := by omega
          rw [← heq]
          rfl
      · have hflight : (s.loops ++ [(s.nextBatch cfg).1]).flatMap Loop.batch =
            (s.nextBatch cfg).1.batch := by
          rw [List.flatMap_append, flatMap_of_closed hclosed, List.flatMap_singleton,
            List.nil_append]
        have hordered := h.ordered
        rw [pipeline, h.inFlight_nil hpromise, ← nextBatch_append s cfg, idsOf_append,
          ← List.append_assoc] at hordered
        show (s.acknowledged ++ idsOf ((s.loops ++ [(s.nextBatch cfg).1]).flatMap Loop.batch) ++
          idsOf (s.nextBatch cfg).2).Sublist s.sent
        rw [hflight]
        simpa [idsOf] using hordered

theorem Queued.scheduleDrain (h : Queued s) : Queued s.scheduleDrain :=
  ⟨h.single, h.ordered, h.nodup, h.issued⟩

theorem Queued.clearTimer (h : Queued s) : Queued s.clearTimer :=
  ⟨h.single, h.ordered, h.nodup, h.issued⟩

theorem idsOf_pushed_sublist (queue : List LocalEventStoreRecord)
    (record : LocalEventStoreRecord) :
    (idsOf (pushed cfg queue record)).Sublist (idsOf queue ++ [record.id]) := by
  unfold pushed
  split
  · rw [idsOf_append]
    exact ((List.drop_sublist 1 queue).map _).append_right _
  · rw [idsOf_append]
    exact List.Sublist.refl _

/-- A new record goes to the end of what was sent. -/
theorem Queued.enqueue (h : Queued s) {record : LocalEventStoreRecord} {schedule : Bool}
    (hnew : record.id ∉ s.sent) (hissued : record.id ∈ s.issued) :
    Queued (s.enqueue cfg record schedule) := by
  have hpushed : Queued
      { s with queue := pushed cfg s.queue record, sent := s.sent ++ [record.id] } := by
    refine ⟨h.single, ?_, ?_, ?_⟩
    · have hordered := h.ordered.append_right [record.id]
      refine List.Sublist.trans ?_ hordered
      show (s.acknowledged ++ idsOf s.inFlight ++ idsOf (pushed cfg s.queue record)).Sublist
        (s.acknowledged ++ idsOf s.inFlight ++ idsOf s.queue ++ [record.id])
      rw [List.append_assoc (s.acknowledged ++ idsOf s.inFlight)]
      exact (idsOf_pushed_sublist s.queue record).append_left _
    · show (s.sent ++ [record.id]).Nodup
      rw [List.nodup_append]
      refine ⟨h.nodup, List.nodup_singleton _, ?_⟩
      rintro id hid _ hmem rfl
      rw [List.mem_singleton.mp hmem] at hid
      exact hnew hid
    · intro id hid
      rcases List.mem_append.mp hid with hid | hid
      · exact h.issued id hid
      · rw [List.mem_singleton.mp hid]
        exact hissued
  unfold State.enqueue
  simp only
  split
  · exact hpushed
  · split
    · exact hpushed.drainQueue
    · exact hpushed.scheduleDrain

/-- After its batch the loop takes the next one, with the batch on either side of the border
between what is acknowledged and what is not. -/
theorem Queued.next (h : Queued s) (hi : s.loops[i]? = some loop) (hne : loop ≠ .closed)
    {acknowledged : List Text} {queue : List LocalEventStoreRecord} {next : Loop}
    (hpipeline : (acknowledged ++ idsOf next.batch ++ idsOf queue).Sublist s.pipeline)
    {files : StoreFiles} {drainTimer : Bool} :
    Queued { s with files, drainTimer, acknowledged, queue, loops := s.loops.set i next } := by
  refine ⟨h.single_set hi hne next, ?_, h.nodup, h.issued⟩
  show (acknowledged ++ idsOf ((s.loops.set i next).flatMap Loop.batch) ++ idsOf queue).Sublist
    s.sent
  rw [h.inFlight_set hi hne next]
  exact hpipeline.trans h.ordered

theorem pipeline_of_sending (h : Queued s) {batch : List LocalEventStoreRecord} {attempt : Nat}
    (hi : s.loops[i]? = some (.sending batch attempt)) :
    s.pipeline = s.acknowledged ++ idsOf batch ++ idsOf s.queue := by
  rw [pipeline, h.inFlight_eq hi nofun]
  rfl

theorem Queued.acknowledge (h : Queued s) {batch : List LocalEventStoreRecord} {attempt : Nat}
    (hi : s.loops[i]? = some (.sending batch attempt)) (removal : WriteOutcome) :
    Queued (s.acknowledge numbers cfg i batch removal) := by
  have hpipeline : (s.acknowledged ++ idsOf batch ++ idsOf (s.nextBatch cfg).1.batch ++
      idsOf (s.nextBatch cfg).2).Sublist s.pipeline := by
    rw [pipeline_of_sending h hi, List.append_assoc _ _ (idsOf (s.nextBatch cfg).2),
      ← idsOf_append, nextBatch_append]
  unfold State.acknowledge
  simp only
  split
  · exact h.next hi nofun hpipeline
  · exact h.next hi nofun hpipeline

theorem Queued.putBack (h : Queued s) {batch : List LocalEventStoreRecord} {attempt : Nat}
    (hi : s.loops[i]? = some (.sending batch attempt)) : Queued (s.putBack i batch) := by
  refine h.next hi nofun ?_
  rw [pipeline_of_sending h hi, idsOf_append]
  simp [idsOf, Loop.batch]

theorem Queued.attempt (h : Queued s) {outcome : Outcome} {removal : WriteOutcome}
    (hstep : s.attempt numbers cfg i outcome removal = some t) : Queued t := by
  unfold State.attempt at hstep
  split at hstep
  · next batch attempt hi =>
      cases outcome with
      | acknowledged =>
          cases hstep
          exact h.acknowledge hi removal
      | failed retryable =>
          simp only at hstep
          split at hstep
          · cases hstep
            exact h.putBack hi
          · cases hstep
            refine h.next hi nofun ?_
            rw [pipeline_of_sending h hi]
            rfl
  · contradiction

theorem Queued.finalize (h : Queued s) (hstep : s.finalize i = some t) : Queued t := by
  unfold State.finalize at hstep
  split at hstep
  · next hi =>
      cases hstep
      have hclosed : AllClosed (s.loops.set i .closed) := by
        intro j other hj
        by_contra hne
        by_cases hsame : i = j
        · subst hsame
          obtain ⟨hlt, -⟩ := List.getElem?_eq_some_iff.mp hi
          rw [List.getElem?_set_self hlt] at hj
          exact hne (Option.some.inj hj).symm
        · rw [List.getElem?_set_ne hsame] at hj
          exact hsame (h.index_eq hi nofun hj hne).symm
      refine ⟨fun j other hj hne => absurd (hclosed j other hj) hne, ?_, h.nodup, h.issued⟩
      have hordered := h.ordered
      rw [pipeline, h.inFlight_eq hi nofun] at hordered
      show (s.acknowledged ++ idsOf ((s.loops.set i .closed).flatMap Loop.batch) ++
        idsOf s.queue).Sublist s.sent
      rw [flatMap_of_closed hclosed]
      exact hordered
  · contradiction

/-- The files, the counters and the ids of a send do not touch the queue. -/
theorem Queued.noted (h : Queued s) {files : StoreFiles} {rotateCounter : Nat}
    {resolved issued : List Text} (hissued : ∀ id ∈ s.issued, id ∈ issued) :
    Queued { s with files, rotateCounter, resolved, issued } :=
  ⟨h.single, h.ordered, h.nodup, fun id hid => hissued id (h.issued id hid)⟩

theorem findRecord_id {call : SendCall} {record : LocalEventStoreRecord}
    (h : s.findRecord numbers call = some record) : record.id = call.id := by
  unfold findRecord at h
  split at h
  · have hfound := List.find?_some h
    simpa using hfound
  · contradiction

theorem Queued.send (h : Queued s) {call : SendCall} (hfresh : call.id ∉ s.issued) :
    Queued (s.send numbers cfg call) := by
  have hnew : call.id ∉ s.sent := fun hid => hfresh (h.issued _ hid)
  have hsub : ∀ id ∈ s.issued, id ∈ call.id :: s.issued :=
    fun id hid => List.mem_cons_of_mem _ hid
  unfold State.send
  simp only
  split
  · exact h.noted hsub
  · split
    · exact h.noted hsub
    · next record hfind =>
        have hid : record.id = call.id := findRecord_id hfind
        refine Queued.enqueue (h.noted hsub) ?_ ?_
        · rw [hid]
          exact hnew
        · rw [hid]
          exact List.mem_cons_self

theorem Queued.flush (h : Queued s) : Queued (s.flush cfg) := by
  unfold State.flush
  split
  · exact ⟨h.single, h.ordered, h.nodup, h.issued⟩
  · exact h.clearTimer.drainQueue

theorem Queued.resumeFlush (h : Queued s) {k : Nat} (hstep : s.resumeFlush cfg k = some t) :
    Queued t := by
  unfold State.resumeFlush at hstep
  split at hstep
  · split at hstep
    · cases hstep
      refine Queued.drainQueue ?_
      exact ⟨h.single, h.ordered, h.nodup, h.issued⟩
    · contradiction
  · contradiction

theorem Queued.step (h : Queued s) {a : Action} (hstep : s.step numbers cfg a = some t) :
    Queued t := by
  cases a with
  | send call =>
      simp only [State.step] at hstep
      split at hstep
      · contradiction
      · next hfresh =>
          cases hstep
          exact h.send hfresh
  | timer =>
      simp only [State.step] at hstep
      split at hstep
      · cases hstep
        exact h.clearTimer.drainQueue
      · contradiction
  | flush =>
      cases hstep
      exact h.flush
  | resumeFlush k => exact h.resumeFlush hstep
  | attempt i outcome removal => exact h.attempt hstep
  | finalize i => exact h.finalize hstep
  | shutdown =>
      cases hstep
      exact h.clearTimer

/-! ## The length of the queue -/

theorem pushed_length {queue : List LocalEventStoreRecord} {record : LocalEventStoreRecord}
    (h : queue.length ≤ cfg.maxBufferEvents) :
    (pushed cfg queue record).length ≤ cfg.maxBufferEvents := by
  have hpos := cfg.maxBufferEvents_pos
  unfold pushed
  split
  · rw [List.length_append, List.length_drop, List.length_singleton]
    omega
  · rw [List.length_append, List.length_singleton]
    omega

theorem drainQueue_length : (s.drainQueue cfg).queue.length ≤ s.queue.length := by
  unfold drainQueue
  split
  · exact Nat.le_refl _
  · exact nextBatch_length _ _

theorem enqueue_length {record : LocalEventStoreRecord} {schedule : Bool}
    (h : s.queue.length ≤ cfg.maxBufferEvents) :
    (s.enqueue cfg record schedule).queue.length ≤ cfg.maxBufferEvents := by
  have hpushed : (pushed cfg s.queue record).length ≤ cfg.maxBufferEvents := pushed_length h
  unfold enqueue
  simp only
  split
  · exact hpushed
  · split
    · exact drainQueue_length.trans hpushed
    · exact hpushed

theorem send_length {call : SendCall} (h : s.queue.length ≤ cfg.maxBufferEvents) :
    (s.send numbers cfg call).queue.length ≤ cfg.maxBufferEvents := by
  unfold send
  simp only
  split
  · exact h
  · split
    · exact h
    · exact enqueue_length h

theorem acknowledge_length {batch : List LocalEventStoreRecord} {removal : WriteOutcome} :
    (s.acknowledge numbers cfg i batch removal).queue.length ≤ s.queue.length := by
  unfold acknowledge
  simp only
  split
  · exact nextBatch_length _ _
  · exact nextBatch_length _ _

/-- The length after a failure that puts a batch back. -/
theorem attempt_length {outcome : Outcome} {removal : WriteOutcome}
    (h : s.queue.length ≤ cfg.maxBufferEvents)
    (hstep : s.attempt numbers cfg i outcome removal = some t) :
    t.queue.length ≤ cfg.maxBufferEvents ↔
      FailedBatchFits cfg s (.attempt i outcome removal) := by
  unfold attempt at hstep
  split at hstep
  · next batch attempt hi =>
      cases outcome with
      | acknowledged =>
          cases hstep
          exact ⟨fun _ => trivial, fun _ => acknowledge_length.trans h⟩
      | failed retryable =>
          simp only at hstep
          split at hstep
          · next hgives =>
              cases hstep
              have hlength : (s.putBack i batch).queue.length =
                  batch.length + s.queue.length := List.length_append
              rw [hlength]
              constructor
              · intro hfits loop hloop _
                rw [Option.mem_def, hi] at hloop
                cases hloop
                exact hfits
              · intro hfits
                exact hfits _ hi hgives
          · next hgives =>
              cases hstep
              constructor
              · intro _ loop hloop hgives'
                rw [Option.mem_def, hi] at hloop
                cases hloop
                exact absurd hgives' hgives
              · intro _
                exact h
  · contradiction

/-- Every other step keeps the queue within its length. -/
theorem step_length {a : Action} (h : s.queue.length ≤ cfg.maxBufferEvents)
    (hstep : s.step numbers cfg a = some t) :
    t.queue.length ≤ cfg.maxBufferEvents ↔ FailedBatchFits cfg s a := by
  cases a with
  | send call =>
      simp only [step] at hstep
      split at hstep
      · contradiction
      · cases hstep
        exact ⟨fun _ => trivial, fun _ => send_length h⟩
  | timer =>
      simp only [step] at hstep
      split at hstep
      · cases hstep
        exact ⟨fun _ => trivial, fun _ => drainQueue_length.trans h⟩
      · contradiction
  | flush =>
      cases hstep
      refine ⟨fun _ => trivial, fun _ => ?_⟩
      unfold flush
      split
      · exact h
      · exact drainQueue_length.trans h
  | resumeFlush k =>
      refine ⟨fun _ => trivial, fun _ => ?_⟩
      simp only [step, resumeFlush] at hstep
      split at hstep
      · split at hstep
        · cases hstep
          exact drainQueue_length.trans h
        · contradiction
      · contradiction
  | attempt i outcome removal => exact attempt_length h hstep
  | finalize i =>
      refine ⟨fun _ => trivial, fun _ => ?_⟩
      simp only [step, finalize] at hstep
      split at hstep
      · cases hstep
        exact h
      · contradiction
  | shutdown =>
      cases hstep
      exact ⟨fun _ => trivial, fun _ => h⟩

/-! ## Runs -/

/-- A transport constructed over files whose records have distinct ids, which are the ids that were
given out. -/
def opened (numbers : Json.NumberFormat) (cfg : WebhookTransportConfig) (files : StoreFiles)
    (readable : Bool) : State :=
  construct numbers cfg files readable (idsOf (LocalEventStore.readAll numbers files)) [] []

/-- The steps of one transport. -/
def oneTransport (numbers : Json.NumberFormat) (cfg : WebhookTransportConfig) :
    Transition.System State Action where
  init s := ∃ files readable,
    (idsOf (LocalEventStore.readAll numbers files)).Nodup ∧ s = opened numbers cfg files readable
  step := step numbers cfg

/-- The invariant of runs in which failed batches fit. -/
structure Orderly (cfg : WebhookTransportConfig) (s : State) : Prop where
  queued : Queued s
  bounded : s.queue.length ≤ cfg.maxBufferEvents

theorem Queued.disciplined (h : Queued s) (hbounded : s.queue.length ≤ cfg.maxBufferEvents) :
    Disciplined cfg s := by
  have hnodup : s.pipeline.Nodup := h.nodup.sublist h.ordered
  have hsplit := hnodup
  rw [pipeline, List.nodup_append] at hsplit
  obtain ⟨hfront, hqueue, hdisjoint⟩ := hsplit
  refine ⟨hqueue, ?_, ?_, (List.nodup_append.mp hfront).1, ?_, hbounded⟩
  · intro id hid hflight
    exact hdisjoint id (List.mem_append_right _ hflight) id hid rfl
  · refine List.Sublist.trans ?_ h.ordered
    rw [pipeline, List.append_assoc]
    exact List.sublist_append_left _ _
  · cases hpromise : s.drainPromise with
    | none =>
        refine countP_of_single (i := 0) fun j other hj hother => ?_
        have := h.single j other hj hother
        rw [hpromise] at this
        contradiction
    | some i =>
        refine countP_of_single (i := i) fun j other hj hother => ?_
        have hsame := h.single j other hj hother
        rw [hpromise] at hsame
        exact (Option.some.inj hsame).symm

/-- The constructor queues the records of the file in its order. -/
theorem Orderly.enqueueExistingRecords {records : List LocalEventStoreRecord} (h : Orderly cfg s)
    (hnodup : (idsOf records).Nodup) (hnew : ∀ id ∈ idsOf records, id ∉ s.sent)
    (hissued : ∀ id ∈ idsOf records, id ∈ s.issued) :
    Orderly cfg (s.enqueueExistingRecords cfg records) := by
  induction records generalizing s with
  | nil => exact h
  | cons record records ih =>
      obtain ⟨hfirst, hrest⟩ := List.nodup_cons.mp hnodup
      have hnext : Orderly cfg (s.enqueue cfg record false) :=
        ⟨h.queued.enqueue (hnew _ List.mem_cons_self) (hissued _ List.mem_cons_self),
          enqueue_length h.bounded⟩
      refine ih hnext hrest ?_ ?_
      · intro id hid hsent
        rcases List.mem_append.mp (show id ∈ s.sent ++ [record.id] from hsent) with hold | hadded
        · exact hnew id (List.mem_cons_of_mem _ hid) hold
        · rw [List.mem_singleton.mp hadded] at hid
          exact hfirst hid
      · intro id hid
        exact hissued id (List.mem_cons_of_mem _ hid)

theorem opened_orderly {files : StoreFiles}
    (hnodup : (idsOf (LocalEventStore.readAll numbers files)).Nodup) (readable : Bool) :
    Orderly cfg (opened numbers cfg files readable) := by
  unfold opened construct
  refine Orderly.enqueueExistingRecords ⟨⟨?_, ?_, ?_, ?_⟩, Nat.zero_le _⟩ ?_ ?_ ?_
  · intro i loop hi
    simp at hi
  · exact List.Sublist.refl _
  · exact List.nodup_nil
  · nofun
  · cases readable with
    | true => exact hnodup
    | false => exact List.nodup_nil
  · nofun
  · intro id hid
    cases readable with
    | true => exact hid
    | false => contradiction

theorem orderly_preserved :
    (oneTransport numbers cfg).Preserved (FailedBatchFits cfg) (Orderly cfg) where
  init s hs := by
    obtain ⟨files, readable, hnodup, rfl⟩ := hs
    exact opened_orderly hnodup readable
  step s a t h hfits hstep :=
    ⟨h.queued.step hstep, (step_length h.bounded hstep).mpr hfits⟩

/-- The queue of a transport is disciplined throughout a run exactly when each batch that fails for
good has room beside what was queued in the meantime. -/
theorem always_disciplined_iff (numbers : Json.NumberFormat) (cfg : WebhookTransportConfig)
    (s₀ : State) (run : List Action) (init : (oneTransport numbers cfg).init s₀) :
    (oneTransport numbers cfg).Always (Disciplined cfg) s₀ run ↔
      (oneTransport numbers cfg).Guarded (FailedBatchFits cfg) s₀ run := by
  apply Transition.System.always_iff_guarded orderly_preserved
  · exact fun s h => h.queued.disciplined h.bounded
  · intro s a t h hstep hdisciplined
    exact (step_length h.bounded hstep).mp hdisciplined.bounded
  · exact orderly_preserved.init s₀ init

/-- Numbers that print as they are written. -/
def plainNumbers : Json.NumberFormat where
  print text := text
  print_nat _ _ := rfl

/-- Room for one record in the queue, batches of one and a single attempt. -/
def tinyConfig : WebhookTransportConfig where
  batchSize := 1
  retries := 1
  maxBufferEvents := 1
  retainOnAck := true
  store := { base := ("events.ndjson" : Text) }
  batchSize_pos := by decide
  retries_pos := by decide
  maxBufferEvents_pos := by decide

def noFiles : StoreFiles where
  file := none
  backups := []

def sendOf (id : Text) : SendCall where
  id := id
  storedAt := ("2026-01-01T00:00:00.000Z" : Text)
  kind := none
  serialized := ("p" : Text)
  now := 0
  renames := true
  outcome := .done
  readable := true

/-- A record is sent and delivered, and a second one after it. -/
def deliveredRun : List Action :=
  [.send (sendOf ("a" : Text)), .attempt 0 .acknowledged .skipped, .finalize 0,
    .send (sendOf ("b" : Text)), .attempt 1 .acknowledged .skipped]

theorem noFiles_init :
    (oneTransport plainNumbers tinyConfig).init (opened plainNumbers tinyConfig noFiles true) :=
  ⟨noFiles, true, List.nodup_nil, rfl⟩

theorem deliveredRun_disciplined :
    (oneTransport plainNumbers tinyConfig).Always (Disciplined tinyConfig)
      (opened plainNumbers tinyConfig noFiles true) deliveredRun :=
  (always_disciplined_iff plainNumbers tinyConfig _ deliveredRun noFiles_init).mpr
    (by decide +kernel)

/-- A second record is queued while the first is in flight, whose batch then fails. -/
def failedRun : List Action :=
  [.send (sendOf ("a" : Text)), .send (sendOf ("b" : Text)), .attempt 0 (.failed false) .skipped]

theorem failedRun_not_disciplined :
    ¬ ∀ numbers cfg s₀ run, (oneTransport numbers cfg).init s₀ →
      (oneTransport numbers cfg).Always (Disciplined cfg) s₀ run := by
  intro claim
  have always := claim plainNumbers tinyConfig _ failedRun noFiles_init
  have hbounded := (always.mono fun s h => h.bounded)
  exact absurd hbounded (by decide +kernel)

end State

end ErrorCore.WebhookTransport
