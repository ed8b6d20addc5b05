import ErrorCore.Context.Lamport

/-!
# Where the clocks order the requests

The receiver catches up with the sender when its own clock is already there or
when it reads a positive number out of the request. A sender whose clock is
still 0 writes `clk:0`, which no receiver reads.
-/

namespace ErrorCore.Lamport

universe u
variable {ι : Type u} {key : ι → VendorKey}

namespace Message

/-- Both headers went out, and the clock that they were written from was positive. -/
structure Readable (m : Message ι) : Prop where
  traceparent : m.traceparent.isSome
  tracestate : m.tracestate.isSome
  positive : 1 < m.seq

instance (m : Message ι) : Decidable m.Readable :=
  decidable_of_iff (m.traceparent.isSome ∧ m.tracestate.isSome ∧ 1 < m.seq)
    ⟨fun h => ⟨h.1, h.2.1, h.2.2⟩, fun h => ⟨h.traceparent, h.tracestate, h.positive⟩⟩

/-- What the headers say that `handleRequestStart` wrote. -/
structure IsSent (key : ι → VendorKey) (m : Message ι) : Prop where
  traceparent : ∀ header, m.traceparent = some header → ∃ trace, header = formatTraceparent trace
  tracestate : ∀ header, m.tracestate = some header →
    ∃ inherited, header = formatTracestate (m.seq - 1) inherited (key m.sender)
  seq_le : m.seq ≤ maxSafeInteger

end Message

/-- The next event of a request comes after the outbound event of its sender, because the clock
is there or because the number is read first. -/
def Handling.Follows (key : ι → VendorKey) (s : State ι) (handling : Handling ι) : Prop :=
  ∀ m, handling.origin = some m → IsPeer key handling.receiver m →
    m.seq ≤ (s.clock handling.receiver).value ∨ m.Readable

instance (key : ι → VendorKey) (s : State ι) (handling : Handling ι) :
    Decidable (handling.Follows key s) :=
  inferInstanceAs (Decidable (∀ m ∈ handling.origin, key m.sender = key handling.receiver →
    m.seq ≤ (s.clock handling.receiver).value ∨ m.Readable))

/-- The same for an entry of the inspector, which reads nothing. -/
def Handling.FollowsPause (key : ι → VendorKey) (s : State ι) (handling : Handling ι) : Prop :=
  ∀ m, handling.origin = some m → IsPeer key handling.receiver m →
    m.seq ≤ (s.clock handling.receiver).value ∨
      m.Readable ∧ handling.context.materializedTrace.isSome

instance (key : ι → VendorKey) (s : State ι) (handling : Handling ι) :
    Decidable (handling.FollowsPause key s) :=
  inferInstanceAs (Decidable (∀ m ∈ handling.origin, key m.sender = key handling.receiver →
    m.seq ≤ (s.clock handling.receiver).value ∨
      m.Readable ∧ handling.context.materializedTrace.isSome))

/-- The events that are stamped meet one of the two conditions. -/
def Admits (key : ι → VendorKey) (s : State ι) : Action ι → Prop
  | .record index _ | .handleRequestStart index _ _ =>
      ∀ handling ∈ s.handlings[index]?, handling.Follows key s
  | .onPaused index => ∀ handling ∈ s.handlings[index]?, handling.FollowsPause key s
  | .receive _ _ | .receiveForeign _ _ _ | .ensureTraceMaterialized _ _ | .tick _ => True

instance (key : ι → VendorKey) (s : State ι) (action : Action ι) :
    Decidable (Admits key s action) :=
  match action with
  | .record index _ | .handleRequestStart index _ _ =>
      inferInstanceAs (Decidable (∀ handling ∈ s.handlings[index]?, handling.Follows key s))
  | .onPaused index =>
      inferInstanceAs (Decidable (∀ handling ∈ s.handlings[index]?, handling.FollowsPause key s))
  | .receive _ _ | .receiveForeign _ _ _ | .ensureTraceMaterialized _ _ | .tick _ => .isTrue trivial

/-- The raw headers of a request context are those of its request. -/
structure Handling.IsReceived (key : ι → VendorKey) (handling : Handling ι) (m : Message ι) :
    Prop where
  sent : m.IsSent key
  traceparent : handling.context.rawTraceparent = m.traceparent
  tracestate : handling.context.rawTracestate = m.tracestate

/-- A clock has caught up with a request whose number has been read. -/
def Handling.Merged (key : ι → VendorKey) (clock : ι → EventClock) (handling : Handling ι) : Prop :=
  ∀ m, handling.origin = some m → IsPeer key handling.receiver m → m.Readable →
    handling.context.materializedTrace.isSome → m.seq ≤ (clock handling.receiver).value

structure Inv (key : ι → VendorKey) (s : State ι) : Prop where
  sent : ∀ m ∈ s.messages, m.IsSent key
  received : ∀ handling ∈ s.handlings, ∀ m, handling.origin = some m → handling.IsReceived key m
  merged : ∀ handling ∈ s.handlings, handling.Merged key s.clock
  causal : s.Causal key

/-! ## The number that a request carries -/

theorem readTrace_receivedSeq {m : Message ι} {handling : Handling ι}
    (received : handling.IsReceived key m) (peer : IsPeer key handling.receiver m)
    (readable : m.Readable) (ids : FreshIds) :
    (handling.context.readTrace (key handling.receiver) ids).1 = some (m.seq - 1) := by
  obtain ⟨traceparent, htraceparent⟩ := Option.isSome_iff_exists.mp readable.traceparent
  obtain ⟨tracestate, htracestate⟩ := Option.isSome_iff_exists.mp readable.tracestate
  obtain ⟨trace, hparent⟩ := received.sent.traceparent traceparent htraceparent
  obtain ⟨inherited, hstate⟩ := received.sent.tracestate tracestate htracestate
  have hpos : 0 < m.seq - 1 := Nat.sub_pos_of_lt readable.positive
  have hle : m.seq - 1 ≤ maxSafeInteger := Nat.le_trans (Nat.sub_le ..) received.sent.seq_le
  rw [LazyRequestContext.readTrace]
  dsimp only
  rw [received.traceparent, received.tracestate, htraceparent, htracestate, hparent, hstate,
    parseTraceparent_formatTraceparent, if_pos rfl, peer]
  exact parseTracestate_formatTracestate hpos hle inherited

/-! ## Clocks only move forward -/

section Steps

variable [DecidableEq ι] {s : State ι} {index : Nat} {handling : Handling ι} {ids : FreshIds}

theorem setClock_le {service : ι} {clock : EventClock}
    (h : (s.clock service).value ≤ clock.value) (other : ι) :
    (s.clock other).value ≤ ((s.setClock service clock).clock other).value := by
  rw [State.setClock]
  dsimp only
  by_cases heq : other = service
  · rw [heq, Function.update_self]
    exact h
  · rw [Function.update_of_ne heq]

theorem materialize_le (context : LazyRequestContext) (vendorKey : VendorKey) {clock : EventClock}
    (h : clock.value < maxSafeInteger) :
    clock.value ≤ (context.ensureTraceMaterialized vendorKey ids clock).2.value := by
  rw [LazyRequestContext.ensureTraceMaterialized]
  cases context.materializedTrace with
  | some trace => exact Nat.le_refl _
  | none =>
      dsimp only
      cases (context.readTrace vendorKey ids).1 with
      | none => exact Nat.le_refl _
      | some received => exact EventClock.value_le_merge (Nat.le_of_lt h) received

theorem ensureTraceMaterialized_le (below : s.BelowCeiling) (other : ι) :
    (s.clock other).value ≤
      ((s.ensureTraceMaterialized key index handling ids).clock other).value :=
  setClock_le (materialize_le handling.context (key handling.receiver) (below handling.receiver))
    other

theorem stamp_le (below : s.BelowCeiling) (other : ι) :
    (s.clock other).value ≤ ((s.stamp handling).clock other).value :=
  setClock_le (EventClock.value_le_tick (Nat.le_of_lt (below handling.receiver))) other

/-- The number of the new event. -/
theorem stamp_clock (below : (s.stamp handling).BelowCeiling) :
    ((s.stamp handling).clock handling.receiver).value =
      (s.clock handling.receiver).value + 1 := by
  have hbelow := below handling.receiver
  simp only [State.stamp, State.setClock, Function.update_self] at hbelow ⊢
  exact EventClock.tick_eq hbelow

theorem belowCeiling_of_stamp (below : (s.stamp handling).BelowCeiling) : s.BelowCeiling := by
  intro service
  have hbelow := below service
  by_cases heq : service = handling.receiver
  · rw [heq] at hbelow ⊢
    rw [stamp_clock below] at hbelow
    exact Nat.lt_of_succ_lt hbelow
  · simp only [State.stamp, State.setClock, Function.update_of_ne heq] at hbelow
    exact hbelow

end Steps

/-! ## What a step keeps -/

theorem Handling.Merged.mono {clock clock' : ι → EventClock} {handling : Handling ι}
    (h : handling.Merged key clock) (le : ∀ other, (clock other).value ≤ (clock' other).value) :
    handling.Merged key clock' := by
  intro m horigin hpeer hreadable htrace
  exact Nat.le_trans (h m horigin hpeer hreadable htrace) (le handling.receiver)

namespace Inv

section Steps

variable [DecidableEq ι] {s : State ι} {index : Nat} {handling : Handling ι} {ids : FreshIds}

theorem setClock (inv : Inv key s) {service : ι} {clock : EventClock}
    (h : (s.clock service).value ≤ clock.value) : Inv key (s.setClock service clock) where
  sent := inv.sent
  received := inv.received
  merged handling hmem := (inv.merged handling hmem).mono (setClock_le h)
  causal := inv.causal

omit [DecidableEq ι] in
theorem create (inv : Inv key s) {receiver : ι} {origin : Option (Message ι)}
    {traceparent tracestate : Option Text}
    (horigin : ∀ m, origin = some m →
      m.IsSent key ∧ traceparent = m.traceparent ∧ tracestate = m.tracestate) :
    Inv key (s.create receiver origin traceparent tracestate) where
  sent := inv.sent
  received handling hmem m hm := by
    obtain hold | hnew := List.mem_append.mp hmem
    · exact inv.received handling hold m hm
    · obtain rfl := List.mem_singleton.mp hnew
      obtain ⟨hsent, hparent, hstate⟩ := horigin m hm
      exact { sent := hsent, traceparent := hparent, tracestate := hstate }
  merged handling hmem := by
    obtain hold | hnew := List.mem_append.mp hmem
    · exact inv.merged handling hold
    · obtain rfl := List.mem_singleton.mp hnew
      intro m _ _ _ htrace
      exact nomatch htrace
  causal := inv.causal

/-- The first use of the trace of a request whose number can be read catches up with it. -/
theorem le_materialize (inv : Inv key s) (hmem : handling ∈ s.handlings)
    (below : (s.ensureTraceMaterialized key index handling ids).BelowCeiling) {m : Message ι}
    (horigin : handling.origin = some m) (hpeer : IsPeer key handling.receiver m)
    (hreadable : m.Readable) :
    m.seq ≤ ((s.ensureTraceMaterialized key index handling ids).clock handling.receiver).value := by
  have received := inv.received handling hmem m horigin
  have hbelow := below handling.receiver
  have hread := readTrace_receivedSeq received hpeer hreadable ids
  have merged := inv.merged handling hmem m horigin hpeer hreadable
  simp only [State.ensureTraceMaterialized, State.setClock, Function.update_self] at hbelow ⊢
  rw [LazyRequestContext.ensureTraceMaterialized] at hbelow ⊢
  cases htrace : handling.context.materializedTrace with
  | some trace =>
      simp only [htrace] at merged hbelow ⊢
      exact merged rfl
  | none =>
      simp only [htrace, hread, Option.map_some, Option.getD_some] at hbelow ⊢
      have hle : m.seq - 1 ≤ maxSafeInteger :=
        Nat.le_trans (Nat.sub_le ..) received.sent.seq_le
      have hlt := EventClock.lt_merge hle hbelow
      omega

theorem ensureTraceMaterialized (inv : Inv key s) (hindex : s.handlings[index]? = some handling)
    (before : s.BelowCeiling)
    (below : (s.ensureTraceMaterialized key index handling ids).BelowCeiling) :
    Inv key (s.ensureTraceMaterialized key index handling ids) where
  sent := inv.sent
  received other hmem m hm := by
    obtain hold | rfl := List.mem_or_eq_of_mem_set hmem
    · exact inv.received other hold m hm
    · have received := inv.received handling (List.mem_of_getElem? hindex) m hm
      exact ⟨received.sent, received.traceparent, received.tracestate⟩
  merged other hmem := by
    obtain hold | rfl := List.mem_or_eq_of_mem_set hmem
    · exact (inv.merged other hold).mono (ensureTraceMaterialized_le before)
    · intro m horigin hpeer hreadable _
      exact inv.le_materialize (List.mem_of_getElem? hindex) below horigin hpeer hreadable
  causal := inv.causal

theorem stamp (inv : Inv key s) (before : s.BelowCeiling)
    (below : (s.stamp handling).BelowCeiling)
    (follows : ∀ m, handling.origin = some m → IsPeer key handling.receiver m →
      m.seq ≤ (s.clock handling.receiver).value) : Inv key (s.stamp handling) where
  sent := inv.sent
  received := inv.received
  merged other hmem := (inv.merged other hmem).mono (stamp_le before)
  causal e hmem m horigin hpeer := by
    obtain hold | hnew := List.mem_append.mp hmem
    · exact inv.causal e hold m horigin hpeer
    · obtain rfl := List.mem_singleton.mp hnew
      have hclock := stamp_clock below
      simp only [State.stamp, State.setClock, Function.update_self] at hclock
      have hle := follows m horigin hpeer
      change m.seq < (s.clock handling.receiver).tick.value
      rw [hclock]
      exact Nat.lt_succ_of_le hle

/-- An event of a recorder, which materializes the trace before it is stamped. -/
theorem record (inv : Inv key s) (hindex : s.handlings[index]? = some handling)
    (before : s.BelowCeiling) (follows : handling.Follows key s)
    (below : ((s.ensureTraceMaterialized key index handling ids).stamp handling).BelowCeiling) :
    Inv key ((s.ensureTraceMaterialized key index handling ids).stamp handling) := by
  have middle := belowCeiling_of_stamp below
  have invMiddle : Inv key (s.ensureTraceMaterialized key index handling ids) :=
    inv.ensureTraceMaterialized hindex before middle
  refine invMiddle.stamp middle below ?_
  intro m horigin hpeer
  cases follows m horigin hpeer with
  | inl hclock => exact Nat.le_trans hclock (ensureTraceMaterialized_le before _)
  | inr hreadable =>
      exact inv.le_materialize (List.mem_of_getElem? hindex) middle horigin hpeer hreadable

theorem handleRequestStart (inv : Inv key s) (hindex : s.handlings[index]? = some handling)
    (before : s.BelowCeiling) (follows : handling.Follows key s) {injection : Injection}
    (below : (s.handleRequestStart key index handling ids injection).BelowCeiling) :
    Inv key (s.handleRequestStart key index handling ids injection) := by
  have stamped : Inv key ((s.ensureTraceMaterialized key index handling ids).stamp handling) :=
    inv.record hindex before follows below
  have hclock := stamp_clock (s := s.ensureTraceMaterialized key index handling ids) below
  have hle := Nat.le_of_lt (below handling.receiver)
  let trace := (handling.context.ensureTraceMaterialized (key handling.receiver) ids
    (s.clock handling.receiver)).1
  refine { stamped with sent := ?_ }
  intro m hmem
  obtain hold | hnew := List.mem_append.mp hmem
  · exact inv.sent m hold
  · obtain rfl := List.mem_singleton.mp hnew
    constructor
    · intro header hheader
      cases injection with
      | both | traceparentOnly => exact ⟨trace, (Option.some.inj hheader).symm⟩
      | neither => exact nomatch hheader
    · intro header hheader
      cases injection with
      | both =>
          refine ⟨trace.inheritedTracestate, ?_⟩
          dsimp only
          rw [hclock, Nat.add_sub_cancel]
          exact (Option.some.inj hheader).symm
      | traceparentOnly | neither => exact nomatch hheader
    · exact hle

end Steps

end Inv

section Runs

theorem Inv.initial {s : State ι} (init : s.Initial) : Inv key s := by
  obtain ⟨_, hmessages, hhandlings, hevents⟩ := init
  constructor
  · intro m hmem
    rw [hmessages] at hmem
    exact nomatch hmem
  · intro handling hmem
    rw [hhandlings] at hmem
    exact nomatch hmem
  · intro handling hmem
    rw [hhandlings] at hmem
    exact nomatch hmem
  · intro e hmem
    rw [hevents] at hmem
    exact nomatch hmem

variable [DecidableEq ι]

theorem preserved : (system key).Preserved
    (fun s action => Admits key s action ∧ s.BelowCeiling ∧
      ∀ t, (system key).step s action = some t → t.BelowCeiling) (Inv key) where
  init s := Inv.initial
  step s action t inv guard hstep := by
    obtain ⟨admits, before, after⟩ := guard
    have below := after t hstep
    cases action with
    | receive receiver message =>
        obtain ⟨m, hm, heq⟩ := Option.bind_eq_some_iff.mp hstep
        obtain rfl := Option.some.inj heq
        apply inv.create
        intro m' hm'
        rw [← Option.some.inj hm']
        exact ⟨inv.sent m (List.mem_of_getElem? hm), rfl, rfl⟩
    | receiveForeign receiver traceparent tracestate =>
        rw [← Option.some.inj hstep]
        exact inv.create fun m hm => nomatch hm
    | ensureTraceMaterialized index ids =>
        obtain ⟨handling, hindex, heq⟩ := Option.bind_eq_some_iff.mp hstep
        obtain rfl := Option.some.inj heq
        exact inv.ensureTraceMaterialized hindex before below
    | record index ids =>
        obtain ⟨handling, hindex, heq⟩ := Option.bind_eq_some_iff.mp hstep
        obtain rfl := Option.some.inj heq
        exact inv.record hindex before (admits handling hindex) below
    | handleRequestStart index ids injection =>
        obtain ⟨handling, hindex, heq⟩ := Option.bind_eq_some_iff.mp hstep
        obtain rfl := Option.some.inj heq
        exact inv.handleRequestStart hindex before (admits handling hindex) below
    | onPaused index =>
        obtain ⟨handling, hindex, heq⟩ := Option.bind_eq_some_iff.mp hstep
        obtain rfl := Option.some.inj heq
        refine inv.stamp before below ?_
        intro m horigin hpeer
        cases admits handling hindex m horigin hpeer with
        | inl hclock => exact hclock
        | inr hread =>
            have hmem := List.mem_of_getElem? hindex
            exact inv.merged handling hmem m horigin hpeer hread.1 hread.2
    | tick service =>
        rw [← Option.some.inj hstep]
        exact inv.setClock (EventClock.value_le_tick (Nat.le_of_lt (before service)))

/-- In a run below the ceiling whose events are stamped where the clock is there already or where
the number is read, every event of a request comes after the outbound event of its sender. -/
theorem causal_of_admits {s : State ι} {run : List (Action ι)} (init : s.Initial)
    (below : (system key).Always State.BelowCeiling s run)
    (admits : (system key).Guarded (Admits key) s run) :
    (system key).Always (State.Causal key) s run :=
  (preserved.always (Inv.initial init) (admits.and_always below)).mono fun _ inv => inv.causal

end Runs

/-! ## Two services -/

def sameKey : Fin 2 → VendorKey := fun _ =>
  { text := ['e'], nonempty := by decide, length_le := by decide, valid := by decide }

def someIds : FreshIds where
  traceId := { text := List.replicate 32 '1', valid := by decide }
  spanId := { text := List.replicate 16 '1', valid := by decide }

def started : State (Fin 2) where
  clock _ := { value := 0 }
  messages := []
  handlings := []
  events := []

theorem started_initial : started.Initial := ⟨fun _ => rfl, rfl, rfl, rfl⟩

instance (s : State (Fin 2)) : Decidable s.BelowCeiling :=
  inferInstanceAs (Decidable (∀ service, (s.clock service).value < maxSafeInteger))

instance (s : State (Fin 2)) : Decidable (s.Causal sameKey) :=
  inferInstanceAs (Decidable (∀ e ∈ s.events, ∀ m ∈ e.origin,
    sameKey m.sender = sameKey e.receiver → m.seq < e.seq))

/-- A service records the request it received and then sends one, whose receiver records it. -/
def recordedRun : List (Action (Fin 2)) :=
  [.receiveForeign 0 none none, .record 0 someIds, .handleRequestStart 0 someIds .both,
    .receive 1 0, .record 1 someIds]

theorem recordedRun_causal :
    (system sameKey).Always (State.Causal sameKey) started recordedRun :=
  causal_of_admits started_initial (by decide +kernel) (by decide +kernel)

/-- The request is sent before the service has stamped anything. -/
def unrecordedRun : List (Action (Fin 2)) :=
  [.receiveForeign 0 none none, .handleRequestStart 0 someIds .both, .receive 1 0,
    .record 1 someIds]

theorem unrecordedRun_not_causal :
    started.Initial ∧ (system sameKey).Always State.BelowCeiling started unrecordedRun ∧
      ¬ (system sameKey).Always (State.Causal sameKey) started unrecordedRun :=
  ⟨started_initial, by decide +kernel, by decide +kernel⟩

end ErrorCore.Lamport
