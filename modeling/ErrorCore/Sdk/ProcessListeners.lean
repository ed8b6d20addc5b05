import ErrorCore.Foundation.Emitter
import ErrorCore.Sdk.Singleton

/-!
# Listeners of the process

What an `SDKInstance` of `src/sdk.ts` registers on `process`: the handlers of
`registerProcessHandlers`, which a switch of the capture mode adds and removes,
and those of `enableAutoShutdown`. The host adds and removes listeners of its own.
An emission calls the listeners there were when it began, one after another, and
anything synchronous may happen between them.

The host's listeners are never touched, the instance's are those of its records,
a failure is captured once to an emission, and the process is ended only where
the host does not listen itself.
-/

namespace ErrorCore.Sdk.ProcessListeners

inductive ProcessEvent
  | unhandledRejection
  | uncaughtException
  | beforeExit
  | SIGTERM
  | SIGINT
  deriving DecidableEq, Repr

def ProcessEvent.isFailure : ProcessEvent → Bool
  | .unhandledRejection | .uncaughtException => true
  | .beforeExit | .SIGTERM | .SIGINT => false

/-- A listener function. The instance's are new at each registration; two of them have closed over
the number of listeners that their event had before. -/
inductive Handler
  | unhandledRejection (serial preExisting : Nat)
  | uncaughtException (serial preExisting : Nat)
  | beforeExit (serial : Nat)
  | signal (serial : Nat) (event : ProcessEvent)
  | host (n : Nat)
  deriving DecidableEq, Repr

/-- Whose record a listener is in: the capture mode's, the automatic shutdown's or none. -/
inductive Kind
  | mode
  | auto
  | host
  deriving DecidableEq, Repr

namespace Handler

def kind : Handler → Kind
  | .unhandledRejection _ _ | .uncaughtException _ _ | .beforeExit _ => .mode
  | .signal _ _ => .auto
  | .host _ => .host

def isMode (handler : Handler) : Bool := handler.kind = .mode

def isAuto (handler : Handler) : Bool := handler.kind = .auto

def isHost (handler : Handler) : Bool := handler.kind = .host

/-- Whether a call of the handler may capture an error. -/
def captures : Handler → Bool
  | .unhandledRejection _ _ | .uncaughtException _ _ => true
  | .beforeExit _ | .signal _ _ | .host _ => false

end Handler

abbrev Listeners := List (ProcessEvent × Handler)

def listenerCount (listeners : Listeners) (event : ProcessEvent) : Nat :=
  listeners.countP fun listener => listener.1 = event

/-- The instance and the process. `emissions` holds the handlers that are still to be called of
each emission under way, `fired` the handlers added with `once` that were called, and `waiting` the
signals whose handlers wait for the shutdown. -/
structure State where
  instance_ : Instance
  process : Listeners
  modeProcessListeners : Listeners
  autoShutdownListeners : Listeners
  serial : Nat
  fatalExitInProgress : Bool
  emissions : List (List Handler)
  fired : List Handler
  waiting : List ProcessEvent
  exited : Bool
  /-- What the process would have without the instance. -/
  host : Listeners
  /-- How often listeners were added after the end of the shutdown. -/
  late : Nat
  /-- The emissions of failures, the captures, and the warnings of a rejection. -/
  failures : Nat
  captured : Nat
  warned : Nat
  /-- The signals that the instance was handed, and those that it has sent again. -/
  received : List ProcessEvent
  sentAgain : List ProcessEvent
  /-- The host's listeners for an uncaught exception at each decision to end the process. -/
  fatalExits : List Nat
  deriving DecidableEq, Repr

def State.initial (host : List (ProcessEvent × Nat)) : State :=
  let listeners := host.map fun listener => (listener.1, Handler.host listener.2)
  { instance_ := Instance.create true
    process := listeners
    modeProcessListeners := []
    autoShutdownListeners := []
    serial := 0
    fatalExitInProgress := false
    emissions := []
    fired := []
    waiting := []
    exited := false
    host := listeners
    late := 0
    failures := 0
    captured := 0
    warned := 0
    received := []
    sentAgain := []
    fatalExits := [] }

/-- The listeners of one registration, with the counts that its handlers close over. -/
def modeListeners (serverless : Bool) (serial rejections exceptions : Nat) : Listeners :=
  (.unhandledRejection, .unhandledRejection serial rejections) ::
    if serverless then []
    else
      [(.uncaughtException, .uncaughtException serial exceptions),
        (.beforeExit, .beforeExit serial)]

def signalListeners (serial : Nat) : Listeners :=
  [(.SIGTERM, .signal serial .SIGTERM), (.SIGINT, .signal serial .SIGINT)]

namespace State

variable (s : State)

def lateRegistration : Nat := if s.instance_.state = .shutdown then s.late + 1 else s.late

def unregisterProcessHandlers : State :=
  { s with
    process := Emitter.removeEach s.modeProcessListeners s.process
    modeProcessListeners := [] }

def registerProcessHandlers (serverless : Bool) : State :=
  let s := s.unregisterProcessHandlers
  let added := modeListeners serverless s.serial (listenerCount s.process .unhandledRejection)
    (listenerCount s.process .uncaughtException)
  { s with
    process := s.process ++ added
    modeProcessListeners := s.modeProcessListeners ++ added
    serial := s.serial + 1
    late := s.lateRegistration }

def enableAutoShutdown (serverless : Bool) : State :=
  if serverless then s
  else
    let added := signalListeners s.serial
    { s with
      process := s.process ++ added
      autoShutdownListeners := s.autoShutdownListeners ++ added
      serial := s.serial + 1
      late := s.lateRegistration }

/-- `activate`; `processHandlers` is the mode's recorder of this name, and `throws` tells whether
what follows the registration throws. -/
def activate (serverless processHandlers throws : Bool) : State :=
  if s.instance_.state ≠ .created then s
  else
    let registered := if processHandlers then s.registerProcessHandlers serverless else s
    if throws then registered
    else { registered with instance_ := registered.instance_.activate }

def shutdown : State := { s with instance_ := s.instance_.shutdown }

/-- The `finally` of `performShutdown`, whose end the instance has reached. -/
def finish (instance_ : Instance) : State :=
  { s with
    instance_
    process := Emitter.removeEach (s.modeProcessListeners ++ s.autoShutdownListeners) s.process
    modeProcessListeners := []
    autoShutdownListeners := []
    fatalExitInProgress := false }

/-- The call of a handler. The one of the signal was added with `once`, and the host's own are none
of the instance's business. -/
def call : Handler → State
  | .unhandledRejection _ preExisting =>
      { s with
        captured := s.captured + 1
        warned :=
          if listenerCount s.process .unhandledRejection = preExisting + 1 then s.warned + 1
          else s.warned }
  | .uncaughtException serial preExisting =>
      if s.fatalExitInProgress then s
      else
        let currentOtherListenerCount := s.process.countP fun listener =>
          listener.1 = .uncaughtException ∧ listener.2 ≠ .uncaughtException serial preExisting
        if preExisting > 0 ∨ currentOtherListenerCount > 0 then
          { s with captured := s.captured + 1 }
        else
          { s.shutdown with
            captured := s.captured + 1
            fatalExitInProgress := true
            fatalExits := listenerCount s.host .uncaughtException :: s.fatalExits }
  | .beforeExit _ => s.shutdown
  | .signal serial event =>
      if .signal serial event ∈ s.fired then s
      else
        { s.shutdown with
          process := Emitter.removeLast s.process event (.signal serial event)
          fired := .signal serial event :: s.fired
          received := event :: s.received
          waiting := event :: s.waiting }
  | .host _ => s

/-- An emission begins. -/
def emit (event : ProcessEvent) : State :=
  { s with
    emissions :=
      ((s.process.filter fun listener => listener.1 = event).map (·.2)) :: s.emissions
    failures := if event.isFailure then s.failures + 1 else s.failures }

end State

inductive Action
  | activate (processHandlers throws : Bool)
  | enableAutoShutdown
  /-- What the controller of the capture mode does. -/
  | setProcessHandlersEnabled (enabled : Bool)
  | shutdown
  | advance (throws transport : Bool)
  | emit (event : ProcessEvent)
  /-- The innermost emission calls its next listener, or ends. -/
  | deliver
  | sendAgain (event : ProcessEvent)
  /-- The process ends, after the shutdown or when the timer has gone off. -/
  | exit (timer : Bool)
  | addHost (event : ProcessEvent) (n : Nat)
  | removeHost (event : ProcessEvent) (n : Nat)
  deriving DecidableEq, Repr

/-- One synchronous stretch; what waits for a promise or a timer goes on between emissions. -/
def step (serverless : Bool) (s : State) (action : Action) : Option State :=
  if s.exited then none
  else
    match action with
    | .activate processHandlers throws => some (s.activate serverless processHandlers throws)
    | .enableAutoShutdown => some (s.enableAutoShutdown serverless)
    | .setProcessHandlersEnabled enabled =>
        some (if enabled then s.registerProcessHandlers serverless else s.unregisterProcessHandlers)
    | .shutdown => some s.shutdown
    | .advance throws transport =>
        if s.emissions ≠ [] then none
        else
          (s.instance_.advance throws transport).map fun instance_ =>
            if instance_.state = .shutdown then s.finish instance_ else { s with instance_ }
    | .emit event => some (s.emit event)
    | .deliver =>
        match s.emissions with
        | [] => none
        | [] :: outer => some { s with emissions := outer }
        | (handler :: rest) :: outer => some ({ s with emissions := rest :: outer }.call handler)
    | .sendAgain event =>
        if s.emissions = [] ∧ s.instance_.state = .shutdown ∧ event ∈ s.waiting then
          some { s with
            waiting := s.waiting.erase event
            sentAgain := event :: s.sentAgain }
        else none
    | .exit timer =>
        if s.emissions = [] ∧ s.fatalExits ≠ [] ∧ (timer ∨ s.instance_.state = .shutdown) then
          some { s with exited := true }
        else none
    | .addHost event n =>
        some { s with
          process := Emitter.add s.process event (.host n)
          host := Emitter.add s.host event (.host n) }
    | .removeHost event n =>
        some { s with
          process := Emitter.removeLast s.process event (.host n)
          host := Emitter.removeLast s.host event (.host n) }

def system (serverless : Bool) : Transition.System State Action where
  init s := ∃ host, s = .initial host
  step := step serverless

variable {s t : State} {serverless : Bool} {event : ProcessEvent} {handler : Handler}
variable {instance_ : Instance}

/-! ## Registration -/

/-- The handler is older than the registration of the number. -/
def Handler.Before (serial : Nat) : Handler → Prop
  | .signal own _ => own < serial
  | .unhandledRejection _ _ | .uncaughtException _ _ | .beforeExit _ | .host _ => True

theorem Handler.Before.mono {serial later : Nat} (h : handler.Before serial)
    (hle : serial ≤ later) : handler.Before later := by
  cases handler with
  | signal own event => exact Nat.lt_of_lt_of_le h hle
  | unhandledRejection own preExisting => trivial
  | uncaughtException own preExisting => trivial
  | beforeExit own => trivial
  | host n => trivial

/-- The process holds the host's listeners and those of the records, less the ones that were added
with `once` and called. -/
structure Registered (s : State) : Prop where
  staged : s.instance_.Staged
  host : Emitter.part Handler.isHost s.process = s.host
  mode : Emitter.part Handler.isMode s.process = s.modeProcessListeners
  auto : Emitter.part Handler.isAuto s.process =
    s.autoShutdownListeners.filter fun listener => listener.2 ∉ s.fired
  events : (s.modeProcessListeners.map (·.1)).Nodup
  failures : ∀ listener ∈ s.modeProcessListeners, listener.2.captures = listener.1.isFailure
  signals : ∀ listener ∈ s.autoShutdownListeners, ∃ serial < s.serial,
    listener.2 = .signal serial listener.1
  nodup : s.autoShutdownListeners.Nodup
  fired : ∀ handler ∈ s.fired, handler.Before s.serial
  closed : s.instance_.state = .shutdown → s.late = 0 →
    s.modeProcessListeners = [] ∧ s.autoShutdownListeners = []

theorem registered_initial (host : List (ProcessEvent × Nat)) : Registered (.initial host) where
  staged := Instance.staged_create true
  host := by
    apply List.filter_eq_self.mpr
    intro listener hmem
    obtain ⟨original, -, rfl⟩ := List.mem_map.mp hmem
    rfl
  mode := by
    apply List.filter_eq_nil_iff.mpr
    intro listener hmem
    obtain ⟨original, -, rfl⟩ := List.mem_map.mp hmem
    exact Bool.false_ne_true
  auto := by
    apply List.filter_eq_nil_iff.mpr
    intro listener hmem
    obtain ⟨original, -, rfl⟩ := List.mem_map.mp hmem
    exact Bool.false_ne_true
  events := List.nodup_nil
  failures := List.forall_mem_nil _
  signals := List.forall_mem_nil _
  nodup := List.nodup_nil
  fired := List.forall_mem_nil _
  closed _ _ := ⟨rfl, rfl⟩

theorem Registered.withInstance (h : Registered s) (hstaged : instance_.Staged)
    (hshutdown : instance_.state = .shutdown → s.instance_.state = .shutdown) :
    Registered { s with instance_ } :=
  { h with
    staged := hstaged
    closed := fun hstate => h.closed (hshutdown hstate) }

theorem shutdown_state {x : Instance} (h : x.shutdown.state = .shutdown) :
    x.state = .shutdown := by
  rw [Instance.shutdown] at h
  split at h
  · exact h
  · split at h
    · exact h
    · cases h

theorem activate_state {x : Instance} (h : x.activate.state = .shutdown) :
    x.state = .shutdown := by
  rw [Instance.activate] at h
  split at h
  · exact h
  · cases h

theorem Registered.shutdown (h : Registered s) : Registered s.shutdown :=
  h.withInstance h.staged.shutdown shutdown_state

theorem Registered.isMode (h : Registered s) :
    ∀ listener ∈ s.modeProcessListeners, listener.2.isMode = true := by
  intro listener hmem
  rw [← h.mode] at hmem
  exact (List.mem_filter.mp hmem).2

theorem Registered.isAuto (h : Registered s) :
    ∀ listener ∈ s.autoShutdownListeners, listener.2.isAuto = true := by
  intro listener hmem
  obtain ⟨serial, -, hsignal⟩ := h.signals listener hmem
  rw [hsignal]
  rfl

theorem kind_ne {one other : Kind} (hne : one ≠ other) (h : decide (handler.kind = one) = true) :
    decide (handler.kind = other) = false :=
  decide_eq_false fun hother => hne ((of_decide_eq_true h).symm.trans hother)

/-- The handlers of the mode go, the rest stays. -/
theorem Registered.removeMode (h : Registered s) :
    let process := Emitter.removeEach s.modeProcessListeners s.process
    Emitter.part Handler.isHost process = s.host ∧ Emitter.part Handler.isMode process = [] ∧
      Emitter.part Handler.isAuto process =
        s.autoShutdownListeners.filter fun listener => listener.2 ∉ s.fired := by
  refine ⟨?_, ?_, ?_⟩
  · rw [Emitter.part_removeEach_of_not fun listener hmem =>
      kind_ne Kind.noConfusion (h.isMode listener hmem), h.host]
  · rw [Emitter.part_removeEach h.isMode, h.mode]
    exact Emitter.removeEach_eq_nil h.events.of_map (List.Subset.refl _)
  · rw [Emitter.part_removeEach_of_not fun listener hmem =>
      kind_ne Kind.noConfusion (h.isMode listener hmem), h.auto]

theorem Registered.unregister (h : Registered s) : Registered s.unregisterProcessHandlers :=
  { h with
    host := h.removeMode.1
    mode := h.removeMode.2.1
    auto := h.removeMode.2.2
    events := List.nodup_nil
    failures := List.forall_mem_nil _
    closed := fun hstate hlate => ⟨rfl, (h.closed hstate hlate).2⟩ }

theorem lateRegistration_ne (hstate : s.instance_.state = .shutdown) :
    s.lateRegistration ≠ 0 := by
  intro hlate
  rw [State.lateRegistration, if_pos hstate] at hlate
  exact absurd hlate (Nat.succ_ne_zero _)

theorem modeListeners_spec (serverless : Bool) (serial rejections exceptions : Nat) :
    let added := modeListeners serverless serial rejections exceptions
    Emitter.part Handler.isHost added = [] ∧ Emitter.part Handler.isMode added = added ∧
      Emitter.part Handler.isAuto added = [] ∧ (added.map (·.1)).Nodup ∧
      ∀ listener ∈ added, listener.2.captures = listener.1.isFailure := by
  cases serverless with
  | false =>
      refine ⟨rfl, rfl, rfl, ?_, ?_⟩
      · show [ProcessEvent.unhandledRejection, .uncaughtException, .beforeExit].Nodup
        decide
      · exact List.forall_mem_cons.mpr ⟨rfl, List.forall_mem_cons.mpr
          ⟨rfl, List.forall_mem_singleton.mpr rfl⟩⟩
  | true => exact ⟨rfl, rfl, rfl, List.nodup_singleton _, List.forall_mem_singleton.mpr rfl⟩

theorem Registered.register (h : Registered s) :
    Registered (s.registerProcessHandlers serverless) := by
  have hun := h.unregister
  obtain ⟨hhost, hmode, hauto, hevents, hfailures⟩ :=
    modeListeners_spec serverless s.unregisterProcessHandlers.serial
      (listenerCount s.unregisterProcessHandlers.process .unhandledRejection)
      (listenerCount s.unregisterProcessHandlers.process .uncaughtException)
  refine
    { staged := hun.staged
      host := ?_
      mode := ?_
      auto := ?_
      events := hevents
      failures := hfailures
      signals := ?_
      nodup := hun.nodup
      fired := fun handler hmem => (hun.fired handler hmem).mono (Nat.le_succ _)
      closed := fun hstate hlate => absurd hlate (lateRegistration_ne hstate) }
  · exact (Emitter.part_append.trans (by rw [hhost, List.append_nil])).trans hun.host
  · exact Emitter.part_append.trans (by rw [hmode, hun.mode, State.registerProcessHandlers])
  · exact (Emitter.part_append.trans (by rw [hauto, List.append_nil])).trans hun.auto
  · intro listener hmem
    obtain ⟨serial, hserial, heq⟩ := hun.signals listener hmem
    exact ⟨serial, Nat.lt_succ_of_lt hserial, heq⟩

/-- What is registered now was not called before. -/
theorem Registered.notMem_fired (h : Registered s) (event : ProcessEvent) :
    .signal s.serial event ∉ s.fired :=
  fun hmem => Nat.lt_irrefl _ (h.fired _ hmem)

theorem Registered.enableAutoShutdown (h : Registered s) :
    Registered (s.enableAutoShutdown serverless) := by
  rw [State.enableAutoShutdown]
  split
  · exact h
  · have hnew : ∀ listener ∈ signalListeners s.serial,
        listener.2 = .signal s.serial listener.1 := by
      simp [signalListeners]
    refine
      { staged := h.staged
        host := ?_
        mode := ?_
        auto := ?_
        events := h.events
        failures := h.failures
        signals := ?_
        nodup := ?_
        fired := fun handler hmem => (h.fired handler hmem).mono (Nat.le_succ _)
        closed := fun hstate hlate => absurd hlate (lateRegistration_ne hstate) }
    · exact (Emitter.part_append.trans (List.append_nil _)).trans h.host
    · exact (Emitter.part_append.trans (List.append_nil _)).trans h.mode
    · refine Emitter.part_append.trans ?_
      rw [h.auto, List.filter_append]
      congr 1
      apply (List.filter_eq_self.mpr _).symm
      intro listener hmem
      rw [hnew listener hmem]
      exact decide_eq_true (h.notMem_fired _)
    · intro listener hmem
      cases List.mem_append.mp hmem with
      | inl hold =>
          obtain ⟨serial, hserial, heq⟩ := h.signals listener hold
          exact ⟨serial, Nat.lt_succ_of_lt hserial, heq⟩
      | inr hadded => exact ⟨s.serial, Nat.lt_succ_self _, hnew listener hadded⟩
    · apply List.nodup_append.mpr ⟨h.nodup, by simp [signalListeners], ?_⟩
      intro old hold new hmem heq
      obtain ⟨serial, hserial, hsignal⟩ := h.signals old hold
      rw [heq, hnew new hmem] at hsignal
      injection hsignal with hsame
      exact Nat.lt_irrefl _ (hsame ▸ hserial)

theorem Registered.activate {processHandlers throws : Bool} (h : Registered s) :
    Registered (s.activate serverless processHandlers throws) := by
  rw [State.activate]
  split
  · exact h
  · have hregistered : Registered
        (if processHandlers then s.registerProcessHandlers serverless else s) := by
      split
      · exact h.register
      · exact h
    dsimp only
    split
    · exact hregistered
    · exact hregistered.withInstance hregistered.staged.activate activate_state

theorem Registered.finish (h : Registered s) (hstaged : instance_.Staged) :
    Registered (s.finish instance_) := by
  obtain ⟨hhost, hmode, hauto⟩ := h.removeMode
  refine
    { staged := hstaged
      host := ?_
      mode := ?_
      auto := ?_
      events := List.nodup_nil
      failures := List.forall_mem_nil _
      signals := List.forall_mem_nil _
      nodup := List.nodup_nil
      fired := h.fired
      closed := fun _ _ => ⟨rfl, rfl⟩ }
  · show Emitter.part _ (Emitter.removeEach (_ ++ _) _) = _
    rw [Emitter.removeEach_append, Emitter.part_removeEach_of_not fun listener hmem =>
      kind_ne Kind.noConfusion (h.isAuto listener hmem), hhost]
    rfl
  · show Emitter.part _ (Emitter.removeEach (_ ++ _) _) = _
    rw [Emitter.removeEach_append, Emitter.part_removeEach_of_not fun listener hmem =>
      kind_ne Kind.noConfusion (h.isAuto listener hmem), hmode]
    rfl
  · show Emitter.part _ (Emitter.removeEach (_ ++ _) _) = _
    rw [Emitter.removeEach_append, Emitter.part_removeEach h.isAuto, hauto]
    exact Emitter.removeEach_eq_nil (h.nodup.filter _) (List.filter_subset_self _)

/-- A handler that was added with `once` goes when it is called. -/
theorem Registered.fire {serial : Nat} (h : Registered s) (hbefore : serial < s.serial) :
    Registered { s with
      process := Emitter.removeLast s.process event (.signal serial event)
      fired := .signal serial event :: s.fired } := by
  refine
    { staged := h.staged
      host := (Emitter.part_removeLast_of_not rfl).trans h.host
      mode := (Emitter.part_removeLast_of_not rfl).trans h.mode
      auto := ?_
      events := h.events
      failures := h.failures
      signals := h.signals
      nodup := h.nodup
      fired := List.forall_mem_cons.mpr ⟨hbefore, h.fired⟩
      closed := h.closed }
  refine (Emitter.part_removeLast rfl).trans ?_
  rw [h.auto, Emitter.removeLast_eq_filter (h.nodup.filter _), List.filter_filter]
  apply List.filter_congr
  intro listener hmem
  have hsame : listener = (event, .signal serial event) ↔ listener.2 = .signal serial event := by
    constructor
    · intro heq
      rw [heq]
    · intro heq
      obtain ⟨own, -, hsignal⟩ := h.signals listener hmem
      injection hsignal.symm.trans heq with _ hevent
      exact Prod.ext hevent heq
  rw [Bool.eq_iff_iff, Bool.and_eq_true, bne_iff_ne, decide_eq_true_iff, decide_eq_true_iff,
    List.mem_cons, not_or, Ne, hsame]

theorem Registered.addHost {n : Nat} (h : Registered s) :
    Registered { s with
      process := Emitter.add s.process event (.host n)
      host := Emitter.add s.host event (.host n) } :=
  { h with
    host := (Emitter.part_add rfl).trans (congrArg (Emitter.add · event (.host n)) h.host)
    mode := (Emitter.part_add_of_not rfl).trans h.mode
    auto := (Emitter.part_add_of_not rfl).trans h.auto }

theorem Registered.removeHost {n : Nat} (h : Registered s) :
    Registered { s with
      process := Emitter.removeLast s.process event (.host n)
      host := Emitter.removeLast s.host event (.host n) } :=
  { h with
    host := (Emitter.part_removeLast rfl).trans
      (congrArg (Emitter.removeLast · event (.host n)) h.host)
    mode := (Emitter.part_removeLast_of_not rfl).trans h.mode
    auto := (Emitter.part_removeLast_of_not rfl).trans h.auto }

/-! ## Emissions -/

/-- The captures that are still to come of the emissions under way. -/
def pendingCaptures (emissions : List (List Handler)) : Nat :=
  emissions.flatten.countP Handler.captures

theorem pendingCaptures_cons (emission : List Handler) (emissions : List (List Handler)) :
    pendingCaptures (emission :: emissions) =
      emission.countP Handler.captures + pendingCaptures emissions := by
  rw [pendingCaptures, List.flatten_cons, List.countP_append, pendingCaptures]

/-- A handler that an emission calls was registered before. -/
theorem Registered.before (h : Registered s) {listener : ProcessEvent × Handler}
    (hmem : listener ∈ s.process) : listener.2.Before s.serial := by
  cases hhandler : listener.2 with
  | signal serial event =>
      have hauto : listener ∈ Emitter.part Handler.isAuto s.process :=
        List.mem_filter.mpr ⟨hmem, by rw [hhandler]; rfl⟩
      rw [h.auto] at hauto
      obtain ⟨own, hown, hsignal⟩ := h.signals listener (List.mem_filter.mp hauto).1
      injection hhandler.symm.trans hsignal with hserial
      exact hserial ▸ hown
  | unhandledRejection serial preExisting => trivial
  | uncaughtException serial preExisting => trivial
  | beforeExit serial => trivial
  | host n => trivial

theorem isMode_of_captures (h : handler.captures = true) : handler.isMode = true := by
  cases handler with
  | unhandledRejection serial preExisting => rfl
  | uncaughtException serial preExisting => rfl
  | beforeExit serial => rfl
  | signal serial event => cases h
  | host n => cases h

/-- An emission calls at most one handler that captures, and none unless a failure is emitted. -/
theorem Registered.captures_le (h : Registered s) (event : ProcessEvent) :
    ((s.process.filter fun listener => listener.1 = event).map (·.2)).countP Handler.captures ≤
      if event.isFailure then 1 else 0 := by
  have hmode : ((s.process.filter fun listener => listener.1 = event).map (·.2)).countP
      Handler.captures =
      s.modeProcessListeners.countP fun listener =>
        listener.2.captures && decide (listener.1 = event) := by
    rw [List.countP_map, List.countP_filter, ← h.mode, Emitter.part, List.countP_filter]
    apply List.countP_congr
    intro listener _
    simp only [Function.comp_apply, Bool.and_eq_true]
    exact ⟨fun hboth => ⟨hboth, isMode_of_captures hboth.1⟩, fun hall => hall.1⟩
  rw [hmode]
  split
  · calc
      _ ≤ s.modeProcessListeners.countP fun listener => listener.1 == event :=
          List.countP_mono_left fun listener _ hboth => by
            rw [Bool.and_eq_true] at hboth
            exact beq_iff_eq.mpr (of_decide_eq_true hboth.2)
      _ = (s.modeProcessListeners.map (·.1)).count event := by
          rw [List.count, List.countP_map]
          rfl
      _ ≤ 1 := List.nodup_iff_count_le_one.mp h.events event
  · next hother =>
      apply Nat.le_of_eq
      apply List.countP_eq_zero.mpr
      intro listener hmem hboth
      rw [Bool.and_eq_true] at hboth
      rw [h.failures listener hmem, of_decide_eq_true hboth.2] at hboth
      exact hother hboth.1

/-- Where the instance finds no other listener for an uncaught exception, the host has none. -/
theorem Registered.host_alone {serial preExisting : Nat} (h : Registered s)
    (halone : (s.process.countP fun listener =>
      listener.1 = .uncaughtException ∧ listener.2 ≠ .uncaughtException serial preExisting) = 0) :
    listenerCount s.host .uncaughtException = 0 := by
  rw [listenerCount, ← h.host, Emitter.part, List.countP_filter]
  apply List.countP_eq_zero.mpr
  intro listener hmem hboth
  rw [Bool.and_eq_true] at hboth
  refine List.countP_eq_zero.mp halone listener hmem (decide_eq_true ?_)
  refine ⟨of_decide_eq_true hboth.1, fun hsame => ?_⟩
  rw [hsame] at hboth
  cases hboth.2

/-- The emissions, and what their calls have led to. -/
structure Delivered (s : State) : Prop where
  emissions : ∀ emission ∈ s.emissions, ∀ handler ∈ emission, handler.Before s.serial
  captured : s.captured + pendingCaptures s.emissions ≤ s.failures
  received : s.received.Perm (s.waiting ++ s.sentAgain)
  sentAgain : s.sentAgain ≠ [] → s.instance_.state = .shutdown
  fatalExits : ∀ n ∈ s.fatalExits, n = 0
  exited : s.exited = true → s.fatalExits ≠ []

theorem delivered_initial (host : List (ProcessEvent × Nat)) : Delivered (.initial host) where
  emissions := List.forall_mem_nil _
  captured := Nat.le_refl _
  received := List.Perm.refl _
  sentAgain h := absurd rfl h
  fatalExits := List.forall_mem_nil _
  exited h := by cases h

/-- The parts that only a delivery changes. -/
def State.deliveries (s : State) :
    List (List Handler) × Nat × Nat × List ProcessEvent × List ProcessEvent × List ProcessEvent ×
      List Nat × Bool :=
  (s.emissions, s.captured, s.failures, s.received, s.waiting, s.sentAgain, s.fatalExits, s.exited)

/-- What registers and unregisters, or moves the instance on, delivers nothing. -/
theorem Delivered.frame (h : Delivered s) (hserial : s.serial ≤ t.serial)
    (hlater : s.instance_.Later t.instance_) (hsame : t.deliveries = s.deliveries) :
    Delivered t := by
  simp only [State.deliveries, Prod.mk.injEq] at hsame
  obtain ⟨hemissions, hcaptured, hfailures, hreceived, hwaiting, hagain, hfatal, hexited⟩ := hsame
  refine ⟨?_, ?_, ?_, ?_, ?_, ?_⟩
  · rw [hemissions]
    exact fun emission hmem handler hhandler =>
      (h.emissions emission hmem handler hhandler).mono hserial
  · rw [hcaptured, hemissions, hfailures]
    exact h.captured
  · rw [hreceived, hwaiting, hagain]
    exact h.received
  · rw [hagain]
    exact fun hne => hlater.shutdown (h.sentAgain hne)
  · rw [hfatal]
    exact h.fatalExits
  · rw [hexited, hfatal]
    exact h.exited

theorem Delivered.emit (h : Delivered s) (hregistered : Registered s) : Delivered (s.emit event) :=
  { h with
    emissions := List.forall_mem_cons.mpr ⟨fun handler hmem => by
      obtain ⟨listener, hlistener, rfl⟩ := List.mem_map.mp hmem
      exact hregistered.before (List.mem_filter.mp hlistener).1, h.emissions⟩
    captured := by
      have hnew := hregistered.captures_le event
      have hold := h.captured
      show s.captured + pendingCaptures (_ :: s.emissions) ≤
        if event.isFailure then s.failures + 1 else s.failures
      rw [pendingCaptures_cons]
      split at hnew
      · next hfailure =>
          rw [if_pos hfailure]
          omega
      · next hother =>
          rw [if_neg hother]
          omega }

/-- Handing a handler over leaves its capture to come. -/
theorem Delivered.handed {rest : List Handler} {outer : List (List Handler)} (h : Delivered s)
    (hemissions : s.emissions = (handler :: rest) :: outer) :
    handler.Before s.serial ∧ Delivered { s with emissions := rest :: outer } ∧
      (handler.captures = true → s.captured + 1 + pendingCaptures (rest :: outer) ≤ s.failures) := by
  have hold := h.emissions
  have hcaptured := h.captured
  rw [hemissions] at hold hcaptured
  obtain ⟨hfirst, houter⟩ := List.forall_mem_cons.mp hold
  obtain ⟨hbefore, hrest⟩ := List.forall_mem_cons.mp hfirst
  rw [pendingCaptures_cons, List.countP_cons] at hcaptured
  have hpending : s.captured + pendingCaptures (rest :: outer) ≤ s.failures := by
    rw [pendingCaptures_cons]
    omega
  refine ⟨hbefore, ?_, fun hcaptures => ?_⟩
  · exact { h with
      emissions := List.forall_mem_cons.mpr ⟨hrest, houter⟩
      captured := hpending }
  · rw [if_pos hcaptures] at hcaptured
    rw [pendingCaptures_cons]
    omega

/-- What the instance keeps and what it delivers. -/
structure Accounted (s : State) : Prop extends Registered s, Delivered s

/-- A call of the handler that an emission hands over. -/
theorem Accounted.call {rest : List Handler} {outer : List (List Handler)} (h : Accounted s)
    (hemissions : s.emissions = (handler :: rest) :: outer) :
    Accounted (State.call { s with emissions := rest :: outer } handler) := by
  obtain ⟨hbefore, hdelivered, hcaptured⟩ := h.toDelivered.handed hemissions
  have hregistered : Registered { s with emissions := rest :: outer } := { h.toRegistered with }
  cases handler with
  | host n => exact ⟨hregistered, hdelivered⟩
  | beforeExit serial =>
      exact ⟨hregistered.shutdown,
        hdelivered.frame (Nat.le_refl _) Instance.later_shutdown rfl⟩
  | unhandledRejection serial preExisting =>
      exact ⟨{ hregistered with }, { hdelivered with captured := hcaptured rfl }⟩
  | uncaughtException serial preExisting =>
      rw [State.call]
      split
      · exact ⟨hregistered, hdelivered⟩
      · dsimp only
        split
        · exact ⟨{ hregistered with }, { hdelivered with captured := hcaptured rfl }⟩
        · next halone =>
            rw [not_or, Nat.not_lt, Nat.not_lt, Nat.le_zero, Nat.le_zero] at halone
            have hnone := hregistered.host_alone halone.2
            refine ⟨{ hregistered.shutdown with }, ?_⟩
            exact
              { hdelivered with
                captured := hcaptured rfl
                sentAgain := fun hne =>
                  Instance.later_shutdown.shutdown (hdelivered.sentAgain hne)
                fatalExits := List.forall_mem_cons.mpr ⟨hnone, hdelivered.fatalExits⟩
                exited := fun _ => List.cons_ne_nil _ _ }
  | signal serial event =>
      rw [State.call]
      split
      · exact ⟨hregistered, hdelivered⟩
      · refine ⟨{ (hregistered.fire hbefore).shutdown with }, ?_⟩
        exact
          { hdelivered with
            received := hdelivered.received.cons event
            sentAgain := fun hne =>
              Instance.later_shutdown.shutdown (hdelivered.sentAgain hne) }

/-! ## Runs -/

theorem registerProcessHandlers_deliveries :
    s.serial ≤ (s.registerProcessHandlers serverless).serial ∧
      s.instance_.Later (s.registerProcessHandlers serverless).instance_ ∧
      (s.registerProcessHandlers serverless).deliveries = s.deliveries :=
  ⟨Nat.le_succ _, .refl, rfl⟩

theorem activate_deliveries {processHandlers throws : Bool} :
    s.serial ≤ (s.activate serverless processHandlers throws).serial ∧
      s.instance_.Later (s.activate serverless processHandlers throws).instance_ ∧
      (s.activate serverless processHandlers throws).deliveries = s.deliveries := by
  rw [State.activate]
  split
  · exact ⟨Nat.le_refl _, .refl, rfl⟩
  · cases processHandlers with
    | false =>
        cases throws with
        | false => exact ⟨Nat.le_refl _, Instance.later_activate, rfl⟩
        | true => exact ⟨Nat.le_refl _, .refl, rfl⟩
    | true =>
        cases throws with
        | false => exact ⟨Nat.le_succ _, Instance.later_activate, rfl⟩
        | true => exact registerProcessHandlers_deliveries

theorem enableAutoShutdown_deliveries :
    s.serial ≤ (s.enableAutoShutdown serverless).serial ∧
      s.instance_.Later (s.enableAutoShutdown serverless).instance_ ∧
      (s.enableAutoShutdown serverless).deliveries = s.deliveries := by
  rw [State.enableAutoShutdown]
  split
  · exact ⟨Nat.le_refl _, .refl, rfl⟩
  · exact ⟨Nat.le_succ _, .refl, rfl⟩

theorem Accounted.frame (h : Accounted s) (hregistered : Registered t)
    (hunchanged : s.serial ≤ t.serial ∧ s.instance_.Later t.instance_ ∧
      t.deliveries = s.deliveries) : Accounted t :=
  ⟨hregistered, h.toDelivered.frame hunchanged.1 hunchanged.2.1 hunchanged.2.2⟩

/-- A stretch of the shutdown, of which the last one takes the instance's listeners away. -/
theorem Accounted.advance {throws transport : Bool} (h : Accounted s)
    (hadvance : s.instance_.advance throws transport = some instance_) :
    Accounted (if instance_.state = .shutdown then s.finish instance_ else { s with instance_ }) := by
  have hstaged := h.staged.advance hadvance
  have hlater := h.staged.later_advance hadvance
  split
  · exact h.frame (h.toRegistered.finish hstaged) ⟨Nat.le_refl _, hlater, rfl⟩
  · next hopen =>
      exact h.frame (h.toRegistered.withInstance hstaged fun hstate => absurd hstate hopen)
        ⟨Nat.le_refl _, hlater, rfl⟩

/-- Every step keeps the accounts. -/
theorem Accounted.step {a : Action} (h : Accounted s) (hstep : step serverless s a = some t) :
    Accounted t := by
  rw [step.eq_def] at hstep
  split at hstep
  · cases hstep
  · cases a with
    | activate processHandlers throws =>
        rw [← Option.some.inj hstep]
        exact h.frame h.toRegistered.activate activate_deliveries
    | enableAutoShutdown =>
        rw [← Option.some.inj hstep]
        exact h.frame h.toRegistered.enableAutoShutdown enableAutoShutdown_deliveries
    | setProcessHandlersEnabled enabled =>
        rw [← Option.some.inj hstep]
        split
        · exact h.frame h.toRegistered.register registerProcessHandlers_deliveries
        · exact h.frame h.toRegistered.unregister ⟨Nat.le_refl _, .refl, rfl⟩
    | shutdown =>
        rw [← Option.some.inj hstep]
        exact h.frame h.toRegistered.shutdown ⟨Nat.le_refl _, Instance.later_shutdown, rfl⟩
    | advance throws transport =>
        dsimp only at hstep
        split at hstep
        · cases hstep
        · obtain ⟨instance_, hadvance, rfl⟩ := Option.map_eq_some_iff.mp hstep
          exact h.advance hadvance
    | emit event =>
        rw [← Option.some.inj hstep]
        exact ⟨{ h.toRegistered with }, h.toDelivered.emit h.toRegistered⟩
    | deliver =>
        dsimp only at hstep
        split at hstep
        · cases hstep
        · next outer hemissions =>
            rw [← Option.some.inj hstep]
            have hcaptured := h.captured
            have hbefore := h.emissions
            rw [hemissions] at hcaptured hbefore
            exact ⟨{ h.toRegistered with },
              { h.toDelivered with
                emissions := (List.forall_mem_cons.mp hbefore).2
                captured := hcaptured }⟩
        · next handler rest outer hemissions =>
            rw [← Option.some.inj hstep]
            exact h.call hemissions
    | sendAgain event =>
        dsimp only at hstep
        split at hstep
        · next hwaits =>
            rw [← Option.some.inj hstep]
            refine ⟨{ h.toRegistered with }, ?_⟩
            exact
              { h.toDelivered with
                received := h.received.trans
                  (((List.perm_cons_erase hwaits.2.2).append_right _).trans
                    List.perm_middle.symm)
                sentAgain := fun _ => hwaits.2.1 }
        · cases hstep
    | exit timer =>
        dsimp only at hstep
        split at hstep
        · next hexits =>
            rw [← Option.some.inj hstep]
            exact ⟨{ h.toRegistered with }, { h.toDelivered with exited := fun _ => hexits.2.1 }⟩
        · cases hstep
    | addHost event n =>
        rw [← Option.some.inj hstep]
        exact h.frame h.toRegistered.addHost ⟨Nat.le_refl _, .refl, rfl⟩
    | removeHost event n =>
        rw [← Option.some.inj hstep]
        exact h.frame h.toRegistered.removeHost ⟨Nat.le_refl _, .refl, rfl⟩

theorem accounted_preserved (serverless : Bool) :
    (system serverless).Preserved (fun _ _ => True) Accounted where
  init s hs := by
    obtain ⟨host, rfl⟩ := hs
    exact ⟨registered_initial host, delivered_initial host⟩
  step _ _ _ hI _ hstep := hI.step hstep

/-- Once the records are empty, only the host listens. -/
theorem Registered.process_eq (h : Registered s) (hmode : s.modeProcessListeners = [])
    (hauto : s.autoShutdownListeners = []) : s.process = s.host := by
  rw [← h.host]
  apply (List.filter_eq_self.mpr _).symm
  intro listener hmem
  cases hkind : listener.2.kind with
  | host => exact decide_eq_true hkind
  | mode =>
      have hown : listener ∈ Emitter.part Handler.isMode s.process :=
        List.mem_filter.mpr ⟨hmem, decide_eq_true hkind⟩
      rw [h.mode, hmode] at hown
      cases hown
  | auto =>
      have hown : listener ∈ Emitter.part Handler.isAuto s.process :=
        List.mem_filter.mpr ⟨hmem, decide_eq_true hkind⟩
      rw [h.auto, hauto] at hown
      cases hown

/-- In every run the process holds the host's listeners as the host left them and the instance's as
it has recorded them, at most one to an event from the mode, and only the host's after the shutdown
if nothing was registered late. A failure is captured once at most to an emission; the signals
received are those that wait for the shutdown and those sent again behind it, each as often; and the
process is ended only after an uncaught exception for which the host had no listener. -/
theorem listeners_accounted (serverless : Bool) (host : List (ProcessEvent × Nat))
    (run : List Action) : (system serverless).Always
    (fun s => Emitter.part Handler.isHost s.process = s.host ∧
      Emitter.part Handler.isMode s.process = s.modeProcessListeners ∧
      (s.modeProcessListeners.map (·.1)).Nodup ∧
      (Emitter.part Handler.isAuto s.process =
        s.autoShutdownListeners.filter fun listener => listener.2 ∉ s.fired) ∧
      (s.instance_.state = .shutdown → s.late = 0 → s.process = s.host) ∧
      s.captured ≤ s.failures ∧
      s.received.Perm (s.waiting ++ s.sentAgain) ∧
      (s.sentAgain ≠ [] → s.instance_.state = .shutdown) ∧
      (∀ n ∈ s.fatalExits, n = 0) ∧ (s.exited = true → s.fatalExits ≠ []))
    (.initial host) run := by
  have hall : (system serverless).Always Accounted (.initial host) run :=
    (accounted_preserved serverless).always
      ((accounted_preserved serverless).init _ ⟨host, rfl⟩) Transition.System.guarded_true
  apply hall.mono
  intro s h
  refine ⟨h.host, h.mode, h.events, h.auto, ?_, Nat.le_trans (Nat.le_add_right _ _) h.captured,
    h.received, h.sentAgain, h.fatalExits, h.exited⟩
  intro hstate hlate
  obtain ⟨hmode, hauto⟩ := h.closed hstate hlate
  exact h.process_eq hmode hauto

end ErrorCore.Sdk.ProcessListeners
