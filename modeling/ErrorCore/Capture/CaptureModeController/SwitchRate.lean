import ErrorCore.Capture.CaptureModeController.Invariant

/-!
# The rate of adaptive switches

An adaptive switch is stamped with the time at which its transition started. Once
`maxSwitchesPerHour` stamps lie within an hour, the controller is pinned, and an
escalation is still applied. A manual call lifts the pin and keeps the stamps, so
the next escalation is applied as well: each call that lifts a pin allows one
switch more.

In a window of an hour the switches that do not pin are at most
`maxSwitchesPerHour`, since the last of them found the others among its stamps.
Those that pin are at most one more than the calls that lift a pin.
-/

namespace ErrorCore.CaptureModeController

open PromiseChain Transition.System

/-! ## Counting -/

section Events

variable (p : Int → Bool)

def Event.isSwitch : Event → Bool
  | .switched at_ _ => p at_
  | _ => false

def Event.isPinning : Event → Bool
  | .switched at_ pinning => pinning && p at_
  | _ => false

def Event.isUnpin : Event → Bool
  | .unpinned at_ => p at_
  | _ => false

end Events

/-- The window of an hour from this time on. -/
def inHour (begin_ at_ : Int) : Bool := begin_ ≤ at_ && at_ < begin_ + State.hourMs

def since (begin_ at_ : Int) : Bool := begin_ ≤ at_

def withinLastHour (now at_ : Int) : Bool := now - at_ < State.hourMs

def switchesIn (begin_ : Int) (history : List Event) : Nat :=
  history.countP (Event.isSwitch (inHour begin_))

def unpinsIn (begin_ : Int) (history : List Event) : Nat :=
  history.countP (Event.isUnpin (inHour begin_))

def pinningsIn (begin_ : Int) (history : List Event) : Nat :=
  history.countP (Event.isPinning (inHour begin_))

/-- No window of an hour has more adaptive switches than the limit and the pinning one. -/
def SwitchRateCapped (cfg : Config) (s : State) : Prop :=
  ∀ begin_, (switchesIn begin_ s.history : Int) ≤ cfg.adaptiveCapture.maxSwitchesPerHour + 1

/-- No window of an hour has more adaptive switches than the limit, the pinning one and one for
each manual call in the window that lifted a pin. -/
def SwitchRateLimited (cfg : Config) (s : State) : Prop :=
  ∀ begin_, (switchesIn begin_ s.history : Int) ≤
    cfg.adaptiveCapture.maxSwitchesPerHour + 1 + unpinsIn begin_ s.history

/-- The clock does not go back. -/
def ClockAdvances (s : State) : Action → Prop
  | .clock now => s.clock ≤ now
  | _ => True

instance (s : State) (a : Action) : Decidable (ClockAdvances s a) := by
  unfold ClockAdvances
  split <;> infer_instance

variable {cfg : Config} {s t u v : State} {a : Action} {k : Nat} {job : ModeTransition}
variable {progress : Progress} {before : Snapshot} {run : Switch} {callbacks : List Callback}
variable {mode : CaptureMode} {event : Event} {history : List Event} {now clock : Int}

/-! ## The history -/

/-- No event lies after this time. -/
def Past (now : Int) (history : List Event) : Prop :=
  ∀ event ∈ history, (∀ at_ pinning, event = .switched at_ pinning → at_ ≤ now) ∧
    ∀ at_, event = .unpinned at_ → at_ ≤ now

/-- Since any time there were at most this many pinning switches more than lifted pins. -/
def Balanced (excess : Nat) (history : List Event) : Prop :=
  ∀ begin_, history.countP (Event.isPinning (since begin_)) ≤
    history.countP (Event.isUnpin (since begin_)) + excess

/-- The stamps that still count are those of the switches within the last hour. -/
def Stamped (clock : Int) (timestamps : List Int) (history : List Event) : Prop :=
  ∀ now, clock ≤ now →
    timestamps.countP (withinLastHour now) = history.countP (Event.isSwitch (withinLastHour now))

/-- What holds of the history whether or not a transition runs. -/
structure Rates (cfg : Config) (clock : Int) (timestamps : List Int) (history : List Event) :
    Prop where
  past : Past clock history
  stamped : Stamped clock timestamps history
  limited : ∀ begin_, (switchesIn begin_ history : Int) ≤
    cfg.adaptiveCapture.maxSwitchesPerHour + pinningsIn begin_ history
  lifted : ∀ begin_, pinningsIn begin_ history ≤ unpinsIn begin_ history + 1

theorem Rates.switchRateLimited {timestamps : List Int}
    (h : Rates cfg clock timestamps history) (begin_ : Int) :
    (switchesIn begin_ history : Int) ≤
      cfg.adaptiveCapture.maxSwitchesPerHour + 1 + unpinsIn begin_ history := by
  have hlimited := h.limited begin_
  have hlifted := h.lifted begin_
  omega

theorem Past.mono (h : Past clock history) (hle : clock ≤ now) : Past now history :=
  fun event hevent =>
    ⟨fun at_ pinning heq => Int.le_trans ((h event hevent).1 at_ pinning heq) hle,
      fun at_ heq => Int.le_trans ((h event hevent).2 at_ heq) hle⟩

/-- Events of the mode do not count. -/
def Event.Uncounted : Event → Prop
  | .published _ _ => True
  | .resolved _ _ => True
  | _ => False

theorem Rates.uncounted {timestamps : List Int} (h : Rates cfg clock timestamps history)
    (hevent : event.Uncounted) : Rates cfg clock timestamps (event :: history) := by
  cases event with
  | switched => exact hevent.elim
  | unpinned => exact hevent.elim
  | published =>
      exact ⟨List.forall_mem_cons.mpr ⟨⟨nofun, nofun⟩, h.past⟩, h.stamped, h.limited, h.lifted⟩
  | resolved =>
      exact ⟨List.forall_mem_cons.mpr ⟨⟨nofun, nofun⟩, h.past⟩, h.stamped, h.limited, h.lifted⟩

theorem Balanced.uncounted {excess : Nat} (h : Balanced excess history)
    (hevent : event.Uncounted) : Balanced excess (event :: history) := by
  cases event with
  | switched => exact hevent.elim
  | unpinned => exact hevent.elim
  | published => exact h
  | resolved => exact h

theorem Balanced.mono {excess excess' : Nat} (h : Balanced excess history)
    (hle : excess ≤ excess') : Balanced excess' history :=
  fun begin_ => Nat.le_trans (h begin_) (by omega)

/-- A call that lifts a pin makes up for the switch that pinned. -/
theorem Balanced.unpinned (h : Balanced 1 history) (hpast : Past clock history) :
    Balanced 0 (.unpinned clock :: history) := by
  intro begin_
  by_cases hbegin : begin_ ≤ clock
  · have hcount := h begin_
    simp only [List.countP_cons, Event.isPinning, Event.isUnpin, since, hbegin, decide_true,
      if_true, Bool.false_eq_true, if_false]
    omega
  · -- The window starts after all events.
    have hnone : history.countP (Event.isPinning (since begin_)) = 0 := by
      rw [List.countP_eq_zero]
      intro event hevent hpinning
      cases event with
      | switched at_ pinning =>
          have hle := (hpast _ hevent).1 at_ pinning rfl
          simp only [Event.isPinning, since, Bool.and_eq_true, decide_eq_true_eq] at hpinning
          omega
      | _ => simp [Event.isPinning] at hpinning
    simp only [List.countP_cons, Event.isPinning, Bool.false_eq_true, if_false, hnone]
    omega

theorem Rates.unpinned {timestamps : List Int} (h : Rates cfg clock timestamps history) :
    Rates cfg clock timestamps (.unpinned clock :: history) := by
  refine ⟨?_, h.stamped, h.limited, ?_⟩
  · refine List.forall_mem_cons.mpr ⟨⟨nofun, fun at_ heq => ?_⟩, h.past⟩
    cases heq
    exact Int.le_refl _
  · intro begin_
    have hlifted := h.lifted begin_
    have hmono : unpinsIn begin_ history ≤ unpinsIn begin_ (.unpinned clock :: history) := by
      unfold unpinsIn
      rw [List.countP_cons]
      omega
    have hsame : pinningsIn begin_ (.unpinned clock :: history) = pinningsIn begin_ history := rfl
    omega

/-- Dropping stamps that are older than an hour changes no later count. -/
theorem Rates.prune {timestamps : List Int} (h : Rates cfg clock timestamps history) :
    Rates cfg clock (timestamps.filter fun timestamp => clock - timestamp < State.hourMs)
      history := by
  refine ⟨h.past, fun now hnow => ?_, h.limited, h.lifted⟩
  rw [← h.stamped now hnow, List.countP_filter]
  apply List.countP_congr
  intro timestamp _
  simp only [withinLastHour, Bool.and_eq_true, decide_eq_true_eq]
  constructor
  · exact fun hboth => hboth.1
  · exact fun hrecent => ⟨hrecent, by omega⟩

/-- The pruned stamps are the switches of the last hour. -/
theorem Rates.length_pruned {timestamps : List Int} (h : Rates cfg clock timestamps history) :
    (timestamps.filter fun timestamp => clock - timestamp < State.hourMs).length =
      history.countP (Event.isSwitch (withinLastHour clock)) := by
  rw [← h.stamped clock (Int.le_refl _), List.countP_eq_length_filter]
  rfl

theorem switchesIn_cons (begin_ at_ : Int) (pinning : Bool) :
    switchesIn begin_ (.switched at_ pinning :: history) =
      switchesIn begin_ history + if inHour begin_ at_ then 1 else 0 := by
  unfold switchesIn
  rw [List.countP_cons]
  rfl

theorem pinningsIn_cons (begin_ at_ : Int) (pinning : Bool) :
    pinningsIn begin_ (.switched at_ pinning :: history) =
      pinningsIn begin_ history + if pinning && inHour begin_ at_ then 1 else 0 := by
  unfold pinningsIn
  rw [List.countP_cons]
  rfl

theorem unpinsIn_cons (begin_ at_ : Int) (pinning : Bool) :
    unpinsIn begin_ (.switched at_ pinning :: history) = unpinsIn begin_ history := rfl

/-- The switches of a window that the new one lies in are within the last hour. -/
theorem switchesIn_le_recent {begin_ : Int} (hin : inHour begin_ now = true)
    (history : List Event) :
    switchesIn begin_ history ≤ history.countP (Event.isSwitch (withinLastHour now)) := by
  apply List.countP_mono_left
  intro event _ hswitch
  cases event with
  | switched at_ pinning =>
      simp only [Event.isSwitch, inHour, withinLastHour, Bool.and_eq_true,
        decide_eq_true_eq] at hswitch hin ⊢
      omega
  | _ => simp [Event.isSwitch] at hswitch

/-- In a window that the present lies in, the balance since its start is the balance within it. -/
theorem pinningsIn_le_unpinsIn {begin_ : Int} (hbalanced : Balanced 0 history)
    (hpast : Past now history) (hin : inHour begin_ now = true) :
    pinningsIn begin_ history ≤ unpinsIn begin_ history := by
  have hpinnings : pinningsIn begin_ history ≤
      history.countP (Event.isPinning (since begin_)) := by
    apply List.countP_mono_left
    intro event _ hpinning
    cases event with
    | switched at_ pinning =>
        simp only [Event.isPinning, inHour, since, Bool.and_eq_true,
          decide_eq_true_eq] at hpinning ⊢
        exact ⟨hpinning.1, hpinning.2.1⟩
    | _ => simp [Event.isPinning] at hpinning
  have hunpins : history.countP (Event.isUnpin (since begin_)) ≤ unpinsIn begin_ history := by
    apply List.countP_mono_left
    intro event hevent hunpin
    cases event with
    | unpinned at_ =>
        have hle := (hpast _ hevent).2 at_ rfl
        simp only [Event.isUnpin, inHour, since, Bool.and_eq_true,
          decide_eq_true_eq] at hunpin hin ⊢
        omega
    | _ => simp [Event.isUnpin] at hunpin
  have hcount := hbalanced begin_
  omega

/-- An adaptive switch that started at `now`. -/
theorem Rates.switched {timestamps : List Int} (h : Rates cfg clock timestamps history)
    (pinning : Bool) (hnow : now ≤ clock) (hpast : Past now history)
    (hbalanced : Balanced 0 history)
    (hroom : pinning = false → (history.countP (Event.isSwitch (withinLastHour now)) : Int) <
      cfg.adaptiveCapture.maxSwitchesPerHour) :
    Rates cfg clock (timestamps ++ [now]) (.switched now pinning :: history) := by
  refine ⟨?_, ?_, ?_, ?_⟩
  · refine List.forall_mem_cons.mpr ⟨⟨fun at_ pinning heq => ?_, nofun⟩, h.past⟩
    cases heq
    exact hnow
  · intro later hlater
    rw [List.countP_append, h.stamped later hlater, List.countP_cons, List.countP_cons,
      List.countP_nil, Nat.zero_add]
    rfl
  · intro begin_
    have hlimited := h.limited begin_
    rw [switchesIn_cons, pinningsIn_cons]
    cases hin : inHour begin_ now with
    | false => simpa using hlimited
    | true =>
        cases pinning with
        | true =>
            simp only [Bool.and_self, if_true]
            omega
        | false =>
            have hrecent := switchesIn_le_recent hin history
            have hlt := hroom rfl
            simp only [if_true, Bool.false_and, Bool.false_eq_true, if_false, Nat.add_zero]
            omega
  · intro begin_
    have hlifted := h.lifted begin_
    rw [pinningsIn_cons, unpinsIn_cons]
    cases hin : inHour begin_ now with
    | false => simpa using hlifted
    | true =>
        have hle := pinningsIn_le_unpinsIn hbalanced hpast hin
        split <;> omega

theorem Balanced.switched (h : Balanced 0 history) (now : Int) (pinning : Bool) :
    Balanced (if pinning then 1 else 0) (.switched now pinning :: history) := by
  intro begin_
  have hcount := h begin_
  cases pinning with
  | false => simpa [List.countP_cons, Event.isPinning, Event.isUnpin] using hcount
  | true =>
      simp only [List.countP_cons, Event.isPinning, Event.isUnpin, Bool.true_and, if_true,
        Bool.false_eq_true, if_false]
      split <;> omega

/-! ## The invariant -/

/-- Only a pinned controller has one pinning switch more than lifted pins. -/
def RestRates (s : State) : Prop :=
  Balanced 1 s.history ∧ (s.adaptivePhase ≠ .pinned → Balanced 0 s.history)

/-- An adaptive transition started when all pins were lifted, and without pinning the controller
only when there was room for its switch. -/
structure AdaptiveRates (cfg : Config) (s : State) (now : Int) : Prop where
  balanced : Balanced 0 s.history
  started : now ≤ s.clock
  past : Past now s.history
  room : s.adaptivePhase ≠ .pinned →
    (s.history.countP (Event.isSwitch (withinLastHour now)) : Int) <
      cfg.adaptiveCapture.maxSwitchesPerHour

def SwitchRates (cfg : Config) (s : State) (intent : Intent) (now : Int) : Prop :=
  match intent with
  | .manual _ => RestRates s
  | .adaptive _ _ => AdaptiveRates cfg s now

def RunsRated (cfg : Config) (s : State) (job : ModeTransition) : Prop :=
  match job.progress with
  | .switching run _ => SwitchRates cfg s job.intent run.now
  | .published run _ => SwitchRates cfg s job.intent run.now
  | .rearming _ => RestRates s
  | _ => True

structure RateInv (cfg : Config) (s : State) : Prop where
  inv : Inv cfg s
  rates : Rates cfg s.clock s.adaptiveSwitchTimestamps s.history
  turns : Turns ModeTransition.stage s.transitions (RunsRated cfg s) (RestRates s)

def LeavesRated (cfg : Config) (u : State) (job : ModeTransition) (progress : Progress) : Prop :=
  match progress with
  | .settled _ => RestRates u
  | _ => RunsRated cfg u { job with progress := progress }

/-- What a move has to leave to the history. -/
structure Rated (cfg : Config) (u : State) (job : ModeTransition) (progress : Progress) :
    Prop where
  leaves : LeavesRated cfg u job progress
  rates : Rates cfg u.clock u.adaptiveSwitchTimestamps u.history

theorem SwitchRates.congr {intent : Intent} (h : SwitchRates cfg s intent now)
    (hhistory : t.history = s.history) (hphase : t.adaptivePhase = s.adaptivePhase)
    (hclock : s.clock ≤ t.clock) : SwitchRates cfg t intent now := by
  cases intent with
  | manual =>
      unfold SwitchRates RestRates at h ⊢
      rw [hhistory, hphase]
      exact h
  | adaptive =>
      refine ⟨?_, Int.le_trans h.started hclock, ?_, ?_⟩
      · rw [hhistory]
        exact h.balanced
      · rw [hhistory]
        exact h.past
      · rw [hhistory, hphase]
        exact h.room

theorem SwitchRates.uncounted {intent : Intent} (h : SwitchRates cfg s intent now)
    (hhistory : t.history = event :: s.history) (hevent : event.Uncounted)
    (hphase : t.adaptivePhase = s.adaptivePhase) (hclock : t.clock = s.clock) :
    SwitchRates cfg t intent now := by
  cases intent with
  | manual =>
      unfold SwitchRates RestRates at h ⊢
      rw [hhistory, hphase]
      exact ⟨h.1.uncounted hevent, fun hne => (h.2 hne).uncounted hevent⟩
  | adaptive =>
      refine ⟨?_, ?_, ?_, ?_⟩
      · rw [hhistory]
        exact h.balanced.uncounted hevent
      · rw [hclock]
        exact h.started
      · rw [hhistory]
        cases event with
        | switched => exact hevent.elim
        | unpinned => exact hevent.elim
        | published => exact List.forall_mem_cons.mpr ⟨⟨nofun, nofun⟩, h.past⟩
        | resolved => exact List.forall_mem_cons.mpr ⟨⟨nofun, nofun⟩, h.past⟩
      · rw [hhistory, hphase]
        cases event with
        | switched => exact hevent.elim
        | unpinned => exact hevent.elim
        | published => exact h.room
        | resolved => exact h.room

theorem reconcile_history_of_pinned (henabled : cfg.adaptiveCapture.enabled = true)
    (hphase : s.adaptivePhase = .pinned) :
    (s.reconcileManualAdaptiveState cfg mode).history = .unpinned s.clock :: s.history := by
  unfold State.reconcileManualAdaptiveState
  rw [if_neg (by simp [henabled])]
  simp only [hphase, if_true]
  split <;> rfl

theorem reconcile_history_of_ne_pinned (hphase : s.adaptivePhase ≠ .pinned) :
    (s.reconcileManualAdaptiveState cfg mode).history = s.history := by
  unfold State.reconcileManualAdaptiveState
  split
  · rfl
  · simp only [hphase, if_false]
    split <;> rfl

/-- A manual call lifts the pin and says so. -/
theorem reconcile_rated (hrates : Rates cfg s.clock s.adaptiveSwitchTimestamps s.history)
    (hrest : RestRates s) (hdisabled : cfg.adaptiveCapture.enabled = false →
      s.adaptivePhase = .inactive) :
    RestRates (s.reconcileManualAdaptiveState cfg mode) ∧
      Rates cfg (s.reconcileManualAdaptiveState cfg mode).clock
        (s.reconcileManualAdaptiveState cfg mode).adaptiveSwitchTimestamps
        (s.reconcileManualAdaptiveState cfg mode).history := by
  have hclock : (s.reconcileManualAdaptiveState cfg mode).clock = s.clock :=
    reconcile_keepsQueue.clock
  rw [reconcile_timestamps, hclock]
  by_cases hphase : s.adaptivePhase = .pinned
  · have henabled : cfg.adaptiveCapture.enabled = true := by
      cases henabled : cfg.adaptiveCapture.enabled with
      | true => rfl
      | false => simp [hdisabled henabled] at hphase
    have hbalanced := hrest.1.unpinned hrates.past
    unfold RestRates
    rw [reconcile_history_of_pinned henabled hphase]
    exact ⟨⟨hbalanced.mono (by omega), fun _ => hbalanced⟩, hrates.unpinned⟩
  · have hbalanced := hrest.2 hphase
    unfold RestRates
    rw [reconcile_history_of_ne_pinned hphase]
    exact ⟨⟨hbalanced.mono (by omega), fun _ => hbalanced⟩, hrates⟩

theorem Recorders.rated (recorders : Recorders s job run callbacks v progress)
    (hrates : Rates cfg s.clock s.adaptiveSwitchTimestamps s.history)
    (hswitch : SwitchRates cfg s job.intent run.now) : Rated cfg v job progress := by
  cases recorders with
  | switching => exact ⟨hswitch, hrates⟩
  | published =>
      exact ⟨hswitch.uncounted rfl trivial rfl rfl, hrates.uncounted trivial⟩

theorem Finishes.rated (finishes : Finishes cfg s job now before v progress)
    (hrates : Rates cfg s.clock s.adaptiveSwitchTimestamps s.history) (hfields : Fields cfg s)
    (hswitch : SwitchRates cfg s job.intent now)
    (phase : PhaseDuring cfg s.adaptivePhase job.intent before) : Rated cfg v job progress := by
  cases finishes with
  | rearmManual intent rearms =>
      rw [intent] at hswitch
      obtain ⟨hrest, hrates'⟩ := reconcile_rated hrates hswitch hfields.disabled
      exact ⟨hrest, hrates'⟩
  | manual intent =>
      rw [intent] at hswitch
      obtain ⟨hrest, hrates'⟩ := reconcile_rated hrates hswitch hfields.disabled
      exact ⟨⟨hrest.1.uncounted trivial, fun hne => (hrest.2 hne).uncounted trivial⟩,
        hrates'.uncounted trivial⟩
  | escalated intent =>
      rw [intent] at hswitch
      have hrated := hrates.switched (decide (s.adaptivePhase = .pinned)) hswitch.started
        hswitch.past hswitch.balanced (fun hne => hswitch.room (by simpa using hne))
      have hbalanced : Balanced (if s.adaptivePhase = .pinned then 1 else 0)
          (.switched now (s.adaptivePhase = .pinned) :: s.history) := by
        simpa using hswitch.balanced.switched now
          (decide (s.adaptivePhase = .pinned))
      refine ⟨⟨hbalanced.mono (by split <;> omega), fun hne => ?_⟩, hrated⟩
      have hphase : s.adaptivePhase ≠ .pinned := by
        intro heq
        apply hne
        show s.escalatedPhase = .pinned
        rw [State.escalatedPhase, if_pos heq]
      rw [if_neg hphase] at hbalanced
      exact hbalanced
  | @deescalated target generation intent target_ne =>
      have hphase : s.adaptivePhase ≠ .pinned := by
        rw [intent] at phase
        rcases phase.2 with ⟨heq, _⟩ | ⟨_, _, _, _, heq⟩
        · exact absurd heq target_ne
        · simp [heq]
      rw [intent] at hswitch
      have hrated := hrates.switched (decide (s.adaptivePhase = .pinned)) hswitch.started
        hswitch.past hswitch.balanced (fun _ => hswitch.room hphase)
      have hbalanced : Balanced 0 (.switched now (s.adaptivePhase = .pinned) :: s.history) := by
        simpa [hphase] using hswitch.balanced.switched now
          (decide (s.adaptivePhase = .pinned))
      exact ⟨⟨hbalanced.mono (by omega), fun _ => hbalanced⟩, hrated⟩

/-- A transition that starts finds room for its switch, or the controller pinned by itself. -/
theorem Begins.rated (begins : Begins cfg s job u) (h : RateInv cfg s) (hrest : RestRates s) :
    SwitchRates cfg u job.intent u.clock ∧
      Rates cfg u.clock u.adaptiveSwitchTimestamps u.history := by
  cases begins with
  | manual intent =>
      rw [intent]
      exact ⟨hrest, h.rates⟩
  | @adaptive target generation intent generation_eq active current rate =>
      have hphase : s.adaptivePhase ≠ .pinned := by
        rcases State.isCurrentAdaptiveTransition_cases current with
          ⟨_, heq, _⟩ | ⟨_, _, heq, _⟩ <;> simp [heq]
      rw [intent]
      refine ⟨⟨hrest.2 hphase, Int.le_refl _, h.rates.past, fun _ => ?_⟩, h.rates.prune⟩
      simp only [State.switchRateExceeded, decide_eq_true_eq, Int.not_le] at rate
      have hlength : s.pruneSwitchTimestamps.adaptiveSwitchTimestamps.length =
          s.history.countP (Event.isSwitch (withinLastHour s.clock)) := h.rates.length_pruned
      rw [hlength] at rate
      exact rate
  | @pinned generation intent generation_eq active current rate =>
      have hphase : s.adaptivePhase ≠ .pinned := by
        rcases State.isCurrentAdaptiveTransition_cases current with
          ⟨_, heq, _⟩ | ⟨_, _, heq, _⟩ <;> simp [heq]
      rw [intent]
      exact ⟨⟨hrest.2 hphase, Int.le_refl _, h.rates.past, fun hne => absurd rfl hne⟩,
        h.rates.prune⟩

theorem RateInv.rest_of_queued (h : RateInv cfg s) (hk : s.transitions[k]? = some job)
    (hturn : s.HasTurn job) (queued : job.progress = .queued) : RestRates s := by
  have hwait : job.stage = .waiting := by rw [ModeTransition.stage, queued]; rfl
  rcases hturn with hrun | ⟨_, released⟩
  · have hstage : job.stage = .running := hrun
    simp [hwait] at hstage
  · exact h.turns.rest_of_released h.inv.serial hk hwait released

/-- A transition that fails, or goes on, leaves what it relied on. -/
theorem SwitchRates.rest {intent : Intent} (h : SwitchRates cfg s intent now) : RestRates s := by
  cases intent with
  | manual => exact h
  | adaptive => exact ⟨h.balanced.mono (by omega), fun _ => h.balanced⟩

theorem Moves.rated (moves : Moves cfg s k job a u progress) (h : RateInv cfg s)
    (hk : s.transitions[k]? = some job) (hturn : s.HasTurn job) : Rated cfg u job progress := by
  have hwell := h.inv.runsWell hk hturn
  have hruns : job.stage = .running → RunsRated cfg s job := h.turns.running k job hk
  cases moves with
  | cancelled queued => exact ⟨h.rest_of_queued hk hturn queued, h.rates⟩
  | refused queued =>
      have hrest := h.rest_of_queued hk hturn queued
      exact ⟨⟨hrest.1, fun hne => absurd rfl hne⟩, h.rates.prune⟩
  | failedStart queued begins =>
      obtain ⟨hswitch, hrates⟩ := begins.rated h (h.rest_of_queued hk hturn queued)
      exact ⟨hswitch.rest, hrates⟩
  | unchangedManual queued intent unchanged finishes =>
      have hrest := h.rest_of_queued hk hturn queued
      refine finishes.rated h.rates h.inv.fields ?_ ?_
      · rw [intent]
        exact hrest
      · rw [intent]
        rfl
  | unchangedAdaptive _ intent begins unchanged =>
      exact (begins.not_unchanged h.inv.fields intent unchanged).elim
  | begun queued begins changed recorders =>
      obtain ⟨hswitch, hrates⟩ := begins.rated h (h.rest_of_queued hk hturn queued)
      exact recorders.rated hrates hswitch
  | recorderFailed switching _ =>
      have hrun := hruns (by rw [ModeTransition.stage, switching]; rfl)
      simp only [RunsRated, switching] at hrun
      exact ⟨hrun.rest, h.rates⟩
  | recorderReturned switching _ recorders =>
      have hrun := hruns (by rw [ModeTransition.stage, switching]; rfl)
      simp only [RunsRated, switching] at hrun
      exact recorders.rated h.rates (hrun.congr rfl rfl (Int.le_refl _))
  | resourceFailed published _ =>
      have hrun := hruns (by rw [ModeTransition.stage, published]; rfl)
      simp only [RunsRated, published] at hrun
      exact ⟨hrun.rest, h.rates⟩
  | resourceReturned published _ =>
      have hrun := hruns (by rw [ModeTransition.stage, published]; rfl)
      simp only [RunsRated, published] at hrun
      exact ⟨hrun.congr rfl rfl (Int.le_refl _), h.rates⟩
  | completed published _ finishes =>
      have hrun := hruns (by rw [ModeTransition.stage, published]; rfl)
      simp only [RunsRated, published] at hrun
      simp only [RunsWell, published] at hwell
      have hfields := h.inv.fields
      exact finishes.rated h.rates
        ⟨hfields.resolved, hfields.disabled, hfields.enabled, hfields.stamped⟩
        (hrun.congr rfl rfl (Int.le_refl _)) hwell.2.2
  | rearmFailed rearming _ =>
      have hrun := hruns (by rw [ModeTransition.stage, rearming]; rfl)
      simp only [RunsRated, rearming] at hrun
      exact ⟨hrun, h.rates⟩
  | rearmed rearming =>
      have hrun := hruns (by rw [ModeTransition.stage, rearming]; rfl)
      simp only [RunsRated, rearming] at hrun
      unfold State.recordResolved
      split
      · exact ⟨⟨hrun.1.uncounted trivial, fun hne => (hrun.2 hne).uncounted trivial⟩,
          h.rates.uncounted trivial⟩
      · exact ⟨hrun, h.rates⟩

theorem LeavesRated.running (h : LeavesRated cfg u job progress)
    (hrun : ({ job with progress := progress } : ModeTransition).stage = .running) :
    RunsRated cfg (u.setProgress k progress) { job with progress := progress } := by
  unfold ModeTransition.stage at hrun
  cases progress with
  | queued => contradiction
  | settled => contradiction
  | switching => exact SwitchRates.congr h rfl rfl (Int.le_refl _)
  | published => exact SwitchRates.congr h rfl rfl (Int.le_refl _)
  | rearming => exact h

theorem LeavesRated.resting (h : LeavesRated cfg u job progress)
    (moves : Moves cfg s k job a u progress)
    (hidle : ({ job with progress := progress } : ModeTransition).stage ≠ .running) :
    RestRates u := by
  have hne := moves.progress_ne_queued
  unfold ModeTransition.stage at hidle
  cases progress with
  | settled => exact h
  | queued => simp [Progress.stage] at hne
  | switching => simp [Progress.stage] at hidle
  | published => simp [Progress.stage] at hidle
  | rearming => simp [Progress.stage] at hidle

theorem RunsRated.outside (h : RunsRated cfg s job) (henv : Environment cfg s a t)
    (hclock : s.clock ≤ t.clock) : RunsRated cfg t job := by
  unfold RunsRated at h ⊢
  cases hprogress : job.progress with
  | switching =>
      simp only [hprogress] at h ⊢
      exact h.congr henv.history henv.adaptivePhase hclock
  | published =>
      simp only [hprogress] at h ⊢
      exact h.congr henv.history henv.adaptivePhase hclock
  | rearming =>
      simp only [hprogress, RestRates] at h ⊢
      rw [henv.history, henv.adaptivePhase]
      exact h
  | _ => trivial

theorem RateInv.step (h : RateInv cfg s) (hguard : ClockAdvances s a)
    (hstep : s.step cfg a = some t) : RateInv cfg t := by
  refine ⟨h.inv.step hstep, ?_, ?_⟩
  · rcases step_cases hstep with ⟨k, job, u, progress, hk, hturn, moves, rfl⟩ | henv
    · exact (moves.rated h hk hturn).rates
    · have hclock : s.clock ≤ t.clock := by
        rcases henv.clock with hsame | rfl
        · omega
        · exact hguard
      rw [henv.timestamps, henv.history]
      exact ⟨h.rates.past.mono hclock, fun now hnow => h.rates.stamped now (by omega),
        h.rates.limited, h.rates.lifted⟩
  · rcases step_cases hstep with ⟨k, job, u, progress, hk, hturn, moves, rfl⟩ | henv
    · have hleaves := (moves.rated h hk hturn).leaves
      rw [moves.transitions_eq hk]
      exact Turns.move h.inv.serial hk hturn hleaves.running (hleaves.resting moves)
    · have hclock : s.clock ≤ t.clock := by
        rcases henv.clock with hsame | rfl
        · omega
        · exact hguard
      refine henv.queue.turns (h.turns.mono (fun job _ _ hjob => hjob.outside henv hclock)
        fun hrest => ?_)
      unfold RestRates at hrest ⊢
      rw [henv.history, henv.adaptivePhase]
      exact hrest

theorem RateInv.initial (now : Int) : RateInv cfg (.initial cfg now) where
  inv := .initial now
  rates :=
    { past := by simp [State.initial, Past]
      stamped := fun _ _ => rfl
      limited := by
        intro begin_
        have hpos := cfg.adaptiveCapture_valid.maxSwitchesPerHour_pos
        simp only [State.initial, switchesIn, pinningsIn, List.countP_nil]
        omega
      lifted := by simp [State.initial, pinningsIn] }
  turns := ⟨by simp [State.initial], fun _ => ⟨fun _ => by simp [State.initial],
    fun _ _ => by simp [State.initial]⟩⟩

theorem preserved_clockAdvances :
    (system cfg).Preserved ClockAdvances (RateInv cfg) where
  init := by
    rintro s ⟨now, rfl⟩
    exact .initial now
  step _ _ _ h hguard hstep := h.step hguard hstep

/-- In every run with a clock that does not go back, no window of an hour has more adaptive
switches than the limit, one that pins, and one for each call in it that lifts a pin. -/
theorem switch_rate_limited (cfg : Config) (now : Int) (run : List Action)
    (h : (system cfg).Guarded ClockAdvances (.initial cfg now) run) :
    (system cfg).Always (SwitchRateLimited cfg) (.initial cfg now) run :=
  (preserved_clockAdvances.always (.initial now) h).mono
    fun _ hs begin_ => hs.rates.switchRateLimited begin_

/-- A capture escalates and a call returns to the base mode, three times at once. -/
def alternation : List Action :=
  [.activate, .capture .safe, .escalate 0, .start 0] ++
  List.replicate 11 (.callback 0 .returned) ++
  [.setCaptureMode (some "safe"), .start 1] ++ List.replicate 10 (.callback 1 .returned) ++
  [.capture .safe, .escalate 0, .start 2] ++ List.replicate 11 (.callback 2 .returned) ++
  [.setCaptureMode (some "safe"), .start 3] ++ List.replicate 10 (.callback 3 .returned) ++
  [.capture .safe, .escalate 0, .start 4] ++ List.replicate 11 (.callback 4 .returned)

theorem alternation_limited :
    (system adaptiveConfig).Guarded ClockAdvances (.initial adaptiveConfig 0) alternation ∧
      (system adaptiveConfig).Always (SwitchRateLimited adaptiveConfig)
        (.initial adaptiveConfig 0) alternation :=
  ⟨by decide +kernel, switch_rate_limited _ _ _ (by decide +kernel)⟩

/-- The number of switches in the first hour of the alternation exceeds the cap. -/
theorem alternation_not_capped :
    (system adaptiveConfig).Guarded ClockAdvances (.initial adaptiveConfig 0) alternation ∧
      ¬ (system adaptiveConfig).Always (SwitchRateCapped adaptiveConfig)
        (.initial adaptiveConfig 0) alternation := by
  refine ⟨by decide +kernel, fun h => ?_⟩
  have hfirst : (system adaptiveConfig).Always
      (fun s => (switchesIn 0 s.history : Int) ≤ 2) (.initial adaptiveConfig 0) alternation :=
    h.mono fun _ hs => hs 0
  revert hfirst
  decide +kernel

end ErrorCore.CaptureModeController
