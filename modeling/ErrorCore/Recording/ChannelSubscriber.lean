import ErrorCore.Capture.CaptureModeController
import ErrorCore.Foundation.Emitter
import ErrorCore.Foundation.InsertionMap
import ErrorCore.Foundation.Text

/-!
# Subscriptions to diagnostics channels

`src/recording/channel-subscriber.ts` over the subscribers that the process has
on its diagnostics channels. Other parties subscribe and unsubscribe at any time.
A channel may be missing, which makes the subscription fail, and be there at the
next call.

Whatever happens, the subscriber's handlers on the channels are the ones of its
map, one to a channel; nothing of the others is touched; and a message reaches
the recorder of its channel once if the channel is subscribed and never else.
-/

namespace ErrorCore.ChannelSubscriber

open CaptureModeController (ChannelSubscriptions)

/-- What the handler of a registration calls. -/
inductive RecorderMethod
  | httpServerRequestStart
  | httpServerResponseFinish
  | httpClientRequestStart
  | undiciRequestCreate
  | undiciRequestHeaders
  | undiciRequestTrailers
  | undiciRequestError
  | netConnect
  deriving DecidableEq, Repr

structure ChannelRegistration where
  channelName : Text
  enabled : ChannelSubscriptions → Bool
  handler : RecorderMethod

def registrations : List ChannelRegistration :=
  [ { channelName := "http.server.request.start"
      enabled := (·.httpServer)
      handler := .httpServerRequestStart },
    { channelName := "http.server.response.finish"
      enabled := (·.httpServer)
      handler := .httpServerResponseFinish },
    { channelName := "http.client.request.start"
      enabled := (·.httpClient)
      handler := .httpClientRequestStart },
    { channelName := "undici:request:create"
      enabled := (·.undici)
      handler := .undiciRequestCreate },
    { channelName := "undici:request:headers"
      enabled := (·.undici)
      handler := .undiciRequestHeaders },
    { channelName := "undici:request:trailers"
      enabled := (·.undici)
      handler := .undiciRequestTrailers },
    { channelName := "undici:request:error"
      enabled := (·.undici)
      handler := .undiciRequestError },
    { channelName := "net.client.socket"
      enabled := (·.netDns)
      handler := .netConnect } ]

/-- A subscribed function: a wrapped handler of the subscriber, which is new at each subscription,
or one of another party. -/
inductive Handler
  | own (serial : Nat) (method : RecorderMethod)
  | other (n : Nat)
  deriving DecidableEq, Repr

def Handler.isOwn : Handler → Bool
  | .own _ _ => true
  | .other _ => false

def Handler.isOther (handler : Handler) : Bool := !handler.isOwn

abbrev Subscribers := List (Text × Handler)

/-- The channels of the process with the subscriber's map. The last three fields are the channels
that are to be subscribed, those of them that could not be, and what the channels would be without
the subscriber. -/
structure State where
  process : Subscribers
  subscriptions : Subscribers
  serial : Nat
  wanted : List Text
  missing : List Text
  others : Subscribers
  deriving DecidableEq, Repr

def State.initial : State where
  process := []
  subscriptions := []
  serial := 0
  wanted := []
  missing := []
  others := []

def desired (options : ChannelSubscriptions) : List Text :=
  (registrations.filter fun registration => registration.enabled options).map (·.channelName)

namespace State

variable (s : State)

def channels : List Text := s.subscriptions.map (·.1)

/-- The end of one subscription. -/
def unsubscribe (subscription : Text × Handler) : State :=
  { s with
    process := Emitter.remove s.process subscription.1 subscription.2
    subscriptions := InsertionMap.delete s.subscriptions subscription.1 }

def unsubscribeUndesired (desired : List Text) : State :=
  s.subscriptions.foldl
    (fun s subscription =>
      if subscription.1 ∈ desired then s else s.unsubscribe subscription) s

/-- The subscription of one registration; `fails` tells for which channels `subscribe` throws. -/
def subscribe (desired : List Text) (fails : Text → Bool) (entry : ChannelRegistration) : State :=
  if entry.channelName ∉ desired ∨ entry.channelName ∈ s.channels then s
  else if fails entry.channelName then s
  else
    let handler := Handler.own s.serial entry.handler
    { s with
      process := Emitter.add s.process entry.channelName handler
      subscriptions := InsertionMap.set s.subscriptions entry.channelName handler
      serial := s.serial + 1 }

def subscribeAll (options : ChannelSubscriptions) (fails : Text → Bool) : State :=
  let wanted := desired options
  let kept := s.unsubscribeUndesired wanted
  let subscribed := registrations.foldl (fun s entry => s.subscribe wanted fails entry) kept
  { subscribed with
    wanted, missing := wanted.filter fun channel => fails channel && channel ∉ kept.channels }

def unsubscribeAll : State :=
  let process := s.subscriptions.foldl
    (fun process subscription => Emitter.remove process subscription.1 subscription.2) s.process
  { s with process, subscriptions := [], wanted := [], missing := [] }

/-- What a subscriber does with a message on a channel. -/
def receive (channel : Text) (subscriber : Text × Handler) : Option RecorderMethod :=
  match subscriber.2 with
  | .own _ method => if subscriber.1 = channel then some method else none
  | .other _ => none

/-- The recorder calls of a message on a channel. -/
def publish (channel : Text) : List RecorderMethod := s.process.filterMap (receive channel)

end State

inductive Action
  | subscribeAll (options : ChannelSubscriptions) (fails : Text → Bool)
  | unsubscribeAll
  | subscribeOther (channel : Text) (n : Nat)
  | unsubscribeOther (channel : Text) (n : Nat)

def step (s : State) : Action → Option State
  | .subscribeAll options fails => some (s.subscribeAll options fails)
  | .unsubscribeAll => some s.unsubscribeAll
  | .subscribeOther channel n =>
      some { s with
        process := Emitter.add s.process channel (.other n)
        others := Emitter.add s.others channel (.other n) }
  | .unsubscribeOther channel n =>
      some { s with
        process := Emitter.remove s.process channel (.other n)
        others := Emitter.remove s.others channel (.other n) }

def system : Transition.System State Action where
  init s := s = .initial
  step := step

/-- The method of the registration of a channel. -/
def methodOf (channel : Text) : Option RecorderMethod :=
  (registrations.find? fun registration => registration.channelName = channel).map (·.handler)

/-! ## The map and the channels -/

/-- The subscriber's handlers are those of its map, one to a channel, and the rest is the others'. -/
structure Mirrored (s : State) : Prop where
  own : Emitter.part Handler.isOwn s.process = s.subscriptions
  others : Emitter.part Handler.isOther s.process = s.others
  nodup : s.channels.Nodup
  methods : ∀ subscription ∈ s.subscriptions, ∃ serial method,
    subscription.2 = .own serial method ∧ methodOf subscription.1 = some method

variable {s t : State} {wanted : List Text} {fails : Text → Bool} {channel : Text}

theorem mirrored_initial : Mirrored .initial :=
  ⟨rfl, rfl, List.nodup_nil, List.forall_mem_nil _⟩

/-- In a map the pair is all there is under its key. -/
theorem delete_eq_remove {subscription : Text × Handler} (h : s.channels.Nodup)
    (hmem : subscription ∈ s.subscriptions) :
    InsertionMap.delete s.subscriptions subscription.1 =
      Emitter.remove s.subscriptions subscription.1 subscription.2 := by
  obtain ⟨before, after, hsplit⟩ := List.append_of_mem hmem
  rw [State.channels, hsplit] at h
  rw [hsplit, InsertionMap.delete_append_cons h, Emitter.remove_append_cons]
  intro hbefore
  rw [List.map_append, List.map_cons] at h
  exact (List.nodup_append.mp h).2.2 _ (List.mem_map_of_mem hbefore) _ List.mem_cons_self rfl

theorem Mirrored.isOwn {subscription : Text × Handler} (h : Mirrored s)
    (hmem : subscription ∈ s.subscriptions) : subscription.2.isOwn = true := by
  obtain ⟨serial, method, hown, -⟩ := h.methods subscription hmem
  rw [hown]
  rfl

theorem Mirrored.unsubscribe {subscription : Text × Handler} (h : Mirrored s)
    (hmem : subscription ∈ s.subscriptions) : Mirrored (s.unsubscribe subscription) := by
  have hown := h.isOwn hmem
  have hother : subscription.2.isOther = false := by rw [Handler.isOther, hown]; rfl
  have hsublist : (s.unsubscribe subscription).subscriptions.Sublist s.subscriptions :=
    List.filter_sublist
  refine ⟨?_, ?_, h.nodup.sublist (hsublist.map _),
    fun other hother => h.methods other (hsublist.subset hother)⟩
  · show Emitter.part _ (Emitter.remove _ _ _) = InsertionMap.delete _ _
    rw [Emitter.part_remove hown, h.own, delete_eq_remove h.nodup hmem]
  · exact (Emitter.part_remove_of_not hother).trans h.others

/-- The loop over the entries leaves those whose channel is desired. -/
theorem Mirrored.unsubscribeRest {kept rest : Subscribers} (wanted : List Text) (h : Mirrored s)
    (hsplit : s.subscriptions = kept ++ rest) :
    let after := rest.foldl
      (fun s subscription =>
        if subscription.1 ∈ wanted then s else s.unsubscribe subscription) s
    Mirrored after ∧
      after.subscriptions = kept ++ rest.filter fun subscription => subscription.1 ∈ wanted := by
  induction rest generalizing s kept with
  | nil => exact ⟨h, hsplit⟩
  | cons subscription rest ih =>
      have hmem : subscription ∈ s.subscriptions := by
        rw [hsplit]
        exact List.mem_append_right _ List.mem_cons_self
      rw [List.foldl_cons]
      by_cases hwanted : subscription.1 ∈ wanted
      · rw [if_pos hwanted, List.filter_cons, if_pos (decide_eq_true hwanted)]
        have hmoved : s.subscriptions = (kept ++ [subscription]) ++ rest := by
          rw [hsplit, List.append_assoc, List.singleton_append]
        obtain ⟨hafter, hleft⟩ := ih h hmoved
        exact ⟨hafter, by rw [hleft, List.append_assoc, List.singleton_append]⟩
      · have hdropped : (s.unsubscribe subscription).subscriptions = kept ++ rest := by
          have hnodup := h.nodup
          rw [State.channels, hsplit] at hnodup
          show InsertionMap.delete s.subscriptions _ = _
          rw [hsplit, InsertionMap.delete_append_cons hnodup]
        rw [if_neg hwanted, List.filter_cons,
          if_neg (Bool.eq_false_iff.mp (decide_eq_false hwanted))]
        exact ih (h.unsubscribe hmem) hdropped

theorem Mirrored.unsubscribeUndesired (wanted : List Text) (h : Mirrored s) :
    Mirrored (s.unsubscribeUndesired wanted) ∧
      ∀ channel, channel ∈ (s.unsubscribeUndesired wanted).channels ↔
        channel ∈ s.channels ∧ channel ∈ wanted := by
  obtain ⟨hafter, hleft⟩ := h.unsubscribeRest wanted (List.nil_append _).symm
  refine ⟨hafter, fun channel => ?_⟩
  rw [State.unsubscribeUndesired, State.channels, hleft, List.nil_append, State.channels]
  constructor
  · intro hmem
    obtain ⟨subscription, hkept, rfl⟩ := List.mem_map.mp hmem
    obtain ⟨hold, hwanted⟩ := List.mem_filter.mp hkept
    exact ⟨List.mem_map_of_mem hold, of_decide_eq_true hwanted⟩
  · rintro ⟨hmem, hwanted⟩
    obtain ⟨subscription, hold, rfl⟩ := List.mem_map.mp hmem
    exact List.mem_map_of_mem (List.mem_filter.mpr ⟨hold, decide_eq_true hwanted⟩)

/-! ## Subscribing -/

theorem methodOf_registration :
    ∀ entry ∈ registrations, methodOf entry.channelName = some entry.handler := by
  decide

theorem Mirrored.subscribe {entry : ChannelRegistration} (wanted : List Text)
    (fails : Text → Bool) (h : Mirrored s)
    (hentry : entry ∈ registrations) :
    Mirrored (s.subscribe wanted fails entry) ∧
      ∀ channel, channel ∈ (s.subscribe wanted fails entry).channels ↔
        channel ∈ s.channels ∨
          channel = entry.channelName ∧ channel ∈ wanted ∧ fails channel = false := by
  rw [State.subscribe]
  split
  · next hskip =>
      refine ⟨h, fun channel => ⟨.inl, ?_⟩⟩
      rintro (hold | ⟨rfl, hwanted, -⟩)
      · exact hold
      · cases hskip with
        | inl hnot => exact absurd hwanted hnot
        | inr hthere => exact hthere
  · next hnew =>
      rw [not_or, not_not] at hnew
      split
      · next hfails =>
          refine ⟨h, fun channel => ⟨.inl, ?_⟩⟩
          rintro (hold | ⟨rfl, -, hworks⟩)
          · exact hold
          · cases hfails.symm.trans hworks
      · next hworks =>
          rw [Bool.not_eq_true] at hworks
          have hset : InsertionMap.set s.subscriptions entry.channelName
              (.own s.serial entry.handler) =
              s.subscriptions ++ [(entry.channelName, .own s.serial entry.handler)] :=
            InsertionMap.set_of_notMem hnew.2
          dsimp only
          rw [hset]
          refine ⟨⟨?_, ?_, ?_, ?_⟩, fun channel => ?_⟩
          · exact (Emitter.part_add rfl).trans (by rw [h.own, Emitter.add])
          · exact (Emitter.part_add_of_not rfl).trans h.others
          · show (List.map _ (_ ++ [_])).Nodup
            rw [List.map_append, List.map_singleton, ← List.concat_eq_append]
            exact List.Nodup.concat hnew.2 h.nodup
          · exact List.forall_mem_append.mpr ⟨h.methods, List.forall_mem_singleton.mpr
              ⟨s.serial, entry.handler, rfl, methodOf_registration entry hentry⟩⟩
          · show channel ∈ List.map _ (_ ++ [_]) ↔ _
            rw [List.map_append, List.mem_append, List.map_singleton, List.mem_singleton]
            constructor
            · rintro (hold | rfl)
              · exact .inl hold
              · exact .inr ⟨rfl, hnew.1, hworks⟩
            · rintro (hold | ⟨rfl, -, -⟩)
              · exact .inl hold
              · exact .inr rfl

theorem Mirrored.subscribeRest {rest : List ChannelRegistration} (wanted : List Text)
    (fails : Text → Bool) (h : Mirrored s)
    (hrest : rest ⊆ registrations) :
    let after := rest.foldl (fun s entry => s.subscribe wanted fails entry) s
    Mirrored after ∧ ∀ channel, channel ∈ after.channels ↔
      channel ∈ s.channels ∨
        channel ∈ rest.map (·.channelName) ∧ channel ∈ wanted ∧ fails channel = false := by
  induction rest generalizing s with
  | nil => exact ⟨h, fun channel => ⟨.inl, fun hmem => hmem.elim id fun hnew => by cases hnew.1⟩⟩
  | cons entry rest ih =>
      obtain ⟨hfirst, hchannels⟩ :=
        h.subscribe wanted fails (hrest List.mem_cons_self)
      obtain ⟨hafter, hmore⟩ := ih hfirst fun other hother => hrest (List.mem_cons_of_mem _ hother)
      refine ⟨hafter, fun channel => ?_⟩
      rw [List.foldl_cons, hmore channel, hchannels channel, List.map_cons, List.mem_cons]
      tauto

/-! ## Runs -/

/-- Besides, the subscribed channels are the ones that are wanted and there. -/
structure Sound (s : State) : Prop extends Mirrored s where
  wanted : ∀ channel, channel ∈ s.channels ↔ channel ∈ s.wanted ∧ channel ∉ s.missing

theorem sound_initial : Sound .initial where
  toMirrored := mirrored_initial
  wanted _ := iff_of_false List.not_mem_nil fun h => List.not_mem_nil h.1

theorem mem_names_of_mem_desired {options : ChannelSubscriptions} (h : channel ∈ desired options) :
    channel ∈ registrations.map (·.channelName) := by
  obtain ⟨registration, hmem, rfl⟩ := List.mem_map.mp h
  exact List.mem_map_of_mem (List.mem_filter.mp hmem).1

theorem Mirrored.subscribeAll {options : ChannelSubscriptions} (h : Mirrored s) :
    Sound (s.subscribeAll options fails) := by
  obtain ⟨hkept, hchannels⟩ := h.unsubscribeUndesired (desired options)
  obtain ⟨hafter, hmore⟩ := hkept.subscribeRest (desired options) fails
    (List.Subset.refl registrations)
  refine ⟨⟨hafter.own, hafter.others, hafter.nodup, hafter.methods⟩, fun channel => ?_⟩
  refine (hmore channel).trans ⟨?_, ?_⟩
  · rintro (hold | ⟨-, hwanted, hworks⟩)
    · refine ⟨((hchannels channel).mp hold).2, fun hmissing => ?_⟩
      have hfails := (List.mem_filter.mp hmissing).2
      rw [Bool.and_eq_true] at hfails
      exact of_decide_eq_true hfails.2 hold
    · refine ⟨hwanted, fun hmissing => ?_⟩
      have hfails := (List.mem_filter.mp hmissing).2
      rw [hworks, Bool.false_and] at hfails
      cases hfails
  · rintro ⟨hwanted, hthere⟩
    by_cases hold : channel ∈ (s.unsubscribeUndesired (desired options)).channels
    · exact .inl hold
    · refine .inr ⟨mem_names_of_mem_desired hwanted, hwanted, ?_⟩
      cases hworks : fails channel with
      | false => rfl
      | true =>
          refine absurd (List.mem_filter.mpr ⟨hwanted, ?_⟩) hthere
          rw [hworks, Bool.true_and]
          exact decide_eq_true hold

theorem Mirrored.unsubscribeAll (h : Mirrored s) : Sound s.unsubscribeAll := by
  have hown : ∀ subscription ∈ s.subscriptions, subscription.2.isOwn = true :=
    fun _ hmem => h.isOwn hmem
  have hother : ∀ subscription ∈ s.subscriptions, subscription.2.isOther = false := by
    intro subscription hmem
    rw [Handler.isOther, hown subscription hmem]
    rfl
  refine ⟨⟨?_, (Emitter.part_foldl_remove_of_not hother).trans h.others, List.nodup_nil,
    List.forall_mem_nil _⟩, fun channel => iff_of_false List.not_mem_nil
      fun hwanted => List.not_mem_nil hwanted.1⟩
  have hnone := Emitter.foldl_remove_append s.subscriptions []
  rw [List.append_nil] at hnone
  exact (Emitter.part_foldl_remove hown).trans (by rw [h.own]; exact hnone)

/-- Each step keeps the map and the channels in agreement. -/
theorem Sound.step {a : Action} (h : Sound s) (hstep : step s a = some t) : Sound t := by
  cases a with
  | subscribeAll options fails => exact Option.some.inj hstep ▸ h.toMirrored.subscribeAll
  | unsubscribeAll => exact Option.some.inj hstep ▸ h.toMirrored.unsubscribeAll
  | subscribeOther channel n =>
      rw [← Option.some.inj hstep]
      exact ⟨⟨(Emitter.part_add_of_not rfl).trans h.own,
        (Emitter.part_add rfl).trans (congrArg (Emitter.add · channel (.other n)) h.others),
        h.nodup, h.methods⟩, h.wanted⟩
  | unsubscribeOther channel n =>
      rw [← Option.some.inj hstep]
      exact ⟨⟨(Emitter.part_remove_of_not rfl).trans h.own,
        (Emitter.part_remove rfl).trans (congrArg (Emitter.remove · channel (.other n)) h.others),
        h.nodup, h.methods⟩, h.wanted⟩

theorem sound_preserved : system.Preserved (fun _ _ => True) Sound where
  init _ hs := hs ▸ sound_initial
  step _ _ _ hI _ hstep := hI.step hstep

/-- Only the subscriber's own handlers call a recorder. -/
theorem filterMap_receive (subscribers : Subscribers) :
    subscribers.filterMap (State.receive channel) =
      (Emitter.part Handler.isOwn subscribers).filterMap (State.receive channel) := by
  induction subscribers with
  | nil => rfl
  | cons subscriber subscribers ih =>
      obtain ⟨name, handler⟩ := subscriber
      cases handler with
      | own serial method => rw [Emitter.part_cons rfl, List.filterMap_cons, List.filterMap_cons, ih]
      | other n =>
          rw [Emitter.part_cons_of_not rfl, List.filterMap_cons_none rfl, ih]

/-- In a map at most one handler receives a message. -/
theorem filterMap_receive_map {subscriptions : Subscribers}
    (hnodup : (subscriptions.map (·.1)).Nodup)
    (hmethods : ∀ subscription ∈ subscriptions, ∃ serial method,
      subscription.2 = .own serial method ∧ methodOf subscription.1 = some method) :
    subscriptions.filterMap (State.receive channel) =
      if channel ∈ subscriptions.map (·.1) then (methodOf channel).toList else [] := by
  induction subscriptions with
  | nil => rfl
  | cons subscription subscriptions ih =>
      obtain ⟨hfirst, hrest⟩ := List.nodup_cons.mp hnodup
      obtain ⟨⟨serial, method, hown, hmethod⟩, hothers⟩ := List.forall_mem_cons.mp hmethods
      have hih := ih hrest hothers
      by_cases heq : subscription.1 = channel
      · have hreceive : State.receive channel subscription = some method := by
          rw [State.receive, hown]
          exact if_pos heq
        have hlast : channel ∉ subscriptions.map (·.1) := heq ▸ hfirst
        rw [heq] at hmethod
        rw [List.filterMap_cons_some hreceive, hih, if_neg hlast, List.map_cons, heq,
          if_pos List.mem_cons_self, hmethod]
        rfl
      · have hreceive : State.receive channel subscription = none := by
          rw [State.receive, hown]
          exact if_neg heq
        rw [List.filterMap_cons_none hreceive, hih, List.map_cons]
        simp only [List.mem_cons, Ne.symm heq, false_or]

/-- In every run the process's channels hold what the other parties have put there and one handler
of the subscriber for each channel that is wanted and there, so that a message on a channel is
handed to its recorder once if the channel is subscribed, and never else. -/
theorem channels_mirrored (run : List Action) : system.Always
    (fun s => Emitter.part Handler.isOther s.process = s.others ∧
      Emitter.part Handler.isOwn s.process = s.subscriptions ∧ s.channels.Nodup ∧
      ∀ channel, s.publish channel =
        if channel ∈ s.wanted ∧ channel ∉ s.missing then (methodOf channel).toList else [])
    .initial run := by
  have hsound : system.Always Sound .initial run :=
    sound_preserved.always sound_initial Transition.System.guarded_true
  apply hsound.mono
  intro s h
  refine ⟨h.others, h.own, h.nodup, fun channel => ?_⟩
  rw [State.publish, filterMap_receive, h.own, filterMap_receive_map h.nodup h.methods]
  exact if_congr (h.wanted channel) rfl rfl

end ErrorCore.ChannelSubscriber
