import Mathlib.Data.List.Nodup
import ErrorCore.Transport.Worker

/-!
# Acknowledgements and appends

The dispatcher promises that a flush resolves only when the sends before it are
stored, and relies on the worker to acknowledge in that order. The worker does
so in the runs in which it never starts a flush or a shutdown beside a send
that is still in flight. Where it does start one, the completion of a single
operation breaks the promise.
-/

namespace ErrorCore.TransportWorker

variable {s t u : State} {message m n : Message}

namespace State

/-- Only the file transport appends. -/
def appends (s : State) : Bool := s.config ≠ .stdout

/-- No append of the message is running or still to come. -/
def Settled (s : State) (message : Message) : Prop :=
  message ∉ s.inbox ∧ s.handlers message.id = none

def Taken (s : State) (message : Message) : Prop := message ∈ s.posted ∧ message ∉ s.inbox

def Acknowledged (s : State) (message : Message) : Prop := ⟨message.id, none⟩ ∈ s.replies

/-- Whatever is acknowledged besides sends finds every earlier send settled. Ids count up as
messages are posted. -/
def Ordered (s : State) : Prop :=
  s.appends = true → ∀ n ∈ s.posted, n.isSend = false → s.Acknowledged n →
    ∀ m ∈ s.posted, m.isSend = true → m.id < n.id → s.Settled m

/-- A flush or a shutdown is delivered only when no send is in flight. -/
def OvertakesNoSend (s : State) : Action → Prop
  | .deliver =>
      s.appends = true → ∀ n ∈ s.inbox.head?, n.isSend = false →
        ∀ m ∈ s.posted, m.isSend = true → s.handlers m.id = none
  | _ => True

instance : Decidable (s.Settled m) := inferInstanceAs (Decidable (_ ∧ _))

instance : Decidable (s.Acknowledged m) := inferInstanceAs (Decidable (_ ∈ _))

instance : Decidable s.Ordered := inferInstanceAs (Decidable (_ → _))

instance : ∀ a, Decidable (s.OvertakesNoSend a)
  | .deliver => inferInstanceAs (Decidable (_ → _))
  | .post _ => .isTrue trivial
  | .resume _ _ => .isTrue trivial

end State

/-! ## What a handler can do -/

/-- A handler of `message` changes its own entry and posts its own reply. -/
structure Effect (message : Message) (s t : State) : Prop where
  config : t.config = s.config
  requestId : t.requestId = s.requestId
  posted : t.posted = s.posted
  inbox : t.inbox = s.inbox
  handlers : ∀ id handler, t.handlers id = some handler →
    s.handlers id = some handler ∨ id = message.id ∧ handler.message = message
  replies : ∀ reply ∈ t.replies, reply ∈ s.replies ∨ reply.id = message.id

namespace Effect

/-- The fields that an effect does not speak of may change first. -/
theorem congr (h : Effect message u t) (hconfig : u.config = s.config)
    (hrequestId : u.requestId = s.requestId) (hposted : u.posted = s.posted)
    (hinbox : u.inbox = s.inbox) (hhandlers : u.handlers = s.handlers)
    (hreplies : u.replies = s.replies) : Effect message s t where
  config := h.config.trans hconfig
  requestId := h.requestId.trans hrequestId
  posted := h.posted.trans hposted
  inbox := h.inbox.trans hinbox
  handlers := hhandlers ▸ h.handlers
  replies := hreplies ▸ h.replies

theorem setPhase (s : State) (message : Message) (phase : Phase) :
    Effect message s (s.setPhase message phase) where
  config := rfl
  requestId := rfl
  posted := rfl
  inbox := rfl
  handlers id handler h := by
    simp only [State.setPhase, Function.update_apply] at h
    split at h
    · next heq =>
        obtain rfl := Option.some.inj h
        exact .inr ⟨heq, rfl⟩
    · exact .inl h
  replies _ h := .inl h

theorem reply (s : State) (message : Message) (error : Option Text) :
    Effect message s (s.reply message error) where
  config := rfl
  requestId := rfl
  posted := rfl
  inbox := rfl
  handlers id handler h := by
    simp only [State.reply, Function.update_apply] at h
    split at h
    · exact nomatch h
    · exact .inl h
  replies reply h := by
    simp only [State.reply] at h
    split at h
    · exact .inl h
    · obtain h | h := List.mem_append.mp h
      · exact .inl h
      · obtain rfl := List.mem_singleton.mp h
        exact .inr rfl

theorem rotateOnce (s : State) (message : Message) : Effect message s (s.rotateOnce message) :=
  (setPhase _ message _).congr rfl rfl rfl rfl rfl rfl

theorem rotateIfNeeded (s : State) (message : Message) :
    Effect message s (s.rotateIfNeeded message) := by
  rw [State.rotateIfNeeded]
  split
  · exact setPhase s message _
  · exact rotateOnce s message

theorem ensureDirectory (s : State) (message : Message) :
    Effect message s (s.ensureDirectory message) := by
  rw [State.ensureDirectory]
  split
  · exact setPhase s message _
  · exact setPhase s message _

theorem settleRotation (s : State) (message : Message) (error : Option Text) :
    Effect message s (s.settleRotation message error) := by
  cases error with
  | none => exact (ensureDirectory _ message).congr rfl rfl rfl rfl rfl rfl
  | some error => exact (reply _ message (some error)).congr rfl rfl rfl rfl rfl rfl

theorem onStat (s : State) (message : Message) (outcome : Outcome) :
    Effect message s (s.onStat message outcome) := by
  rw [State.onStat.eq_def]
  split
  · split
    · exact setPhase s message _
    · exact settleRotation s message none
  · exact settleRotation s message none

theorem onMkdir (s : State) (message : Message) (error : Option Text) :
    Effect message s (s.onMkdir message error) := by
  cases error with
  | none => exact setPhase s message _
  | some error => exact reply s message (some error)

theorem onAppend (s : State) (message : Message) (error : Option Text) :
    Effect message s (s.onAppend message error) := by
  cases error with
  | none => exact (reply _ message none).congr rfl rfl rfl rfl rfl rfl
  | some error => exact reply s message (some error)

theorem onRotation {owner : Nat} (h : s.onRotation message owner = some t) :
    Effect message s t := by
  rw [State.onRotation] at h
  split at h
  · exact nomatch h
  · obtain rfl := Option.some.inj h
    exact rotateOnce s message
  · obtain rfl := Option.some.inj h
    exact reply s message _

theorem onOpen (s : State) (message : Message) (outcome : Outcome) :
    Effect message s (s.onOpen message outcome) := by
  cases outcome with
  | enoent => exact reply s message none
  | failed error => exact reply s message (some error)
  | ok => exact setPhase s message _
  | size bytes => exact setPhase s message _

theorem onReturned (s : State) (message : Message) :
    Effect message s (s.onReturned message) := by
  have h := reply s message none
  rw [State.onReturned]
  split
  · exact ⟨h.config, h.requestId, h.posted, h.inbox, h.handlers, h.replies⟩
  · exact h

theorem start (s : State) (message : Message) : Effect message s (s.start message) := by
  rw [State.start]
  split
  · exact setPhase s message _
  · exact rotateIfNeeded s message
  · exact setPhase s message _
  · exact setPhase s message _
  · exact setPhase s message _

theorem resume {outcome : Outcome} {phase : Phase} (h : s.resume message outcome phase = some t) :
    Effect message s t := by
  cases phase with
  | awaitRotation owner => exact onRotation h
  | stdoutWrite => exact Option.some.inj h ▸ reply s message _
  | stat => exact Option.some.inj h ▸ onStat s message outcome
  | rename => exact Option.some.inj h ▸ settleRotation s message _
  | mkdir => exact Option.some.inj h ▸ onMkdir s message _
  | appendFile => exact Option.some.inj h ▸ onAppend s message _
  | openFile => exact Option.some.inj h ▸ onOpen s message outcome
  | fsync => exact Option.some.inj h ▸ setPhase s message _
  | close error => exact Option.some.inj h ▸ reply s message error
  | returned => exact Option.some.inj h ▸ onReturned s message

end Effect

/-! ## The invariant -/

structure InOrder (s : State) : Prop where
  ascending : s.posted.Pairwise (·.id < ·.id)
  bounded : ∀ m ∈ s.posted, m.id ≤ s.requestId
  fifo : s.inbox <:+ s.posted
  handled : ∀ id handler, s.handlers id = some handler →
    s.Taken handler.message ∧ handler.message.id = id
  replied : ∀ reply ∈ s.replies, ∃ m, s.Taken m ∧ m.id = reply.id
  /-- No send in flight is earlier than a flush or shutdown that has started. -/
  barrier : s.appends = true → ∀ n, s.Taken n → n.isSend = false →
    ∀ id handler, s.handlers id = some handler → handler.message.isSend = true → n.id < id

namespace InOrder

theorem taken_lt (h : InOrder s) (hn : s.Taken n) (hm : m ∈ s.inbox) : n.id < m.id := by
  obtain ⟨before, hposted⟩ := h.fifo
  have hpairs := h.ascending
  rw [← hposted, List.pairwise_append] at hpairs
  have hbefore : n ∈ before := by
    have hn' := hn.1
    rw [← hposted, List.mem_append] at hn'
    exact hn'.resolve_right hn.2
  exact hpairs.2.2 n hbefore m hm

theorem eq_of_id (h : InOrder s) (hn : n ∈ s.posted) (hm : m ∈ s.posted) (hid : n.id = m.id) :
    n = m := by
  have hids : (s.posted.map Message.id).Nodup :=
    List.pairwise_map.mpr (h.ascending.imp Nat.ne_of_lt)
  exact List.inj_on_of_nodup_map hids hn hm hid

theorem ordered (h : InOrder s) : s.Ordered := by
  intro happends n hn hbarrier hack m hm hsend hlt
  obtain ⟨n', hn', hid⟩ := h.replied _ hack
  obtain rfl := h.eq_of_id hn'.1 hn hid
  constructor
  · intro hinbox
    have hlater := h.taken_lt hn' hinbox
    omega
  · cases hhandler : s.handlers m.id with
    | none => rfl
    | some handler =>
        obtain ⟨htaken, hkey⟩ := h.handled _ _ hhandler
        obtain heq := h.eq_of_id htaken.1 hm hkey
        have hlater := h.barrier happends n' hn' hbarrier _ _ hhandler (heq ▸ hsend)
        omega

theorem of_initial (config : TransportConfig) : InOrder (initial config) where
  ascending := .nil
  bounded _ h := nomatch h
  fifo := List.suffix_refl _
  handled _ _ h := nomatch h
  replied _ h := nomatch h
  barrier _ _ h := nomatch h.1

theorem taken_post (h : InOrder s) (type : MessageType) (hm : s.Taken m) :
    (s.post type).Taken m := by
  refine ⟨List.mem_append_left _ hm.1, ?_⟩
  intro hinbox
  obtain hinbox | hnew := List.mem_append.mp hinbox
  · exact hm.2 hinbox
  · obtain rfl := List.mem_singleton.mp hnew
    have hle := h.bounded _ hm.1
    exact absurd hle (Nat.not_succ_le_self _)

theorem post (h : InOrder s) (type : MessageType) : InOrder (s.post type) where
  ascending := by
    refine List.pairwise_append.mpr ⟨h.ascending, List.pairwise_singleton _ _, ?_⟩
    intro m hm new hnew
    obtain rfl := List.mem_singleton.mp hnew
    exact Nat.lt_succ_of_le (h.bounded m hm)
  bounded m hm := by
    obtain hm | hm := List.mem_append.mp hm
    · exact Nat.le_succ_of_le (h.bounded m hm)
    · obtain rfl := List.mem_singleton.mp hm
      exact Nat.le_refl _
  fifo := by
    obtain ⟨before, hposted⟩ := h.fifo
    refine ⟨before, ?_⟩
    simp only [State.post, ← hposted, List.append_assoc]
  handled id handler hhandler := by
    obtain ⟨htaken, hid⟩ := h.handled id handler hhandler
    exact ⟨h.taken_post type htaken, hid⟩
  replied reply hreply := by
    obtain ⟨m, htaken, hid⟩ := h.replied reply hreply
    exact ⟨m, h.taken_post type htaken, hid⟩
  barrier happends n hn hbarrier id handler hhandler hsend := by
    refine h.barrier happends n ⟨?_, ?_⟩ hbarrier id handler hhandler hsend
    · obtain hposted | hnew := List.mem_append.mp hn.1
      · exact hposted
      · exact absurd (List.mem_append_right _ hnew) hn.2
    · intro hinbox
      exact hn.2 (List.mem_append_left _ hinbox)
/-- A handler in flight goes on. -/
theorem of_effect (h : InOrder s) (effect : Effect message s t) (htaken : s.Taken message)
    (hbefore : ∃ handler, s.handlers message.id = some handler ∧ handler.message = message) :
    InOrder t := by
  have taken_iff : ∀ m, t.Taken m ↔ s.Taken m := by
    intro m
    rw [State.Taken, State.Taken, effect.posted, effect.inbox]
  have hhandlers : ∀ id handler, t.handlers id = some handler →
      ∃ old, s.handlers id = some old ∧ old.message = handler.message := by
    intro id handler hhandler
    obtain hold | ⟨rfl, hmessage⟩ := effect.handlers id handler hhandler
    · exact ⟨handler, hold, rfl⟩
    · obtain ⟨old, hold, hsame⟩ := hbefore
      exact ⟨old, hold, hsame.trans hmessage.symm⟩
  constructor
  · rw [effect.posted]
    exact h.ascending
  · rw [effect.posted, effect.requestId]
    exact h.bounded
  · rw [effect.posted, effect.inbox]
    exact h.fifo
  · intro id handler hhandler
    obtain ⟨old, hold, hsame⟩ := hhandlers id handler hhandler
    rw [taken_iff, ← hsame]
    exact h.handled id old hold
  · intro reply hreply
    obtain hold | hid := effect.replies reply hreply
    · obtain ⟨m, hm, hid⟩ := h.replied reply hold
      exact ⟨m, (taken_iff m).mpr hm, hid⟩
    · exact ⟨message, (taken_iff message).mpr htaken, hid.symm⟩
  · intro happends n hn hbarrier id handler hhandler hsend
    obtain ⟨old, hold, hsame⟩ := hhandlers id handler hhandler
    rw [State.appends, effect.config] at happends
    exact h.barrier happends n ((taken_iff n).mp hn) hbarrier id old hold (hsame ▸ hsend)

/-- The next message is delivered, and its handler starts. -/
theorem of_deliver {rest : List Message} (h : InOrder s) (hinbox : s.inbox = message :: rest)
    (effect : Effect message { s with inbox := rest } t)
    (guard : s.OvertakesNoSend .deliver) : InOrder t := by
  have hposted : t.posted = s.posted := effect.posted
  have hrest : t.inbox = rest := effect.inbox
  have hmem : message ∈ s.inbox := hinbox ▸ List.mem_cons_self
  have hfifo : message :: rest <:+ s.posted := hinbox ▸ h.fifo
  have hmessage : message ∈ s.posted := hfifo.mem List.mem_cons_self
  have hlater : ∀ m ∈ rest, message.id < m.id :=
    (List.pairwise_cons.mp (h.ascending.sublist hfifo.sublist)).1
  have taken_iff : ∀ m, t.Taken m ↔ s.Taken m ∨ m = message := by
    intro m
    rw [State.Taken, State.Taken, hposted, hrest, hinbox, List.mem_cons, not_or]
    constructor
    · rintro ⟨hm, hnot⟩
      by_cases heq : m = message
      · exact .inr heq
      · exact .inl ⟨hm, heq, hnot⟩
    · rintro (⟨hm, -, hnot⟩ | rfl)
      · exact ⟨hm, hnot⟩
      · exact ⟨hmessage, fun hin => Nat.lt_irrefl _ (hlater _ hin)⟩
  constructor
  · rw [hposted]
    exact h.ascending
  · rw [hposted, effect.requestId]
    exact h.bounded
  · rw [hposted, hrest]
    exact (List.suffix_cons message rest).trans hfifo
  · intro id handler hhandler
    obtain hold | ⟨rfl, rfl⟩ := effect.handlers id handler hhandler
    · obtain ⟨htaken, hid⟩ := h.handled id handler hold
      exact ⟨(taken_iff _).mpr (.inl htaken), hid⟩
    · exact ⟨(taken_iff _).mpr (.inr rfl), rfl⟩
  · intro reply hreply
    obtain hold | hid := effect.replies reply hreply
    · obtain ⟨m, hm, hid⟩ := h.replied reply hold
      exact ⟨m, (taken_iff m).mpr (.inl hm), hid⟩
    · exact ⟨message, (taken_iff message).mpr (.inr rfl), hid.symm⟩
  · intro happends n hn hbarrier id handler hhandler hsend
    have hs : s.appends = true := by
      rw [State.appends, effect.config] at happends
      exact happends
    obtain hold | ⟨rfl, rfl⟩ := effect.handlers id handler hhandler
    · obtain hn | rfl := (taken_iff n).mp hn
      · exact h.barrier hs n hn hbarrier id handler hold hsend
      · -- The message is a flush or a shutdown, and the guard keeps sends away from it.
        obtain ⟨htaken, rfl⟩ := h.handled id handler hold
        have hnone := guard hs n (by rw [hinbox]; rfl) hbarrier _ htaken.1 hsend
        have hold' : s.handlers handler.message.id = some handler := hold
        rw [hnone] at hold'
        exact nomatch hold'
    · obtain hn | rfl := (taken_iff n).mp hn
      · exact h.taken_lt hn hmem
      · rw [hsend] at hbarrier
        exact nomatch hbarrier

theorem preserved : system.Preserved State.OvertakesNoSend InOrder where
  init s h := by
    obtain ⟨config, rfl⟩ := h
    exact of_initial config
  step s a t h guard hstep := by
    cases a with
    | post type =>
        obtain rfl := Option.some.inj hstep
        exact h.post type
    | deliver =>
        simp only [system, State.step] at hstep
        split at hstep
        · next message rest _ hinbox =>
            obtain rfl := Option.some.inj hstep
            exact h.of_deliver hinbox (Effect.start _ message) guard
        · exact nomatch hstep
    | resume id outcome =>
        simp only [system, State.step] at hstep
        cases hhandler : s.handlers id with
        | none =>
            rw [hhandler] at hstep
            exact nomatch hstep
        | some handler =>
            rw [hhandler] at hstep
            obtain ⟨htaken, hid⟩ := h.handled id handler hhandler
            exact h.of_effect (Effect.resume hstep) htaken ⟨handler, hid ▸ hhandler, rfl⟩

end InOrder

/-! ## The guard is exact -/

theorem exec_deliver {rest : List Message} {as : List Action} (hopen : s.closed = false)
    (hinbox : s.inbox = message :: rest) :
    system.exec s (.deliver :: as) = system.exec ({ s with inbox := rest }.start message) as := by
  apply Transition.System.exec_cons
  simp only [system, State.step, hopen, hinbox]

/-- A step other than a delivery meets the guard. -/
theorem guarded_of_no_deliver {as : List Action} (h : ∀ a ∈ as, a ≠ .deliver) :
    system.Guarded State.OvertakesNoSend s as := by
  induction as generalizing s with
  | nil => exact trivial
  | cons a as ih =>
      simp only [Transition.System.Guarded]
      split
      · exact trivial
      · refine ⟨?_, ih fun b hb => h b (List.mem_cons_of_mem a hb)⟩
        cases a with
        | deliver => exact absurd rfl (h .deliver List.mem_cons_self)
        | post type => exact trivial
        | resume id outcome => exact trivial

/-- A flush or shutdown that has just started needs one operation to be acknowledged. -/
theorem acknowledged_at_once (happends : s.appends = true) (hbarrier : n.isSend = false)
    (hopen : s.closed = false) :
    ∃ t, system.exec (s.start n) [.resume n.id .enoent] = some t ∧ t.Acknowledged n ∧
      t.posted = s.posted ∧ t.config = s.config ∧
      ∀ id, id ≠ n.id → t.handlers id = s.handlers id := by
  have hstarted : ∃ phase, s.start n = s.setPhase n phase ∧
      (phase = .openFile ∨ phase = .returned) := by
    obtain ⟨id, type⟩ := n
    cases hconfig : s.config with
    | stdout => simp [State.appends, hconfig] at happends
    | file hasDirectory maxSizeBytes =>
        cases type with
        | send payload => exact nomatch hbarrier
        | flush => exact ⟨.openFile, by simp only [State.start, hconfig], .inl rfl⟩
        | shutdown => exact ⟨.returned, by simp only [State.start], .inr rfl⟩
  obtain ⟨phase, hstart, hphase⟩ := hstarted
  have hstep : system.step (s.start n) (.resume n.id .enoent) =
      (s.setPhase n phase).resume n .enoent phase := by
    simp only [system, State.step, hstart, State.setPhase, Function.update_self]
  have hothers : ∀ id, id ≠ n.id →
      ((s.setPhase n phase).reply n none).handlers id = s.handlers id := by
    intro id hid
    simp only [State.reply, State.setPhase, Function.update_of_ne hid]
  have hack : ((s.setPhase n phase).reply n none).Acknowledged n := by
    simp [State.Acknowledged, State.reply, State.setPhase, hopen]
  obtain rfl | rfl := hphase
  · refine ⟨_, Transition.System.exec_cons hstep, hack, rfl, rfl, hothers⟩
  · rw [State.resume, State.onReturned] at hstep
    split at hstep
    · exact ⟨_, Transition.System.exec_cons hstep, hack, rfl, rfl, hothers⟩
    · exact ⟨_, Transition.System.exec_cons hstep, hack, rfl, rfl, hothers⟩

/-- A flush or shutdown started beside a send in flight: one completion breaks the order. -/
theorem overtakes (h : InOrder s) {rest : List Message} (hopen : s.closed = false)
    (hinbox : s.inbox = n :: rest) (hguard : ¬ s.OvertakesNoSend .deliver) :
    ∃ t, system.exec s [.deliver, .resume n.id .enoent] = some t ∧ ¬ t.Ordered := by
  simp only [State.OvertakesNoSend, hinbox, List.head?_cons, Option.mem_some_iff, forall_eq',
    not_forall] at hguard
  obtain ⟨happends, hbarrier, m, hm, hsend, hhandler⟩ := hguard
  obtain ⟨handler, hsome⟩ := Option.ne_none_iff_exists'.mp hhandler
  obtain ⟨htaken, hid⟩ := h.handled _ _ hsome
  have hlt : m.id < n.id := hid ▸ h.taken_lt htaken (hinbox ▸ List.mem_cons_self)
  obtain ⟨t, hexec, hack, hposted, hconfig, hothers⟩ :=
    acknowledged_at_once (s := { s with inbox := rest }) happends hbarrier hopen
  refine ⟨t, (exec_deliver hopen hinbox).trans hexec, ?_⟩
  intro hordered
  have hn : n ∈ t.posted := by
    rw [hposted]
    exact h.fifo.mem (hinbox ▸ List.mem_cons_self)
  have hsettled : t.Settled m := by
    refine hordered ?_ n hn hbarrier hack m (hposted ▸ hm) hsend hlt
    rw [State.appends, hconfig]
    exact happends
  have hstill : t.handlers m.id = s.handlers m.id := hothers m.id (Nat.ne_of_lt hlt)
  exact hhandler (hstill.symm.trans hsettled.2)

/-- In a run that never starts a flush or a shutdown beside a send in flight, every
acknowledgement comes after the appends of the sends posted before it. At each delivery that such
a run arrives at, the order is safe from all completions, in any order, exactly if the delivery
keeps to that. -/
theorem acknowledgements_ordered {s₀ : State} {run : List Action} (init : system.init s₀)
    (guarded : system.Guarded State.OvertakesNoSend s₀ run) (reached : system.exec s₀ run = some s) :
    s.Ordered ∧
      (s.closed = false → s.inbox ≠ [] →
        ((∀ as t, (∀ a ∈ as, a ≠ .deliver) → system.exec s (.deliver :: as) = some t → t.Ordered) ↔
          s.OvertakesNoSend .deliver)) := by
  have h : InOrder s := InOrder.preserved.exec init guarded reached
  refine ⟨h.ordered, fun hopen hne => ?_⟩
  obtain ⟨n, rest, hinbox⟩ := List.exists_cons_of_ne_nil hne
  constructor
  · intro hsafe
    by_contra hguard
    obtain ⟨t, hexec, hnot⟩ := overtakes h hopen hinbox hguard
    refine hnot (hsafe [.resume n.id .enoent] t ?_ hexec)
    intro a ha
    obtain rfl := List.mem_singleton.mp ha
    exact nofun
  · intro hguard as t has hexec
    rw [exec_deliver hopen hinbox] at hexec
    have hstarted : InOrder ({ s with inbox := rest }.start n) :=
      h.of_deliver hinbox (Effect.start _ n) hguard
    exact (InOrder.preserved.exec_from hstarted (guarded_of_no_deliver has) hexec).ordered

def fileConfig : TransportConfig := .file true 104857600

/-- The flush is posted and delivered after the append of the only send. -/
def sentThenFlushed : List Action :=
  [.post (.send "a"), .deliver, .resume 1 .enoent, .resume 1 .ok, .resume 1 .ok,
    .post .flush, .deliver, .resume 2 .ok, .resume 2 .ok, .resume 2 .ok]

theorem sentThenFlushed_isSome :
    (system.exec (initial fileConfig) sentThenFlushed).isSome := by
  decide

theorem sentThenFlushed_ordered :
    ∃ s, system.exec (initial fileConfig) sentThenFlushed = some s ∧
      s.Acknowledged ⟨2, .flush⟩ ∧ s.Ordered :=
  ⟨_, (Option.some_get sentThenFlushed_isSome).symm, by decide,
    (acknowledgements_ordered ⟨fileConfig, rfl⟩ (by decide)
      (Option.some_get sentThenFlushed_isSome).symm).1⟩

/-- The file does not exist yet: opening it for the flush fails at once, while the send still has
to look for it, make its directory and append. -/
def overtakingRun : List Action :=
  [.post (.send "a"), .post .flush, .deliver, .deliver, .resume 2 .enoent]

theorem overtakingRun_isSome : (system.exec (initial fileConfig) overtakingRun).isSome := by decide

theorem overtakingRun_not_ordered :
    ¬ ∀ s₀ run s, system.init s₀ → system.exec s₀ run = some s → s.Ordered := by
  intro claim
  have hordered := claim _ overtakingRun _ ⟨fileConfig, rfl⟩
    (Option.some_get overtakingRun_isSome).symm
  exact absurd hordered (by decide)

end ErrorCore.TransportWorker
