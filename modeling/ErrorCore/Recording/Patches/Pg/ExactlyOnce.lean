import ErrorCore.Foundation.Indexed
import ErrorCore.Recording.Patches.Pg

/-!
# A query is recorded once

Which client queries a run records is decided when they are made, by the keys of
the active pool queries. A pool query is recorded once if its client query meets
an active signature, its own or an equal one of the same context; a client query
of the host is recorded if it meets none. The counts of the map are those of the
pool queries in flight, so that both can be said of the calls.
-/

namespace ErrorCore.Pg

variable {Value : Type} (env : Environment Value)

/-! ## What is to hold -/

/-- The call of the host that a call belongs to. -/
def State.issuer (s : State Value) (i : CallId) : CallId :=
  ((s.calls[i]?).bind Call.poolCall).getD i

/-- The number of events that were pushed for a call of the host. -/
def State.eventsFor (s : State Value) (i : CallId) : Nat :=
  s.events.countP fun event => s.issuer event.call = i

structure ExactlyOnce (s : State Value) : Prop where
  once : ∀ (i : CallId) (call : Call Value), s.calls[i]? = some call → call.poolCall = none →
    s.eventsFor i = if call.settled then 1 else 0
  context : ∀ (i : CallId) (call : Call Value), s.calls[i]? = some call → call.poolCall = none →
    ∀ event ∈ s.events, s.issuer event.call = i →
      event.requestId = call.context.map env.requestId
  notLost : ∀ (i : CallId) (call : Call Value), s.calls[i]? = some call → call.poolCall = none →
    call.recording ≠ .passedThrough
  released : (∀ call ∈ s.calls, call.source = .pool → call.settled = true) →
    ∀ signature, s.activePoolQueries signature = none

/-- The client queries that pools make are left to the pool queries. -/
def PoolsSilent (s : State Value) : Prop :=
  ∀ (i : CallId) (call : Call Value), s.calls[i]? = some call → call.poolCall ≠ none →
    call.recording = .passedThrough

/-- A pool query with the signature has not settled. -/
def InFlight (s : State Value) (signature : Signature) : Prop :=
  ∃ call ∈ s.calls, call.source = .pool ∧ call.settled = false ∧ call.signature env = signature

def guard (s : State Value) : Action Value → Prop
  | .issue .client context _ query => ¬ InFlight env s (context, querySignature env query)
  | .issue .pool _ _ _ => True
  | .delegate i context _ =>
      ∀ call, s.calls[i]? = some call → InFlight env s (context, querySignature env call.query)
  | .settle _ _ => True

/-! ## What is true of every state -/

/-- The uses of a signature by the calls that hold it. -/
def uses (calls : List (Call Value)) (signature : Signature) : Nat :=
  calls.countP fun call => call.holdsPoolQuery && call.signature env = signature

structure CallInv (i : CallId) (call : Call Value) : Prop where
  holds : call.holdsPoolQuery = true ↔ call.source = .pool ∧ call.settled = false
  pool : call.source = .pool → call.poolCall = none ∧ call.recording ≠ .passedThrough
  active : ∀ event, call.recording = .active event →
    call.settled = false ∧ event.call = i ∧ event.requestId = call.context.map env.requestId
  finished : call.recording = .finished → call.settled = true

structure Inv (s : State Value) : Prop where
  counts : s.activePoolQueries.Counts (uses env s.calls)
  calls : ∀ (i : CallId) (call : Call Value), s.calls[i]? = some call → CallInv env i call
  /-- An event was pushed by the call it names when that finished. -/
  pushed : ∀ event ∈ s.events, ∃ call, s.calls[event.call]? = some call ∧
    call.recording = .finished ∧ event.requestId = call.context.map env.requestId
  once : ∀ (i : CallId) (call : Call Value), s.calls[i]? = some call →
    s.events.countP (fun event => event.call = i) = if call.recording = .finished then 1 else 0

/-- Which calls are recorded. -/
structure Sorted (s : State Value) : Prop where
  host : ∀ (i : CallId) (call : Call Value), s.calls[i]? = some call → call.poolCall = none →
    call.recording ≠ .passedThrough
  pools : PoolsSilent s

section Facts

variable {env : Environment Value} {s t : State Value} {i : CallId} {call : Call Value}

theorem Inv.active_iff (h : Inv env s) (signature : Signature) :
    s.activePoolQueries signature ≠ none ↔ InFlight env s signature := by
  rw [Ne, h.counts.eq_none_iff, uses, List.countP_eq_zero]
  constructor
  · intro hused
    simp only [not_forall, not_not] at hused
    obtain ⟨call, hmem, hkey⟩ := hused
    obtain ⟨hholds, hsignature⟩ := Bool.and_eq_true_iff.mp hkey
    obtain ⟨i, hi⟩ := List.getElem?_of_mem hmem
    obtain ⟨hpool, hflight⟩ := (h.calls i call hi).holds.mp hholds
    exact ⟨call, hmem, hpool, hflight, of_decide_eq_true hsignature⟩
  · rintro ⟨call, hmem, hpool, hflight, hsignature⟩ hnone
    obtain ⟨i, hi⟩ := List.getElem?_of_mem hmem
    have hholds := (h.calls i call hi).holds.mpr ⟨hpool, hflight⟩
    exact hnone call hmem (Bool.and_eq_true_iff.mpr ⟨hholds, decide_eq_true hsignature⟩)

/-- Once all calls are sorted, the events of a query are those that its own call has pushed. -/
theorem eventsFor_eq (h : Inv env s) (sorted : Sorted s) (i : CallId) :
    s.eventsFor i = s.events.countP fun event => event.call = i := by
  refine List.countP_congr fun event hevent => ?_
  obtain ⟨call, hcall, hfinished, -⟩ := h.pushed event hevent
  have hissuer : s.issuer event.call = event.call := by
    cases hpool : call.poolCall with
    | none => rw [State.issuer, hcall, Option.bind_some, hpool, Option.getD_none]
    | some p =>
        have hpassed := sorted.pools _ call hcall (by rw [hpool]; exact Option.some_ne_none p)
        rw [hfinished] at hpassed
        exact Recording.noConfusion hpassed
  rw [hissuer]

theorem Inv.exactlyOnce (h : Inv env s) (sorted : Sorted s) : ExactlyOnce env s where
  once i call hcall hhost := by
    rw [eventsFor_eq h sorted, h.once i call hcall]
    have hinv := h.calls i call hcall
    cases hrecording : call.recording with
    | passedThrough => exact absurd hrecording (sorted.host i call hcall hhost)
    | active event => rw [(hinv.active event hrecording).1]; rfl
    | finished => rw [hinv.finished hrecording]; rfl
  context i call hcall hhost event hevent hissuer := by
    obtain ⟨other, hother, hfinished, hrequest⟩ := h.pushed event hevent
    cases hpool : other.poolCall with
    | none =>
        rw [State.issuer, hother, Option.bind_some, hpool, Option.getD_none] at hissuer
        rw [hissuer] at hother
        rw [hrequest, Option.some.inj (hother.symm.trans hcall)]
    | some p =>
        have hpassed := sorted.pools _ other hother (by rw [hpool]; exact Option.some_ne_none p)
        rw [hfinished] at hpassed
        exact Recording.noConfusion hpassed
  notLost := sorted.host
  released hall signature := by
    by_contra hactive
    obtain ⟨call, hmem, hpool, hflight, -⟩ := (h.active_iff signature).mp hactive
    rw [hall call hmem hpool] at hflight
    exact absurd hflight Bool.noConfusion

/-! ## What a step does -/

theorem delegate_step {context : Option ContextId} {target : Text}
    (hstep : step env s (.delegate i context target) = some t) :
    ∃ call, s.calls[i]? = some call ∧
      (call.source = .pool ∧ call.delegated = false ∧ call.settled = false) ∧
      t = patchedQuery env { s with calls := s.calls.set i { call with delegated := true } }
        .client (some i) context target call.query := by
  rw [step.eq_def] at hstep
  dsimp only at hstep
  split at hstep
  · exact absurd hstep.symm (Option.some_ne_none t)
  · next call hcall =>
    split at hstep
    · next hready => exact ⟨call, hcall, hready, (Option.some.inj hstep).symm⟩
    · exact absurd hstep.symm (Option.some_ne_none t)

theorem settle_step {outcome : Outcome} (hstep : step env s (.settle i outcome) = some t) :
    ∃ call, s.calls[i]? = some call ∧ (call.source = .pool → call.delegated = true) ∧
      t = finish env s i call outcome := by
  rw [step.eq_def] at hstep
  dsimp only at hstep
  split at hstep
  · exact absurd hstep.symm (Option.some_ne_none t)
  · next call hcall =>
    split at hstep
    · next hready => exact ⟨call, hcall, hready, (Option.some.inj hstep).symm⟩
    · exact absurd hstep.symm (Option.some_ne_none t)

/-! ## Calls are added and change -/

theorem uses_append (calls : List (Call Value)) (call : Call Value) (signature : Signature) :
    uses env (calls ++ [call]) signature =
      uses env calls signature +
        if call.holdsPoolQuery && call.signature env = signature then 1 else 0 := by
  rw [uses, List.countP_append, List.countP_singleton]
  rfl

theorem Inv.add (h : Inv env s) {new : Call Value} {active : UseCount Signature}
    (counts : active.Counts (uses env (s.calls ++ [new])))
    (hnew : CallInv env s.calls.length new) (hrecording : new.recording ≠ .finished) :
    Inv env { s with calls := s.calls ++ [new], activePoolQueries := active } where
  counts := counts
  calls i call hcall := by
    obtain hold | ⟨rfl, rfl⟩ := Indexed.concat_cases hcall
    · exact h.calls i call hold
    · exact hnew
  pushed event hevent := by
    obtain ⟨call, hcall, hpushed⟩ := h.pushed event hevent
    exact ⟨call, Indexed.getElem?_concat_of_some hcall, hpushed⟩
  once i call hcall := by
    obtain hold | ⟨rfl, rfl⟩ := Indexed.concat_cases hcall
    · exact h.once i call hold
    · rw [if_neg hrecording, List.countP_eq_zero]
      intro event hevent hname
      obtain ⟨call', hcall', -⟩ := h.pushed event hevent
      have hlt := (List.getElem?_eq_some_iff.mp hcall').1
      exact absurd (of_decide_eq_true hname) (Nat.ne_of_lt hlt)

theorem Inv.replace (h : Inv env s) (hcall : s.calls[i]? = some call) {new : Call Value}
    (hnew : CallInv env i new) (hrecording : new.recording = call.recording)
    (hcontext : new.context = call.context)
    (hkey : ∀ signature, (new.holdsPoolQuery && new.signature env = signature) =
      (call.holdsPoolQuery && call.signature env = signature)) :
    Inv env { s with calls := s.calls.set i new } where
  counts := h.counts.congr fun signature => by
    have hcount := Indexed.countP_set
      (fun call => call.holdsPoolQuery && call.signature env = signature) hcall new
    rw [hkey] at hcount
    exact (Nat.add_right_cancel hcount).symm
  calls j other hother := by
    obtain ⟨rfl, rfl⟩ | ⟨-, hold⟩ := Indexed.set_cases hother
    · exact hnew
    · exact h.calls j other hold
  pushed event hevent := by
    obtain ⟨other, hother, hfinished, hrequest⟩ := h.pushed event hevent
    by_cases heq : i = event.call
    · subst heq
      obtain rfl : call = other := Option.some.inj (hcall.symm.trans hother)
      exact ⟨new, Indexed.getElem?_set_self_of_some hcall new, hrecording.trans hfinished,
        hcontext ▸ hrequest⟩
    · exact ⟨other, by rwa [List.getElem?_set_ne heq], hfinished, hrequest⟩
  once j other hother := by
    obtain ⟨rfl, rfl⟩ | ⟨-, hold⟩ := Indexed.set_cases hother
    · rw [hrecording]
      exact h.once j call hcall
    · exact h.once j other hold

theorem Inv.delegating (h : Inv env s) (hcall : s.calls[i]? = some call) :
    Inv env { s with calls := s.calls.set i { call with delegated := true } } :=
  have hinv := h.calls i call hcall
  h.replace hcall ⟨hinv.holds, hinv.pool, hinv.active, hinv.finished⟩ rfl rfl fun _ => rfl

/-- What a patched method leaves: a new call, recorded or passed through. -/
theorem Inv.patchedQuery (h : Inv env s) (source : PgQuerySource) (poolCall : Option CallId)
    (context : Option ContextId) (target : Text) (query : PgQueryDetails Value)
    (hpool : source = .pool → poolCall = none) :
    Inv env (patchedQuery env s source poolCall context target query) := by
  cases source with
  | client =>
      have counts : ∀ new : Call Value, new.holdsPoolQuery = false →
          s.activePoolQueries.Counts (uses env (s.calls ++ [new])) := by
        intro new hnew
        refine h.counts.congr fun signature => ?_
        rw [uses_append, hnew, Bool.false_and]
        rfl
      rw [Pg.patchedQuery]
      dsimp only
      split
      · refine h.add (counts _ rfl) ?_ Recording.noConfusion
        exact
          { holds := ⟨Bool.noConfusion, fun hholds => PgQuerySource.noConfusion hholds.1⟩
            pool := PgQuerySource.noConfusion
            active := fun _ => Recording.noConfusion
            finished := Recording.noConfusion }
      · refine h.add (counts _ rfl) ?_ Recording.noConfusion
        exact
          { holds := ⟨Bool.noConfusion, fun hholds => PgQuerySource.noConfusion hholds.1⟩
            pool := PgQuerySource.noConfusion
            active := fun event hevent => by
              obtain rfl := Recording.active.inj hevent
              exact ⟨rfl, rfl, rfl⟩
            finished := Recording.noConfusion }
  | pool =>
      refine h.add ?_ ?_ Recording.noConfusion
      · refine (h.counts.mark _).congr fun signature => ?_
        rw [uses_append]
        by_cases heq : signature = (context, querySignature env query)
        · subst heq
          simp [Call.signature]
        · rw [Function.update_of_ne heq]
          simp [Call.signature, Ne.symm heq]
      · exact
          { holds := ⟨fun _ => ⟨rfl, rfl⟩, fun _ => rfl⟩
            pool := fun _ => ⟨hpool rfl, Recording.noConfusion⟩
            active := fun event hevent => by
              obtain rfl := Recording.active.inj hevent
              exact ⟨rfl, rfl, rfl⟩
            finished := Recording.noConfusion }

/-- The uses once a call has given up its own. -/
theorem counts_release (h : Inv env s) (hcall : s.calls[i]? = some call) {new : Call Value}
    (hnew : new.holdsPoolQuery = false) :
    (releasePoolQuery env s call).Counts (uses env (s.calls.set i new)) := by
  have hcount : ∀ signature, uses env (s.calls.set i new) signature +
      (if call.holdsPoolQuery && call.signature env = signature then 1 else 0) =
        uses env s.calls signature := by
    intro signature
    have hset := Indexed.countP_set
      (fun call => call.holdsPoolQuery && call.signature env = signature) hcall new
    rw [hnew, Bool.false_and] at hset
    exact hset
  rw [releasePoolQuery]
  split
  · next hholds =>
    have hself := hcount (call.signature env)
    rw [if_pos (by rw [hholds]; simp)] at hself
    refine (h.counts.release (call.signature env) (by omega)).congr fun signature => ?_
    by_cases heq : signature = call.signature env
    · rw [heq, Function.update_self]
      omega
    · have hother := hcount signature
      rw [if_neg (by simp [Ne.symm heq])] at hother
      rw [Function.update_of_ne heq]
      omega
  · next hholds =>
    refine h.counts.congr fun signature => ?_
    have hother := hcount signature
    rw [if_neg (by simp [hholds])] at hother
    omega

theorem Inv.finish (h : Inv env s) (hcall : s.calls[i]? = some call) (outcome : Outcome) :
    Inv env (finish env s i call outcome) := by
  have hinv := h.calls i call hcall
  rw [Pg.finish.eq_def]
  split
  case h_1 hrecording =>
    have hclient : call.source ≠ .pool := fun hpool => (hinv.pool hpool).2 hrecording
    refine h.replace hcall ?_ rfl rfl fun _ => rfl
    exact
      { holds :=
          ⟨fun hholds => absurd (hinv.holds.mp hholds).1 hclient, fun hp => absurd hp.1 hclient⟩
        pool := fun hpool => absurd hpool hclient
        active := fun event hevent => Recording.noConfusion (hrecording.symm.trans hevent)
        finished := fun _ => rfl }
  case h_2 => exact h
  case h_3 event hrecording =>
    obtain ⟨-, hname, hrequest⟩ := hinv.active event hrecording
    have hfinal : (finalizeEvent event outcome).call = i ∧
        (finalizeEvent event outcome).requestId = call.context.map env.requestId := by
      cases outcome <;> exact ⟨hname, hrequest⟩
    exact
      { counts := counts_release h hcall rfl
        calls := by
          intro j other hother
          obtain ⟨rfl, rfl⟩ | ⟨-, hold⟩ := Indexed.set_cases hother
          · exact
              { holds := ⟨Bool.noConfusion, fun hp => Bool.noConfusion hp.2⟩
                pool := fun hpool => ⟨(hinv.pool hpool).1, Recording.noConfusion⟩
                active := fun _ => Recording.noConfusion
                finished := fun _ => rfl }
          · exact h.calls j other hold
        pushed := by
          intro pushed hpushed
          rcases List.mem_append.mp hpushed with hold | hnew
          · obtain ⟨other, hother, hfinished, hcontext⟩ := h.pushed pushed hold
            have hne : i ≠ pushed.call := by
              rintro rfl
              obtain rfl : call = other := Option.some.inj (hcall.symm.trans hother)
              exact Recording.noConfusion (hrecording.symm.trans hfinished)
            exact ⟨other, by rwa [List.getElem?_set_ne hne], hfinished, hcontext⟩
          · obtain rfl := List.mem_singleton.mp hnew
            rw [hfinal.1]
            exact ⟨_, Indexed.getElem?_set_self_of_some hcall _, rfl, hfinal.2⟩
        once := by
          intro j other hother
          rw [List.countP_append, List.countP_singleton, hfinal.1]
          obtain ⟨rfl, rfl⟩ | ⟨hne, hold⟩ := Indexed.set_cases hother
          · have hbefore := h.once j call hcall
            rw [if_neg (by rw [hrecording]; exact Recording.noConfusion)] at hbefore
            rw [hbefore]
            simp
          · rw [h.once j other hold]
            simp [Ne.symm hne] }

/-! ## Steps -/

theorem Inv.step (h : Inv env s) {action : Action Value} (hstep : step env s action = some t) :
    Inv env t := by
  cases action with
  | issue source context target query =>
      obtain rfl := Option.some.inj hstep
      exact h.patchedQuery source none context target query fun _ => rfl
  | delegate i context target =>
      obtain ⟨call, hcall, -, rfl⟩ := delegate_step hstep
      exact (h.delegating hcall).patchedQuery .client (some i) context target call.query
        PgQuerySource.noConfusion
  | settle i outcome =>
      obtain ⟨call, hcall, -, rfl⟩ := settle_step hstep
      exact h.finish hcall outcome

/-! ## The guard decides which calls are recorded -/

theorem Sorted.add (sorted : Sorted s) {new : Call Value} {active : UseCount Signature}
    (host : new.poolCall = none → new.recording ≠ .passedThrough)
    (pools : new.poolCall ≠ none → new.recording = .passedThrough) :
    Sorted { s with calls := s.calls ++ [new], activePoolQueries := active } where
  host i call hcall := by
    obtain hold | ⟨rfl, rfl⟩ := Indexed.concat_cases hcall
    · exact sorted.host i call hold
    · exact host
  pools i call hcall := by
    obtain hold | ⟨rfl, rfl⟩ := Indexed.concat_cases hcall
    · exact sorted.pools i call hold
    · exact pools

/-- A call keeps its place when it is not passed through any later or earlier than before. -/
theorem Sorted.set (sorted : Sorted s) (hcall : s.calls[i]? = some call) {new : Call Value}
    {active : UseCount Signature} {events : List PgEvent} (hpool : new.poolCall = call.poolCall)
    (hrecording : new.recording = .passedThrough ↔ call.recording = .passedThrough) :
    Sorted { calls := s.calls.set i new, activePoolQueries := active, events } where
  host j other hother := by
    obtain ⟨rfl, rfl⟩ | ⟨-, hold⟩ := Indexed.set_cases hother
    · intro hhost hpassed
      exact sorted.host j call hcall (hpool ▸ hhost) (hrecording.mp hpassed)
    · exact sorted.host j other hold
  pools j other hother := by
    obtain ⟨rfl, rfl⟩ | ⟨-, hold⟩ := Indexed.set_cases hother
    · intro hinner
      exact hrecording.mpr (sorted.pools j call hcall (hpool ▸ hinner))
    · exact sorted.pools j other hold

theorem Sorted.finish (sorted : Sorted s) (hcall : s.calls[i]? = some call) (outcome : Outcome) :
    Sorted (finish env s i call outcome) := by
  rw [Pg.finish.eq_def]
  split
  case h_1 => exact sorted.set hcall rfl Iff.rfl
  case h_2 => exact sorted
  case h_3 event hrecording =>
    refine sorted.set hcall rfl ⟨Recording.noConfusion, fun hpassed => ?_⟩
    exact Recording.noConfusion (hrecording.symm.trans hpassed)

/-- A client query is passed through when its signature is in flight, and recorded otherwise. -/
theorem patchedQuery_client (h : Inv env s) (calls : List (Call Value))
    (poolCall : Option CallId) (context : Option ContextId) (target : Text)
    (query : PgQueryDetails Value) :
    ∃ new : Call Value, new.poolCall = poolCall ∧
      (new.recording = .passedThrough ↔ InFlight env s (context, querySignature env query)) ∧
      patchedQuery env { s with calls } .client poolCall context target query =
        { s with calls := calls ++ [new] } := by
  rw [← h.active_iff, patchedQuery]
  dsimp only
  split
  · next hactive => exact ⟨_, rfl, ⟨fun _ => hactive, fun _ => rfl⟩, rfl⟩
  · next hfree => exact ⟨_, rfl, ⟨Recording.noConfusion, fun hactive => absurd hactive hfree⟩, rfl⟩

theorem Sorted.step (sorted : Sorted s) (h : Inv env s) {action : Action Value}
    (hguard : guard env s action) (hstep : step env s action = some t) : Sorted t := by
  cases action with
  | issue source context target query =>
      obtain rfl := Option.some.inj hstep
      cases source with
      | client =>
          obtain ⟨new, hpool, hpassed, heq⟩ :=
            patchedQuery_client h s.calls none context target query
          rw [heq]
          exact sorted.add (fun _ hp => hguard (hpassed.mp hp)) fun hinner => absurd hpool hinner
      | pool => exact sorted.add (fun _ => Recording.noConfusion) fun hinner => absurd rfl hinner
  | delegate i context target =>
      obtain ⟨call, hcall, -, rfl⟩ := delegate_step hstep
      obtain ⟨new, hpool, hpassed, heq⟩ :=
        patchedQuery_client h (s.calls.set i { call with delegated := true }) (some i) context
          target call.query
      rw [heq]
      have delegating : Sorted { s with calls := s.calls.set i { call with delegated := true } } :=
        sorted.set hcall rfl Iff.rfl
      exact delegating.add (fun hhost => absurd (hpool.symm.trans hhost) (Option.some_ne_none i))
        fun _ => hpassed.mpr (hguard call hcall)
  | settle i outcome =>
      obtain ⟨call, hcall, -, rfl⟩ := settle_step hstep
      exact sorted.finish hcall outcome

/-- A step after which the calls are sorted met the guard. -/
theorem guard_of_sorted (h : Inv env s) {action : Action Value}
    (hstep : step env s action = some t) (exactly : ExactlyOnce env t) (silent : PoolsSilent t) :
    guard env s action := by
  cases action with
  | issue source context target query =>
      obtain rfl := Option.some.inj hstep
      cases source with
      | client =>
          obtain ⟨new, hpool, hpassed, heq⟩ :=
            patchedQuery_client h s.calls none context target query
          rw [heq] at exactly
          intro hflight
          exact exactly.notLost _ new List.getElem?_concat_length hpool (hpassed.mpr hflight)
      | pool => trivial
  | delegate i context target =>
      obtain ⟨call, hcall, -, rfl⟩ := delegate_step hstep
      obtain ⟨new, hpool, hpassed, heq⟩ :=
        patchedQuery_client h (s.calls.set i { call with delegated := true }) (some i) context
          target call.query
      rw [heq] at silent
      intro call' hcall'
      obtain rfl : call = call' := Option.some.inj (hcall.symm.trans hcall')
      have hinner : new.poolCall ≠ none := by rw [hpool]; exact Option.some_ne_none i
      exact hpassed.mp (silent _ new List.getElem?_concat_length hinner)
  | settle => trivial

end Facts

/-! ## Runs -/

theorem inv_initial : Inv env (initial : State Value) where
  counts := UseCount.counts_empty
  calls _ _ h := absurd h.symm (Option.some_ne_none _)
  pushed _ h := absurd h List.not_mem_nil
  once _ _ h := absurd h.symm (Option.some_ne_none _)

theorem sorted_initial : Sorted (initial : State Value) where
  host _ _ h := absurd h.symm (Option.some_ne_none _)
  pools _ _ h := absurd h.symm (Option.some_ne_none _)

theorem sorted_preserved :
    (system env).Preserved (guard env) fun s => Inv env s ∧ Sorted s where
  init := by rintro s rfl; exact ⟨inv_initial env, sorted_initial⟩
  step s a t h hguard hstep := ⟨h.1.step hstep, h.2.step h.1 hguard hstep⟩

def plainEnvironment : Environment Text where
  requestId context := if context = 0 then "alice" else "bob"
  stringifyParam value := value
  scrubParam value := value
  redactSensitiveQueryText text := text
  captureDbBindParams := false

def selectOne : PgQueryDetails Text where
  text := "select 1"
  values := []

def queuedQuery : List (Action Text) :=
  [.issue .pool (some 0) "pg" selectOne, .delegate 0 (some 1) "pg",
    .settle 1 (.completed (some 1) none), .settle 0 (.completed (some 1) none)]

def equalQuery : List (Action Text) :=
  [.issue .pool (some 0) "pg" selectOne, .issue .client (some 0) "pg" selectOne]

end ErrorCore.Pg
