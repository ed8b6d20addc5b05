import ErrorCore.Foundation.Indexed
import ErrorCore.Transport.HttpTransport

/-!
# The transport holds its session

A session that is established is the one in the field as long as a connection
completes only while there is no other, and the transport is quiet after
`shutdown` as long as none completes then. An error of a stream destroys what is
in the field, which need not be the session of the stream.
-/

namespace ErrorCore.HttpTransport

/-! ## What is to hold -/

def Established (s : State) (i : SessionId) : Prop :=
  ∃ session, s.sessions[i]? = some session ∧ session.status = .established

structure SessionsOwned (s : State) : Prop where
  held : ∀ i, Established s i → s.http2Session = some i
  unique : ∀ i j, Established s i → Established s j → i = j
  innocent : ∀ pair ∈ s.collateral, pair.1 = pair.2
  closed : s.shutdown = true →
    (∀ (i : SessionId) (session : Session), s.sessions[i]? = some session →
      session.status ≠ .connecting) →
    ∀ i, ¬ Established s i

/-- After `shutdown` there is no session, even while some connect. -/
def QuietAfterShutdown (s : State) : Prop := s.shutdown = true → ∀ i, ¬ Established s i

/-- The handshake gives the transport its session. -/
def Completes (s : State) (i : SessionId) (alpnProtocol : Option Text) : Prop :=
  ∃ session, s.sessions[i]? = some session ∧ session.settled = false ∧
    ∀ protocol ∈ alpnProtocol, protocol = "h2".toList

def guard (s : State) : Action → Prop
  | .connect i alpnProtocol =>
      Completes s i alpnProtocol → (∀ j, ¬ Established s j) ∧ s.shutdown = false
  | .streamError stream =>
      ∀ i, s.streams[stream]? = some i → ∀ j, doomed s = some j → i = j
  | _ => True

/-! ## Sessions change -/

section Sessions

variable {s t : State} {i j : SessionId} {f : Session → Session}

theorem established_update (h : Established (s.update i f) j) :
    (j = i ∧ ∃ session, s.sessions[i]? = some session ∧ (f session).status = .established) ∨
      j ≠ i ∧ Established s j := by
  obtain ⟨session, hsession, hstatus⟩ := h
  obtain ⟨hj, old, hold, rfl⟩ | ⟨hne, hold⟩ := Indexed.modify_cases hsession
  · exact .inl ⟨hj, old, hold, hstatus⟩
  · exact .inr ⟨hne, session, hold, hstatus⟩

/-- No session becomes established by a change that establishes none. -/
theorem established_of_update
    (hf : ∀ session, (f session).status = .established → session.status = .established)
    (h : Established (s.update i f) j) : Established s j := by
  obtain ⟨rfl, session, hsession, hstatus⟩ | ⟨-, hold⟩ := established_update h
  · exact ⟨session, hsession, hf session hstatus⟩
  · exact hold

theorem not_established_destroy (h : Established (s.update i Session.destroy) j) :
    j ≠ i ∧ Established s j := by
  obtain ⟨-, session, -, hstatus⟩ | hother := established_update h
  · exact SessionStatus.noConfusion hstatus
  · exact hother

theorem fail_status (session : Session)
    (h : (if session.settled then session else
      { session.destroy with settled := true }).status = .established) :
    session.status = .established := by
  split at h
  · exact h
  · exact SessionStatus.noConfusion h

/-- What is true of every state of a guarded run. -/
structure Inv (s : State) : Prop where
  held : ∀ i, Established s i → s.http2Session = some i
  innocent : ∀ pair ∈ s.collateral, pair.1 = pair.2
  quiet : QuietAfterShutdown s

theorem Inv.sessionsOwned (h : Inv s) : SessionsOwned s where
  held := h.held
  unique i j hi hj := Option.some.inj ((h.held i hi).symm.trans (h.held j hj))
  innocent := h.innocent
  closed hshutdown _ := h.quiet hshutdown

/-- A step by which no session is established, and each that stays is still held. -/
theorem Inv.of_fewer (h : Inv s) (fewer : ∀ i, Established t i → Established s i)
    (kept : ∀ i, Established t i → t.http2Session = s.http2Session)
    (hcollateral : t.collateral = s.collateral) (hshutdown : t.shutdown = s.shutdown) : Inv t where
  held i hi := (kept i hi).trans (h.held i (fewer i hi))
  innocent := hcollateral ▸ h.innocent
  quiet hdown i hi := h.quiet (hshutdown ▸ hdown) i (fewer i hi)

/-- Nothing is established once the session in the field is destroyed. -/
theorem Inv.destroyed (h : Inv s) (i : SessionId) : ¬ Established (destroyHttp2Session s) i := by
  intro hi
  rw [destroyHttp2Session] at hi
  split at hi
  · next hnone => exact absurd ((h.held i hi).symm.trans hnone) (Option.some_ne_none i)
  · next k hk =>
    obtain ⟨hne, hold⟩ := not_established_destroy (s := s) hi
    exact hne (Option.some.inj ((h.held i hold).symm.trans hk))

theorem destroyHttp2Session_frame (s : State) :
    (destroyHttp2Session s).collateral = s.collateral ∧
      (destroyHttp2Session s).shutdown = s.shutdown := by
  rw [destroyHttp2Session]
  split <;> exact ⟨rfl, rfl⟩

theorem forget_frame (s : State) (i : SessionId) (session : Session) :
    (forget s i session).sessions = s.sessions ∧
      (forget s i session).collateral = s.collateral ∧
      (forget s i session).shutdown = s.shutdown ∧
      (s.http2Session ≠ some i → (forget s i session).http2Session = s.http2Session) := by
  rw [forget]
  split
  · next hsame => exact ⟨rfl, rfl, rfl, fun hother => absurd hsame.2 hother⟩
  · exact ⟨rfl, rfl, rfl, fun _ => rfl⟩

theorem established_forget {session : Session} :
    Established (forget s i session) j ↔ Established s j := by
  rw [Established, (forget_frame s i session).1, Established]

/-- A handler empties the field before the session is destroyed, or after that. -/
theorem forget_update (session : Session) :
    (forget s i session).update i f = forget (s.update i f) i session := by
  have hfield : (s.update i f).http2Session = s.http2Session := rfl
  rw [forget, forget, hfield]
  split <;> rfl

/-- A session ends, and the field is emptied if it was there. -/
theorem Inv.ends (h : Inv s) (i : SessionId) (session : Session) :
    Inv (forget (s.update i Session.destroy) i session) := by
  obtain ⟨-, hcollateral, hshutdown, hfield⟩ :=
    forget_frame (s.update i Session.destroy) i session
  refine h.of_fewer ?_ ?_ hcollateral hshutdown
  · intro j hj
    exact (not_established_destroy (established_forget.mp hj)).2
  · intro j hj
    obtain ⟨hne, hold⟩ := not_established_destroy (established_forget.mp hj)
    refine hfield fun hsame => hne ?_
    exact Option.some.inj ((h.held j hold).symm.trans hsame)

theorem Inv.fails (h : Inv s) (i : SessionId) : Inv (fail s i) :=
  h.of_fewer (fun _ hj => established_of_update fail_status hj) (fun _ _ => rfl) rfl rfl

/-- The handler of `connect` when the handshake gives the transport its session. -/
theorem handleConnect_completes {session : Session} {alpnProtocol : Option Text}
    (hopen : session.settled = false)
    (hprotocol : ∀ protocol ∈ alpnProtocol, protocol = "h2".toList) :
    handleConnect s i session alpnProtocol =
      { s.update i fun session =>
          { session with status := .established, settled := true, listening := true } with
        http2Session := some i
        ready := s.ready ++ [i] } := by
  have hh2 : (alpnProtocol.any fun protocol => protocol ≠ ("h2" : Text)) = false := by
    cases alpnProtocol with
    | none => rfl
    | some protocol => simp [hprotocol protocol rfl]
  rw [handleConnect, hopen, if_neg Bool.false_ne_true, hh2, if_neg Bool.false_ne_true]

theorem handleConnect_cases (session : Session) (hsession : s.sessions[i]? = some session)
    (alpnProtocol : Option Text) :
    Completes s i alpnProtocol ∨ handleConnect s i session alpnProtocol = s ∨
      handleConnect s i session alpnProtocol = fail s i := by
  rw [handleConnect]
  split
  · exact .inr (.inl rfl)
  · next hopen =>
    split
    · exact .inr (.inr rfl)
    · next hh2 =>
      refine .inl ⟨session, hsession, Bool.eq_false_iff.mpr hopen, fun protocol hprotocol => ?_⟩
      by_contra hother
      exact hh2 ((Option.any_eq_true _ _).mpr ⟨protocol, hprotocol, decide_eq_true hother⟩)

theorem Inv.completes (h : Inv s) (alone : ∀ j, ¬ Established s j) (hshutdown : s.shutdown = false)
    (i : SessionId) :
    Inv { s.update i fun session =>
            { session with status := .established, settled := true, listening := true } with
          http2Session := some i
          ready := s.ready ++ [i] } where
  held j hj := by
    obtain ⟨rfl, -⟩ | ⟨-, hold⟩ := established_update (s := s) hj
    · rfl
    · exact absurd hold (alone j)
  innocent := h.innocent
  quiet hdown := absurd (hshutdown.symm.trans hdown) Bool.noConfusion

theorem connect_step {alpnProtocol : Option Text}
    (hstep : step s (.connect i alpnProtocol) = some t) :
    ∃ session, s.sessions[i]? = some session ∧ session.status = .connecting ∧
      t = handleConnect s i session alpnProtocol := by
  rw [step.eq_def] at hstep
  dsimp only at hstep
  split at hstep
  · exact absurd hstep.symm (Option.some_ne_none t)
  · next session hsession =>
    split at hstep
    · next hstatus => exact ⟨session, hsession, hstatus, (Option.some.inj hstep).symm⟩
    · exact absurd hstep.symm (Option.some_ne_none t)

theorem streamError_step {stream : Nat} (hstep : step s (.streamError stream) = some t) :
    ∃ k, s.streams[stream]? = some k ∧ t = handleStreamError s k := by
  rw [step.eq_def] at hstep
  dsimp only at hstep
  split at hstep
  · exact absurd hstep.symm (Option.some_ne_none t)
  · next k hk => exact ⟨k, hk, (Option.some.inj hstep).symm⟩

theorem Inv.getSession (h : Inv s) : Inv (getHttp2Session s) := by
  rw [getHttp2Session]
  split
  · exact h.of_fewer (fun _ hj => hj) (fun _ _ => rfl) rfl rfl
  · refine h.of_fewer ?_ (fun _ _ => rfl) rfl rfl
    rintro j ⟨session, hsession, hstatus⟩
    obtain hold | ⟨-, rfl⟩ := Indexed.concat_cases hsession
    · exact ⟨session, hold, hstatus⟩
    · exact SessionStatus.noConfusion hstatus

theorem Inv.step (h : Inv s) {action : Action} (hguard : guard s action)
    (hstep : step s action = some t) : Inv t := by
  cases action with
  | getSession =>
      obtain rfl := Option.some.inj hstep
      exact h.getSession
  | openStream i =>
      rw [HttpTransport.step] at hstep
      split at hstep
      · obtain rfl := Option.some.inj hstep
        rw [openStream]
        dsimp only
        split <;> exact h.of_fewer (fun _ hj => hj) (fun _ _ => rfl) rfl rfl
      · exact absurd hstep.symm (Option.some_ne_none t)
  | connect i alpnProtocol =>
      obtain ⟨session, hsession, -, rfl⟩ := connect_step hstep
      obtain hcompletes | hsame | hfail := handleConnect_cases session hsession alpnProtocol
      · obtain ⟨alone, hshutdown⟩ := hguard hcompletes
        obtain ⟨other, hother, hopen, hprotocol⟩ := hcompletes
        obtain rfl : session = other := Option.some.inj (hsession.symm.trans hother)
        rw [handleConnect_completes hopen hprotocol]
        exact h.completes alone hshutdown i
      · rw [hsame]
        exact h
      · rw [hfail]
        exact h.fails i
  | connectTimeout i =>
      rw [HttpTransport.step] at hstep
      split at hstep
      · obtain rfl := Option.some.inj hstep
        exact h.fails i
      · exact absurd hstep.symm (Option.some_ne_none t)
  | sessionError i =>
      rw [HttpTransport.step.eq_def] at hstep
      dsimp only at hstep
      split at hstep
      · exact absurd hstep.symm (Option.some_ne_none t)
      · obtain rfl := Option.some.inj hstep
        exact (h.fails i).ends i _
  | sessionClose i =>
      rw [HttpTransport.step.eq_def] at hstep
      dsimp only at hstep
      split at hstep
      · exact absurd hstep.symm (Option.some_ne_none t)
      · obtain rfl := Option.some.inj hstep
        exact h.ends i _
  | goaway i =>
      rw [HttpTransport.step.eq_def] at hstep
      dsimp only at hstep
      split at hstep
      · exact absurd hstep.symm (Option.some_ne_none t)
      · split at hstep
        · obtain rfl := Option.some.inj hstep
          rw [forget_update]
          exact h.ends i _
        · obtain rfl := Option.some.inj hstep
          exact h
  | sessionClosing i =>
      rw [HttpTransport.step.eq_def] at hstep
      dsimp only at hstep
      split at hstep
      · exact absurd hstep.symm (Option.some_ne_none t)
      · split at hstep
        · obtain rfl := Option.some.inj hstep
          exact h.of_fewer
            (fun _ hj =>
              established_of_update (fun _ hclosed => SessionStatus.noConfusion hclosed) hj)
            (fun _ _ => rfl) rfl rfl
        · exact absurd hstep.symm (Option.some_ne_none t)
  | streamError stream =>
      obtain ⟨k, hk, rfl⟩ := streamError_step hstep
      exact
        { held := fun j hj => absurd hj (h.destroyed j)
          innocent := by
            intro pair hpair
            rcases List.mem_append.mp hpair with hold | hnew
            · exact h.innocent pair hold
            · obtain ⟨j, hj, rfl⟩ := List.mem_map.mp hnew
              exact hguard k hk j (Option.mem_toList.mp hj)
          quiet := fun _ j hj => h.destroyed j hj }
  | shutdown =>
      obtain rfl := Option.some.inj hstep
      exact
        { held := fun j hj => absurd hj (h.destroyed j)
          innocent := (destroyHttp2Session_frame s).1 ▸ h.innocent
          quiet := fun _ j hj => h.destroyed j hj }

/-- A step after which the transport holds its session met the guard. -/
theorem guard_of_owned {action : Action} (hstep : step s action = some t)
    (owned : SessionsOwned t) (quiet : QuietAfterShutdown t) : guard s action := by
  cases action with
  | connect i alpnProtocol =>
      obtain ⟨session, hsession, hconnecting, rfl⟩ := connect_step hstep
      rintro ⟨other, hother, hopen, hprotocol⟩
      obtain rfl : session = other := Option.some.inj (hsession.symm.trans hother)
      rw [handleConnect_completes hopen hprotocol] at owned quiet
      have hself : Established (s.update i fun session =>
          { session with status := .established, settled := true, listening := true }) i := by
        refine ⟨{ session with status := .established, settled := true, listening := true },
          ?_, rfl⟩
        rw [State.update, List.getElem?_modify, hsession, Option.map_eq_map, Option.map_some,
          if_pos rfl]
      constructor
      · rintro j ⟨old, hold, hstatus⟩
        have hne : i ≠ j := by
          rintro rfl
          rw [← Option.some.inj (hsession.symm.trans hold), hconnecting] at hstatus
          exact SessionStatus.noConfusion hstatus
        refine hne (owned.unique i j hself ⟨old, ?_, hstatus⟩)
        simp only [State.update, List.getElem?_modify, hold, Option.map_eq_map, Option.map_some,
          if_neg hne]
      · exact Bool.eq_false_iff.mpr fun hdown => quiet hdown i hself
  | streamError stream =>
      obtain ⟨k, hk, rfl⟩ := streamError_step hstep
      intro i hi j hj
      obtain rfl : k = i := Option.some.inj (hk.symm.trans hi)
      refine owned.innocent (k, j) (List.mem_append_right _ ?_)
      exact List.mem_map.mpr ⟨j, Option.mem_toList.mpr hj, rfl⟩
  | getSession => trivial
  | openStream => trivial
  | connectTimeout => trivial
  | sessionError => trivial
  | sessionClose => trivial
  | goaway => trivial
  | sessionClosing => trivial
  | shutdown => trivial

end Sessions

/-! ## Runs -/

theorem inv_initial : Inv initial where
  held _ h := absurd h.choose_spec.1.symm (Option.some_ne_none _)
  innocent _ h := absurd h List.not_mem_nil
  quiet _ _ h := absurd h.choose_spec.1.symm (Option.some_ne_none _)

theorem inv_preserved : system.Preserved guard Inv where
  init := by rintro s rfl; exact inv_initial
  step _ _ _ h hguard hstep := h.step hguard hstep

/-- In every state of a run the only established session is the one that the transport holds, no
stream has destroyed another stream's session, and there is no session after `shutdown`, exactly if
connections complete only while there is no session and before `shutdown`, and streams fail only
while their own session, or a destroyed one, is in the field. -/
theorem always_sessionsOwned_iff (actions : List Action) :
    system.Always (fun s => SessionsOwned s ∧ QuietAfterShutdown s) initial actions ↔
      system.Guarded guard initial actions :=
  Transition.System.always_iff_guarded inv_preserved (fun _ h => ⟨h.sessionsOwned, h.quiet⟩)
    (fun _ _ _ _ hstep after => guard_of_owned hstep after.1 after.2) inv_initial

/-! ## Overlaps -/

def twoConnects : List Action :=
  [.getSession, .getSession, .connect 0 (some "h2"), .connect 1 (some "h2")]

def lateStreamError : List Action :=
  [.getSession, .connect 0 (some "h2"), .openStream 0, .goaway 0, .getSession,
    .connect 1 (some "h2"), .streamError 0]

def lateConnect : List Action := [.getSession, .shutdown, .connect 0 (some "h2")]

/-- Of two sessions that connect at once one is lost, an error of a stream of the old session destroys
the new one, and a session that connects after `shutdown` stays. -/
theorem sessions_escape :
    ¬ system.Always SessionsOwned initial twoConnects ∧
      ¬ system.Always SessionsOwned initial lateStreamError ∧
      ¬ system.Always SessionsOwned initial lateConnect := by
  refine ⟨fun always => ?_, fun always => ?_, fun always => ?_⟩
  · have both : ∃ s, system.exec initial twoConnects = some s ∧
        (∃ a, s.sessions[0]? = some a ∧ a.status = .established) ∧
        ∃ b, s.sessions[1]? = some b ∧ b.status = .established := by
      decide
    obtain ⟨s, hrun, hfirst, hsecond⟩ := both
    exact absurd ((always.final hrun).unique 0 1 hfirst hsecond) (by decide)
  · have destroyed : ∃ s, system.exec initial lateStreamError = some s ∧
        (0, 1) ∈ s.collateral := by
      decide
    obtain ⟨s, hrun, hpair⟩ := destroyed
    exact absurd ((always.final hrun).innocent (0, 1) hpair) (by decide)
  · have alive : ∃ s, system.exec initial lateConnect = some s ∧ s.shutdown = true ∧
        (∀ session ∈ s.sessions, session.status ≠ .connecting) ∧
        ∃ a, s.sessions[0]? = some a ∧ a.status = .established := by
      decide
    obtain ⟨s, hrun, hshutdown, hconnected, hsession⟩ := alive
    exact (always.final hrun).closed hshutdown
      (fun _ _ hi => hconnected _ (List.mem_of_getElem? hi)) 0 hsession

end ErrorCore.HttpTransport
