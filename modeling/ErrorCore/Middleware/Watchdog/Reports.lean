import ErrorCore.Ingest.Soundness
import ErrorCore.Ingest.WireFormat
import ErrorCore.Middleware.Watchdog

/-!
# What the watchdog reports

Each report is of an invocation that came near its time limit and whose end the
worker had not been told, with an error of that invocation or none, and there is
at most one report of an invocation. The receiver takes the body of a report for
what it is.

The messages under way continue what the worker has seen: `Continues` follows
the numbers through the queue.
-/

namespace ErrorCore.Watchdog

open Json (Value)

/-- From the `seen`-th invocation on, the messages lead to the `last`. -/
def Continues : Nat → List Message → Nat → Prop
  | seen, [], last => seen = last
  | seen, .invokeStart number _ :: rest, last => number = seen + 1 ∧ Continues number rest last
  | seen, .invokeEnd number :: rest, last => number = seen ∧ Continues seen rest last
  | seen, .errorCaptured number _ :: rest, last => number = seen ∧ Continues seen rest last
  | seen, .shutdown :: rest, last => Continues seen rest last

theorem Continues.append {seen last final : Nat} {first second : List Message}
    (h : Continues seen first last) (h' : Continues last second final) :
    Continues seen (first ++ second) final := by
  induction first generalizing seen with
  | nil => exact (show seen = last from h) ▸ h'
  | cons message rest ih =>
      cases message with
      | invokeStart number info => exact ⟨h.1, ih h.2⟩
      | invokeEnd number => exact ⟨h.1, ih h.2⟩
      | errorCaptured number error => exact ⟨h.1, ih h.2⟩
      | shutdown => exact ih h

/-- A report of the invocations announced so far. -/
structure Report.Sound (announced : List InvokeMeta) (report : Report) : Prop where
  announced : announced[report.invocation.number - 1]? = some report.invocation.info
  positive : 0 < report.invocation.number
  running : report.invocation.number ∉ report.ended
  own : ∀ error, report.error = some error → error.1 = report.invocation.number
  late : 0 < report.invocation.info.timeoutMs - State.marginMs
  due : report.invocation.startedAt +
    (report.invocation.info.timeoutMs - State.marginMs).toNat ≤ report.at_

/-- What the worker knows, and the messages on their way to it. -/
structure Sound (s : State) : Prop where
  /-- The number of the last start that the worker has seen leads on to the last announced. -/
  continues : ∃ seen, Continues seen s.queue s.announced.length ∧
    (∀ number ∈ s.ended, number ≤ seen) ∧
    (∀ report ∈ s.reports, report.invocation.number ≤ seen) ∧
    (∀ invocation, s.invocationMeta = some invocation → invocation.number = seen ∧
      0 < seen ∧ seen ∉ s.ended ∧
      ∀ error, s.lastCapturedError = some error → error.1 = seen) ∧
    ∀ due, s.timer = some due → ∀ report ∈ s.reports, report.invocation.number < seen
  infos : ∀ number info, .invokeStart number info ∈ s.queue →
    s.announced[number - 1]? = some info
  current : ∀ invocation, s.invocationMeta = some invocation →
    s.announced[invocation.number - 1]? = some invocation.info
  /-- The timer is the one of the invocation in progress. -/
  armed : ∀ due, s.timer = some due → ∃ invocation, s.invocationMeta = some invocation ∧
    0 < invocation.info.timeoutMs - State.marginMs ∧
    due = invocation.startedAt + (invocation.info.timeoutMs - State.marginMs).toNat
  once : s.reports.Pairwise fun first second =>
    first.invocation.number < second.invocation.number
  sound : ∀ report ∈ s.reports, report.Sound s.announced

variable {config : Config} {s t : State} {a : Action}

theorem sound_start (starts : Bool) (clock : Nat) : Sound (.start starts clock) where
  continues := ⟨0, rfl, List.forall_mem_nil _, List.forall_mem_nil _,
    fun _ h => (by cases h), fun _ h => (by cases h)⟩
  infos _ _ h := by cases h
  current _ h := by cases h
  armed _ h := by cases h
  once := .nil
  sound := List.forall_mem_nil _

/-! ## The manager -/

/-- A message that follows what has been announced joins the queue. -/
theorem Sound.send (h : Sound s) {message : Message}
    (hfollows : Continues s.announced.length [message] s.announced.length) :
    Sound (s.postMessage message) := by
  rw [State.postMessage]
  split
  · obtain ⟨seen, hcontinues, hrest⟩ := h.continues
    refine ⟨⟨seen, hcontinues.append hfollows, hrest⟩, ?_, h.current, h.armed, h.once, h.sound⟩
    intro number info hmem
    cases List.mem_append.mp hmem with
    | inl hold => exact h.infos number info hold
    | inr hnew =>
        obtain rfl := List.mem_singleton.mp hnew
        have hsame : number = s.announced.length := hfollows.2
        have hnext := hfollows.1
        omega
  · exact h

theorem Report.Sound.announce {announced : List InvokeMeta} {report : Report}
    (h : report.Sound announced) (info : InvokeMeta) : report.Sound (announced ++ [info]) where
  announced := by
    rw [List.getElem?_append_left (List.getElem?_eq_some_iff.mp h.announced).1]
    exact h.announced
  positive := h.positive
  running := h.running
  own := h.own
  late := h.late
  due := h.due

theorem Sound.notifyInvokeStart (h : Sound s) (info : InvokeMeta) :
    Sound (s.notifyInvokeStart info) := by
  rw [State.notifyInvokeStart]
  split
  · next hworker =>
      rw [State.postMessage, if_pos hworker]
      have hgrow : ∀ number old, s.announced[number - 1]? = some old →
          (s.announced ++ [info])[number - 1]? = some old := by
        intro number old hold
        rw [List.getElem?_append_left (List.getElem?_eq_some_iff.mp hold).1]
        exact hold
      obtain ⟨seen, hcontinues, hrest⟩ := h.continues
      refine ⟨⟨seen, ?_, hrest⟩, ?_, fun invocation hmeta => hgrow _ _ (h.current _ hmeta), h.armed,
        h.once, fun report hmem => (h.sound report hmem).announce info⟩
      · have hlength : (s.announced ++ [info]).length = s.announced.length + 1 :=
          List.length_append
        apply hcontinues.append
        exact ⟨rfl, hlength.symm⟩
      · intro number other hmem
        cases List.mem_append.mp hmem with
        | inl hold => exact hgrow _ _ (h.infos number other hold)
        | inr hnew =>
            obtain ⟨rfl, rfl⟩ := Message.invokeStart.inj (List.mem_singleton.mp hnew)
            rw [Nat.add_sub_cancel]
            exact List.getElem?_concat_length
  · exact h

/-! ## The worker -/

theorem Sound.handle {message : Message} {rest : List Message} (h : Sound s)
    (hqueue : s.queue = message :: rest) : Sound ({ s with queue := rest }.handle message) := by
  obtain ⟨seen, hcontinues, hended, hreported, hcurrent, hpending⟩ := h.continues
  rw [hqueue] at hcontinues
  have hinfos : ∀ number info, .invokeStart number info ∈ rest →
      s.announced[number - 1]? = some info := by
    intro number info hmem
    apply h.infos number info
    rw [hqueue]
    exact List.mem_cons_of_mem _ hmem
  cases message with
  | invokeStart number info =>
      obtain ⟨rfl, hcontinues⟩ := hcontinues
      have hannounced : s.announced[seen + 1 - 1]? = some info := by
        apply h.infos
        rw [hqueue]
        exact List.mem_cons_self
      refine ⟨⟨seen + 1, hcontinues, ?_, ?_, ?_, ?_⟩, hinfos, ?_, ?_, h.once, h.sound⟩
      · exact fun other hmem => Nat.le_succ_of_le (hended other hmem)
      · exact fun report hmem => Nat.le_succ_of_le (hreported report hmem)
      · intro invocation hmeta
        obtain rfl := Option.some.inj hmeta
        exact ⟨rfl, Nat.succ_pos _, fun hmem => absurd (hended _ hmem) (Nat.not_succ_le_self _),
          fun error herror => (by cases herror)⟩
      · exact fun due _ report hmem => Nat.lt_succ_of_le (hreported report hmem)
      · intro invocation hmeta
        obtain rfl := Option.some.inj hmeta
        exact hannounced
      · intro due hdue
        obtain ⟨hlate, hsome⟩ := Option.ite_none_right_eq_some.mp hdue
        exact ⟨_, rfl, hlate, (Option.some.inj hsome).symm⟩
  | invokeEnd number =>
      obtain ⟨rfl, hcontinues⟩ := hcontinues
      refine ⟨⟨number, hcontinues, ?_, hreported, ?_, ?_⟩, hinfos, ?_, ?_, h.once, h.sound⟩
      · exact List.forall_mem_append.mpr
          ⟨hended, List.forall_mem_singleton.mpr (Nat.le_refl number)⟩
      · exact fun invocation hmeta => by cases hmeta
      · exact fun due hdue => by cases hdue
      · exact fun invocation hmeta => by cases hmeta
      · exact fun due hdue => by cases hdue
  | errorCaptured number error =>
      obtain ⟨rfl, hcontinues⟩ := hcontinues
      refine ⟨⟨number, hcontinues, hended, hreported, ?_, hpending⟩, hinfos, h.current, h.armed,
        h.once, h.sound⟩
      intro invocation hmeta
      obtain ⟨hnumber, hpositive, hrunning, -⟩ := hcurrent invocation hmeta
      refine ⟨hnumber, hpositive, hrunning, fun other hother => ?_⟩
      rw [← Option.some.inj hother]
  | shutdown =>
      exact ⟨⟨seen, hcontinues, hended, hreported, hcurrent, fun _ hdue => (by cases hdue)⟩, hinfos,
        h.current, fun due hdue => (by cases hdue), h.once, h.sound⟩

theorem Sound.fire (h : Sound s) (hstep : s.fire config = some t) : Sound t := by
  rw [State.fire] at hstep
  split at hstep
  · next due _ htimer =>
      obtain ⟨hdue, hfired⟩ := Option.ite_none_right_eq_some.mp hstep
      obtain ⟨seen, hcontinues, hended, hreported, hcurrent, hpending⟩ := h.continues
      obtain ⟨invocation, hmeta, hlate, rfl⟩ := h.armed _ htimer
      obtain ⟨hnumber, hpositive, hrunning, hown⟩ := hcurrent invocation hmeta
      have hquiet : Sound { s with timer := none } :=
        ⟨⟨seen, hcontinues, hended, hreported, hcurrent, fun _ hnone => (by cases hnone)⟩, h.infos,
          h.current, fun _ hnone => (by cases hnone), h.once, h.sound⟩
      rw [← Option.some.inj hfired, State.onTimeout]
      dsimp only
      split
      · next other url hother _ =>
          obtain rfl : invocation = other := Option.some.inj (hmeta.symm.trans hother)
          have hreport : Report.Sound s.announced
              ⟨invocation, s.lastCapturedError, s.clock, s.ended⟩ := by
            refine ⟨h.current _ hmeta, ?_, ?_, ?_, hlate, hdue⟩
            · rw [hnumber]
              exact hpositive
            · rw [hnumber]
              exact hrunning
            · rw [hnumber]
              exact hown
          refine ⟨⟨seen, hcontinues, hended, ?_, hcurrent, fun _ hnone => (by cases hnone)⟩, h.infos,
            h.current, fun _ hnone => (by cases hnone), ?_, ?_⟩
          · exact List.forall_mem_append.mpr
              ⟨hreported, List.forall_mem_singleton.mpr (Nat.le_of_eq hnumber)⟩
          · apply List.pairwise_append.mpr
            refine ⟨h.once, List.pairwise_singleton _ _, fun report hmem last hlast => ?_⟩
            rw [List.mem_singleton.mp hlast, hnumber]
            exact hpending _ htimer report hmem
          · exact List.forall_mem_append.mpr ⟨h.sound, List.forall_mem_singleton.mpr hreport⟩
      · exact hquiet
  · cases hstep

/-- Each step keeps what the worker knows. -/
theorem Sound.step (h : Sound s) (hstep : step config s a = some t) : Sound t := by
  cases a with
  | notifyInvokeStart info => exact Option.some.inj hstep ▸ h.notifyInvokeStart info
  | notifyInvokeEnd => exact Option.some.inj hstep ▸ h.send ⟨rfl, rfl⟩
  | notifyErrorCaptured error => exact Option.some.inj hstep ▸ h.send ⟨rfl, rfl⟩
  | shutdown =>
      have hsent : Sound (s.postMessage .shutdown) := h.send rfl
      rw [← Option.some.inj hstep]
      exact ⟨hsent.continues, hsent.infos, hsent.current, hsent.armed, hsent.once, hsent.sound⟩
  | deliver =>
      rw [Watchdog.step, State.deliver] at hstep
      split at hstep
      · next message rest _ hqueue => exact Option.some.inj hstep ▸ h.handle hqueue
      · cases hstep
  | fire => exact h.fire hstep
  | tick ms =>
      rw [← Option.some.inj hstep]
      exact ⟨h.continues, h.infos, h.current, h.armed, h.once, h.sound⟩
  | stop =>
      rw [← Option.some.inj hstep]
      exact ⟨h.continues, h.infos, h.current, h.armed, h.once, h.sound⟩
  | workerGone =>
      rw [Watchdog.step] at hstep
      split at hstep
      · cases hstep
      · rw [← Option.some.inj hstep]
        exact ⟨h.continues, h.infos, h.current, h.armed, h.once, h.sound⟩

theorem sound_preserved : (system config).Preserved (fun _ _ => True) Sound where
  init _ hs := by
    obtain ⟨starts, clock, rfl⟩ := hs
    exact sound_start starts clock
  step _ _ _ hI _ hstep := hI.step hstep

/-- In every run there is at most one report of an invocation; it describes an invocation that was
announced and whose end the worker had not been told, not before its deadline, and its error, if it
has one, was captured in that invocation. -/
theorem reports_sound (config : Config) (starts : Bool) (clock : Nat) (run : List Action) :
    (system config).Always
      (fun s => s.reports.Pairwise
          (fun first second => first.invocation.number < second.invocation.number) ∧
        ∀ report ∈ s.reports, report.Sound s.announced)
      (.start starts clock) run :=
  (sound_preserved.always (sound_start starts clock) Transition.System.guarded_true).mono
    fun _ h => ⟨h.once, h.sound⟩

/-! ## The receiver -/

section Receiver

variable (printing : Printing) (numbers : Json.NumberFormat)
variable {report : Report} {announced : List InvokeMeta}

theorem isWatchdogPayload_reportPayload :
    isWatchdogPayload (reportPayload config printing report) = true := by
  obtain ⟨⟨number, info, startedAt⟩, error, at_, ended⟩ := report
  obtain ⟨requestId, lambdaRequestId, traceId, timeoutMs, eventSource⟩ := info
  cases error with
  | none =>
      cases traceId with
      | none => rfl
      | some traceId => rfl
  | some error =>
      cases traceId with
      | none => rfl
      | some traceId => rfl

theorem Printing.numberText {n : Int} (hpositive : 0 ≤ n) (hsafe : n < 9007199254740992) :
    Json.NumberText numbers.print (printing.number n) := by
  obtain ⟨m, rfl⟩ := Int.eq_ofNat_of_zero_le hpositive
  have hm : m < 9007199254740992 := by omega
  rw [printing.number_nat m hm]
  exact numbers.numberText_nat hm

theorem canonical_reportError :
    Json.Canonical numbers.print (reportError config printing report) := by
  have hnames : (["name", "message", "stack"] : List Text).Nodup ∧
      (["type", "message", "stack"] : List Text).Nodup := by decide
  rw [reportError]
  split
  · exact ⟨hnames.1, trivial, trivial, trivial, trivial⟩
  · exact ⟨hnames.2, trivial, trivial, trivial, trivial⟩

theorem canonical_reportInvocation (h : report.Sound announced)
    (hduration : durationMs report < 9007199254740992)
    (htimeout : report.invocation.info.timeoutMs < 9007199254740992) :
    Json.Canonical numbers.print (reportInvocation config printing report) := by
  have hlate := h.late
  have hdue := h.due
  rw [State.marginMs] at hlate
  have htimeoutText := printing.numberText numbers (n := report.invocation.info.timeoutMs)
    (by omega) htimeout
  have hdurationText := printing.numberText numbers (n := durationMs report)
    (by rw [durationMs]; omega) hduration
  have hnames : (["functionName", "requestId", "lambdaRequestId", "eventSource", "startedAt",
        "durationMs", "timeoutMs"] : List Text).Nodup ∧
      (["functionName", "requestId", "lambdaRequestId", "traceId", "eventSource", "startedAt",
        "durationMs", "timeoutMs"] : List Text).Nodup := by
    decide
  rw [reportInvocation, traceIdField]
  split
  · exact ⟨hnames.2, trivial, trivial, trivial, trivial, trivial, trivial, hdurationText,
      htimeoutText, trivial⟩
  · exact ⟨hnames.1, trivial, trivial, trivial, trivial, trivial, hdurationText, htimeoutText,
      trivial⟩

theorem canonical_reportPayload (h : report.Sound announced)
    (hduration : durationMs report < 9007199254740992)
    (htimeout : report.invocation.info.timeoutMs < 9007199254740992) :
    Json.Canonical numbers.print (reportPayload config printing report) := by
  have hnames : (["watchdogPayloadVersion", "capturedAt", "source", "error", "invocation"] :
      List Text).Nodup := by
    decide
  exact ⟨hnames, trivial, trivial, trivial, canonical_reportError printing numbers,
    canonical_reportInvocation printing numbers h hduration htimeout, trivial⟩

/-- The receiver takes the body of a report for the watchdog record that was posted. -/
theorem receive_reportBody (rt : IngestRuntime) (options : IngestEnvelopeOptions)
    (h : report.Sound announced) (hduration : durationMs report < 9007199254740992)
    (htimeout : report.invocation.info.timeoutMs < 9007199254740992) :
    receiveIngestEnvelope { rt with formatNumber := numbers.print }
        (.text (reportBody config printing report)) options =
      .ok ⟨.watchdog, reportPayload config printing report, reportBody config printing report,
        none, false, none⟩ := by
  have hparsed : Json.parse numbers.print (reportBody config printing report) =
      some (reportPayload config printing report) :=
    Json.parse_stringify (canonical_reportPayload printing numbers h hduration htimeout)
  have hrecord : isWatchdogPayload (reportPayload config printing report) = true :=
    isWatchdogPayload_reportPayload printing
  have hread : parseJsonValue { rt with formatNumber := numbers.print }
      (.text (reportBody config printing report)) "EC_INGEST_INVALID_JSON" =
      .ok (reportPayload config printing report) := by
    rw [parseJsonValue]
    dsimp only
    rw [hparsed]
  rw [receiveIngestEnvelope, hread, Except.ok_bind, if_pos hrecord,
    buildIngestedPayload_watchdog hrecord]
  rfl

/-- In every run each report that lasts a safe number of milliseconds is received as the watchdog
record of its invocation, whatever the receiver is configured to accept. -/
theorem reports_received (rt : IngestRuntime) (config : Config) (starts : Bool) (clock : Nat)
    (run : List Action) : (system config).Always
      (fun s => ∀ report ∈ s.reports, durationMs report < 9007199254740992 →
        report.invocation.info.timeoutMs < 9007199254740992 → ∀ options,
          receiveIngestEnvelope { rt with formatNumber := numbers.print }
              (.text (reportBody config printing report)) options =
            .ok ⟨.watchdog, reportPayload config printing report,
              reportBody config printing report, none, false, none⟩)
      (.start starts clock) run :=
  (sound_preserved.always (sound_start starts clock) Transition.System.guarded_true).mono
    fun _ h report hmem hduration htimeout options =>
      receive_reportBody printing numbers rt options (h.sound report hmem) hduration htimeout

end Receiver

end ErrorCore.Watchdog
