import ErrorCore.Capture.PackageAssemblyDispatcher

/-!
# Requests and replies

An id is given again only when its entry is gone. An entry therefore belongs to
the last request with its id, and a reply in time finds the entry of the request
it answers or none.
-/

namespace ErrorCore.PackageAssemblyDispatcher

/-- Entries belong to the last requests with their ids, and promises that are not settled have
entries. -/
structure State.Registered (s : State) : Prop where
  requestId_le : s.requestId ≤ REQUEST_ID_MAX
  distinct : (s.pending.map (·.1)).Nodup
  entries : ∀ id k, (id, k) ∈ s.pending → ∃ request, s.requests[k]? = some request ∧
    request.id = some id
  latest : ∀ id k, (id, k) ∈ s.pending → ∀ (k' : Nat) (request' : Request),
    s.requests[k']? = some request' → k < k' → request'.id ≠ some id
  owned : ∀ (k : Nat) (request : Request), s.requests[k]? = some request →
    request.settled = none → ∃ id, request.id = some id ∧ (id, k) ∈ s.pending
  settled : ∀ (k : Nat) (request : Request) (settlement : Settlement),
    s.requests[k]? = some request → request.settled = some settlement →
      s.Settles k request settlement
  emptied : s.workerFailed = true → s.pending = [] ∧ s.hasWorker = false

namespace State

variable {s t : State} {k j id : Nat} {kind : Kind} {posts : Bool} {settlement : Settlement}

theorem requests_settle (s : State) (k : Nat) (settlement : Settlement) (j : Nat) :
    (s.settle k settlement).requests[j]? = (s.requests[j]?).map fun request =>
      if j = k then { request with settled := some (request.settled.getD settlement) }
      else request := by
  rw [settle, List.getElem?_modify]
  cases s.requests[j]? with
  | none => rfl
  | some request =>
      by_cases hj : k = j
      · simp [hj]
      · simp [hj, Ne.symm hj]

theorem id_settle (s : State) (k : Nat) (settlement : Settlement) (j : Nat) :
    ((s.settle k settlement).requests[j]?).bind (·.id) = (s.requests[j]?).bind (·.id) := by
  rw [requests_settle]
  cases s.requests[j]? with
  | none => rfl
  | some request =>
      rw [Option.map_some, Option.bind_some, Option.bind_some]
      split
      · rfl
      · rfl

theorem mem_of_get? {pending : List (Nat × Nat)} (h : InsertionMap.get? pending id = some k) :
    (id, k) ∈ pending := by
  rw [InsertionMap.get?, Option.map_eq_some_iff] at h
  obtain ⟨entry, hentry, rfl⟩ := h
  obtain rfl : entry.1 = id := by simpa using List.find?_some hentry
  exact List.mem_of_find?_eq_some hentry

theorem mem_delete_iff {pending : List (Nat × Nat)} {entry : Nat × Nat} :
    entry ∈ InsertionMap.delete pending id ↔ entry ∈ pending ∧ entry.1 ≠ id := by
  simp [InsertionMap.delete]

theorem Registered.eq (h : Registered s) (hj : (id, j) ∈ s.pending) (hk : (id, k) ∈ s.pending) :
    j = k :=
  (Prod.mk.inj (List.inj_on_of_nodup_map h.distinct hj hk rfl)).2

/-- The promise of an entry is settled and the entry deleted. -/
theorem Registered.settle (h : Registered s) (hentry : (id, k) ∈ s.pending)
    (hsettles : ∀ request, s.Settles k request settlement) :
    Registered { s.settle k settlement with pending := InsertionMap.delete s.pending id } := by
  have hrequest {j : Nat} {request : Request}
      (hj : (s.settle k settlement).requests[j]? = some request) :
      ∃ before, s.requests[j]? = some before ∧ before.id = request.id ∧
        (j ≠ k → before = request) ∧
          (j = k → request.settled = some (before.settled.getD settlement)) := by
    rw [requests_settle, Option.map_eq_some_iff] at hj
    obtain ⟨before, hbefore, rfl⟩ := hj
    by_cases hjk : j = k
    · rw [if_pos hjk]
      exact ⟨before, hbefore, rfl, fun hne => absurd hjk hne, fun _ => rfl⟩
    · rw [if_neg hjk]
      exact ⟨before, hbefore, rfl, fun _ => rfl, fun heq => absurd heq hjk⟩
  refine ⟨h.requestId_le, (List.filter_sublist.map _).nodup h.distinct, ?_, ?_, ?_, ?_, ?_⟩
  · intro id' j hmem
    obtain ⟨before, hbefore, hid⟩ := h.entries id' j (mem_delete_iff.mp hmem).1
    have hsame := id_settle s k settlement j
    rw [hbefore, Option.bind_some, hid] at hsame
    exact Option.bind_eq_some_iff.mp hsame
  · intro id' j hmem k' request' hk' hlt
    obtain ⟨before, hbefore, hid, -⟩ := hrequest hk'
    rw [← hid]
    exact h.latest id' j (mem_delete_iff.mp hmem).1 k' before hbefore hlt
  · intro j request hj hnone
    obtain ⟨before, hbefore, hid, hother, hself⟩ := hrequest hj
    have hne : j ≠ k := by
      intro heq
      rw [hself heq] at hnone
      contradiction
    obtain rfl := hother hne
    obtain ⟨id', hid', hmem⟩ := h.owned j before hbefore hnone
    refine ⟨id', hid', mem_delete_iff.mpr ⟨hmem, ?_⟩⟩
    rintro rfl
    exact hne (Registered.eq h hmem hentry)
  · intro j request other hj hsettled
    obtain ⟨before, hbefore, hid, hother, hself⟩ := hrequest hj
    by_cases hjk : j = k
    · subst hjk
      rw [hself rfl] at hsettled
      cases hfirst : before.settled with
      | none =>
          rw [hfirst] at hsettled
          obtain rfl := Option.some.inj hsettled
          exact hsettles request
      | some first =>
          rw [hfirst] at hsettled
          obtain rfl := Option.some.inj hsettled
          have hold := h.settled j before first hbefore hfirst
          cases first with
          | refused => exact hid.symm.trans hold
          | postFailed => exact fun hnone => hold (hid.trans hnone)
          | reply k resolved => exact hold
          | timeout k => exact hold
          | workerFailed => exact hold
    · obtain rfl := hother hjk
      exact h.settled j before other hbefore hsettled
  · intro hfailed
    obtain ⟨hempty, hworker⟩ := h.emptied hfailed
    rw [hempty] at hentry
    exact absurd hentry List.not_mem_nil

/-! ## Calls -/

/-- A new request, with or without an entry. -/
theorem Registered.push (h : Registered s) {request : Request} {more : List (Nat × Nat)}
    (hrequests : t.requests = s.requests ++ [request]) (hpending : t.pending = s.pending ++ more)
    (hrequestId : t.requestId ≤ REQUEST_ID_MAX)
    (hmore : more = [] ∨ ∃ id, more = [(id, s.requests.length)] ∧ request.id = some id)
    (hfresh : ∀ id, request.id = some id → id ∉ s.pending.map (·.1))
    (howned : request.settled = none → more ≠ [])
    (hsettled : ∀ settlement, request.settled = some settlement →
      t.Settles s.requests.length request settlement)
    (hfailed : t.workerFailed = s.workerFailed)
    (hemptied : s.workerFailed = true → more = [] ∧ t.hasWorker = false) : Registered t := by
  have hcases {k : Nat} {other : Request} (hk : t.requests[k]? = some other) :
      s.requests[k]? = some other ∨ k = s.requests.length ∧ other = request := by
    rw [hrequests, List.getElem?_append] at hk
    split at hk
    · exact .inl hk
    · next hge =>
      obtain ⟨hzero, heq⟩ := List.getElem?_eq_some_iff.mp hk
      rw [List.length_singleton] at hzero
      refine .inr ⟨by omega, ?_⟩
      rw [← heq]
      simp
  have hold {k : Nat} {other : Request} (hk : s.requests[k]? = some other) :
      t.requests[k]? = some other := by
    rw [hrequests, List.getElem?_append_left (List.getElem?_eq_some_iff.mp hk).1]
    exact hk
  have hlast : t.requests[s.requests.length]? = some request := by
    rw [hrequests, List.getElem?_concat_length]
  refine ⟨hrequestId, ?_, ?_, ?_, ?_, ?_, ?_⟩
  · rw [hpending, List.map_append, List.nodup_append]
    refine ⟨h.distinct, ?_, ?_⟩
    · rcases hmore with rfl | ⟨id, rfl, -⟩
      · exact List.nodup_nil
      · exact List.nodup_singleton _
    · intro first hfirst second hsecond
      rcases hmore with rfl | ⟨id, rfl, hid⟩
      · exact absurd hsecond List.not_mem_nil
      · obtain rfl := List.mem_singleton.mp hsecond
        rintro rfl
        exact hfresh _ hid hfirst
  · intro id k hmem
    rw [hpending] at hmem
    rcases List.mem_append.mp hmem with hmem | hmem
    · obtain ⟨other, hother, hid⟩ := h.entries id k hmem
      exact ⟨other, hold hother, hid⟩
    · rcases hmore with rfl | ⟨id', rfl, hid⟩
      · exact absurd hmem List.not_mem_nil
      · obtain ⟨rfl, rfl⟩ := Prod.mk.inj (List.mem_singleton.mp hmem)
        exact ⟨request, hlast, hid⟩
  · intro id k hmem k' other hk' hlt
    rw [hpending] at hmem
    rcases List.mem_append.mp hmem with hmem | hmem
    · rcases hcases hk' with hk' | ⟨-, rfl⟩
      · exact h.latest id k hmem k' other hk' hlt
      · intro hid
        exact hfresh id hid (List.mem_map_of_mem hmem)
    · rcases hmore with rfl | ⟨id', rfl, hid⟩
      · exact absurd hmem List.not_mem_nil
      · obtain ⟨-, rfl⟩ := Prod.mk.inj (List.mem_singleton.mp hmem)
        rcases hcases hk' with hk' | ⟨rfl, -⟩
        · exact absurd (List.getElem?_eq_some_iff.mp hk').1 (Nat.not_lt.mpr (Nat.le_of_lt hlt))
        · exact absurd hlt (Nat.lt_irrefl _)
  · intro k other hk hnone
    rw [hpending]
    rcases hcases hk with hk | ⟨rfl, rfl⟩
    · obtain ⟨id, hid, hmem⟩ := h.owned k other hk hnone
      exact ⟨id, hid, List.mem_append_left _ hmem⟩
    · rcases hmore with rfl | ⟨id, rfl, hid⟩
      · exact absurd rfl (howned hnone)
      · exact ⟨id, hid, List.mem_append_right _ List.mem_cons_self⟩
  · intro k other settlement hk hother
    rcases hcases hk with hk | ⟨rfl, rfl⟩
    · have hbefore := h.settled k other settlement hk hother
      cases settlement with
      | refused => exact hbefore
      | postFailed => exact hbefore
      | reply j resolved => exact hbefore
      | timeout j => exact hbefore
      | workerFailed => exact hfailed.trans hbefore
    · exact hsettled settlement hother
  · intro htfailed
    rw [hfailed] at htfailed
    obtain ⟨rfl, hworker⟩ := hemptied htfailed
    rw [hpending, List.append_nil]
    exact ⟨(h.emptied htfailed).1, hworker⟩

theorem Registered.refuse (h : Registered s) (kind : Kind) : Registered (s.refuse kind) := by
  refine h.push rfl (List.append_nil _).symm h.requestId_le (.inl rfl) nofun nofun ?_ rfl
    fun hfailed => ⟨rfl, (h.emptied hfailed).2⟩
  intro settlement hsettlement
  obtain rfl := Option.some.inj hsettlement
  exact rfl

/-- What `nextRequestId` finds is free. -/
theorem nextRequestId_spec {requestId : Nat} (hfound : s.nextRequestId = (requestId, some id)) :
    id ∉ s.pending.map (·.1) ∧ requestId ≤ REQUEST_ID_MAX := by
  obtain ⟨hfree, rfl, -, hle⟩ := CyclicIds.probe_eq_some (by decide) hfound
  exact ⟨hfree, hle⟩

theorem Registered.post (h : Registered s) (hworker : s.hasWorker = true) :
    Registered (s.post kind posts) := by
  have hworks : s.workerFailed = true → False := by
    intro hfailed
    rw [(h.emptied hfailed).2] at hworker
    contradiction
  rw [State.post]
  split
  · next requestId hfound =>
    have hle : requestId ≤ REQUEST_ID_MAX := by
      have hprobe : (CyclicIds.probe REQUEST_ID_MAX (s.pending.map (·.1)) (s.pending.length + 1)
          s.requestId).1 ≤ REQUEST_ID_MAX := CyclicIds.probe_le (by decide) h.requestId_le
      rw [nextRequestId] at hfound
      rwa [hfound] at hprobe
    exact ⟨hle, h.distinct, h.entries, h.latest, h.owned, h.settled, h.emptied⟩
  · next requestId id hfound =>
    obtain ⟨hfree, hle⟩ := nextRequestId_spec hfound
    refine h.push rfl (InsertionMap.set_of_notMem hfree) hle (.inr ⟨id, rfl, rfl⟩) ?_ nofun ?_ rfl
      fun hfailed => (hworks hfailed).elim
    · intro id' hid
      obtain rfl := Option.some.inj hid
      exact hfree
    · intro settlement hsettlement
      cases posts with
      | true => exact nomatch hsettlement
      | false =>
          obtain rfl := Option.some.inj hsettlement
          exact nofun

theorem Registered.assemble (h : Registered s) : Registered (s.assemble posts) := by
  rw [State.assemble]
  split
  · next hready => exact h.post (Bool.and_eq_true_iff.mp hready).1
  · exact h.refuse .assemble

theorem Registered.updateConfig (h : Registered s) : Registered (s.updateConfig posts) := by
  rw [State.updateConfig]
  split
  · next hready =>
    have hworker : s.hasWorker = true :=
      (Bool.and_eq_true_iff.mp (Bool.and_eq_true_iff.mp hready).1).1
    have hposted : Registered (s.post .updateConfig posts) := h.post hworker
    dsimp only
    split
    · next id hfound =>
      obtain ⟨requestId, hnext⟩ : ∃ requestId, s.nextRequestId = (requestId, some id) :=
        ⟨_, Prod.ext rfl hfound⟩
      obtain ⟨hfree, hle⟩ := nextRequestId_spec hnext
      have hpost : s.post .updateConfig false =
          { s with
            requestId
            pending := InsertionMap.set s.pending id s.requests.length
            requests := s.requests ++
              [{ kind := .updateConfig, id := some id, settled := some .postFailed }] } := by
        rw [State.post, hnext]
        rfl
      rw [hpost]
      have hback : InsertionMap.delete (InsertionMap.set s.pending id s.requests.length) id =
          s.pending := by
        rw [InsertionMap.set_of_notMem hfree, InsertionMap.delete, List.filter_append]
        have hkept := InsertionMap.delete_of_notMem hfree
        rw [InsertionMap.delete] at hkept
        rw [hkept]
        simp
      refine h.push rfl (hback.trans (List.append_nil _).symm) hle (.inl rfl) ?_
        (fun hnone => absurd hnone (Option.some_ne_none _)) ?_ rfl fun hfailed => ?_
      · intro id' hid
        obtain rfl := Option.some.inj hid
        exact hfree
      · intro settlement hsettlement
        obtain rfl := Option.some.inj hsettlement
        exact Option.some_ne_none id
      · exact ⟨rfl, (h.emptied hfailed).2⟩
    · exact hposted
  · exact h.refuse .updateConfig

theorem Registered.closing (h : Registered s) : Registered { s with shuttingDown := true } :=
  ⟨h.requestId_le, h.distinct, h.entries, h.latest, h.owned, h.settled, h.emptied⟩

theorem Registered.shutdown (h : Registered s) : Registered (s.shutdown posts) := by
  rw [State.shutdown]
  split
  · next hworker => exact h.closing.post hworker
  · exact h.closing.refuse .shutdown

/-! ## Events -/

/-- The entry that a reply in time finds is the one of its request. -/
theorem Registered.eq_of_reply (h : Registered s) {body : Reply}
    (hintime : s.RepliesInTime (.reply j body)) (hid : (s.requests[j]?).bind (·.id) = some id)
    (hentry : (id, k) ∈ s.pending) : k = j := by
  by_contra hne
  have hgone : (id, j) ∉ s.pending := fun hmem => hne (h.eq hentry hmem)
  obtain ⟨request, hj, hsame⟩ := Option.bind_eq_some_iff.mp hid
  obtain ⟨other, hk, hother⟩ := h.entries id k hentry
  rcases Nat.lt_or_gt_of_ne hne with hlt | hgt
  · exact h.latest id k hentry j request hj hlt hsame
  · refine hintime id hid hgone other ?_ hother
    have hplace : (s.requests.drop (j + 1))[k - (j + 1)]? = some other := by
      rw [List.getElem?_drop, Nat.add_sub_cancel' hgt]
      exact hk
    exact List.mem_of_getElem? hplace

theorem Registered.reply (h : Registered s) {body : Reply}
    (hintime : s.RepliesInTime (.reply j body)) (hstep : s.reply j body = some t) :
    Registered t := by
  rw [State.reply] at hstep
  split at hstep
  · contradiction
  · next id hid =>
    split at hstep
    · obtain rfl := Option.some.inj hstep
      exact h
    · next k hget =>
      obtain rfl := Option.some.inj hstep
      have hentry := mem_of_get? hget
      obtain rfl := h.eq_of_reply hintime hid hentry
      exact h.settle hentry fun _ => rfl

theorem Registered.timeout (h : Registered s) (hstep : s.timeout k = some t) : Registered t := by
  rw [State.timeout] at hstep
  split at hstep
  · contradiction
  · next id hid =>
    split at hstep
    · next hentry =>
      obtain rfl := Option.some.inj hstep
      exact h.settle hentry fun _ => rfl
    · contradiction

/-- The entries settled by a failure of the worker. -/
theorem requests_foldl (entries : List (Nat × Nat)) (s : State) (j : Nat) :
    (entries.foldl (fun s entry => s.settle entry.2 .workerFailed) s).requests[j]? =
      (s.requests[j]?).map fun request =>
        if j ∈ entries.map (·.2) then
          { request with settled := some (request.settled.getD .workerFailed) }
        else request := by
  induction entries generalizing s with
  | nil =>
      cases hj : s.requests[j]? with
      | none => simp [hj]
      | some request => simp [hj]
  | cons entry entries ih =>
      rw [List.foldl_cons, ih, requests_settle]
      cases s.requests[j]? with
      | none => rfl
      | some request =>
          by_cases hfirst : j = entry.2
          · by_cases hrest : j ∈ entries.map (·.2)
            · simp [hfirst]
            · simp [hfirst]
          · by_cases hrest : j ∈ entries.map (·.2)
            · simp only [Option.map_some, if_neg hfirst, if_pos hrest, List.map_cons,
                if_pos (List.mem_cons_of_mem _ hrest)]
            · have hnot : j ∉ entry.2 :: entries.map (·.2) := by
                rw [List.mem_cons, not_or]
                exact ⟨hfirst, hrest⟩
              simp only [Option.map_some, if_neg hfirst, if_neg hrest, List.map_cons, if_neg hnot]

theorem requestId_foldl (entries : List (Nat × Nat)) (s : State) :
    (entries.foldl (fun s entry => s.settle entry.2 .workerFailed) s).requestId = s.requestId := by
  induction entries generalizing s with
  | nil => rfl
  | cons entry entries ih =>
      rw [List.foldl_cons, ih]
      rfl

theorem Registered.fail (h : Registered s) : Registered s.fail := by
  have hrequests (j : Nat) : s.fail.requests[j]? = (s.requests[j]?).map fun request =>
      if j ∈ s.pending.map (·.2) then
        { request with settled := some (request.settled.getD .workerFailed) }
      else request := requests_foldl s.pending s j
  have hrequestId : s.fail.requestId = s.requestId := requestId_foldl s.pending s
  refine ⟨?_, List.nodup_nil, nofun, nofun, ?_, ?_, fun _ => ⟨rfl, rfl⟩⟩
  · rw [hrequestId]
    exact h.requestId_le
  · intro k request hk hnone
    rw [hrequests, Option.map_eq_some_iff] at hk
    obtain ⟨before, hbefore, rfl⟩ := hk
    split at hnone
    · contradiction
    · next hgone =>
      obtain ⟨id, -, hmem⟩ := h.owned k before hbefore hnone
      exact absurd (List.mem_map_of_mem hmem) hgone
  · intro k request settlement hk hsettled
    rw [hrequests, Option.map_eq_some_iff] at hk
    obtain ⟨before, hbefore, rfl⟩ := hk
    cases hfirst : before.settled with
    | none =>
        split at hsettled
        · rw [hfirst] at hsettled
          obtain rfl := Option.some.inj hsettled
          rfl
        · rw [hfirst] at hsettled
          contradiction
    | some first =>
        obtain rfl : first = settlement := by
          split at hsettled
          · rw [hfirst] at hsettled
            exact Option.some.inj hsettled
          · exact Option.some.inj (hfirst.symm.trans hsettled)
        have hold := h.settled k before first hbefore hfirst
        have hid (settled : Option Settlement) :
            (if k ∈ s.pending.map (·.2) then { before with settled } else before).id =
              before.id := by
          split
          · rfl
          · rfl
        cases first with
        | refused => exact (hid _).trans hold
        | postFailed => exact fun hnone => hold ((hid _).symm.trans hnone)
        | reply j resolved => exact hold
        | timeout j => exact hold
        | workerFailed => rfl

theorem Registered.shutdownEnds (h : Registered s) (hstep : s.shutdownEnds k = some t) :
    Registered t := by
  rw [State.shutdownEnds] at hstep
  split at hstep
  · obtain rfl := Option.some.inj hstep
    exact ⟨h.requestId_le, h.distinct, h.entries, h.latest, h.owned, h.settled,
      fun hfailed => ⟨(h.emptied hfailed).1, rfl⟩⟩
  · contradiction

theorem Registered.step (h : Registered s) {a : Action} (hintime : s.RepliesInTime a)
    (hstep : s.step a = some t) : Registered t := by
  cases a with
  | assemble posts =>
      obtain rfl := Option.some.inj hstep
      exact h.assemble
  | updateConfig posts =>
      obtain rfl := Option.some.inj hstep
      exact h.updateConfig
  | shutdown posts =>
      obtain rfl := Option.some.inj hstep
      exact h.shutdown
  | reply j body => exact h.reply hintime hstep
  | timeout k => exact h.timeout hstep
  | error =>
      obtain rfl := Option.some.inj hstep
      exact h.fail
  | exit =>
      obtain rfl := Option.some.inj hstep
      exact h.fail
  | shutdownEnds k => exact h.shutdownEnds hstep

theorem Registered.integrity (h : Registered s) : s.Integrity where
  distinct := h.distinct
  owned := by
    intro k request id hk hnone hid
    have hown {k : Nat} {request : Request} (hk : s.requests[k]? = some request)
        (hnone : request.settled = none) (hid : request.id = some id) : (id, k) ∈ s.pending := by
      obtain ⟨id', hid', hmem⟩ := h.owned k request hk hnone
      obtain rfl := Option.some.inj (hid.symm.trans hid')
      exact hmem
    refine ⟨hown hk hnone hid, ?_⟩
    intro k' request' hk' hnone' hid'
    exact h.eq (hown hk' hnone' hid') (hown hk hnone hid)
  allocates hfew := by
    have hlength : (s.pending.map (·.1)).length < REQUEST_ID_MAX := by
      rw [List.length_map]
      exact hfew
    have hprobe := CyclicIds.probe_isSome h.requestId_le hlength
    rw [List.length_map] at hprobe
    exact hprobe
  settled := h.settled
  settles := by
    intro k request hk hnone
    obtain ⟨id, hid, hmem⟩ := h.owned k request hk hnone
    have hfound : (s.requests[k]?).bind (·.id) = some id := by rw [hk, Option.bind_some, hid]
    refine ⟨_, by rw [State.timeout, hfound]; exact if_pos hmem, ?_⟩
    have hsettled := requests_settle s k (.timeout k) k
    rw [hk, Option.map_some, if_pos rfl, hnone] at hsettled
    exact congrArg (Option.bind · (·.settled)) hsettled
  emptied hfailed := (h.emptied hfailed).1

theorem registered_of_init (h : system.init s) : Registered s := by
  have hinit : Initial s := h
  have hrequests (k : Nat) : s.requests[k]? = none := by
    rw [hinit.requests]
    rfl
  refine ⟨?_, ?_, ?_, ?_, ?_, ?_, ?_⟩
  · rw [hinit.requestId]
    exact Nat.zero_le _
  · rw [hinit.pending]
    exact List.nodup_nil
  · intro id k hmem
    rw [hinit.pending] at hmem
    contradiction
  · intro id k hmem
    rw [hinit.pending] at hmem
    contradiction
  · intro k request hk
    rw [hrequests] at hk
    contradiction
  · intro k request settlement hk
    rw [hrequests] at hk
    contradiction
  · intro hfailed
    rw [hinit.workerFailed] at hfailed
    contradiction

theorem registered_preserved : system.Preserved RepliesInTime Registered where
  init _ hs := registered_of_init hs
  step _ _ _ h hintime hstep := h.step hintime hstep

/-- As long as no reply comes after its id was given again, ids of entries differ and can be
allocated, each promise is settled by what belongs to its request, and a failed worker leaves no
entry. -/
theorem always_integrity (s₀ : State) (run : List Action) (init : system.init s₀)
    (intime : system.Guarded RepliesInTime s₀ run) : system.Always Integrity s₀ run :=
  (registered_preserved.always (registered_of_init init) intime).mono fun _ h => h.integrity

/-- A reply that comes later settles the promise of another request. -/
theorem not_integrity_of_stale_reply (h : Registered s) {request : Request} {body : Reply}
    (hid : (s.requests[j]?).bind (·.id) = some id) (hentry : (id, k) ∈ s.pending) (hne : j ≠ k)
    (hk : s.requests[k]? = some request) (hnone : request.settled = none) :
    ∃ t, s.reply j body = some t ∧ ¬ t.Integrity := by
  have hget : InsertionMap.get? s.pending id = some k := by
    cases hget : InsertionMap.get? s.pending id with
    | none =>
        rw [InsertionMap.get?, Option.map_eq_none_iff, List.find?_eq_none] at hget
        exact absurd (decide_eq_true rfl) (hget _ hentry)
    | some k' => rw [h.eq (mem_of_get? hget) hentry]
  refine ⟨_, by rw [State.reply, hid]; dsimp only; rw [hget], ?_⟩
  intro hintegrity
  have hsettled (resolved : Bool) : (s.settle k (.reply j resolved)).requests[k]? =
      some { request with settled := some (.reply j resolved) } := by
    rw [requests_settle, hk, Option.map_some, if_pos rfl, hnone]
    rfl
  exact hne (hintegrity.settled k _ _ (hsettled _) rfl)

/-- A dispatcher with a worker. -/
def opened : State where
  requestId := 0
  pending := []
  available := true
  hasWorker := true
  shuttingDown := false
  requests := []
  workerFailed := false

/-- An assembly times out and is answered late, a configuration is taken over twice, and the worker
fails under the last assembly. -/
def mixedRun : List Action :=
  [.assemble true, .updateConfig true, .timeout 0, .reply 1 .done, .assemble true,
    .reply 0 .result, .reply 1 .done, .error, .exit, .updateConfig true]

theorem mixedRun_integrity : system.Always Integrity opened mixedRun :=
  always_integrity opened mixedRun ⟨rfl, rfl, rfl, rfl, rfl⟩ (by decide +kernel)

/-- While the dispatcher shuts down, with a worker that works, the promise of `updateConfig` is
settled at once; so is that of an assembly that cannot be posted. Nothing was replied, no time has
run out, and no worker has failed. -/
theorem settled_without_reply :
    (∃ s, system.exec opened [.shutdown true, .updateConfig true] = some s ∧
      s.hasWorker = true ∧ s.workerFailed = false ∧
      (s.requests[1]?).bind (·.settled) = some .refused) ∧
    (∃ s, system.exec opened [.assemble false] = some s ∧ s.workerFailed = false ∧
      (s.requests[0]?).bind (·.settled) = some .postFailed) := by
  constructor
  · exact ⟨_, rfl, rfl, rfl, rfl⟩
  · exact ⟨_, rfl, rfl, rfl⟩

end State

end ErrorCore.PackageAssemblyDispatcher
