import ErrorCore.Foundation.Except
import ErrorCore.Recording.Patches.DriverMethods

/-!
# What precedes the call of the driver

The first part of a patched method stands outside its `try` block. It comes to an
end if the properties of the host's values that it reads can be read, the
parameters of a pg query can be converted to texts, and the components of the
recorder that it calls do not throw.
-/

namespace ErrorCore.Patches

open Effect
open Except (bind_eq_ok Succeeds succeeds_ok succeeds_bind succeeds_bind_of_forall
  succeeds_bind_of_succeeds succeeds_mapM)

variable {V κ : Type} (values : HostValues V) (deps : Deps V κ)

/-! ## Parameters -/

/-- `JSON.stringify` or `String` makes a text of the value. -/
def CanStringify (value : V) : Prop :=
  (∃ text, values.stringify value = .ok (some text)) ∨ Succeeds (values.toText value)

theorem stringifyParams_succeeds_iff (value : V) :
    Succeeds (stringifyParams values value) ↔ CanStringify values value := by
  unfold stringifyParams CanStringify
  split
  · rename_i text htext
    exact iff_of_true (succeeds_ok text) (.inl ⟨text, htext⟩)
  · rename_i hnone
    refine ⟨.inr, fun h => h.resolve_left ?_⟩
    rintro ⟨text, htext⟩
    exact hnone text htext

theorem stringifyParam_succeeds_iff (value : V) :
    Succeeds (stringifyParam values value) ↔
      (values.string value).isSome ∨ CanStringify values value := by
  unfold stringifyParam
  cases values.string value with
  | some text => exact iff_of_true (succeeds_ok text) (.inl rfl)
  | none =>
      rw [← stringifyParams_succeeds_iff]
      exact ⟨.inr, fun h => h.resolve_left Bool.false_ne_true⟩

theorem querySignature_succeeds_iff (query : QueryDetails V) :
    Succeeds (querySignature values query) ↔
      ∀ value ∈ query.values, (values.string value).isSome ∨ CanStringify values value := by
  refine (succeeds_bind_of_succeeds fun _ => succeeds_ok _).trans ?_
  rw [succeeds_mapM]
  exact forall₂_congr fun value _ => stringifyParam_succeeds_iff values value

/-- The parameters are not captured, or each has a text once it is scrubbed. -/
def ParamsQuiet (params : List V) : Prop :=
  deps.captureDbBindParams = true → ∀ value ∈ params,
    (values.string (deps.scrubValue value)).isSome ∨ CanStringify values (deps.scrubValue value)

theorem formatParam_succeeds_iff (value : V) :
    Succeeds (formatParam values deps value) ↔
      (values.string (deps.scrubValue value)).isSome ∨
        CanStringify values (deps.scrubValue value) := by
  unfold formatParam
  cases hstring : values.string (deps.scrubValue value) with
  | some text => exact iff_of_true (succeeds_ok _) (.inl rfl)
  | none => rw [stringifyParam_succeeds_iff, hstring]

theorem formatParams_succeeds_iff (params : List V) :
    Succeeds (formatParams values deps params) ↔ ParamsQuiet values deps params := by
  unfold formatParams ParamsQuiet
  split
  · rename_i hempty
    refine iff_of_true (succeeds_ok _) fun _ value h => ?_
    rw [List.isEmpty_iff.mp hempty] at h
    exact absurd h List.not_mem_nil
  · split
    · rename_i hcapture
      rw [forall_prop_of_true hcapture]
      refine (succeeds_bind_of_succeeds fun _ => succeeds_ok _).trans ?_
      rw [succeeds_mapM]
      exact forall₂_congr fun value _ => formatParam_succeeds_iff values deps value
    · rename_i hcapture
      exact iff_of_true (succeeds_ok _) fun h => absurd h hcapture

theorem createBaseEvent_succeeds_iff (target method query : Text) (params : List V) :
    Succeeds (createBaseEvent values deps target method query params) ↔
      ParamsQuiet values deps params := by
  refine (succeeds_bind_of_succeeds fun _ => succeeds_ok _).trans ?_
  rw [formatParams_succeeds_iff]

theorem formatArguments_succeeds_iff (args : List V) :
    Succeeds (formatArguments values deps args) ↔
      (deps.captureDbBindParams = true → args ≠ [] →
        CanStringify values (deps.scrubValue (values.ofArray args))) := by
  unfold formatArguments
  split
  · rename_i hcond
    refine iff_of_true (succeeds_ok _) fun hcapture hargs => ?_
    rw [hcapture, Bool.not_true, Bool.false_or, List.isEmpty_iff] at hcond
    exact absurd hcond hargs
  · rename_i hcond
    rw [Bool.or_eq_true, Bool.not_eq_true', List.isEmpty_iff, not_or, Bool.not_eq_false] at hcond
    refine (succeeds_bind_of_succeeds fun _ => succeeds_ok _).trans ?_
    rw [stringifyParams_succeeds_iff]
    exact ⟨fun h _ _ => h, fun h => h hcond.1 hcond.2⟩

/-! ## Methods -/

/-- A Redis operation is recorded already, or its event can be made. -/
def RedisQuiet (receiver : V) : Prop :=
  deps.isRecording receiver = true ∨
    Succeeds deps.getContext ∧ Succeeds (getRedisTarget values receiver)

/-- Nothing throws before the call of the driver's method. -/
def Prepared (receiver : V) (args : List V) : DriverMethod V κ → Prop
  | .pgQuery source =>
      ∃ query, parseQueryArguments values args = .ok query ∧
        ∃ context, deps.getContext = .ok context ∧
        (∀ value ∈ query.values, (values.string value).isSome ∨ CanStringify values value) ∧
        ((source = .client ∧ ∃ signature, querySignature values query = .ok signature ∧
            deps.hasActivePoolQuery context signature = true) ∨
          Succeeds (getPgTarget values receiver) ∧ ParamsQuiet values deps query.values)
  | .pgConnection _ => Succeeds deps.getContext ∧ Succeeds (getPgTarget values receiver)
  | .mysql2 _ =>
      Succeeds deps.getContext ∧ Succeeds (getMysqlTarget values receiver) ∧
        ParamsQuiet values deps (parseArgs values args).values
  | .mongodb _ =>
      Succeeds deps.getContext ∧ Succeeds (getMongoTarget values receiver) ∧
        Succeeds (summarizeKeys values (argument values args 0)) ∧
        (deps.captureDbBindParams = true → args ≠ [] →
          CanStringify values (deps.scrubValue (values.ofArray args))) ∧
        Succeeds (values.get receiver "collectionName")
  | .redisCommand _ => RedisQuiet values deps receiver
  | .redisSendCommand =>
      Succeeds (commandFromSendCommand values (argument values args 0)) ∧
        RedisQuiet values deps receiver
  | .pipelineCommand => True
  | .pipelineExec pipeline =>
      Succeeds deps.getContext ∧
        ∃ commands, readPipelineCommands values pipeline.target pipeline.queuedByWrapper =
            .ok commands ∧
          (commands ≠ [] → Succeeds (getRedisTarget values pipeline.redisInstance))

theorem createRedisEvent_succeeds_iff (receiver : V) (command : ParsedRedisCommand V) :
    Succeeds (createRedisEvent values deps receiver command) ↔
      Succeeds (getRedisTarget values receiver) :=
  succeeds_bind_of_succeeds fun _ => succeeds_ok _

theorem recordRedisOperation_succeeds_iff (receiver : V) (command : ParsedRedisCommand V) :
    Succeeds (recordRedisOperation values deps receiver command) ↔
      RedisQuiet values deps receiver := by
  unfold recordRedisOperation RedisQuiet
  split
  · rename_i hrecording
    exact iff_of_true (succeeds_ok _) (.inl hrecording)
  · rename_i hrecording
    rw [or_iff_right hrecording]
    refine succeeds_bind_of_forall fun context => ?_
    refine (succeeds_bind_of_succeeds fun _ => succeeds_ok _).trans ?_
    rw [createRedisEvent_succeeds_iff]

/-- A pg query after its context has been read. -/
theorem patchedQuery_rest_succeeds_iff {query : QueryDetails V} {context : Option κ}
    {source : PgQuerySource} {receiver : V} {methodName text : Text} {found : Except V Text}
    {r : DbEvent V → Recorder V} :
    Succeeds (found >>= fun signature =>
        if source = .client ∧ deps.hasActivePoolQuery context signature then .ok none
        else getPgTarget values receiver >>= fun target =>
          createBaseEvent values deps target methodName text query.values >>= fun event =>
            (.ok (some (r event)) : Except V (Option (Recorder V)))) ↔
      Succeeds found ∧
        ((source = .client ∧ ∃ signature, found = .ok signature ∧
            deps.hasActivePoolQuery context signature = true) ∨
          Succeeds (getPgTarget values receiver) ∧ ParamsQuiet values deps query.values) := by
  have hrest : Succeeds (getPgTarget values receiver >>= fun target =>
        createBaseEvent values deps target methodName text query.values >>= fun event =>
          (.ok (some (r event)) : Except V (Option (Recorder V)))) ↔
      Succeeds (getPgTarget values receiver) ∧ ParamsQuiet values deps query.values := by
    refine succeeds_bind_of_forall fun target => ?_
    refine (succeeds_bind_of_succeeds fun _ => succeeds_ok _).trans ?_
    rw [createBaseEvent_succeeds_iff]
  rw [succeeds_bind]
  constructor
  · rintro ⟨signature, hsignature, h⟩
    refine ⟨⟨signature, hsignature⟩, ?_⟩
    split at h
    · rename_i hactive
      exact .inl ⟨hactive.1, signature, hsignature, hactive.2⟩
    · exact .inr (hrest.mp h)
  · rintro ⟨⟨signature, hsignature⟩, h⟩
    refine ⟨signature, hsignature, ?_⟩
    split
    · exact succeeds_ok none
    · rename_i hactive
      refine hrest.mpr (h.resolve_left ?_)
      rintro ⟨hsource, signature', h', hactive'⟩
      obtain rfl := Except.ok.inj (hsignature.symm.trans h')
      exact hactive ⟨hsource, hactive'⟩

theorem prepare_succeeds_iff (receiver : V) (args : List V) (method : DriverMethod V κ) :
    Succeeds (method.prepare values deps receiver args) ↔
      Prepared values deps receiver args method := by
  cases method with
  | pgQuery source =>
      refine succeeds_bind.trans (exists_congr fun query => and_congr_right fun _ => ?_)
      refine succeeds_bind.trans (exists_congr fun context => and_congr_right fun _ => ?_)
      rw [← querySignature_succeeds_iff]
      exact patchedQuery_rest_succeeds_iff values deps
  | pgConnection methodName =>
      refine succeeds_bind_of_forall fun context => ?_
      exact succeeds_bind_of_succeeds fun target => succeeds_bind.mpr ⟨_, rfl, succeeds_ok _⟩
  | mysql2 methodName =>
      refine succeeds_bind_of_forall fun context => succeeds_bind_of_forall fun target => ?_
      refine (succeeds_bind_of_succeeds fun _ => succeeds_ok _).trans ?_
      rw [createBaseEvent_succeeds_iff]
  | mongodb methodName =>
      refine succeeds_bind_of_forall fun context => succeeds_bind_of_forall fun target =>
        succeeds_bind_of_forall fun query => ?_
      rw [← formatArguments_succeeds_iff]
      refine succeeds_bind_of_forall fun params => ?_
      exact succeeds_bind_of_succeeds fun _ => succeeds_ok _
  | redisCommand methodName => exact recordRedisOperation_succeeds_iff values deps receiver _
  | redisSendCommand =>
      exact succeeds_bind_of_forall fun command =>
        recordRedisOperation_succeeds_iff values deps receiver command
  | pipelineCommand => exact iff_true_intro (succeeds_ok _)
  | pipelineExec pipeline =>
      refine succeeds_bind_of_forall fun current => ?_
      refine succeeds_bind.trans (exists_congr fun commands => and_congr_right fun _ => ?_)
      refine (succeeds_bind_of_succeeds fun _ => succeeds_ok _).trans ?_
      rw [succeeds_mapM]
      simp only [createRedisEvent_succeeds_iff]
      refine ⟨fun h hne => ?_, fun h command hcommand => h (List.ne_nil_of_mem hcommand)⟩
      obtain ⟨command, hcommand⟩ := List.exists_mem_of_ne_nil commands hne
      exact h command hcommand

/-! ## Callbacks -/

theorem callbackIndex_isFunction {args : List V} {i : Nat}
    (h : callbackIndex values args = some i) : (args[i]?).any values.isFunction = true := by
  unfold callbackIndex at h
  split at h
  · rename_i hfunction
    rwa [← Option.some.inj h]
  · split at h
    · rename_i hfunction
      rwa [← Option.some.inj h]
    · cases h

theorem parseQueryArguments_callbackIndex {args : List V} {query : QueryDetails V}
    (h : parseQueryArguments values args = .ok query) :
    query.callbackIndex = callbackIndex values args := by
  obtain ⟨isConfig, -, h⟩ := bind_eq_ok.mp h
  cases isConfig with
  | true =>
      obtain ⟨text, -, h⟩ := bind_eq_ok.mp h
      obtain ⟨configured, -, h⟩ := bind_eq_ok.mp h
      rw [← Except.ok.inj h]
  | false => rw [← Except.ok.inj h]

theorem recordRedisOperation_callbackIndex {receiver : V} {command : ParsedRedisCommand V}
    {r : Recorder V} (h : recordRedisOperation values deps receiver command = .ok (some r)) :
    r.callbackIndex = none := by
  unfold recordRedisOperation at h
  split at h
  · cases h
  · obtain ⟨context, -, h⟩ := bind_eq_ok.mp h
    obtain ⟨event, -, h⟩ := bind_eq_ok.mp h
    rw [← Option.some.inj (Except.ok.inj h)]

/-- The methods of pg and mysql2 replace a function; the others replace nothing. -/
theorem prepare_callbackIndex {method : DriverMethod V κ} {receiver : V} {args : List V}
    {r : Recorder V} {i : Nat} (h : method.prepare values deps receiver args = .ok (some r))
    (hi : r.callbackIndex = some i) :
    (args[i]?).any values.isFunction = true ∧ method.arguments values args = args := by
  cases method with
  | pgQuery source =>
      refine ⟨?_, rfl⟩
      obtain ⟨query, hquery, h⟩ := bind_eq_ok.mp h
      obtain ⟨context, -, h⟩ := bind_eq_ok.mp h
      obtain ⟨signature, -, h⟩ := bind_eq_ok.mp h
      split at h
      · cases h
      · obtain ⟨target, -, h⟩ := bind_eq_ok.mp h
        obtain ⟨event, -, h⟩ := bind_eq_ok.mp h
        rw [← Option.some.inj (Except.ok.inj h)] at hi
        exact callbackIndex_isFunction values (parseQueryArguments_callbackIndex values hquery ▸ hi)
  | pgConnection methodName =>
      refine ⟨?_, rfl⟩
      obtain ⟨context, -, h⟩ := bind_eq_ok.mp h
      obtain ⟨target, -, h⟩ := bind_eq_ok.mp h
      obtain ⟨event, -, h⟩ := bind_eq_ok.mp h
      rw [← Option.some.inj (Except.ok.inj h)] at hi
      obtain ⟨hlt, hfunction, -⟩ := List.findIdx?_eq_some_iff_getElem.mp hi
      rw [List.getElem?_eq_getElem hlt]
      exact hfunction
  | mysql2 methodName =>
      refine ⟨?_, rfl⟩
      obtain ⟨context, -, h⟩ := bind_eq_ok.mp h
      obtain ⟨target, -, h⟩ := bind_eq_ok.mp h
      obtain ⟨event, -, h⟩ := bind_eq_ok.mp h
      rw [← Option.some.inj (Except.ok.inj h)] at hi
      exact callbackIndex_isFunction values hi
  | mongodb methodName =>
      obtain ⟨context, -, h⟩ := bind_eq_ok.mp h
      obtain ⟨target, -, h⟩ := bind_eq_ok.mp h
      obtain ⟨query, -, h⟩ := bind_eq_ok.mp h
      obtain ⟨params, -, h⟩ := bind_eq_ok.mp h
      obtain ⟨collection, -, h⟩ := bind_eq_ok.mp h
      rw [← Option.some.inj (Except.ok.inj h)] at hi
      cases hi
  | redisCommand methodName =>
      rw [recordRedisOperation_callbackIndex values deps h] at hi
      cases hi
  | redisSendCommand =>
      obtain ⟨command, -, h⟩ := bind_eq_ok.mp h
      rw [recordRedisOperation_callbackIndex values deps h] at hi
      cases hi
  | pipelineCommand => cases h
  | pipelineExec pipeline =>
      obtain ⟨current, -, h⟩ := bind_eq_ok.mp h
      obtain ⟨commands, -, h⟩ := bind_eq_ok.mp h
      obtain ⟨events, -, h⟩ := bind_eq_ok.mp h
      rw [← Option.some.inj (Except.ok.inj h)] at hi
      cases hi

end ErrorCore.Patches
