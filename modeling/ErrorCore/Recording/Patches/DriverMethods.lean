import ErrorCore.Recording.Patches.HostCall

/-!
# The patched methods of the four drivers

`src/recording/patches/pg.ts`, `mysql2.ts`, `ioredis.ts` and `mongodb.ts`, as far
as the host can notice them: what a patched method reads before and after it
calls the driver's, in which order, and what stands outside the `try` block.

A call of a pool query or of a Redis command that another patched method records
already passes through.
-/

namespace ErrorCore.Patches

open Effect

variable {V κ : Type} (values : HostValues V) (deps : Deps V κ)

/-! ## Targets -/

/-- The first of these properties that is not nullish, or the instance. -/
def targetSource (receiver : V) : List Text → Except V V
  | [] => .ok receiver
  | name :: names => do
      let source ← values.get receiver name
      if values.isNullish source then targetSource receiver names else pure source

/-- `typeof source[name] === 'string' ? source[name] : fallback`. -/
def textOr (source : V) (name fallback : Text) : Except V Text := do
  let found ← values.get source name
  pure ((values.string found).getD fallback)

/-- `scheme://host:port`. -/
def hostAndPort (source : V) (scheme port : Text) : Except V Text := do
  let host ← textOr values source "host" "localhost"
  let found ← values.get source "port"
  pure (scheme ++ "://".toList ++ host ++ ':' ::
    ((values.number found).or (values.string found)).getD port)

def databaseTarget (source : V) (scheme port database : Text) : Except V Text := do
  let target ← hostAndPort values source scheme port
  let name ← textOr values source "database" database
  pure (target ++ '/' :: name)

def getPgTarget (receiver : V) : Except V Text := do
  let source ← targetSource values receiver ["connectionParameters", "options"]
  databaseTarget values source "postgres" "5432" "postgres"

def getMysqlTarget (receiver : V) : Except V Text := do
  let source ← targetSource values receiver ["config", "connectionConfig"]
  databaseTarget values source "mysql" "3306" "mysql"

/-- `getTarget` of the ioredis patch. -/
def getRedisTarget (receiver : V) : Except V Text := do
  let source ← targetSource values receiver ["options"]
  hostAndPort values source "redis" "6379"

/-- `typeof value?.[name] === 'function'`. -/
def hasMethod (name : Text) (value : V) : Except V Bool := do
  let found ← getOptional values value name
  pure (values.isFunction found)

/-- A property that is a number. -/
def numberAt (value : V) (name : Text) : Except V (Option Text) := do
  let found ← getOptional values value name
  pure (values.number found)

/-- The index of the callback of a query. -/
def callbackIndex (args : List V) : Option Nat :=
  if (args[1]?).any values.isFunction then some 1
  else if (args[2]?).any values.isFunction then some 2
  else none

/-! ## pg -/

inductive PgQuerySource
  | client
  | pool
  deriving DecidableEq

structure QueryDetails (V : Type) where
  text : Text
  values : List V
  callbackIndex : Option Nat

/-- An object with a `text` is a configuration. -/
def isQueryConfig (first : V) : Except V Bool :=
  if values.isObject first then values.has first "text" else .ok false

def parseQueryArguments (args : List V) : Except V (QueryDetails V) := do
  let first := argument values args 0
  let second := (values.array (argument values args 1)).getD []
  if ← isQueryConfig values first then do
    let text ← values.get first "text"
    let configured ← values.get first "values"
    pure
      { text := (values.string text).getD []
        values := (values.array configured).getD second
        callbackIndex := callbackIndex values args }
  else
    pure
      { text := (values.string first).getD []
        values := second
        callbackIndex := callbackIndex values args }

def querySignature (query : QueryDetails V) : Except V Text := do
  let params ← query.values.mapM (stringifyParam values)
  pure (query.text ++ Char.ofNat 0 :: Text.join [Char.ofNat 0] params)

def createBaseEvent (target method : Text) (query : Text) (params : List V) :
    Except V (DbEvent V) := do
  let formatted ← formatParams values deps params
  pure
    { target
      method
      query := some query
      params := formatted
      collection := none
      rowCount := none
      error := none }

/-- `finish` of a query or a connection. -/
def finishPg (context : Option κ) (event : DbEvent V) (result : V)
    (error : Option (RecordedError V)) : Except V Unit :=
  finalizeEvent values deps context event true (fun result => numberAt values result "rowCount")
    result error

/-- `instrumentQuery` until the call of the original. -/
def patchedQuery (methodName : Text) (source : PgQuerySource) (receiver : V) (args : List V) :
    Except V (Option (Recorder V)) := do
  let query ← parseQueryArguments values args
  let context ← deps.getContext
  let signature ← querySignature values query
  if source = .client ∧ deps.hasActivePoolQuery context signature then pure none
  else do
    let target ← getPgTarget values receiver
    let event ← createBaseEvent values deps target methodName
      (deps.redactSensitiveQueryText query.text) query.values
    pure (some
      { callbackIndex := query.callbackIndex
        arity := some 2
        finish := finishPg values deps context event
        isOpen := hasMethod values "on"
        pushOpen := pushEvent deps context event })

/-- `instrumentConnection` until the call of the original. -/
def patchedConnection (methodName : Text) (receiver : V) (args : List V) :
    Except V (Option (Recorder V)) := do
  let context ← deps.getContext
  let target ← getPgTarget values receiver
  let event ← createBaseEvent values deps target methodName methodName []
  pure (some
    { callbackIndex := args.findIdx? values.isFunction
      arity := none
      finish := finishPg values deps context event
      isOpen := fun _ => .ok false
      pushOpen := .ok () })

/-! ## mysql2 -/

def parseArgs (args : List V) : QueryDetails V where
  text := (values.string (argument values args 0)).getD []
  values := (values.array (argument values args 1)).getD []
  callbackIndex := callbackIndex values args

/-- The affected rows, or the length of the result or of its first element. -/
def resolveMysqlRowCount (result : V) : Except V (Option Text) := do
  match ← numberAt values result "affectedRows" with
  | some rows => pure (some rows)
  | none =>
      match values.array result with
      | some rows => pure (some (toString rows.length).toList)
      | none => do
          let first ← getOptional values result "0"
          pure ((values.array first).map fun rows => (toString rows.length).toList)

/-- `instrumentMethod` of the mysql2 patch until the call of the original. -/
def patchedMysqlMethod (methodName : Text) (receiver : V) (args : List V) :
    Except V (Option (Recorder V)) := do
  let parsed := parseArgs values args
  let context ← deps.getContext
  let target ← getMysqlTarget values receiver
  let event ← createBaseEvent values deps target methodName
    (deps.redactSensitiveQueryText parsed.text) parsed.values
  pure (some
    { callbackIndex := parsed.callbackIndex
      arity := some 3
      finish := finalizeEvent values deps context event false (resolveMysqlRowCount values)
      isOpen := fun _ => .ok false
      pushOpen := .ok () })

/-! ## mongodb -/

/-- `[ key, … ]` of the documents of an array, `{ key, … }` of a document. -/
def summarizeKeys (value : V) : Except V (Option Text) :=
  match values.array value with
  | some entries => do
      let keys ← (entries.filter values.isObject).mapM values.keys
      pure (if keys.flatten.isEmpty then none
        else some ("[ ".toList ++ Text.join ", " keys.flatten ++ " ]".toList))
  | none =>
      if values.isObject value then do
        let keys ← values.keys value
        pure (some (if keys.isEmpty then "\x7b\x7d".toList
          else "\x7b ".toList ++ Text.join ", " keys ++ " \x7d".toList))
      else .ok none

/-- `formatParams` of the mongodb patch: all arguments at once. -/
def formatArguments (args : List V) : Except V (Option Text) :=
  if !deps.captureDbBindParams || args.isEmpty then .ok none
  else do
    let text ← stringifyParams values (deps.scrubValue (values.ofArray args))
    pure (some text)

/-- A count, or an acknowledged single insertion. -/
def resolveMongoRowCount (result : V) : Except V (Option Text) := do
  match ← numberAt values result "insertedCount" with
  | some count => pure (some count)
  | none =>
      match ← numberAt values result "modifiedCount" with
      | some count => pure (some count)
      | none =>
          match ← numberAt values result "deletedCount" with
          | some count => pure (some count)
          | none => do
              let acknowledged ← getOptional values result "acknowledged"
              if values.isTrue acknowledged then do
                let insertedId ← values.get result "insertedId"
                pure (if values.isUndefined insertedId then none else some "1".toList)
              else pure none

def getMongoTarget (receiver : V) : Except V Text := do
  let db ← values.get receiver "db"
  let name ← getOptional values db "databaseName"
  if values.isNullish name then pure "mongodb://mongodb".toList
  else do
    let name ← values.interpolate name
    pure ("mongodb://".toList ++ name)

/-- `instrumentMethod` of the mongodb patch until the call of the original. -/
def patchedCollectionMethod (methodName : Text) (receiver : V) (args : List V) :
    Except V (Option (Recorder V)) := do
  let context ← deps.getContext
  let target ← getMongoTarget values receiver
  let query ← summarizeKeys values (argument values args 0)
  let params ← formatArguments values deps args
  let collection ← values.get receiver "collectionName"
  let event : DbEvent V :=
    { target
      method := methodName
      query
      params
      collection := some (.read collection)
      rowCount := none
      error := none }
  pure (some
    { callbackIndex := none
      arity := none
      finish := finalizeEvent values deps context event false (resolveMongoRowCount values)
      isOpen := hasMethod values "toArray"
      pushOpen := pushEvent deps context event })

/-! ## ioredis -/

structure ParsedRedisCommand (V : Type) where
  name : Text
  args : List V

def commandFromSendCommand (command : V) : Except V (ParsedRedisCommand V) := do
  let name ← getOptional values command "name"
  let args ← getOptional values command "args"
  pure ⟨(values.string name).getD "UNKNOWN", (values.array args).getD []⟩

/-- Of the arguments the first is kept as the key, if it is a string; AUTH and HELLO keep none. -/
def createRedisEvent (receiver : V) (command : ParsedRedisCommand V) : Except V (DbEvent V) := do
  let nameUpper := deps.toUpperCase command.name
  let isCredentialCommand : Bool := nameUpper = "AUTH".toList ∨ nameUpper = "HELLO".toList
  let key :=
    if isCredentialCommand then none
    else (values.string (argument values command.args 0)).map deps.scrubCacheKey
  let target ← getRedisTarget values receiver
  pure
    { target
      method := command.name
      query := some (
        if isCredentialCommand then command.name ++ " [REDACTED]".toList
        else key.elim command.name fun key => command.name ++ ' ' :: key)
      params := none
      collection := key.map .text
      rowCount := none
      error := none }

def finalizeRedisEvent (context : Option κ) (event : DbEvent V)
    (error : Option (RecordedError V)) : Except V Unit :=
  finalizeEvent values deps context event true (fun _ => .ok none) values.undefined error

/-- `recordRedisOperation` until the call of `invoke`. -/
def recordRedisOperation (receiver : V) (command : ParsedRedisCommand V) :
    Except V (Option (Recorder V)) :=
  if deps.isRecording receiver then .ok none
  else do
    let context ← deps.getContext
    let event ← createRedisEvent values deps receiver command
    pure (some
      { callbackIndex := none
        arity := none
        finish := fun _ error => finalizeRedisEvent values deps context event error
        isOpen := fun _ => .ok false
        pushOpen := .ok () })

def patchedRedisCommand (methodName : Text) (receiver : V) (args : List V) :
    Except V (Option (Recorder V)) :=
  recordRedisOperation values deps receiver ⟨methodName, args⟩

def patchedSendCommand (receiver : V) (args : List V) : Except V (Option (Recorder V)) := do
  let command ← commandFromSendCommand values (argument values args 0)
  recordRedisOperation values deps receiver command

/-! ## Pipelines -/

def namedCommand (candidate : V) : Except V (Option (ParsedRedisCommand V)) := do
  let name ← getOptional values candidate "name"
  match values.string name with
  | none => pure none
  | some name => do
      let args ← values.get candidate "args"
      pure (some ⟨name, (values.array args).getD []⟩)

def parsePipelineQueueEntry (entry : V) : Except V (Option (ParsedRedisCommand V)) :=
  if values.isObject entry then do
    match ← namedCommand values entry with
    | some command => pure (some command)
    | none => do
        let command ← values.get entry "command"
        namedCommand values command
  else .ok none

/-- The entries of the pipeline's own queue, or what the patched methods have queued. -/
def readPipelineCommands (pipeline : V) (queuedByWrapper : List (ParsedRedisCommand V)) :
    Except V (List (ParsedRedisCommand V)) := do
  let nativeQueue ← values.get pipeline "_queue"
  match values.array nativeQueue with
  | some (entry :: entries) => do
      let commands ← (entry :: entries).mapM (parsePipelineQueueEntry values)
      pure (commands.filterMap id)
  | _ => pure queuedByWrapper

/-- `Array.isArray(row) && row[0] instanceof Error ? row[0] : undefined`. -/
def rowError (row : Option V) : Except V (Option (RecordedError V)) :=
  match row.bind values.array with
  | some (first :: _) => do
      if ← values.isError first then pure (some (.host first)) else pure none
  | _ => .ok none

/-- The events of a pipeline with the rows of its result. -/
def finishEvents (context : Option κ) (error : Option (RecordedError V)) :
    List (DbEvent V) → List V → Except V Unit
  | [], _ => .ok ()
  | event :: events, rows => do
      let failed ← rowError values rows.head?
      finalizeRedisEvent values deps context event (error.or failed)
      finishEvents context error events rows.tail

/-- The pipeline that a patched `exec` belongs to. -/
structure Pipeline (V κ : Type) where
  redisInstance : V
  target : V
  context : Option κ
  queuedByWrapper : List (ParsedRedisCommand V)

def patchedPipelineExec (pipeline : Pipeline V κ) : Except V (Option (Recorder V)) := do
  let current ← deps.getContext
  let commands ← readPipelineCommands values pipeline.target pipeline.queuedByWrapper
  let events ← commands.mapM (createRedisEvent values deps pipeline.redisInstance)
  pure (some
    { callbackIndex := none
      arity := none
      finish := fun result error =>
        finishEvents values deps (current.or pipeline.context) error events
          ((values.array result).getD [])
      isOpen := fun _ => .ok false
      pushOpen := .ok () })

/-- `REDIS_COMMAND_METHODS`. -/
def redisCommandMethods : List Text :=
  ["get", "set", "del", "exists", "expire", "ping", "hget", "hset", "hmset", "zincrby",
    "zrevrange", "xadd", "xread"].map String.toList

/-- `target[name] = function … `, if there is a function of that name. -/
def patchPipelineMethod (pipeline : V) (name : Text) : Except V Unit := do
  let original ← values.get pipeline name
  if values.isFunction original then values.assign pipeline name else pure ()

def patchPipelineInstance (pipeline : V) : Except V Unit :=
  if values.isObject pipeline then do
    let marker ← values.get pipeline "Symbol(errorcore.ioredis.pipelinePatched)"
    if values.isTrue marker then pure ()
    else do
      values.define pipeline "Symbol(errorcore.ioredis.pipelinePatched)"
      let _ ← deps.getContext
      (redisCommandMethods ++ ["exec".toList]).forM (patchPipelineMethod values pipeline)
  else .ok ()

/-- The pipeline that the driver has made is patched. -/
def patchedPipeline (original : Original V) (receiver : V) (args : List V) :
    Effect V (V × List (Passed V)) (Seen V) := do
  let pipeline ← applyOriginal original (receiver, replaceCallback none args)
  match pipeline with
  | .value found => do
      lift (patchPipelineInstance values deps found)
      pure pipeline
  | .promise _ => do
      -- a promise takes the marker and has no commands
      let _ ← lift deps.getContext
      pure pipeline

/-! ## All methods -/

/-- The patched methods of the drivers' prototypes and of a pipeline, except `pipeline` itself. -/
inductive DriverMethod (V κ : Type)
  /-- `query` of pg's `Client` and `Pool`. -/
  | pgQuery (source : PgQuerySource)
  /-- `connect` of both, and `acquire`. -/
  | pgConnection (methodName : Text)
  /-- `query` and `execute`. -/
  | mysql2 (methodName : Text)
  | mongodb (methodName : Text)
  | redisCommand (methodName : Text)
  | redisSendCommand
  | pipelineCommand
  | pipelineExec (pipeline : Pipeline V κ)

namespace DriverMethod

/-- What precedes the call of the driver's method. -/
def prepare (receiver : V) (args : List V) : DriverMethod V κ → Except V (Option (Recorder V))
  | .pgQuery source => patchedQuery values deps "query" source receiver args
  | .pgConnection methodName => patchedConnection values deps methodName receiver args
  | .mysql2 methodName => patchedMysqlMethod values deps methodName receiver args
  | .mongodb methodName => patchedCollectionMethod values deps methodName receiver args
  | .redisCommand methodName => patchedRedisCommand values deps methodName receiver args
  | .redisSendCommand => patchedSendCommand values deps receiver args
  | .pipelineCommand => .ok none
  | .pipelineExec pipeline => patchedPipelineExec values deps pipeline

/-- The arguments that are passed on: `patchedSendCommand` has one parameter. -/
def arguments (args : List V) : DriverMethod V κ → List V
  | .redisSendCommand => [argument values args 0]
  | _ => args

end DriverMethod

end ErrorCore.Patches
