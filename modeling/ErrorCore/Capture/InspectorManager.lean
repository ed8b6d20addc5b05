import ErrorCore.Capture.LocalsRingBuffer
import ErrorCore.Foundation.Transition
import ErrorCore.Pii.SensitiveKey

/-!
# Looking up the locals of an error

`InspectorManager` of `src/capture/inspector-manager.ts` finds the frames that
were captured when an error was thrown: by the tag it has put on the error, and
otherwise in steps that compare ever less of the error with the entries of the
ring buffer. The first step that has a match decides.

`Date.now()` is read again in each step; `clock` numbers the readings of a lookup.
`sha1` is the digest of `node:crypto`, in hexadecimal.
-/

namespace ErrorCore.InspectorManager

/-! ## The error -/

structure LookedUpError where
  name : Text
  message : Text
  stack : Option Text
  /-- The id under `ERRORCORE_CAPTURE_ID_SYMBOL`; a text that is no id finds nothing. -/
  captureId : Option Nat
  deriving DecidableEq, Repr

def isIdentifierStart (c : Char) : Bool :=
  isAsciiLower c || isAsciiUpper c || c = '_' || c = '$'

def isIdentifierPart (c : Char) : Bool := isIdentifierStart c || isAsciiDigit c

/-- `message.replace(/^[A-Za-z_$][\w$]*(?:Error)?:\s+/, '')`. -/
def normalizeLooseErrorMessage (message : Text) : Text :=
  match message with
  | [] => message
  | first :: _ =>
      if isIdentifierStart first then
        match message.dropWhile isIdentifierPart with
        | ':' :: space :: rest =>
            if Text.isWhitespace space then rest.dropWhile Text.isWhitespace else message
        | _ => message
      else message

/-- What comes before the last `(`. -/
def beforeLastParenthesis (line : Text) : Text :=
  ((line.reverse.dropWhile (· ≠ '(')).drop 1).reverse

/-- What is left of a reversed text after its digits and the colon before them. -/
def dropNumber (reversed : Text) : Option Text :=
  match reversed with
  | [] => none
  | first :: _ =>
      if isAsciiDigit first then
        match reversed.dropWhile isAsciiDigit with
        | ':' :: rest => some rest
        | _ => none
      else none

/-- `/^.+:\d+:\d+$/.test(line)`. -/
def isLocation (line : Text) : Bool :=
  match (dropNumber line.reverse).bind dropNumber with
  | none => false
  | some path => path ≠ [] && path.all fun c => !isLineTerminator c

/-- The function name of a line of the stack. -/
def stackFunctionName (line : Text) : Option Text :=
  let trimmed := Text.trim line
  if Text.startsWith trimmed "at " then
    let rest := Text.trim (trimmed.drop 3)
    if Text.endsWith rest ")" && beforeLastParenthesis rest ≠ [] then
      some (Text.trim (beforeLastParenthesis rest))
    else if isLocation rest then some []
    else none
  else none

def parseStackForFunctionNames (stack : Option Text) : List Text :=
  match stack with
  | none => []
  | some stack => (Text.split '\n' stack).filterMap stackFunctionName

variable (sha1 : Text → Text)

def computeStructuralHash (functionNames : List Text) : Text :=
  sha1 (Text.join [Char.ofNat 0x241f]
    (functionNames.map fun name => if name = [] then ("<anonymous>" : Text) else name))

def identityKey (requestId : Option Text) (error : LookedUpError) : IdentityKey :=
  let stackFunctions := parseStackForFunctionNames error.stack
  { requestId
    errorName := if error.name = [] then "Error" else error.name
    errorMessage := error.message
    frameCount := stackFunctions.length
    structuralHash := computeStructuralHash sha1 stackFunctions }

/-! ## Results -/

inductive MissReason
  | disabled_adaptive_guard
  | not_available
  | not_available_in_worker
  | primitive_throw
  | not_initialized
  | ambiguous_correlation
  | ambiguous_context_less_match
  | cache_miss (reason : IdentityMiss)
  deriving DecidableEq, Repr

inductive CaptureLayer
  | tag
  | identity
  deriving DecidableEq, Repr

inductive Degradation
  | exact
  | dropped_hash
  | dropped_count
  | dropped_request
  | background
  deriving DecidableEq, Repr

structure LocalsWithDiagnostics where
  frames : Option CapturedFrames
  missReason : Option MissReason
  captureLayer : Option CaptureLayer
  degradation : Option Degradation
  deriving DecidableEq, Repr

def miss (missReason : Option MissReason) : LocalsWithDiagnostics where
  frames := none
  missReason
  captureLayer := none
  degradation := none

def found (captureLayer : CaptureLayer) (degradation : Degradation)
    (entry : LocalsRingBufferEntry) : LocalsWithDiagnostics where
  frames := some entry.frames
  missReason := none
  captureLayer := some captureLayer
  degradation := some degradation

/-! ## The steps of a lookup -/

/-- How a step chooses among its matches, with the times of its selections. -/
inductive Choice
  /-- `findByIdentity`. -/
  | newest
  | sameRequest (equivalentAt newestAt : Int)
  | otherRequest (singleAt equivalentAt : Int)
  /-- The matches are the recent ones. -/
  | recent (equivalentAt : Int)
  | background
  deriving DecidableEq, Repr

inductive Decision
  | entry (entry : LocalsRingBufferEntry)
  | ambiguous (reason : MissReason)
  deriving DecidableEq, Repr

/-- Several matches among which none was selected. -/
def refuse (reason : MissReason) (candidates : List LocalsRingBufferEntry) : Option Decision :=
  if 1 < candidates.length then some (.ambiguous reason) else none

def Choice.decide (candidates : List LocalsRingBufferEntry) : Choice → Option Decision
  | newest => candidates.getLast?.map .entry
  | sameRequest equivalentAt newestAt =>
      match candidates with
      | [entry] => some (.entry entry)
      | _ =>
          match selectNewestRecentEquivalentMatch candidates equivalentAt with
          | some entry => some (.entry entry)
          | none =>
              match selectNewestRecentMatch candidates newestAt with
              | some entry => some (.entry entry)
              | none => refuse .ambiguous_correlation candidates
  | otherRequest singleAt equivalentAt =>
      match selectSingleRecentMatch candidates singleAt with
      | some entry => some (.entry entry)
      | none =>
          match selectNewestRecentEquivalentMatch candidates equivalentAt with
          | some entry => some (.entry entry)
          | none => refuse .ambiguous_correlation candidates
  | recent equivalentAt =>
      match candidates with
      | [entry] => some (.entry entry)
      | _ =>
          match selectNewestRecentEquivalentMatch candidates equivalentAt with
          | some entry => some (.entry entry)
          | none => refuse .ambiguous_correlation candidates
  | background =>
      match candidates with
      | [entry] => some (.entry entry)
      | _ => refuse .ambiguous_context_less_match candidates

structure Step where
  candidates : List LocalsRingBufferEntry
  choice : Choice
  degradation : Degradation
  deriving DecidableEq, Repr

def Step.run (step : Step) : Option LocalsWithDiagnostics :=
  (step.choice.decide step.candidates).map fun decision =>
    match decision with
    | .entry entry => found .identity step.degradation entry
    | .ambiguous reason => miss (some reason)

/-- The loosest comparison: the message without its error name, or the function that threw a value
that is no error. -/
def looksLike (key : IdentityKey) (topStackFunction : Text) (e : LocalsRingBufferEntry) : Bool :=
  normalizeLooseErrorMessage e.errorMessage = normalizeLooseErrorMessage key.errorMessage ||
    (e.errorName = ("NonErrorThrown" : Text) && topStackFunction ≠ [] &&
      (e.frames.items.head?.map (·.functionName)) = some topStackFunction)

/-- The steps in their order. -/
def lookupSteps (b : LocalsRingBuffer) (key : IdentityKey) (topStackFunction : Text)
    (clock : Nat → Int) : List Step :=
  let ofOthers := fun candidates : List LocalsRingBufferEntry =>
    candidates.filter fun e => e.requestId ≠ key.requestId
  match key.requestId with
  | some _ =>
      [{ candidates := b.identityMatches key, choice := .newest, degradation := .exact },
        { candidates := b.findByDegradedKey key
          choice := .sameRequest (clock 1) (clock 2)
          degradation := .dropped_hash },
        { candidates := b.findByLooseKey key
          choice := .sameRequest (clock 3) (clock 4)
          degradation := .dropped_count },
        { candidates := ofOthers (b.findByContentKey key)
          choice := .otherRequest (clock 5) (clock 6)
          degradation := .dropped_request },
        { candidates := ofOthers (b.findByContentDegradedKey key)
          choice := .otherRequest (clock 7) (clock 8)
          degradation := .dropped_request },
        { candidates := ofOthers (b.findByContentLooseKey key)
          choice := .otherRequest (clock 9) (clock 10)
          degradation := .dropped_request },
        { candidates :=
            ofOthers ((b.findRecentEntries (clock 11) REQUEST_MISMATCH_RECENT_MATCH_MS).filter
              (looksLike key topStackFunction))
          choice := .recent (clock 12)
          degradation := .dropped_request }]
  | none =>
      [{ candidates := b.findBackgroundMatches key
         choice := .background
         degradation := .background }]

def errorSteps (b : LocalsRingBuffer) (requestId : Option Text) (error : LookedUpError)
    (clock : Nat → Int) : List Step :=
  lookupSteps b (identityKey sha1 requestId error)
    ((parseStackForFunctionNames error.stack).headD []) clock

def layer2Lookup (b : LocalsRingBuffer) (requestId : Option Text) (error : LookedUpError)
    (clock : Nat → Int) : LocalsWithDiagnostics :=
  ((errorSteps sha1 b requestId error clock).findSome? Step.run).getD
    (miss (some (.cache_miss (b.diagnoseIdentityMiss (identityKey sha1 requestId error)))))

/-- What a lookup needs. -/
structure Readiness where
  captureLocalVariables : Bool
  guardTripped : Bool
  available : Bool
  mainThread : Bool
  /-- The thrown value is an object. -/
  object : Bool
  initialized : Bool
  deriving DecidableEq, Repr

/-- Why nothing is looked up. -/
def Readiness.missReason (ready : Readiness) : Option MissReason :=
  if ready.guardTripped then some .disabled_adaptive_guard
  else if !ready.available then some .not_available
  else if !ready.mainThread then some .not_available_in_worker
  else if !ready.object then some .primitive_throw
  else if !ready.initialized then some .not_initialized
  else none

/-- The entry of the tag. -/
def taggedEntry (b : LocalsRingBuffer) (error : LookedUpError) : Option LocalsRingBufferEntry :=
  error.captureId.bind b.getById

def getLocalsWithDiagnostics (b : LocalsRingBuffer) (ready : Readiness) (requestId : Option Text)
    (error : LookedUpError) (clock : Nat → Int) : LocalsWithDiagnostics × LocalsRingBuffer :=
  if !ready.captureLocalVariables then (miss none, b)
  else
    let b := b.pruneExpired (clock 0)
    match ready.missReason with
    | some reason => (miss (some reason), b)
    | none =>
        match taggedEntry b error with
        | some entry => (found .tag .exact entry, b.consumeFrames entry.frames)
        | none =>
            let result := layer2Lookup sha1 b requestId error clock
            match result.frames with
            | none => (result, b)
            | some frames => (result, b.consumeFrames frames)

/-! ## The manager over time -/

structure State where
  ringBuffer : LocalsRingBuffer
  /-- The ids of the pauses whose frames are still collected. -/
  collecting : List Nat
  /-- The arrays that lookups have returned. -/
  returned : List Nat
  deriving DecidableEq, Repr

/-- What a pause knows of its exception, and the frames it has collected. -/
structure Capture where
  requestId : Option Text
  errorName : Text
  errorMessage : Text
  callFrames : List Text
  frames : List CapturedFrame
  deriving DecidableEq, Repr

inductive Action
  /-- The debugger pauses at a time and an id is allocated. -/
  | pause (now : Int)
  /-- `storeCollectedFrames` of a pause. -/
  | store (id : Nat) (capture : Capture) (now : Int)
  | resize (capacity : Nat)
  | lookup (ready : Readiness) (requestId : Option Text) (error : LookedUpError)
      (clock : Nat → Int)

namespace State

variable (s : State)

def pause (now : Int) : State :=
  let (ringBuffer, captureId) := (s.ringBuffer.pruneExpired now).allocateId
  { s with ringBuffer, collecting := s.collecting ++ [captureId] }

/-- The frames of a pause are stored once, if there are any. -/
def store (id : Nat) (capture : Capture) (now : Int) : Option State :=
  if id ∈ s.collecting then
    let stored := { s with collecting := s.collecting.erase id }
    let entry : LocalsRingBufferEntry :=
      { id
        requestId := capture.requestId
        errorName := capture.errorName
        errorMessage := capture.errorMessage
        frameCount := capture.callFrames.length
        structuralHash := computeStructuralHash sha1 capture.callFrames
        frames := { array := id, items := capture.frames }
        createdAt := now }
    if capture.frames = [] then some stored
    else some { stored with ringBuffer := s.ringBuffer.push entry }
  else none

def lookup (ready : Readiness) (requestId : Option Text) (error : LookedUpError)
    (clock : Nat → Int) : LocalsWithDiagnostics × State :=
  let (result, ringBuffer) :=
    getLocalsWithDiagnostics sha1 s.ringBuffer ready requestId error clock
  (result,
    { s with
      ringBuffer
      returned := s.returned ++ (result.frames.map (·.array)).toList })

def step : Action → Option State
  | .pause now => some (s.pause now)
  | .store id capture now => s.store sha1 id capture now
  | .resize capacity => some { s with ringBuffer := s.ringBuffer.resize capacity }
  | .lookup ready requestId error clock => some (s.lookup sha1 ready requestId error clock).2

end State

/-- A new manager. -/
def new (capacity ttlMs : Nat) : State where
  ringBuffer := { capacity, ttlMs, entries := [], nextId := 0 }
  collecting := []
  returned := []

def system : Transition.System State Action where
  init s := ∃ capacity ttlMs, s = new capacity ttlMs
  step s a := s.step sha1 a

end ErrorCore.InspectorManager
