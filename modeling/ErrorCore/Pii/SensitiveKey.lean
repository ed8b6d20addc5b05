import ErrorCore.Foundation.Text

/-!
# Keys the scrubber knows

`matchesSensitiveKey` of `src/pii/scrubber.ts` with the patterns of
`src/pii/patterns.ts`, and the exemptions from it: header names whose values are
operational, and the places of an error package that the SDK fills itself.

None of the words of `SENSITIVE_KEY_REGEX` contains one of the separators `-`,
`_` and `.`, so its first alternative asks whether one of the pieces between
separators is such a word.
-/

namespace ErrorCore

def isAsciiLower (c : Char) : Bool := 'a' ≤ c && c ≤ 'z'

def isAsciiUpper (c : Char) : Bool := 'A' ≤ c && c ≤ 'Z'

def isAsciiDigit (c : Char) : Bool := '0' ≤ c && c ≤ '9'

/-- `key.replace(/([a-z0-9])([A-Z])/g, '$1-$2')`. -/
def splitCamelCase : Text → Text
  | [] => []
  | [c] => [c]
  | c :: next :: rest =>
      if (isAsciiLower c || isAsciiDigit c) && isAsciiUpper next then
        c :: '-' :: splitCamelCase (next :: rest)
      else
        c :: splitCamelCase (next :: rest)

def normalizeKey (key : Text) : Text := Text.toLowerCase (splitCamelCase key)

def SENSITIVE_KEY_EXACT_MATCHES : List Text :=
  ["pass", "password", "passcode", "passphrase", "passwd", "secret", "token", "key", "auth",
    "authorization", "credential", "ssn", "cvv", "cvc", "phone", "session", "cookie", "oauth",
    "private"]

/-- The words of the first alternative of `SENSITIVE_KEY_REGEX`. -/
def sensitiveKeyWords : List Text :=
  ["pass", "password", "passwords", "passcode", "passcodes", "passphrase", "passphrases", "passwd",
    "secret", "secrets", "token", "tokens", "key", "keys", "auth", "authorization",
    "authorisation", "credential", "credentials", "ssn", "cvv", "cvc", "expir", "expiry",
    "expiration", "phone", "session", "cookie", "oauth", "private"]

def isKeySeparator (c : Char) : Bool := c = '-' || c = '_' || c = '.'

def isLineTerminator (c : Char) : Bool :=
  c = '\n' || c = '\r' || c.toNat = 0x2028 || c.toNat = 0x2029

/-- `/first.*second/`. -/
def includesInOrder (text first second : Text) : Bool :=
  text.tails.any fun tail =>
    first.isPrefixOf tail &&
      Text.includes ((tail.drop first.length).takeWhile (!isLineTerminator ·)) second

def matchesSensitiveKey (key : Text) : Bool :=
  let normalizedKey := normalizeKey key
  normalizedKey ∈ SENSITIVE_KEY_EXACT_MATCHES ||
    ((normalizedKey.splitOnP isKeySeparator).any (· ∈ sensitiveKeyWords) ||
      includesInOrder normalizedKey "social" "security" ||
      includesInOrder normalizedKey "credit" "card" || includesInOrder normalizedKey "card" "number")

/-! ## Exemptions -/

def SENSITIVE_KEY_EXACT_VALUE_PASSTHROUGH : List Text :=
  ["idempotency-key", "x-idempotency-key", "x-correlation-id", "x-request-id", "x-trace-id",
    "traceparent", "tracestate", "retry-after", "etag", "if-match", "if-none-match", "range"]

/-- The value of the key is passed through whatever it is. -/
def isValuePassthrough (key : Text) : Bool :=
  Text.toLowerCase key ∈ SENSITIVE_KEY_EXACT_VALUE_PASSTHROUGH

def ROOT_INFRASTRUCTURE_KEYS_PASSTHROUGH : List Text :=
  ["errorEventHrtimeNs", "wallClockMs", "durationMs", "eventLoopLagMs", "errorEventSeq",
    "capturedAt", "producedAt", "receivedAt", "fingerprint", "eventId"]

def IO_EVENT_INFRASTRUCTURE_KEYS_PASSTHROUGH : List Text :=
  ["hrtimeNs", "startTime", "endTime", "seq", "durationMs", "statusCode", "fd",
    "requestBodyOriginalSize", "responseBodyOriginalSize"]

def EVICTION_INFRASTRUCTURE_KEYS_PASSTHROUGH : List Text := ["seq", "startTime", "evictedAt"]

def STATE_EVENT_INFRASTRUCTURE_KEYS_PASSTHROUGH : List Text := ["seq", "hrtimeNs", "timestamp"]

def ROOT_SDK_PACKAGE_ARRAY_KEYS : List Text :=
  ["ioTimeline", "evictionLog", "stateReads", "stateWrites", "concurrentRequests",
    "localVariables"]

def PROCESS_INFRASTRUCTURE_KEYS_PASSTHROUGH : List Text :=
  ["pid", "ppid", "uptime", "rss", "heapTotal", "heapUsed", "external", "arrayBuffers",
    "activeHandles", "activeRequests", "eventLoopLagMs", "wallClockMs", "hrtimeNs"]

def LOCAL_FRAME_INFRASTRUCTURE_KEYS_PASSTHROUGH : List Text :=
  ["lineNumber", "columnNumber", "_overflow", "_type", "className"]

/-- `/^\d+$/` on `path[index]`. -/
def isArrayIndexPathSegment (path : List Text) (index : Nat) : Bool :=
  path[index]?.any fun segment => !segment.isEmpty && segment.all isAsciiDigit

/-- `path[index] === name`. -/
def segmentIs (path : List Text) (index : Nat) (name : Text) : Bool := path[index]? = some name

def isSdkPackageArrayPath (path : List Text) : Bool :=
  if path.length = 1 ∧ path.all (· ∈ ROOT_SDK_PACKAGE_ARRAY_KEYS) then true
  else if ¬ segmentIs path 0 "localVariables" ∨ ¬ isArrayIndexPathSegment path 1 then false
  else if path.length = 3 then segmentIs path 2 "scopes" || segmentIs path 2 "arguments"
  else
    path.length = 5 && segmentIs path 2 "scopes" && isArrayIndexPathSegment path 3 &&
      segmentIs path 4 "bindings"

/-- The branches of `isSdkInfrastructurePath`, for the last segment of the path. -/
def isSdkInfrastructureKey (path : List Text) (key : Text) : Bool :=
  if path.length = 1 then key ∈ ROOT_INFRASTRUCTURE_KEYS_PASSTHROUGH
  else if segmentIs path 0 "eventClockRange" ∧ path.length = 2 then
    key ∈ (["min", "max"] : List Text)
  else if segmentIs path 0 "timeAnchor" ∧ path.length = 2 then
    key ∈ (["wallClockMs", "hrtimeNs"] : List Text)
  else if segmentIs path 0 "ioTimeline" ∧ path.length = 3 ∧ isArrayIndexPathSegment path 1 then
    key ∈ IO_EVENT_INFRASTRUCTURE_KEYS_PASSTHROUGH
  else if segmentIs path 0 "evictionLog" ∧ path.length = 3 ∧ isArrayIndexPathSegment path 1 then
    key ∈ EVICTION_INFRASTRUCTURE_KEYS_PASSTHROUGH
  else if (segmentIs path 0 "stateReads" ∨ segmentIs path 0 "stateWrites") ∧ path.length = 3 ∧
      isArrayIndexPathSegment path 1 then
    key ∈ STATE_EVENT_INFRASTRUCTURE_KEYS_PASSTHROUGH
  else if segmentIs path 0 "processMetadata" then key ∈ PROCESS_INFRASTRUCTURE_KEYS_PASSTHROUGH
  else if segmentIs path 0 "ambientContext" then
    key ∈ (["totalBufferEventsAtCapture", "seqGaps", "retrievedCount", "min", "max"] : List Text)
  else if segmentIs path 0 "localVariables" ∧ isArrayIndexPathSegment path 1 then
    path.length = 3 && key ∈ LOCAL_FRAME_INFRASTRUCTURE_KEYS_PASSTHROUGH
  else
    segmentIs path 0 "ioTimeline" && segmentIs path 2 "dbMeta" && key ∈ (["rowCount"] : List Text)

def isSdkInfrastructurePath (path : List Text) : Bool :=
  path.getLast?.any (isSdkInfrastructureKey path)

end ErrorCore
