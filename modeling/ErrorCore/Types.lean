import ErrorCore.Foundation.Text

/-!
# IO events

The records of `src/types.ts` that recorders fill and the buffer keeps. Fields
that no modelled function reads or resets (time stamps other than `startTime`,
the method, the URL, the status code and the descriptor) are left out.
-/

namespace ErrorCore

inductive IOEventPhase
  | active
  | done
  deriving DecidableEq, Repr

inductive IOEventType
  | httpServer
  | httpClient
  | undici
  | dbQuery
  | dns
  | tcp
  | cacheRead
  deriving DecidableEq, Repr

inductive IODirection
  | inbound
  | outbound
  deriving DecidableEq, Repr

/-- A captured body: a decoded string, or the bytes of a `Buffer`. -/
inductive Body
  | string (text : Text)
  | buffer (bytes : List UInt8)
  deriving DecidableEq, Repr

/-- `body.length`: code units of a string, bytes of a buffer. -/
def Body.length : Body → Nat
  | .string text => Text.utf16Length text
  | .buffer bytes => bytes.length

inductive PayloadStorageMode
  | spool
  | preview
  deriving DecidableEq, Repr

structure PayloadBlobRef where
  blobId : Text
  storage : PayloadStorageMode
  requestId : Option Text
  lineageId : Option Text
  mimeType : Option Text
  size : Nat
  capturedSize : Nat
  sha256 : Text
  previewBytes : Nat
  previewTruncated : Bool
  reason : Option Text
  deriving DecidableEq, Repr

structure EventError where
  type : Text
  message : Text
  deriving DecidableEq, Repr

structure DbMeta where
  query : Option Text
  params : Option Text
  rowCount : Option (Option Nat)
  collection : Option Text
  deriving DecidableEq, Repr

abbrev Headers := List (Text × Text)

structure PushableIOEvent where
  phase : IOEventPhase
  startTime : Int
  type : IOEventType
  direction : IODirection
  requestId : Option Text
  contextLost : Bool
  target : Text
  requestHeaders : Option Headers
  responseHeaders : Option Headers
  requestBody : Option Body
  responseBody : Option Body
  requestBodyDigest : Option Text
  responseBodyDigest : Option Text
  requestPayloadRef : Option PayloadBlobRef
  responsePayloadRef : Option PayloadBlobRef
  requestBodyTruncated : Bool
  responseBodyTruncated : Bool
  requestBodyOriginalSize : Option Nat
  responseBodyOriginalSize : Option Nat
  error : Option EventError
  aborted : Bool
  dbMeta : Option DbMeta
  deriving DecidableEq, Repr

structure IOEventSlot extends PushableIOEvent where
  seq : Nat
  estimatedBytes : Nat
  deriving DecidableEq, Repr

structure EvictionRecord where
  seq : Nat
  type : IOEventType
  direction : IODirection
  target : Text
  requestId : Option Text
  startTime : Int
  evictedAt : Int
  deriving DecidableEq, Repr

end ErrorCore
