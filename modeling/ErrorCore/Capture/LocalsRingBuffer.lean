import ErrorCore.Foundation.Text

/-!
# The ring buffer of captured locals

`LocalsRingBuffer` of `src/capture/inspector-manager.ts` keeps the frames that
were captured while an exception was thrown until an error is looked up. The
array of frames of an entry is known by its number: `consumeFrames` compares
arrays, and each pause of the debugger makes a new one under a new id.

The selections choose among entries that match a key.
-/

namespace ErrorCore

/-- What correlation reads of a captured frame. -/
structure CapturedFrame where
  functionName : Text
  filePath : Text
  lineNumber : Nat
  columnNumber : Nat
  deriving DecidableEq, Repr

/-- An array of frames. -/
structure CapturedFrames where
  array : Nat
  items : List CapturedFrame
  deriving DecidableEq, Repr

structure LocalsRingBufferEntry where
  id : Nat
  /-- `none` where the frames were captured outside of a request. -/
  requestId : Option Text
  errorName : Text
  errorMessage : Text
  frameCount : Nat
  structuralHash : Text
  frames : CapturedFrames
  createdAt : Int
  deriving DecidableEq, Repr

structure LocalsRingBuffer where
  capacity : Nat
  ttlMs : Nat
  entries : List LocalsRingBufferEntry
  nextId : Nat
  deriving DecidableEq, Repr

/-- What an error is looked up by. -/
structure IdentityKey where
  requestId : Option Text
  errorName : Text
  errorMessage : Text
  frameCount : Nat
  structuralHash : Text
  deriving DecidableEq, Repr

inductive IdentityMiss
  | cache_empty
  | requestId_mismatch
  | name_mismatch
  | message_mismatch
  | frame_count_mismatch
  | hash_mismatch
  deriving DecidableEq, Repr

def LOCALS_CACHE_TTL_MS : Nat := 30000

def REQUEST_MISMATCH_RECENT_MATCH_MS : Nat := 1000

/-- The entry is not from the future and at most `maxAgeMs` old. -/
def LocalsRingBufferEntry.within (e : LocalsRingBufferEntry) (now : Int) (maxAgeMs : Nat) : Bool :=
  let ageMs := now - e.createdAt
  0 ≤ ageMs && ageMs ≤ maxAgeMs

namespace LocalsRingBuffer

section Operations

variable (b : LocalsRingBuffer)

def allocateId : LocalsRingBuffer × Nat := ({ b with nextId := b.nextId + 1 }, b.nextId + 1)

/-- `while (this.entries.length > this.capacity) this.entries.shift()`. -/
def shift : LocalsRingBuffer :=
  { b with entries := b.entries.drop (b.entries.length - b.capacity) }

def pruneExpired (now : Int) : LocalsRingBuffer :=
  { b with entries := b.entries.filter fun e => e.within now b.ttlMs }

def push (entry : LocalsRingBufferEntry) : LocalsRingBuffer :=
  let pruned := b.pruneExpired entry.createdAt
  { pruned with entries := pruned.entries ++ [entry] }.shift

def resize (capacity : Nat) : LocalsRingBuffer := { b with capacity }.shift

/-- The first entry with the array is taken out. -/
def consumeFrames (frames : CapturedFrames) : LocalsRingBuffer :=
  { b with entries := b.entries.eraseP fun e => e.frames.array = frames.array }

/-- The newest entry with the id. -/
def getById (id : Nat) : Option LocalsRingBufferEntry := b.entries.reverse.find? (·.id = id)

end Operations

end LocalsRingBuffer

/-! ## Keys -/

namespace IdentityKey

variable (key : IdentityKey) (e : LocalsRingBufferEntry)

def sameContentLoose : Bool := e.errorName = key.errorName && e.errorMessage = key.errorMessage

def sameContentDegraded : Bool := key.sameContentLoose e && e.frameCount = key.frameCount

def sameContent : Bool := key.sameContentDegraded e && e.structuralHash = key.structuralHash

def sameRequest : Bool := e.requestId = key.requestId

end IdentityKey

namespace LocalsRingBuffer

section Queries

variable (b : LocalsRingBuffer) (key : IdentityKey)

def identityMatches : List LocalsRingBufferEntry :=
  b.entries.filter fun e => key.sameRequest e && key.sameContent e

/-- The loop runs from the newest entry to the oldest. -/
def findByIdentity : Option LocalsRingBufferEntry := (b.identityMatches key).getLast?

def findByDegradedKey : List LocalsRingBufferEntry :=
  b.entries.filter fun e => key.sameRequest e && key.sameContentDegraded e

def findByLooseKey : List LocalsRingBufferEntry :=
  b.entries.filter fun e => key.sameRequest e && key.sameContentLoose e

def findBackgroundMatches : List LocalsRingBufferEntry :=
  b.entries.filter fun e => e.requestId.isNone && key.sameContent e

def findByContentKey : List LocalsRingBufferEntry := b.entries.filter key.sameContent

def findByContentDegradedKey : List LocalsRingBufferEntry :=
  b.entries.filter key.sameContentDegraded

def findByContentLooseKey : List LocalsRingBufferEntry := b.entries.filter key.sameContentLoose

def findRecentEntries (now : Int) (maxAgeMs : Nat) : List LocalsRingBufferEntry :=
  b.entries.filter fun e => e.within now maxAgeMs

def identityScore (e : LocalsRingBufferEntry) : Nat :=
  (if e.requestId = key.requestId then 16 else 0) + (if e.errorName = key.errorName then 8 else 0) +
    (if e.errorMessage = key.errorMessage then 4 else 0) +
    (if e.frameCount = key.frameCount then 2 else 0) +
    (if e.structuralHash = key.structuralHash then 1 else 0)

/-- The newest of the entries with the highest score. -/
def closest : Option LocalsRingBufferEntry :=
  b.entries.reverse.foldl (fun best e =>
    match best with
    | none => some e
    | some other =>
        if identityScore key other < identityScore key e then some e else some other) none

def diagnoseIdentityMiss : IdentityMiss :=
  match b.closest key with
  | none => .cache_empty
  | some e =>
      if e.requestId ≠ key.requestId then .requestId_mismatch
      else if e.errorName ≠ key.errorName then .name_mismatch
      else if e.errorMessage ≠ key.errorMessage then .message_mismatch
      else if e.frameCount ≠ key.frameCount then .frame_count_mismatch
      else .hash_mismatch

end Queries

end LocalsRingBuffer

/-! ## Selections -/

def recentMatches (found : List LocalsRingBufferEntry) (now : Int) : List LocalsRingBufferEntry :=
  found.filter fun e => e.within now REQUEST_MISMATCH_RECENT_MATCH_MS

def selectSingleRecentMatch (found : List LocalsRingBufferEntry) (now : Int) :
    Option LocalsRingBufferEntry :=
  match found with
  | [entry] => some entry
  | _ =>
      match recentMatches found now with
      | [entry] => some entry
      | _ => none

def CapturedFrame.signature (frame : CapturedFrame) : Text :=
  frame.functionName ++ '|' :: frame.filePath ++ '|' :: Nat.toDigits 10 frame.lineNumber ++
    '|' :: Nat.toDigits 10 frame.columnNumber

def capturedFrameSignature (entry : LocalsRingBufferEntry) : Text :=
  Text.join ['\n'] (entry.frames.items.map CapturedFrame.signature)

def selectNewestRecentEquivalentMatch (found : List LocalsRingBufferEntry) (now : Int) :
    Option LocalsRingBufferEntry :=
  match recentMatches found now with
  | [] => none
  | first :: rest =>
      if (first :: rest).all fun e => capturedFrameSignature e = capturedFrameSignature first then
        (first :: rest).getLast?
      else none

def selectNewestRecentMatch (found : List LocalsRingBufferEntry) (now : Int) :
    Option LocalsRingBufferEntry :=
  (recentMatches found now).getLast?

end ErrorCore
