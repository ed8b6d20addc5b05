import ErrorCore.Foundation.Indexed
import ErrorCore.Foundation.Json
import Mathlib.Algebra.Order.Ring.Rat

/-!
# Shedding of packages

The part of `src/capture/package-builder.ts` that makes a package smaller:
`shedIfNeeded`, which subtracts estimates of the bodies it strips, and
`enforceHardCap`, which measures after each field it drops. Sizes are those of
the JSON text of the package.

A body is known by what the estimate reads of it. The fields that neither
function reads or writes stand in a list; their order is not that of the code,
on which the size does not depend.
-/

namespace ErrorCore

namespace PackageBuilder

open Json (Value)

/-- A captured body. -/
inductive Body
  | undefined
  | null
  | string (value : Text)
  /-- An array, a buffer, or an object with a number as its `length`. -/
  | sized (length : Rat) (json : Value)
  /-- Any other value, with the number of its keys. -/
  | keyed (keys : Nat) (json : Value)

structure IOEvent where
  requestBody : Body
  responseBody : Body
  requestBodyTruncated : Bool
  responseBodyTruncated : Bool
  others : List (Text × Value)

structure Request where
  bodyTruncated : Option Bool
  others : List (Text × Value)

structure Completeness where
  modeAtCapture : Text
  requestCaptured : Bool
  requestBodyTruncated : Bool
  ioTimelineCaptured : Bool
  usedAmbientEvents : Bool
  ioEventsDropped : Nat
  ioPayloadsTruncated : Nat
  alsContextAvailable : Bool
  localVariablesCaptured : Bool
  localVariablesTruncated : Bool
  stateTrackingEnabled : Bool
  stateReadsCaptured : Bool
  stateWritesDropped : Option Nat
  concurrentRequestsCaptured : Bool
  piiScrubbed : Bool
  encrypted : Bool
  captureFailures : List Text
  rateLimiterDrops : Option Value
  localVariablesCaptureLayer : Option Text
  localVariablesDegradation : Option Text
  localVariablesFrameAlignment : Option Text
  localVariablesUnavailableReason : Option Text
  localVariablesCacheOperation : Text
  localVariablesCacheCapacity : Nat
  sourceMapResolution : Option Value

structure Truncated where
  reason : Text
  droppedFields : List Text
  deriving DecidableEq, Repr

structure ErrorPackage where
  request : Option Request
  ioTimeline : List IOEvent
  evictionLog : List Value
  ambientContext : Option Value
  stateReads : List Value
  stateWrites : List Value
  concurrentRequests : List Value
  localVariables : Option (List Value)
  truncated : Option Truncated
  completeness : Completeness
  others : List (Text × Value)

/-- What the builder was given besides the contents of the package. -/
structure ErrorPackageParts where
  modeAtCapture : Option Text
  usedAmbientEvents : Bool
  ioEventsDropped : Nat
  alsContextAvailable : Bool
  stateTrackingEnabled : Bool
  /-- `completenessOverflow?.stateWritesDropped`. -/
  stateWritesDropped : Option Nat
  captureFailures : List Text
  rateLimiterDrops : Option Value
  localVariablesCaptureLayer : Option Text
  localVariablesDegradation : Option Text
  localVariablesFrameAlignment : Option Text
  localVariablesUnavailableReason : Option Text
  localVariablesCacheOperation : Option Text
  sourceMapResolution : Option Value

structure BuilderConfig where
  captureMode : Text
  maxLocalsFrames : Nat
  maxCachedLocals : Nat
  maxTotalPackageSize : Nat
  hardCapBytes : Nat
  deriving DecidableEq, Repr

/-! ## JSON -/

def field (name : Text) (value : Value) : Text × Value := (name, value)

def number (n : Nat) : Value := .number (Nat.toDigits 10 n)

/-- A field that is left out when its value is undefined. -/
def optional (name : Text) (value : Option Value) : List (Text × Value) :=
  match value with
  | none => []
  | some value => [(name, value)]

def optionalText (name : Text) (value : Option Text) : List (Text × Value) :=
  optional name (value.map .string)

def Body.toJson? : Body → Option Value
  | undefined => none
  | null => some .null
  | string value => some (.string value)
  | sized _ json => some json
  | keyed _ json => some json

def IOEvent.toJson (event : IOEvent) : Value :=
  .object (event.others ++ optional "requestBody" event.requestBody.toJson? ++
    optional "responseBody" event.responseBody.toJson? ++
    [field "requestBodyTruncated" (.bool event.requestBodyTruncated),
      field "responseBodyTruncated" (.bool event.responseBodyTruncated)])

def Request.toJson (request : Request) : Value :=
  .object (request.others ++ optional "bodyTruncated" (request.bodyTruncated.map .bool))

def LOCALS_CACHE_TTL_MS : Nat := 30000

def Completeness.toJson (c : Completeness) : Value :=
  .object (
    [field "modeAtCapture" (.string c.modeAtCapture),
      field "requestCaptured" (.bool c.requestCaptured),
      field "requestBodyTruncated" (.bool c.requestBodyTruncated),
      field "ioTimelineCaptured" (.bool c.ioTimelineCaptured),
      field "usedAmbientEvents" (.bool c.usedAmbientEvents),
      field "ioEventsDropped" (number c.ioEventsDropped),
      field "ioPayloadsTruncated" (number c.ioPayloadsTruncated),
      field "alsContextAvailable" (.bool c.alsContextAvailable),
      field "localVariablesCaptured" (.bool c.localVariablesCaptured),
      field "localVariablesTruncated" (.bool c.localVariablesTruncated),
      field "stateTrackingEnabled" (.bool c.stateTrackingEnabled),
      field "stateReadsCaptured" (.bool c.stateReadsCaptured)] ++
    optional "stateWritesDropped" (c.stateWritesDropped.map number) ++
    [field "concurrentRequestsCaptured" (.bool c.concurrentRequestsCaptured),
      field "piiScrubbed" (.bool c.piiScrubbed),
      field "encrypted" (.bool c.encrypted),
      field "captureFailures" (.array (c.captureFailures.map .string))] ++
    optional "rateLimiterDrops" c.rateLimiterDrops ++
    optionalText "localVariablesCaptureLayer" c.localVariablesCaptureLayer ++
    optionalText "localVariablesDegradation" c.localVariablesDegradation ++
    optionalText "localVariablesFrameAlignment" c.localVariablesFrameAlignment ++
    optionalText "localVariablesUnavailableReason" c.localVariablesUnavailableReason ++
    [field "localVariablesCache" (.object
      [("operation", .string c.localVariablesCacheOperation),
        ("capacity", number c.localVariablesCacheCapacity),
        ("ttlMs", number LOCALS_CACHE_TTL_MS)])] ++
    optional "sourceMapResolution" c.sourceMapResolution)

def Truncated.toJson (truncated : Truncated) : Value :=
  .object
    [field "reason" (.string truncated.reason),
      field "droppedFields" (.array (truncated.droppedFields.map .string))]

def ErrorPackage.toJson (pkg : ErrorPackage) : Value :=
  .object (pkg.others ++ optional "request" (pkg.request.map Request.toJson) ++
    [field "ioTimeline" (.array (pkg.ioTimeline.map IOEvent.toJson)),
      field "evictionLog" (.array pkg.evictionLog)] ++
    optional "ambientContext" pkg.ambientContext ++
    [field "stateReads" (.array pkg.stateReads),
      field "stateWrites" (.array pkg.stateWrites),
      field "concurrentRequests" (.array pkg.concurrentRequests)] ++
    optional "localVariables" (pkg.localVariables.map .array) ++
    optional "truncated" (pkg.truncated.map Truncated.toJson) ++
    [field "completeness" pkg.completeness.toJson])

def getPackageSize (pkg : ErrorPackage) : Nat := Text.byteLength (Json.stringify pkg.toJson)

/-! ## Completeness -/

def IOEvent.truncations (event : IOEvent) : Nat :=
  event.requestBodyTruncated.toNat + event.responseBodyTruncated.toNat

def ioPayloadsTruncated : List IOEvent → Nat
  | [] => 0
  | event :: rest => event.truncations + ioPayloadsTruncated rest

def computeCompleteness (config : BuilderConfig) (parts : ErrorPackageParts) (encrypted : Bool)
    (pkg : ErrorPackage) (frameAlignment : Option Text) : Completeness where
  modeAtCapture := parts.modeAtCapture.getD config.captureMode
  requestCaptured := pkg.request.isSome
  requestBodyTruncated := (pkg.request.bind (·.bodyTruncated)).getD false
  ioTimelineCaptured := 0 < pkg.ioTimeline.length
  usedAmbientEvents := parts.usedAmbientEvents
  ioEventsDropped := parts.ioEventsDropped
  ioPayloadsTruncated := ioPayloadsTruncated pkg.ioTimeline
  alsContextAvailable := parts.alsContextAvailable
  localVariablesCaptured := pkg.localVariables.any fun frames => 0 < frames.length
  localVariablesTruncated :=
    config.maxLocalsFrames < (pkg.localVariables.map List.length).getD 0
  stateTrackingEnabled := parts.stateTrackingEnabled
  stateReadsCaptured := 0 < pkg.stateReads.length
  stateWritesDropped := parts.stateWritesDropped
  concurrentRequestsCaptured := 0 < pkg.concurrentRequests.length
  piiScrubbed := true
  encrypted
  captureFailures := parts.captureFailures
  rateLimiterDrops := parts.rateLimiterDrops
  localVariablesCaptureLayer := parts.localVariablesCaptureLayer
  localVariablesDegradation := parts.localVariablesDegradation
  localVariablesFrameAlignment := frameAlignment.or parts.localVariablesFrameAlignment
  localVariablesUnavailableReason := parts.localVariablesUnavailableReason
  localVariablesCacheOperation := parts.localVariablesCacheOperation.getD "unavailable"
  localVariablesCacheCapacity := config.maxCachedLocals
  sourceMapResolution := parts.sourceMapResolution

/-! ## Bodies -/

def estimateBodySize : Body → Rat
  | .undefined | .null => 0
  | .string value => Text.utf16Length value
  | .sized length _ => length
  | .keyed keys _ => keys * 32

def IOEvent.estimatedBytes (event : IOEvent) : Rat :=
  estimateBodySize event.requestBody + estimateBodySize event.responseBody

/-- The event at `index` replaces the one found so far only if its bodies are larger. -/
def largestBodyFrom (index : Nat) (found : Option (Nat × Rat)) : List IOEvent → Option (Nat × Rat)
  | [] => found
  | event :: rest =>
      if (found.map (·.2)).getD 0 < event.estimatedBytes then
        largestBodyFrom (index + 1) (some (index, event.estimatedBytes)) rest
      else largestBodyFrom (index + 1) found rest

def findLargestBodyEvent (ioTimeline : List IOEvent) : Option (Nat × Rat) :=
  largestBodyFrom 0 none ioTimeline

/-- `event.requestBody !== null`. -/
def Body.isNull : Body → Bool
  | null => true
  | _ => false

def IOEvent.strip (event : IOEvent) : IOEvent where
  requestBody := .null
  responseBody := .null
  requestBodyTruncated := event.requestBodyTruncated || !event.requestBody.isNull
  responseBodyTruncated := event.responseBodyTruncated || !event.responseBody.isNull
  others := event.others

section Largest

variable {events : List IOEvent} {index : Nat} {found : Option (Nat × Rat)} {best : Nat × Rat}

theorem IOEvent.estimatedBytes_strip (event : IOEvent) : event.strip.estimatedBytes = 0 :=
  add_zero 0

/-- What is found is the one found before, or an event with bodies of its size. -/
theorem largestBodyFrom_eq_some (hfound : ∀ pair, found = some pair → 0 < pair.2)
    (h : largestBodyFrom index found events = some best) :
    found = some best ∨
      ∃ offset event, best.1 = index + offset ∧ events[offset]? = some event ∧
        best.2 = event.estimatedBytes ∧ 0 < best.2 := by
  induction events generalizing index found with
  | nil => exact .inl h
  | cons event rest ih =>
      rw [largestBodyFrom] at h
      split at h
      · next hlarger =>
          have hnonneg : 0 ≤ (found.map (·.2)).getD 0 := by
            cases found with
            | none => exact le_refl 0
            | some pair => exact le_of_lt (hfound pair rfl)
          have hpos : 0 < event.estimatedBytes := lt_of_le_of_lt hnonneg hlarger
          have hnew : ∀ pair, some (index, event.estimatedBytes) = some pair → 0 < pair.2 := by
            rintro pair ⟨⟩
            exact hpos
          rcases ih hnew h with hbest | ⟨offset, later, hindex, hget, hbytes, hlater⟩
          · obtain rfl := Option.some.inj hbest
            exact .inr ⟨0, event, rfl, rfl, rfl, hpos⟩
          · exact .inr ⟨offset + 1, later, by omega, hget, hbytes, hlater⟩
      · rcases ih hfound h with hbest | ⟨offset, later, hindex, hget, hbytes, hlater⟩
        · exact .inl hbest
        · exact .inr ⟨offset + 1, later, by omega, hget, hbytes, hlater⟩

theorem largestBodyFrom_ne_none (hfound : found ≠ none) :
    largestBodyFrom index found events ≠ none := by
  induction events generalizing index found with
  | nil => exact hfound
  | cons event rest ih =>
      rw [largestBodyFrom]
      split
      · exact ih (Option.some_ne_none _)
      · exact ih hfound

theorem estimatedBytes_le_of_largestBodyFrom (h : largestBodyFrom index none events = none) :
    ∀ event ∈ events, event.estimatedBytes ≤ 0 := by
  induction events generalizing index with
  | nil => intro event hmem; cases hmem
  | cons first rest ih =>
      rw [largestBodyFrom] at h
      split at h
      · exact absurd h (largestBodyFrom_ne_none (Option.some_ne_none _))
      · next hsmall =>
          intro event hmem
          rcases List.mem_cons.mp hmem with rfl | hmem
          · exact not_lt.mp hsmall
          · exact ih h event hmem

theorem findLargestBodyEvent_eq_some (h : findLargestBodyEvent events = some best) :
    ∃ event, events[best.1]? = some event ∧ best.2 = event.estimatedBytes ∧ 0 < best.2 := by
  rcases largestBodyFrom_eq_some (fun pair hpair => by cases hpair) h with
    hnone | ⟨offset, event, hindex, hget, hbytes, hpos⟩
  · cases hnone
  · rw [Nat.zero_add] at hindex
    exact ⟨event, hindex ▸ hget, hbytes, hpos⟩

/-- Stripping the largest bodies leaves fewer events with bodies to strip. -/
theorem countP_strip_lt (h : findLargestBodyEvent events = some best) :
    (events.modify best.1 IOEvent.strip).countP (fun event => 0 < event.estimatedBytes) <
      events.countP fun event => 0 < event.estimatedBytes := by
  obtain ⟨event, hget, hbytes, hpos⟩ := findLargestBodyEvent_eq_some h
  obtain ⟨before, after, rfl, hmodify⟩ := Indexed.exists_modify_eq hget
  rw [hmodify, List.countP_append, List.countP_append, List.countP_cons, List.countP_cons,
    IOEvent.estimatedBytes_strip, ← hbytes]
  simp only [lt_self_iff_false, decide_false, hpos, decide_true, if_true, Bool.false_eq_true,
    if_false]
  omega

end Largest

/-- The timeline, the size as estimated, and whether any body was stripped. -/
structure Stripping where
  ioTimeline : List IOEvent
  currentPackageSize : Rat
  strippedAnyBody : Bool

def stripLargest (maxPackageSize : Nat) (s : Stripping) : Stripping :=
  if maxPackageSize < s.currentPackageSize then
    match _h : findLargestBodyEvent s.ioTimeline with
    | none => s
    | some (index, estimatedBytes) =>
        stripLargest maxPackageSize
          { ioTimeline := s.ioTimeline.modify index IOEvent.strip
            currentPackageSize := s.currentPackageSize - estimatedBytes
            strippedAnyBody := true }
  else s
termination_by s.ioTimeline.countP fun event => 0 < event.estimatedBytes
decreasing_by exact countP_strip_lt _h

def shedIfNeeded (config : BuilderConfig) (parts : ErrorPackageParts)
    (frameAlignment : Option Text) (pkg : ErrorPackage) : ErrorPackage :=
  let maxPackageSize := config.maxTotalPackageSize
  if getPackageSize pkg ≤ maxPackageSize then pkg
  else
    let stripped := stripLargest maxPackageSize ⟨pkg.ioTimeline, getPackageSize pkg, false⟩
    let pkg := { pkg with ioTimeline := stripped.ioTimeline }
    let currentPackageSize : Rat :=
      if stripped.strippedAnyBody then getPackageSize pkg else stripped.currentPackageSize
    let pkg :=
      if maxPackageSize < currentPackageSize ∧ parts.usedAmbientEvents then
        { pkg with ioTimeline := [] }
      else pkg
    let pkg := if maxPackageSize < currentPackageSize then { pkg with stateReads := [] } else pkg
    { pkg with
      completeness :=
        computeCompleteness config parts pkg.completeness.encrypted pkg frameAlignment }

/-! ## The hard cap -/

def ENVELOPE_OVERHEAD_ESTIMATE : Nat := 256

def estimateSize (pkg : ErrorPackage) : Nat := getPackageSize pkg + ENVELOPE_OVERHEAD_ESTIMATE

def markTruncated (config : BuilderConfig) (parts : ErrorPackageParts)
    (frameAlignment : Option Text) (pkg : ErrorPackage) (dropped : List Text) : ErrorPackage :=
  { pkg with
    truncated := some { reason := "hard_cap_1mb", droppedFields := dropped }
    completeness := computeCompleteness config parts pkg.completeness.encrypted pkg frameAlignment }

def IOEvent.hasBody (event : IOEvent) : Bool :=
  !event.requestBody.isNull || !event.responseBody.isNull

/-- The fields that are dropped, in this order. -/
inductive Drop
  | olderEvents
  | bodies
  | stateReads
  | concurrentRequests
  | ambientContext
  | evictionLog
  | stateWrites
  | localVariables
  deriving DecidableEq, Repr

def drops : List Drop :=
  [.olderEvents, .bodies, .stateReads, .concurrentRequests, .ambientContext, .evictionLog,
    .stateWrites, .localVariables]

/-- Whether there is anything to drop. -/
def Drop.present (pkg : ErrorPackage) : Drop → Bool
  | olderEvents => 50 < pkg.ioTimeline.length
  | bodies => pkg.ioTimeline.any IOEvent.hasBody
  | stateReads => 0 < pkg.stateReads.length
  | concurrentRequests => 0 < pkg.concurrentRequests.length
  | ambientContext => pkg.ambientContext.isSome
  | evictionLog => 0 < pkg.evictionLog.length
  | stateWrites => 0 < pkg.stateWrites.length
  | localVariables => pkg.localVariables.isSome

/-- The name under which the receiver is told of it. -/
def Drop.label (pkg : ErrorPackage) : Drop → Text
  | olderEvents => "ioTimeline:trim50"
  | bodies => "ioTimeline:bodies"
  | stateReads => "stateReads"
  | concurrentRequests => "concurrentRequests"
  | ambientContext => "ambientContext"
  | evictionLog => "evictionLog"
  | stateWrites => "stateWrites"
  | localVariables =>
      ("localVariables:count=" : Text) ++
        Nat.toDigits 10 ((pkg.localVariables.map List.length).getD 0)

def Drop.reduce (pkg : ErrorPackage) : Drop → ErrorPackage
  | olderEvents => { pkg with ioTimeline := pkg.ioTimeline.drop (pkg.ioTimeline.length - 50) }
  | bodies => { pkg with ioTimeline := pkg.ioTimeline.map IOEvent.strip }
  | stateReads => { pkg with stateReads := [] }
  | concurrentRequests => { pkg with concurrentRequests := [] }
  | ambientContext => { pkg with ambientContext := none }
  | evictionLog => { pkg with evictionLog := [] }
  | stateWrites => { pkg with stateWrites := [] }
  | localVariables => { pkg with localVariables := none }

def dropUntilFits (config : BuilderConfig) (parts : ErrorPackageParts)
    (frameAlignment : Option Text) : List Drop → List Text → ErrorPackage → ErrorPackage
  | [], _, pkg => pkg
  | drop :: rest, dropped, pkg =>
      if drop.present pkg then
        let dropped := dropped ++ [drop.label pkg]
        let pkg := markTruncated config parts frameAlignment (drop.reduce pkg) dropped
        if estimateSize pkg ≤ config.hardCapBytes then pkg
        else dropUntilFits config parts frameAlignment rest dropped pkg
      else dropUntilFits config parts frameAlignment rest dropped pkg

def enforceHardCap (config : BuilderConfig) (parts : ErrorPackageParts)
    (frameAlignment : Option Text) (pkg : ErrorPackage) : ErrorPackage :=
  if estimateSize pkg ≤ config.hardCapBytes then pkg
  else dropUntilFits config parts frameAlignment drops [] pkg

/-- The end of `build`, less the manifests of the payloads and fields. -/
def finish (config : BuilderConfig) (parts : ErrorPackageParts) (frameAlignment : Option Text)
    (pkg : ErrorPackage) : ErrorPackage :=
  let pkg := { pkg with completeness := computeCompleteness config parts false pkg frameAlignment }
  enforceHardCap config parts frameAlignment (shedIfNeeded config parts frameAlignment pkg)

end PackageBuilder

end ErrorCore
