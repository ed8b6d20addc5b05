import ErrorCore.Foundation.InsertionMap
import ErrorCore.Foundation.Json.RoundTrip
import ErrorCore.Foundation.Lines
import Mathlib.Data.List.TakeWhile

/-!
# The local event store

`src/transport/local-event-store.ts` keeps the records of the webhook transport
as JSON lines in one file. A file that has reached its size is renamed away at
the next append and never read again.

Every method is one section under the file lock. How far the file system lets
it come is a parameter: a write can be cut off after some characters, when it
fails or when the process dies in it.
-/

namespace ErrorCore

inductive LocalEventStore.PayloadKind
  | error
  | payload_blob
  deriving DecidableEq, Repr

def LocalEventStore.PayloadKind.text : LocalEventStore.PayloadKind → Text
  | .error => ("error" : Text)
  | .payload_blob => ("payload_blob" : Text)

structure LocalEventStoreRecord where
  id : Text
  storedAt : Text
  payloadKind : LocalEventStore.PayloadKind
  payload : Text
  deriving DecidableEq, Repr

structure LocalEventStoreOptions where
  /-- The name of the file in its directory. -/
  base : Text
  maxSizeBytes : Nat := 100 * 1024 * 1024
  maxBackups : Int := 5

namespace LocalEventStore

/-- What a write comes to. Without an open file nothing is written; a section that is skipped ends
before it touches the file. -/
inductive WriteOutcome
  | done
  | cut (written : Nat)
  | unopened
  | skipped
  deriving DecidableEq, Repr

/-- The store's file and its backups by name. -/
structure StoreFiles where
  file : Option Text
  backups : List (Text × Text)
  deriving DecidableEq, Repr

/-- A call of `append` with what its environment supplies: the UUID, the date, the time in the name
of a backup, whether a rename succeeds and how the write ends. -/
structure AppendCall where
  id : Text
  storedAt : Text
  kind : Option PayloadKind
  serialized : Text
  now : Nat
  renames : Bool
  outcome : WriteOutcome
  deriving DecidableEq, Repr

def recordFields (record : LocalEventStoreRecord) : List (Text × Json.Value) :=
  [("version", .number "1"), ("kind", .string "event"), ("id", .string record.id),
    ("storedAt", .string record.storedAt), ("payloadKind", .string record.payloadKind.text),
    ("payload", .string record.payload)]

def recordLine (record : LocalEventStoreRecord) : Text :=
  Json.stringify (.object (recordFields record))

def AppendCall.record (call : AppendCall) : LocalEventStoreRecord where
  id := call.id
  storedAt := call.storedAt
  payloadKind := call.kind.getD .error
  payload := call.serialized

def AppendCall.line (call : AppendCall) : Text := recordLine call.record ++ ['\n']

def parsePayloadKind (text : Text) : Option PayloadKind :=
  if text = PayloadKind.error.text then some .error
  else if text = PayloadKind.payload_blob.text then some .payload_blob
  else none

section Store

variable (numbers : Json.NumberFormat) (opts : LocalEventStoreOptions)

def parseRecord (line : Text) : Option LocalEventStoreRecord :=
  match Json.parse numbers.print line with
  | none => none
  | some parsed =>
      if parsed.getNumber? "version" = some "1" ∧ parsed.getString? "kind" = some "event" then
        match parsed.getString? "id", parsed.getString? "storedAt",
          (parsed.getString? "payloadKind").bind parsePayloadKind,
          parsed.getString? "payload" with
        | some id, some storedAt, some payloadKind, some payload =>
            some { id, storedAt, payloadKind, payload }
        | _, _, _, _ => none
      else
        none

def isBlank (line : Text) : Bool := (Text.trim line).isEmpty

/-- The records of lines. -/
def recordsOf (lines : List Text) : List LocalEventStoreRecord :=
  (lines.filter fun line => !isBlank line).filterMap (parseRecord numbers)

/-- The records of the content of a file. -/
def records (content : Text) : List LocalEventStoreRecord :=
  recordsOf numbers (Text.split '\n' content)

/-- `readAll` on a file that can be read. -/
def readAll (files : StoreFiles) : List LocalEventStoreRecord :=
  match files.file with
  | none => []
  | some content => records numbers content

/-! ## Rotation -/

/-- The order by character codes. -/
def before : Text → Text → Bool
  | _, [] => false
  | [], _ :: _ => true
  | a :: as, b :: bs => a.toNat < b.toNat || (a = b && before as bs)

/-- One step of `sort().reverse()`. -/
def insertBackup (backup : Text × Text) : List (Text × Text) → List (Text × Text)
  | [] => [backup]
  | other :: rest =>
      if before backup.1 other.1 then other :: insertBackup backup rest
      else backup :: other :: rest

def newestFirst (backups : List (Text × Text)) : List (Text × Text) :=
  backups.foldr insertBackup []

def cleanupOldBackupsSync (backups : List (Text × Text)) : List (Text × Text) :=
  if opts.maxBackups < 0 then backups
  else (newestFirst backups).take opts.maxBackups.toNat

def rotatedName (now counter : Nat) : Text :=
  opts.base ++ '.' :: (Nat.toDigits 10 now ++ '-' :: (Nat.toDigits 10 counter ++ (".bak" : Text)))

/-- The file has the size at which it is rotated. -/
def isFull (files : StoreFiles) : Bool :=
  files.file.any fun content => opts.maxSizeBytes ≤ Text.byteLength content

/-- The files and the counter of rotations after `rotateIfNeededSync`. -/
def rotateIfNeededSync (files : StoreFiles) (rotateCounter now : Nat) (renames : Bool) :
    StoreFiles × Nat :=
  if isFull opts files then
    let rotateCounter := rotateCounter + 1
    if renames then
      let backups :=
        InsertionMap.set files.backups (rotatedName opts now rotateCounter) (files.file.getD [])
      ({ file := none, backups := cleanupOldBackupsSync opts backups }, rotateCounter)
    else (files, rotateCounter)
  else (files, rotateCounter)

/-! ## The methods of the store -/

/-- What a write adds to the file. -/
def WriteOutcome.written (outcome : WriteOutcome) (text : Text) : Text :=
  match outcome with
  | .done => text
  | .cut written => text.take written
  | .unopened | .skipped => []

/-- `appendFileSyncDurable`. -/
def appendFileSyncDurable (outcome : WriteOutcome) (line : Text) (files : StoreFiles) :
    StoreFiles :=
  match outcome with
  | .done | .cut _ =>
      { files with file := some (files.file.getD [] ++ outcome.written line) }
  | .unopened | .skipped => files

/-- Whether `append` returns an id, the files and the counter. -/
def append (files : StoreFiles) (rotateCounter : Nat) (call : AppendCall) :
    Bool × StoreFiles × Nat :=
  if call.outcome = .skipped then (false, files, rotateCounter)
  else
    let (files, rotateCounter) :=
      rotateIfNeededSync opts files rotateCounter call.now call.renames
    (call.outcome = .done, appendFileSyncDurable call.outcome call.line files, rotateCounter)

/-- The lines that `remove` writes back. -/
def keptLines (ids : List Text) (content : Text) : List Text :=
  (Text.split '\n' content).filter fun line =>
    !isBlank line && (parseRecord numbers line).all fun record => record.id ∉ ids

def rewritten (ids : List Text) (content : Text) : Text :=
  let kept := keptLines numbers ids content
  if kept = [] then [] else Text.join ['\n'] kept ++ ['\n']

def remove (files : StoreFiles) (ids : List Text) (outcome : WriteOutcome) : StoreFiles :=
  if ids = [] then files
  else
    match files.file, outcome with
    | some content, .done | some content, .cut _ =>
        { files with file := some (outcome.written (rewritten numbers ids content)) }
    | _, _ => files

end Store

/-! ## What the file holds -/

variable {numbers : Json.NumberFormat} {opts : LocalEventStoreOptions}
variable {files : StoreFiles} {lines more : List Text} {content text : Text} {ids : List Text}

def idsOf (records : List LocalEventStoreRecord) : List Text := records.map (·.id)

@[simp] theorem recordsOf_append :
    recordsOf numbers (lines ++ more) = recordsOf numbers lines ++ recordsOf numbers more := by
  simp [recordsOf]

@[simp] theorem recordsOf_empty : recordsOf numbers [[]] = [] := by
  simp [recordsOf, isBlank, Text.trim]

@[simp] theorem records_nil : records numbers [] = [] := by
  rw [records, Text.split_nil, recordsOf_empty]

/-- Appending leaves the records of the closed lines and reads the open line anew. -/
theorem records_append :
    records numbers (content ++ text) =
      recordsOf numbers (Text.closedParts '\n' content) ++
        records numbers (Text.openPart '\n' content ++ text) := by
  rw [records, Text.split_append, recordsOf_append]
  rfl

theorem records_eq :
    records numbers content =
      recordsOf numbers (Text.closedParts '\n' content) ++
        records numbers (Text.openPart '\n' content) := by
  have happend : records numbers (content ++ []) =
      recordsOf numbers (Text.closedParts '\n' content) ++
        records numbers (Text.openPart '\n' content ++ []) := records_append
  rwa [List.append_nil, List.append_nil] at happend

/-! ## Rewriting the file -/

theorem keptLines_records (ids : List Text) (content : Text) :
    recordsOf numbers (keptLines numbers ids content) =
      (records numbers content).filter fun record => record.id ∉ ids := by
  unfold records recordsOf keptLines
  induction Text.split '\n' content with
  | nil => rfl
  | cons line lines ih =>
      cases hblank : isBlank line with
      | true => simpa [hblank] using ih
      | false =>
          cases hparse : parseRecord numbers line with
          | none => simpa [hblank, hparse] using ih
          | some record =>
              by_cases hid : record.id ∈ ids
              · simpa [hblank, hparse, hid] using ih
              · simpa [hblank, hparse, hid] using ih

/-- A rewrite that is finished takes out the records with these ids and no other. -/
theorem records_rewritten (ids : List Text) (content : Text) :
    records numbers (rewritten numbers ids content) =
      (records numbers content).filter fun record => record.id ∉ ids := by
  rw [← keptLines_records]
  unfold rewritten
  simp only
  split
  · next hnone => rw [hnone, records_nil]; rfl
  · next hsome =>
      rw [records, Text.split_join_append hsome, recordsOf_append, recordsOf_empty,
        List.append_nil]
      intro line hline
      exact Text.notMem_of_mem_split (List.mem_filter.mp hline).1

/-! ## Records that were written -/

theorem parse_recordLine (record : LocalEventStoreRecord) :
    Json.parse numbers.print (recordLine record) = some (.object (recordFields record)) := by
  apply Json.parse_stringify
  have distinct :
      (["version", "kind", "id", "storedAt", "payloadKind", "payload"] : List Text).Nodup := by
    decide
  refine ⟨distinct, ?_⟩
  exact ⟨numbers.numberText_digit (show 1 < 10 by decide), trivial, trivial, trivial, trivial,
    trivial, trivial⟩

theorem parsePayloadKind_text (kind : PayloadKind) : parsePayloadKind kind.text = some kind := by
  cases kind with
  | error => rfl
  | payload_blob => rfl

/-- A record that was written is read back. -/
theorem parseRecord_recordLine (record : LocalEventStoreRecord) :
    parseRecord numbers (recordLine record) = some record := by
  have hversion : (Json.Value.object (recordFields record)).getNumber? "version" = some "1" := rfl
  have hkind : (Json.Value.object (recordFields record)).getString? "kind" = some "event" := rfl
  have hid : (Json.Value.object (recordFields record)).getString? "id" = some record.id := rfl
  have hstoredAt :
      (Json.Value.object (recordFields record)).getString? "storedAt" = some record.storedAt := rfl
  have hpayloadKind : (Json.Value.object (recordFields record)).getString? "payloadKind" =
      some record.payloadKind.text := rfl
  have hpayload :
      (Json.Value.object (recordFields record)).getString? "payload" = some record.payload := rfl
  simp only [parseRecord, parse_recordLine, hversion, hkind, hid, hstoredAt, hpayloadKind,
    hpayload, Option.bind_some, parsePayloadKind_text, and_self, if_true]

theorem newline_not_mem_recordLine (record : LocalEventStoreRecord) :
    '\n' ∉ recordLine record := by
  have hquote (text : Text) : '\n' ∉ Json.quote text := Json.newline_not_mem_quote text
  simp [recordLine, recordFields, Json.stringify, Json.stringifyFields, hquote]

theorem isBlank_recordLine (record : LocalEventStoreRecord) :
    isBlank (recordLine record) = false := by
  obtain ⟨rest, hline⟩ : ∃ rest, recordLine record = '\x7b' :: rest := ⟨_, rfl⟩
  have hbrace : Text.isWhitespace '\x7b' = false := by decide
  rw [isBlank, Text.trim, hline, List.dropWhile_cons_of_neg (by simp [hbrace])]
  rw [List.isEmpty_reverse, Bool.eq_false_iff]
  intro hempty
  rw [List.isEmpty_iff, List.dropWhile_eq_nil_iff] at hempty
  have hall := hempty '\x7b' (List.mem_reverse.mpr List.mem_cons_self)
  rw [hbrace] at hall
  contradiction

/-- A file of one record that was written. -/
theorem records_line (record : LocalEventStoreRecord) :
    records numbers (recordLine record ++ ['\n']) = [record] := by
  have hjoin : Text.join ['\n'] [recordLine record] = recordLine record :=
    List.intercalate_singleton
  have hsplit : Text.split '\n' (Text.join ['\n'] [recordLine record] ++ ['\n']) =
      [recordLine record] ++ [[]] := by
    refine Text.split_join_append (List.cons_ne_nil _ _) fun part hpart => ?_
    rw [List.mem_singleton.mp hpart]
    exact newline_not_mem_recordLine record
  rw [hjoin] at hsplit
  rw [records, hsplit, recordsOf_append, recordsOf_empty, List.append_nil]
  simp [recordsOf, isBlank_recordLine, parseRecord_recordLine]

/-- A line is as long as its payload at least. -/
theorem length_payload_le (record : LocalEventStoreRecord) :
    record.payload.length ≤ Text.byteLength (recordLine record ++ ['\n']) := by
  have hquote := Json.length_le_length_quote record.payload
  have hbytes := Text.length_le_byteLength (recordLine record ++ ['\n'])
  have hline : (Json.quote record.payload).length ≤ (recordLine record).length := by
    simp only [recordLine, recordFields, Json.stringify, Json.stringifyFields, List.length_cons,
      List.length_append]
    omega
  rw [List.length_append] at hbytes
  omega

end LocalEventStore

end ErrorCore
