import ErrorCore.Capture.InspectorManager
import ErrorCore.Foundation.InsertionMap
import ErrorCore.Foundation.Lines

/-!
# The locals of a frame under their names in the source

`resolveLocalNames` of `src/capture/source-map-resolver.ts` gives minified
locals the names that the source map has for them. The mappings of the
consumer are the list that `eachMapping` goes through, and a line of the
generated file is the list of its UTF-16 code units.

`localeCompare` is the comparison of the host for texts. The entries of a record
are in the order in which `Object.entries` has them.
-/

namespace ErrorCore.SourceMapResolver

open InspectorManager (isIdentifierStart isIdentifierPart)

def MAX_CACHE_SIZE : Nat := 128

def MAX_SOURCE_READ_BYTES : Nat := 32 * 1024 * 1024

def LOCAL_NAME_MAPPING_WINDOW_COLUMNS : Int := 2500

/-! ## Names in a generated line -/

/-- `MINIFIED_LOCAL_RE`. -/
def isMinifiedLocal : Text → Bool
  | [] => false
  | first :: rest => isIdentifierStart first && rest.length ≤ 2 && rest.all isIdentifierPart

def looksOriginalLocalName (name : Text) : Bool := !isMinifiedLocal name

/-- `IDENTIFIER_CHAR_RE` on a code unit. Half of a character is no identifier character. -/
def isIdentifierUnit (unit : Nat) : Bool := isIdentifierPart (Char.ofNat unit)

def isIdentifierAt (units : List Nat) (index : Nat) : Bool := units[index]?.any isIdentifierUnit

/-- The position of the identifier that a column belongs to: at the column, right before it, or at
most two columns after it. -/
def identifierIndex (line : List Nat) (column : Int) : Option Nat :=
  let index := (max 0 (min column (line.length - 1))).toNat
  if isIdentifierAt line index then some index
  else if 0 < index && isIdentifierAt line (index - 1) then some (index - 1)
  else
    (List.range' (index + 1) (min line.length (column + 3).toNat - (index + 1))).find?
      (isIdentifierAt line)

def identifierAtColumn (line : List Nat) (column : Int) : Option Text :=
  if line.length = 0 then none
  else
    match identifierIndex line column with
    | none => none
    | some index =>
        let start := ((line.take index).reverse.takeWhile isIdentifierUnit).reverse
        let identifier := (start ++ (line.drop index).takeWhile isIdentifierUnit).map Char.ofNat
        if identifier.head?.any isIdentifierStart then some identifier else none

/-! ## Generated lines -/

/-- What a read of a file gives; `none` where it fails. -/
def readIfWithinSize (contents : Option Text) : Option Text :=
  contents.filter fun source => Text.utf16Length source ≤ MAX_SOURCE_READ_BYTES

def dropCarriageReturn (line : Text) : Text :=
  if Text.endsWith line ['\r'] then line.dropLast else line

/-- `source.split(/\r?\n/)`. -/
def splitLines (source : Text) : List Text :=
  (Text.closedParts '\n' source).map dropCarriageReturn ++ [Text.openPart '\n' source]

/-- `sourceLinesCache`: the lines by path, with `none` for a file that cannot be read. -/
abbrev SourceLinesCache := List (Text × Option (List Text))

def lineAt (lines : List Text) (lineNumber : Int) : Option (List Nat) :=
  lines[(lineNumber - 1).toNat]?.map Text.utf16Units

/-- The line and the cache afterwards. `contents` is what a read of the file gives. -/
def readGeneratedLine (sourceLinesCache : SourceLinesCache) (contents : Option Text)
    (filePath : Text) (lineNumber : Int) : Option (List Nat) × SourceLinesCache :=
  if lineNumber < 1 then (none, sourceLinesCache)
  else
    match InsertionMap.get? sourceLinesCache filePath with
    | some none => (none, sourceLinesCache)
    | some (some lines) => (lineAt lines lineNumber, sourceLinesCache)
    | none =>
        match readIfWithinSize contents with
        | none => (none, InsertionMap.set sourceLinesCache filePath none)
        | some source =>
            let lines := splitLines source
            let cache := InsertionMap.set sourceLinesCache filePath (some lines)
            -- the oldest keys go until the cache has its size again
            (lineAt lines lineNumber, cache.drop (cache.length - MAX_CACHE_SIZE))

/-! ## Candidates -/

/-- What `eachMapping` hands out. -/
structure Mapping where
  source : Option Text
  generatedLine : Int
  generatedColumn : Int
  originalLine : Option Int
  name : Option Text
  deriving DecidableEq, Repr

/-- Where the frame is in the source. -/
structure OriginalPosition where
  source : Option Text
  line : Option Int
  deriving DecidableEq, Repr

/-- The own properties of an object: no two have one key. -/
structure Locals (V : Type) where
  entries : List (Text × V)
  distinct : (entries.map (·.1)).Nodup

def Locals.names {V : Type} (locals : Locals V) : List Text := locals.entries.map (·.1)

/-- What the renaming reads of a captured frame. -/
structure Frame (V : Type) where
  lineNumber : Int
  columnNumber : Int
  locals : Locals V

structure Candidate where
  originalName : Text
  generatedDistance : Nat
  originalLineDistance : Nat
  deriving DecidableEq, Repr

/-- The comparison that candidates are sorted by. -/
def Candidate.order (localeCompare : Text → Text → Int) (a b : Candidate) : Int :=
  let byOriginalLine : Int := a.originalLineDistance - b.originalLineDistance
  let byColumn : Int := a.generatedDistance - b.generatedDistance
  if byOriginalLine ≠ 0 then byOriginalLine
  else if byColumn ≠ 0 then byColumn
  else localeCompare a.originalName b.originalName

/-- The candidates by generated name. -/
abbrev Candidates := List (Text × List Candidate)

section Resolve

variable {V : Type} (localeCompare : Text → Text → Int)

/-- `frameColumnZeroBased`. -/
def Frame.columnZeroBased (frame : Frame V) : Int := max 0 (frame.columnNumber - 1)

def Frame.minColumn (frame : Frame V) : Int :=
  max 0 (frame.columnZeroBased - LOCAL_NAME_MAPPING_WINDOW_COLUMNS)

def Frame.maxColumn (frame : Frame V) : Int :=
  frame.columnZeroBased + LOCAL_NAME_MAPPING_WINDOW_COLUMNS

/-- `minifiedNames`. -/
def Locals.minifiedNames (locals : Locals V) : List Text := locals.names.filter isMinifiedLocal

/-- Whether a mapping passes the checks before its name is looked at. -/
def Frame.admits (frame : Frame V) (original : OriginalPosition) (mapping : Mapping) : Bool :=
  mapping.generatedLine = frame.lineNumber &&
    frame.minColumn ≤ mapping.generatedColumn && mapping.generatedColumn ≤ frame.maxColumn &&
    (original.source.isNone || mapping.source = original.source) &&
    match original.line, mapping.originalLine with
    | some line, some originalLine => originalLine ≤ line + 2
    | _, _ => true

/-- `originalLineDistance` of a mapping. -/
def OriginalPosition.distance (original : OriginalPosition) (mapping : Mapping) : Nat :=
  match original.line, mapping.originalLine with
  | some line, some originalLine => (line - originalLine).natAbs
  | _, _ => 0

/-- The callback of `eachMapping`. -/
def addCandidate (frame : Frame V) (original : OriginalPosition) (generatedLine : List Nat)
    (candidates : Candidates) (mapping : Mapping) : Candidates :=
  match mapping.name with
  | none => candidates
  | some name =>
      if !frame.admits original mapping then candidates
      else if !looksOriginalLocalName name then candidates
      else
        match identifierAtColumn generatedLine mapping.generatedColumn with
        | none => candidates
        | some generatedName =>
            if generatedName ∉ frame.locals.minifiedNames then candidates
            else
              let bucket := (InsertionMap.get? candidates generatedName).getD []
              InsertionMap.set candidates generatedName
                (bucket ++
                  [{ originalName := name
                     generatedDistance := (mapping.generatedColumn - frame.columnZeroBased).natAbs
                     originalLineDistance := original.distance mapping }])

/-- `candidates` after `eachMapping`. -/
def collectCandidates (consumer : List Mapping) (frame : Frame V) (original : OriginalPosition)
    (generatedLine : List Nat) : Candidates :=
  consumer.foldl (addCandidate frame original generatedLine) []

/-- `selected` for a local: the first of its sorted candidates whose name is not used. -/
def selectName (candidates : Candidates) (usedNames : List Text) (name : Text) : Option Text :=
  match InsertionMap.get? candidates name with
  | none => none
  | some options =>
      ((options.mergeSort fun a b => a.order localeCompare b ≤ 0).find?
        fun option => option.originalName ∉ usedNames).map (·.originalName)

/-- The name of the accessor that every object literal inherits. -/
def protoName : Text := "__proto__"

/-- `record[name] = value` on an object literal: under `__proto__` it reaches the accessor, which
makes no property. -/
def assign (record : List (Text × V)) (name : Text) (value : V) : List (Text × V) :=
  if name = protoName then record else InsertionMap.set record name value

structure Renaming (V : Type) where
  renamed : List (Text × V)
  usedNames : List Text
  changed : Bool

/-- The body of the loop over `Object.entries(frame.locals)`. -/
def renameLocal (candidates : Candidates) (r : Renaming V) (entry : Text × V) : Renaming V :=
  match selectName localeCompare candidates r.usedNames entry.1 with
  | none => { r with renamed := assign r.renamed entry.1 entry.2 }
  | some originalName =>
      { renamed := assign r.renamed originalName entry.2
        usedNames := r.usedNames ++ [originalName]
        changed := true }

def renameLocals (candidates : Candidates) (locals : Locals V) : Renaming V :=
  locals.entries.foldl (renameLocal localeCompare candidates)
    { renamed := [], usedNames := locals.names, changed := false }

/-- The record that is returned and the cache afterwards. -/
def resolveLocalNames (sourceLinesCache : SourceLinesCache) (contents : Option Text)
    (consumer : List Mapping) (generatedFilePath : Text) (frame : Frame V)
    (original : OriginalPosition) : List (Text × V) × SourceLinesCache :=
  if frame.locals.minifiedNames.length = 0 then (frame.locals.entries, sourceLinesCache)
  else
    match readGeneratedLine sourceLinesCache contents generatedFilePath frame.lineNumber with
    | (none, cache) => (frame.locals.entries, cache)
    | (some generatedLine, cache) =>
        let candidates := collectCandidates consumer frame original generatedLine
        if candidates.length = 0 then (frame.locals.entries, cache)
        else
          let final := renameLocals localeCompare candidates frame.locals
          (if final.changed then final.renamed else frame.locals.entries, cache)

end Resolve

end ErrorCore.SourceMapResolver
