import ErrorCore.Foundation.MultiMap
import ErrorCore.Foundation.PercentEncoding
import ErrorCore.Pii.Scrubber

/-!
# URLs

`scrubUrl` of `src/pii/scrubber.ts` with its two paths. A URL with a scheme goes
through the parser of the runtime, which is a parameter, and its query through
`URLSearchParams`. Any other URL is cut up by hand. The two decode a query in
different ways: a form takes a plus sign for a space and leaves a malformed
escape as it is, `decodeURIComponent` knows no plus signs and gives up on the
whole component.
-/

namespace ErrorCore

open Json (Value)

/-! ## Components -/

def isAsciiAlpha (c : Char) : Bool := ('a' ≤ c && c ≤ 'z') || ('A' ≤ c && c ≤ 'Z')

def isAsciiAlphanumeric (c : Char) : Bool := isAsciiAlpha c || ('0' ≤ c && c ≤ '9')

def isUnreserved (c : Char) : Bool := isAsciiAlphanumeric c || "-_.!~*'()".toList.elem c

def encodeURIComponent (text : Text) : Text := Percent.encode isUnreserved text

/-- `none` when it throws. -/
def decodeURIComponent (text : Text) : Option Text :=
  (Percent.decodeStrict text).bind Bytes.toText?

def decodeQueryComponent (value : Text) : Text := (decodeURIComponent value).getD value

/-! ## Forms -/

def isFormCharacter (c : Char) : Bool := isAsciiAlphanumeric c || "*-._".toList.elem c

def encodeFormComponent (text : Text) : Text :=
  (Percent.encode (fun c => isFormCharacter c || c == ' ') text).map fun c =>
    if c = ' ' then '+' else c

def decodeFormComponent (text : Text) : Text :=
  Bytes.decode (Percent.decode (text.map fun c => if c = '+' then ' ' else c))

/-- A segment of a query at its first `=`. -/
def cutSegment (segment : Text) : Text × Text :=
  (segment.takeWhile (· ≠ '='), (segment.dropWhile (· ≠ '=')).tail)

/-- The parameters of a query as `URLSearchParams` reads them. -/
def parseForm (query : Text) : List (Text × Text) :=
  ((Text.split '&' query).filter (· ≠ [])).map fun segment =>
    (decodeFormComponent (cutSegment segment).1, decodeFormComponent (cutSegment segment).2)

def formSegment (param : Text × Text) : Text :=
  encodeFormComponent param.1 ++ '=' :: encodeFormComponent param.2

def serializeForm (params : List (Text × Text)) : Text :=
  Text.join "&" (params.map formSegment)

/-- What `new URL` makes of a text, as its serialization is put together. -/
structure Url where
  /-- Scheme, authority and path. -/
  start : Text
  query : Option Text
  /-- Empty, or the fragment with its `#`. -/
  hash : Text
  start_plain : '?' ∉ start ∧ '#' ∉ start
  query_plain : ∀ text, query = some text → '#' ∉ text
  hash_start : hash = [] ∨ ∃ fragment, hash = '#' :: fragment

namespace Url

def toString (url : Url) : Text :=
  url.start ++ (match url.query with
    | none => []
    | some query => '?' :: query) ++ url.hash

def searchParams (url : Url) : List (Text × Text) := parseForm (url.query.getD [])

end Url

/-! ## Scrubbing -/

mutual

/-- `String(value)`. -/
def stringOf : Value → Text
  | .null => "null"
  | .bool value => if value then "true" else "false"
  | .number text => text
  | .string text => text
  | .array items => Text.join "," (stringsOf items)
  | .object _ => "[object Object]"

/-- The items of an array, of which null is written as nothing. -/
def stringsOf : List Value → List Text
  | [] => []
  | .null :: rest => [] :: stringsOf rest
  | item :: rest => stringOf item :: stringsOf rest

end

/-- `/^[a-zA-Z][a-zA-Z\d+\-.]*:/`. -/
def hasScheme : Text → Bool
  | [] => false
  | c :: rest =>
      isAsciiAlpha c &&
        (rest.dropWhile fun c => isAsciiAlphanumeric c || "+-.".toList.elem c).head? == some ':'

namespace Scrubber

variable (s : Scrubber)

/-- `String(this.scrubValue(key, value))`. -/
def scrubParam (key value : Text) : Text := stringOf (s.scrubValue key (.string value))

/-- The new segment, unless the value stays as it is. -/
def scrubSegment (segment : Text) : Option Text :=
  if segment = [] then none
  else
    let key := decodeQueryComponent (cutSegment segment).1
    let value := decodeQueryComponent (cutSegment segment).2
    let scrubbedValue := s.scrubParam key value
    if scrubbedValue = value then none
    else some (encodeURIComponent key ++ '=' :: encodeURIComponent scrubbedValue)

def scrubRelativeUrl (rawUrl : Text) : Text :=
  let hash := rawUrl.dropWhile (· ≠ '#')
  let beforeHash := rawUrl.takeWhile (· ≠ '#')
  if '?' ∉ beforeHash then rawUrl
  else
    let pathname := beforeHash.takeWhile (· ≠ '?')
    let rawSegments := Text.split '&' (beforeHash.dropWhile (· ≠ '?')).tail
    if rawSegments.all fun segment => (s.scrubSegment segment).isNone then rawUrl
    else
      pathname ++ '?' ::
        Text.join "&" (rawSegments.map fun segment => (s.scrubSegment segment).getD segment) ++
        hash

/-- Every `set` writes the whole query anew. -/
def scrubSearchParams (url : Url) : Text :=
  if url.searchParams = [] then url.toString
  else
    url.start ++ '?' :: serializeForm (MultiMap.setEach s.scrubParam 0 url.searchParams) ++ url.hash

/-- `newUrl` is `none` where `new URL` throws. -/
def scrubUrl (newUrl : Text → Option Url) (rawUrl : Text) : Text :=
  if '?' ∉ rawUrl then rawUrl
  else if hasScheme rawUrl then
    match newUrl rawUrl with
    | some parsed => s.scrubSearchParams parsed
    | none => s.scrubString rawUrl
  else s.scrubRelativeUrl rawUrl

end Scrubber

end ErrorCore
