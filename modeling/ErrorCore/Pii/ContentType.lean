import ErrorCore.Foundation.Text

/-!
# Content types

The tests of `src/pii/scrubber.ts` on a `content-type` header, where a missing
header and an empty one are treated alike. A media type is compared without its
parameters, trimmed and in lower case.
-/

namespace ErrorCore

/-- The encodings `getBodyEncoding` chooses from. -/
inductive BufferEncoding
  | utf8
  | latin1
  deriving DecidableEq, Repr

/-- `contentType.split(';', 1)[0].trim().toLowerCase()`. -/
def mediaType (contentType : Text) : Text :=
  Text.toLowerCase (Text.trim (contentType.takeWhile (· ≠ ';')))

def isTextualContentType (contentType : Option Text) : Bool :=
  contentType.any fun contentType =>
    contentType.startsWith ("text/" : Text) || contentType.includes ("json" : Text) ||
      contentType.includes ("xml" : Text) || contentType.includes ("javascript" : Text) ||
      contentType.includes ("x-www-form-urlencoded" : Text)

def getBodyEncoding (contentType : Option Text) : BufferEncoding :=
  let latin1 := contentType.any fun contentType =>
    contentType.includes ("charset=latin1" : Text) ||
      contentType.includes ("charset=iso-8859-1" : Text)
  if latin1 then .latin1 else .utf8

/-- What stands for a multipart body. -/
def MULTIPART_REDACTED : Text := "MULTIPART_REDACTED"

def isMultipartContentType (contentType : Option Text) : Bool :=
  contentType.any fun contentType => mediaType contentType = ("multipart/form-data" : Text)

def isPlainTextContentType (contentType : Option Text) : Bool :=
  contentType.any fun contentType => mediaType contentType = ("text/plain" : Text)

def isJsonContentType (contentType : Option Text) : Bool :=
  contentType.any fun contentType =>
    let head := mediaType contentType
    head = ("application/json" : Text) || head = ("text/json" : Text) ||
      head.endsWith ("+json" : Text)

def isFormUrlEncodedContentType (contentType : Option Text) : Bool :=
  contentType.any fun contentType =>
    mediaType contentType = ("application/x-www-form-urlencoded" : Text)

end ErrorCore
