import InfernalLaw.Kernel.Text
import InfernalLaw.Reading.Schedule

/-!
# Reading a request

`read_request`: the header is read until its end is found, taken apart line by line, and the body is
read to the length that the header announces. How the bytes arrive is a parameter.
-/

namespace InfernalLaw

open Reading (Schedule readUntil)

/-! ## Text -/

namespace Str

/-- `std::str::from_utf8`. -/
def fromUtf8 (bytes : List UInt8) : Option Str := bytes.toByteArray.utf8Decode?.map Array.toList

/-- `str::split("\r\n")`. -/
def splitCrLf : Str → List Str
  | [] => [[]]
  | '\r' :: '\n' :: s => [] :: splitCrLf s
  | c :: s => (c :: (splitCrLf s).headD []) :: (splitCrLf s).tail

/-- `str::split_whitespace`. -/
def splitWhitespace (s : Str) : List Str := (s.splitOnP isWhitespace).filter fun part => part ≠ []

/-- `str::eq_ignore_ascii_case`. -/
def eqIgnoreAsciiCase (s t : Str) : Bool := s.map Char.toLower = t.map Char.toLower

/-- `str::parse::<usize>`, which accepts a plus sign. -/
def parseUsize (s : Str) : Option ℕ :=
  let digits := (stripPrefix s ['+']).getD s
  if digits ≠ [] ∧ digits.all Char.isDigit then
    let value := digits.foldl (fun value c => value * 10 + (c.toNat - '0'.toNat)) 0
    if value < 2 ^ 64 then some value else none
  else none

end Str

/-! ## Requests -/

/-- `MAX_HEADER_BYTES`. -/
def maxHeaderBytes : ℕ := 8 * 1024

/-- `MAX_ENROLLMENT_BODY_BYTES`. -/
def maxEnrollmentBodyBytes : ℕ := 40 * 1024

/-- `RequestReadError`. -/
inductive RequestReadError where
  | malformed
  | payloadTooLarge
  deriving DecidableEq

/-- `ParsedRequest`. -/
structure ParsedRequest where
  method : Str
  path : Str
  authority : Option Str
  contentType : Option Str
  contentDigest : Option Str
  serviceId : Option Str
  instanceId : Option Str
  requestId : Option Str
  signatureInput : Option Str
  signature : Option Str
  body : List UInt8
  deriving DecidableEq

/-- The headers that `read_request` has set so far. -/
structure ParsedHeaders where
  contentLength : Option ℕ := none
  authority : Option Str := none
  contentType : Option Str := none
  contentDigest : Option Str := none
  serviceId : Option Str := none
  instanceId : Option Str := none
  requestId : Option Str := none
  signatureInput : Option Str := none
  signature : Option Str := none
  deriving DecidableEq

/-! ## Headers -/

/-- `set_header`: what becomes of the target. -/
def setHeader (target : Option Str) (value : Str) : Except RequestReadError (Option Str) :=
  if target.isSome ∨ value = [] then .error .malformed else .ok (some value)

/-- The characters of a header name. -/
def isHeaderNameChar (c : Char) : Bool :=
  c.isAlphanum || c ∈ ['!', '#', '$', '%', '&', '\x27', '*', '+', '-', '.', '^', '_',
    '\x60', '|', '~']

/-- `valid_header_name`. -/
def validHeaderName (name : Str) : Bool := name ≠ [] && name.all isHeaderNameChar

/-- What a header line that is taken apart does. -/
def ParsedHeaders.set (h : ParsedHeaders) (name value : Str) :
    Except RequestReadError ParsedHeaders :=
  if name.eqIgnoreAsciiCase "content-length".toList then
    if h.contentLength.isSome then .error .malformed
    else do
      let contentLength ← value.parseUsize.elim (.error .malformed) .ok
      return { h with contentLength := some contentLength }
  else if name.eqIgnoreAsciiCase "content-type".toList then
    return { h with contentType := ← setHeader h.contentType value }
  else if name.eqIgnoreAsciiCase "host".toList then
    return { h with authority := ← setHeader h.authority value }
  else if name.eqIgnoreAsciiCase "content-digest".toList then
    return { h with contentDigest := ← setHeader h.contentDigest value }
  else if name.eqIgnoreAsciiCase "infernal-service-id".toList then
    return { h with serviceId := ← setHeader h.serviceId value }
  else if name.eqIgnoreAsciiCase "infernal-instance-id".toList then
    return { h with instanceId := ← setHeader h.instanceId value }
  else if name.eqIgnoreAsciiCase "infernal-request-id".toList then
    return { h with requestId := ← setHeader h.requestId value }
  else if name.eqIgnoreAsciiCase "signature-input".toList then
    return { h with signatureInput := ← setHeader h.signatureInput value }
  else if name.eqIgnoreAsciiCase "signature".toList then
    return { h with signature := ← setHeader h.signature value }
  else if name.eqIgnoreAsciiCase "transfer-encoding".toList then .error .malformed
  else return h

/-- What a header line does. -/
def ParsedHeaders.line (h : ParsedHeaders) (line : Str) : Except RequestReadError ParsedHeaders :=
  match Str.splitOnce [':'] line with
  | none => .error .malformed
  | some (name, value) =>
    if validHeaderName name then h.set name value.trim else .error .malformed

/-- What the bytes before the body say: the request without its body, and the body's length. -/
structure ParsedHead where
  method : Str
  path : Str
  headers : ParsedHeaders
  contentLength : ℕ

/-- What `read_request` takes from the bytes of the header. -/
def parseHead (bytes : List UInt8) : Except RequestReadError ParsedHead :=
  match Str.fromUtf8 bytes with
  | none => .error .malformed
  | some header =>
    match header.splitCrLf with
    | [] => .error .malformed
    | requestLine :: lines =>
      match requestLine.splitWhitespace with
      | [method, path, version] =>
        if version ≠ "HTTP/1.1".toList ∨ path.startsWith ['/'] = false then .error .malformed
        else do
          let headers ← lines.foldlM ParsedHeaders.line {}
          let contentLength := headers.contentLength.getD 0
          if method = "POST".toList ∧ path = "/v1/enrollments".toList ∧ contentLength = 0 then
            .error .malformed
          else if maxEnrollmentBodyBytes < contentLength then .error .payloadTooLarge
          else return ⟨method, path, headers, contentLength⟩
      | _ => .error .malformed

/-- The request with its body. -/
def ParsedHead.request (head : ParsedHead) (body : List UInt8) : ParsedRequest where
  method := head.method
  path := head.path
  authority := head.headers.authority
  contentType := head.headers.contentType
  contentDigest := head.headers.contentDigest
  serviceId := head.headers.serviceId
  instanceId := head.headers.instanceId
  requestId := head.headers.requestId
  signatureInput := head.headers.signatureInput
  signature := head.headers.signature
  body := body

/-! ## The two loops -/

/-- `b"\r\n\r\n"`. -/
def headerTerminator : List UInt8 := [13, 10, 13, 10]

/-- `find_header_end`. -/
def findHeaderEnd : List UInt8 → Option ℕ
  | [] => none
  | b :: bytes =>
    if (b :: bytes).take 4 = headerTerminator then some 0 else (findHeaderEnd bytes).map (· + 1)

/-- What the first loop decides about the bytes that it has read. -/
def decideHeaderEnd (bytes : List UInt8) : Option (Except RequestReadError ℕ) :=
  match findHeaderEnd bytes with
  | some position => if maxHeaderBytes < position then some (.error .malformed)
      else some (.ok position)
  | none => if maxHeaderBytes < bytes.length then some (.error .malformed) else none

/-- What the second loop decides: whether the body is there. -/
def decideBody (bodyStart contentLength : ℕ) (bytes : List UInt8) :
    Option (Except RequestReadError Unit) :=
  if bytes.length - bodyStart < contentLength then none else some (.ok ())

/-- `read_request`. -/
def readRequest (s : Schedule) (stream : List UInt8) : Except RequestReadError ParsedRequest := do
  let reached ← readUntil s (fun _ => 4096) decideHeaderEnd .malformed [] stream
  let head ← parseHead (reached.bytes.take reached.value)
  let bodyStart := reached.value + 4
  let full ← readUntil s
    (fun bytes => min (head.contentLength - (bytes.length - bodyStart)) 4096)
    (decideBody bodyStart head.contentLength) .malformed reached.bytes reached.rest
  return head.request ((full.bytes.drop bodyStart).take head.contentLength)

end InfernalLaw
