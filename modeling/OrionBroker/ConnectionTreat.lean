import OrionBroker.RestService
import OrionBroker.ServicePathQuery
import OrionBroker.TenantNames
import OrionBroker.Pagination

/-!
# The treatment of a request (`rest.cpp`, `restReply.cpp`, `RestService.cpp`)

`connectionTreat` is called once with the headers of a request, once for every part of its payload, and a last time when
all has been read.  The headers are only read by the first call (`connect`); they are checked by the last one
(`lastCall`), which queues a reply for every check that fails and goes on, and serves the request if none has failed.

Only the first reply that is queued is sent.  `answered` says which requests are served, how many replies are queued for
the others, and which of these are sent as a success.
-/

namespace OrionBroker.Rest

open UriParams (uriArguments)
open RestServices (RestTreat RestService restServiceV dispatch)

/-! ### The headers -/

inductive MimeType where
  | JSON | TEXT | NOMIMETYPE
deriving DecidableEq

/-- The headers that are checked; without a service path there is none. -/
structure HttpHeaders where
  accept : String := ""
  contentType : String := ""
  contentLength : Nat := 0
  tenant : String := ""
  servicePath : Option String := none

/-- What stands in front of the first semicolon. -/
def beforeSemicolon (s : List Char) : List Char := s.takeWhile (· ≠ ';')

def httpHeaderGet (headers : HttpHeaders) (key value : String) : HttpHeaders :=
  let headers :=
    if Text.strcasecmp key "Accept" then { headers with accept := value }
    else if Text.strcasecmp key "Content-Type" then { headers with contentType := value }
    -- the number is converted to an `unsigned int`
    else if Text.strcasecmp key "Content-Length" then
      { headers with contentLength := (Areas.atoi value.toList % 2 ^ 32).toNat }
    else if Text.strcasecmp key "Fiware-Service" then { headers with tenant := value }
    else if Text.strcasecmp key "Fiware-Servicepath" then { headers with servicePath := some value }
    else headers
  { headers with contentType := String.ofList (beforeSemicolon headers.contentType.toList) }

def apiVersionGet (path : String) : ApiVersion :=
  if path.toList[1]? = some 'v' ∧ path.toList[2]? = some '2' then .v2
  else if path = "/admin/log" then .v2
  else .v1

/-- The types of an `Accept` header; one behind the last comma that is empty is none. -/
def acceptedTypes (accept : String) : List (List Char) :=
  let pieces := ((if accept = "" then "*/*" else accept).toList.splitOn ',').map wsStrip
  let pieces := if pieces.getLast? = some [] then pieces.dropLast else pieces
  pieces.map beforeSemicolon

/-- A text is accepted by every request. -/
def wantedOutputSupported (apiVersion : ApiVersion) (accept : String) : MimeType :=
  let json := (acceptedTypes accept).any fun mimeType =>
    String.ofList mimeType ∈ ["*/*", "application/*", "application/json", "*/json"]
  if json then .JSON
  else match apiVersion with
    | .v1 => .NOMIMETYPE
    | .v2 => .TEXT

def mimeTypeParse (mimeType : String) : MimeType :=
  if wsStrip (beforeSemicolon mimeType.toList) = "text/plain".toList then .TEXT else .JSON

/-! ### Replies -/

/-- The text of a reply: an error, the result of a payload that was not accepted, or the response of a service. -/
inductive Answer where
  | orionError (error : StatusCode)
  | restError (request : String) (error : StatusCode)
  | parsed (result : String)
  | treated (treat : RestTreat) (response : String)
deriving DecidableEq

structure Reply where
  httpStatusCode : HttpStatusCode
  answer : Option Answer
deriving DecidableEq

/-- `tenant`, `servicePathV` and `inMimeType` are for the functions that treat the request; `payload` is read up to its
terminator, and `replies` are those that have been queued. -/
structure ConnectionInfo where
  method : String
  url : String
  apiVersion : ApiVersion
  httpHeaders : HttpHeaders
  uri : UriParams.ConnectionInfo
  tenantFromHttpHeader : String
  tenant : String := ""
  servicePathV : List String := []
  inMimeType : MimeType := .JSON
  outMimeType : MimeType
  payload : Option (List UInt8) := none
  payloadSize : Nat := 0
  httpStatusCode : HttpStatusCode
  answer : Option Answer
  replies : List Reply := []

abbrev SccNotAcceptable : HttpStatusCode := .other 406
abbrev SccLengthRequired : HttpStatusCode := .other 411
abbrev SccRequestEntityTooLarge : HttpStatusCode := .other 413
abbrev SccUnsupportedMediaType : HttpStatusCode := .other 415

abbrev PAYLOAD_MAX_SIZE : Nat := 1024 * 1024

namespace ConnectionInfo

variable (ciP : ConnectionInfo)

def restReply (answer : Option Answer) : ConnectionInfo :=
  { ciP with replies := ciP.replies ++ [⟨ciP.httpStatusCode, answer⟩] }

/-- What `OrionError::render` does to the status. -/
def rendered : ConnectionInfo :=
  if ciP.apiVersion = .v2 ∧ (ciP.httpStatusCode = .SccOk ∨ ciP.httpStatusCode = .SccNone) then
    { ciP with httpStatusCode := .SccBadRequest }
  else ciP

/-- `OrionError e(code, details); ciP->answer = e.render(ciP, "");`. -/
def orionError (error : StatusCode) : ConnectionInfo := { ciP.rendered with answer := some (.orionError error) }

/-- The status of `restErrorReplyGet`, for a request without a tag; the status of the others is overwritten. -/
def restErrorReplyGet : ConnectionInfo := { ciP with httpStatusCode := .SccOk }.rendered

end ConnectionInfo

/-! ### The first call -/

/-- A request as it is read; the parameters are those of its URI. -/
structure Request where
  method : String
  url : String
  headers : List (String × String) := []
  arguments : List (String × Option String) := []

def Request.httpHeaders (r : Request) : HttpHeaders :=
  r.headers.foldl (fun headers header => httpHeaderGet headers header.1 header.2) {}

/-- Part 1 of `connectionTreat`; `none` if the name of the tenant is copied over the end of its array. -/
def connect (r : Request) : Option ConnectionInfo :=
  let apiVersion := apiVersionGet r.url
  let uri := uriArguments r.arguments
  (tenantFromHttpHeader r.httpHeaders.tenant).map fun tenant =>
    { method := r.method
      url := r.url
      apiVersion
      httpHeaders := r.httpHeaders
      uri
      tenantFromHttpHeader := tenant
      outMimeType :=
        if wantedOutputSupported apiVersion r.httpHeaders.accept = .NOMIMETYPE then .JSON
        else wantedOutputSupported apiVersion r.httpHeaders.accept
      httpStatusCode := if uri.answer.isSome then .SccBadRequest else .SccOk
      answer := uri.answer.map .orionError }

/-! ### The checks -/

/-- `true` if the check is passed.  The slashes at the end are removed; nothing is returned if the character in front of
the text is read. -/
def urlCheck (ciP : ConnectionInfo) : Option (Bool × ConnectionInfo) :=
  if forbiddenChars ciP.url [] then
    let ciP := { ciP with httpStatusCode := .SccBadRequest }
    some (false, ciP.orionError ⟨.SccBadRequest, "invalid character in URI"⟩)
  else
    let url := (ciP.url.toList.reverse.dropWhile (· = '/')).reverse
    if url = [] then none else some (true, { ciP with url := String.ofList url })

def servicePathDetails : Int → String
  | 1 => "Only /absolute/ Service Paths allowed [a service path must begin with /]"
  | 2 => "too many components in ServicePath"
  | 3 => "component-name too long in ServicePath"
  | 4 => "a component of ServicePath contains an illegal character"
  | _ => "too many service paths - a maximum of ten service paths is allowed"

def servicePathsCheck (ciP : ConnectionInfo) : Bool × ConnectionInfo :=
  let split := servicePathSplit ciP.httpHeaders.servicePath
  let ciP := { ciP with servicePathV := split.2 }
  if split.1 = 0 then (true, ciP) else (false, ciP.orionError ⟨.SccBadRequest, servicePathDetails split.1⟩)

def supportedTypes : ApiVersion → List String
  | .v1 => ["application/json"]
  | .v2 => ["application/json", "text/plain"]

def contentTypeCheck (ciP : ConnectionInfo) : Bool × ConnectionInfo :=
  let refuse (details : String) : Bool × ConnectionInfo :=
    (false, { ciP.restErrorReplyGet with
      httpStatusCode := SccUnsupportedMediaType
      answer := some (.restError "OrionError" ⟨SccUnsupportedMediaType, details⟩) })
  if ciP.httpHeaders.contentLength = 0 then (true, ciP)
  else if ciP.httpHeaders.contentType = "" then
    refuse "Content-Type header not used, default application/octet-stream is not supported"
  else if ciP.httpHeaders.contentType ∉ supportedTypes ciP.apiVersion then
    refuse ("not supported content type: " ++ ciP.httpHeaders.contentType)
  else (true, ciP)

def outMimeTypeCheck (ciP : ConnectionInfo) : Bool × ConnectionInfo :=
  let outMimeType := wantedOutputSupported ciP.apiVersion ciP.httpHeaders.accept
  if outMimeType = .NOMIMETYPE then
    (false, { ciP.restErrorReplyGet with
      outMimeType := .JSON
      httpStatusCode := SccNotAcceptable
      answer := some (.restError "OrionError"
        ⟨SccNotAcceptable, "acceptable MIME types: application/json. Accept header in request: " ++ ciP.httpHeaders.accept⟩) })
  else (true, { ciP with outMimeType })

/-- `strncasecmp(s, t, t.length()) == 0`. -/
def startsWith (s t : String) : Bool := Text.strcasecmp (String.ofList (s.toList.take t.length)) t

/-- A payload is needed, and the length of it is zero or has not been given. -/
def lengthMissing (ciP : ConnectionInfo) : Bool :=
  ciP.method ∈ ["POST", "PUT", "PATCH"] && ciP.httpHeaders.contentLength = 0 &&
    (!startsWith ciP.url "/log/" && !startsWith ciP.url "/admin/log")

def tooLarge (ciP : ConnectionInfo) : ConnectionInfo :=
  if ciP.httpHeaders.contentLength > PAYLOAD_MAX_SIZE then
    { ciP.restErrorReplyGet with
      httpStatusCode := SccRequestEntityTooLarge
      answer := some (.restError ciP.url ⟨SccRequestEntityTooLarge,
        s!"payload size: {ciP.httpHeaders.contentLength}, max size supported: {PAYLOAD_MAX_SIZE}"⟩) }
  else ciP

/-! ### The service -/

section Service

variable (debug : Bool) (payloadParse : RestService → ConnectionInfo → HttpStatusCode × String)
  (treat : RestTreat → ConnectionInfo → HttpStatusCode × String)

/-- The payload is parsed. -/
def parses (s : RestService) (ciP : ConnectionInfo) : Bool :=
  ciP.payload.getD [] ≠ [] && ciP.payloadSize ≠ 0 && s.verb ≠ "*"

/-- A service that has been found, for a payload that was accepted; `none` if the broker exits. -/
def treatService (s : RestService) (ciP : ConnectionInfo) : Option ConnectionInfo :=
  let ciP := { ciP with
    inMimeType := if ciP.payloadSize = 0 then .NOMIMETYPE else ciP.inMimeType
    tenant := ciP.tenantFromHttpHeader }
  if ciP.tenant ≠ "" ∧ tenantCheck ciP.tenant ≠ "OK" then
    let error : Answer := .orionError ⟨.SccBadRequest, tenantCheck ciP.tenant⟩
    let ciP := ciP.rendered
    let httpStatusCode := if ciP.apiVersion = .v1 then ciP.httpStatusCode else .SccBadRequest
    some ({ ciP with httpStatusCode }.restReply (some error))
  else
    let treated := treat s.treat ciP
    if treated.2 = "DIE" then none
    else some ({ ciP with httpStatusCode := treated.1 }.restReply (some (.treated s.treat treated.2)))

/-- `none` also if the array of a service is read behind its end.  A payload that is not accepted is answered twice. -/
def restService (ciP : ConnectionInfo) : Option ConnectionInfo :=
  if ciP.url = "" ∨ ciP.url = "/" then
    let error : StatusCode := ⟨.SccBadRequest, "The Orion Context Broker is a REST service, not a 'web page'"⟩
    some (ciP.rendered.restReply (some (.orionError error)))
  else
    let ciP := { ciP with httpStatusCode := .SccOk }
    match dispatch ciP.method (stringSplit ciP.url '/') (restServiceV debug).entries "" with
    | .outside => none
    | .unrecognized payloadWord =>
      some (ciP.restErrorReplyGet.restReply (some (.restError payloadWord ⟨.SccBadRequest, "unrecognized request"⟩)))
    | .service s =>
      if parses s ciP then
        let parsed := payloadParse s ciP
        let ciP := { ciP with httpStatusCode := parsed.1 }
        if parsed.2 ≠ "OK" then
          some ((ciP.restReply (some (.parsed parsed.2))).restReply (some (.parsed parsed.2)))
        else treatService treat s ciP
      else treatService treat s ciP

/-! ### The last call -/

/-- The end of part 3 of `connectionTreat`, behind the checks of the headers; `url` is as it was received. -/
def serveChecked (url : String) (ciP : ConnectionInfo) : Option ConnectionInfo :=
  let ciP := tooLarge ciP
  if lengthMissing ciP then
    let error : StatusCode := ⟨SccLengthRequired, "Zero/No Content-Length in PUT/POST/PATCH request"⟩
    some ({ ciP.restErrorReplyGet with httpStatusCode := SccLengthRequired }.restReply (some (.restError url error)))
  else if ciP.answer ≠ none then some (ciP.restReply ciP.answer)
  else restService debug payloadParse treat ciP

/-- A check of which a failure is replied to. -/
def replying (check : Bool × ConnectionInfo) : ConnectionInfo :=
  if check.1 then check.2 else check.2.restReply check.2.answer

/-- The types of the payload and of the reply. -/
def typesCheck (ciP : ConnectionInfo) : Bool × ConnectionInfo :=
  let content := contentTypeCheck ciP
  if content.1 = false then content
  else
    let out := outMimeTypeCheck content.2
    if out.1 = false then out else (true, { out.2 with inMimeType := mimeTypeParse out.2.httpHeaders.contentType })

/-- Part 3 of `connectionTreat`. -/
def lastCall (url : String) (ciP : ConnectionInfo) : Option ConnectionInfo :=
  (urlCheck ciP).bind fun checked =>
    let ciP := replying checked
    let ciP := replying (servicePathsCheck ciP)
    let ciP := replying (typesCheck ciP)
    if ciP.httpStatusCode ≠ .SccOk then some (ciP.restReply ciP.answer)
    else serveChecked debug payloadParse treat url ciP

end Service

/-! ### Refused requests -/

namespace Request

variable (r : Request)

/-- The URL without the slashes at its end. -/
def path : String := String.ofList (r.url.toList.reverse.dropWhile (· = '/')).reverse

def servicePathAccepted : Bool := (servicePathSplit r.httpHeaders.servicePath).1 = 0

def typesAccepted : Bool :=
  (r.httpHeaders.contentLength = 0 || r.httpHeaders.contentType ∈ supportedTypes (apiVersionGet r.url)) &&
    wantedOutputSupported (apiVersionGet r.url) r.httpHeaders.accept ≠ .NOMIMETYPE

/-- The checks that are replied to by themselves and not passed. -/
def failures : Nat := (forbiddenChars r.url []).toNat + (!r.servicePathAccepted).toNat + (!r.typesAccepted).toNat

structure Accepted : Prop where
  failures : r.failures = 0
  arguments : (uriArguments r.arguments).answer = none
  size : r.httpHeaders.contentLength ≤ PAYLOAD_MAX_SIZE
  length : r.method ∈ ["POST", "PUT", "PATCH"] → r.httpHeaders.contentLength = 0 →
    startsWith r.path "/log/" = true ∨ startsWith r.path "/admin/log" = true

/-- The first check that is not passed is that of the service path, in version 1 and with good parameters. -/
structure SentAsSuccess : Prop where
  version : apiVersionGet r.url = .v1
  url : forbiddenChars r.url [] = false
  arguments : (uriArguments r.arguments).answer = none
  servicePath : r.servicePathAccepted = false

end Request

def Answer.IsError : Answer → Prop
  | .treated _ _ => False
  | _ => True

def Reply.IsError (reply : Reply) : Prop := ∃ answer, reply.answer = some answer ∧ answer.IsError

/-- A connection behind the checks of which some have failed. -/
structure Checked (r : Request) (failed : Nat) (ciP : ConnectionInfo) : Prop where
  method : ciP.method = r.method
  apiVersion : ciP.apiVersion = apiVersionGet r.url
  httpHeaders : ciP.httpHeaders = r.httpHeaders
  count : ciP.replies.length = failed
  errors : ∀ reply ∈ ciP.replies, reply.IsError
  answer : ∀ answer ∈ ciP.answer, answer.IsError
  accepted : ciP.answer = none ↔ failed = 0 ∧ (uriArguments r.arguments).answer = none
  status : failed = 0 → ciP.httpStatusCode = if (uriArguments r.arguments).answer = none then .SccOk else .SccBadRequest
  first : ∀ reply ∈ ciP.replies.head?, reply.httpStatusCode = .SccOk ↔ r.SentAsSuccess

section Checks

variable {r : Request} {failed : Nat} {ciP ciP' : ConnectionInfo}

/-- A check that fails leaves an error, which is replied. -/
theorem Checked.fail (h : Checked r failed ciP) (hmethod : ciP'.method = ciP.method)
    (hversion : ciP'.apiVersion = ciP.apiVersion) (hheaders : ciP'.httpHeaders = ciP.httpHeaders)
    (hreplies : ciP'.replies = ciP.replies) {answer : Answer} (hanswer : ciP'.answer = some answer) (herror : answer.IsError)
    (hfirst : failed = 0 → (ciP'.httpStatusCode = .SccOk ↔ r.SentAsSuccess)) :
    Checked r (failed + 1) (ciP'.restReply ciP'.answer) where
  method := hmethod.trans h.method
  apiVersion := hversion.trans h.apiVersion
  httpHeaders := hheaders.trans h.httpHeaders
  count := by simp [ConnectionInfo.restReply, hreplies, h.count]
  errors := by
    intro reply hreply
    rcases List.mem_append.1 hreply with hreply | hreply
    · exact h.errors reply (hreplies ▸ hreply)
    · rw [List.mem_singleton] at hreply
      exact ⟨answer, by rw [hreply, hanswer], herror⟩
  answer := by
    intro a ha
    obtain rfl : answer = a := Option.some.inj (hanswer.symm.trans ha)
    exact herror
  accepted := by simp [ConnectionInfo.restReply, hanswer]
  status := by simp
  first := by
    intro reply hreply
    cases hold : ciP.replies with
    | nil =>
      have hzero : failed = 0 := by rw [← h.count, hold, List.length_nil]
      simp only [ConnectionInfo.restReply, hreplies, hold, List.nil_append, List.head?_cons, Option.mem_def,
        Option.some.injEq] at hreply
      rw [← hreply]
      exact hfirst hzero
    | cons old rest =>
      refine h.first reply ?_
      simpa [ConnectionInfo.restReply, hreplies, hold] using hreply

/-- What the first call leaves. -/
theorem checked_connect (h : connect r = some ciP) (payload : Option (List UInt8)) (payloadSize : Nat) :
    Checked r 0 { ciP with payload, payloadSize } := by
  unfold connect at h
  rw [Option.map_eq_some_iff] at h
  obtain ⟨tenant, -, rfl⟩ := h
  refine ⟨rfl, rfl, rfl, rfl, by simp, ?_, ?_, ?_, by simp⟩
  · intro answer hanswer
    obtain ⟨error, -, rfl⟩ := Option.map_eq_some_iff.1 hanswer
    trivial
  · dsimp only
    simp only [Option.map_eq_none_iff, true_and]
  · intro _
    cases (uriArguments r.arguments).answer <;> rfl

/-- What a check does to a connection. -/
structure Check (ciP : ConnectionInfo) (check : Bool × ConnectionInfo) : Prop where
  method : check.2.method = ciP.method
  apiVersion : check.2.apiVersion = ciP.apiVersion
  httpHeaders : check.2.httpHeaders = ciP.httpHeaders
  replies : check.2.replies = ciP.replies
  passed : check.1 = true → check.2.answer = ciP.answer ∧ check.2.httpStatusCode = ciP.httpStatusCode
  failed : check.1 = false → ∃ answer, check.2.answer = some answer ∧ answer.IsError

/-- The step over a check. -/
theorem Check.replying {check : Bool × ConnectionInfo} (hcheck : Check ciP check) (h : Checked r failed ciP)
    (hfirst : check.1 = false → failed = 0 → (check.2.httpStatusCode = .SccOk ↔ r.SentAsSuccess)) :
    Checked r (failed + (!check.1).toNat) (replying check) := by
  unfold Rest.replying
  cases hpassed : check.1 with
  | true =>
    obtain ⟨hanswer, hstatus⟩ := hcheck.passed hpassed
    exact
      { method := hcheck.method.trans h.method
        apiVersion := hcheck.apiVersion.trans h.apiVersion
        httpHeaders := hcheck.httpHeaders.trans h.httpHeaders
        count := by rw [if_pos rfl, hcheck.replies]; exact h.count
        errors := by rw [if_pos rfl, hcheck.replies]; exact h.errors
        answer := by rw [if_pos rfl, hanswer]; exact h.answer
        accepted := by rw [if_pos rfl, hanswer]; exact h.accepted
        status := by rw [if_pos rfl, hstatus]; exact h.status
        first := by rw [if_pos rfl, hcheck.replies]; exact h.first }
  | false =>
    obtain ⟨answer, hanswer, herror⟩ := hcheck.failed hpassed
    rw [if_neg (by simp)]
    exact h.fail hcheck.method hcheck.apiVersion hcheck.httpHeaders hcheck.replies hanswer herror (hfirst hpassed)

theorem url_replying (check : Bool × ConnectionInfo) : (Rest.replying check).url = check.2.url := by
  unfold Rest.replying
  split <;> rfl

section Rendered

variable (ciP : ConnectionInfo)

/-- Rendering an error changes the status, and nothing else. -/
theorem rendered_eq : ∃ httpStatusCode, ciP.rendered = { ciP with httpStatusCode } := by
  unfold ConnectionInfo.rendered
  split <;> exact ⟨_, rfl⟩

theorem replies_rendered : ciP.rendered.replies = ciP.replies := by
  obtain ⟨httpStatusCode, heq⟩ := rendered_eq ciP
  rw [heq]

theorem status_rendered : ciP.rendered.httpStatusCode = .SccOk ↔ ciP.apiVersion = .v1 ∧ ciP.httpStatusCode = .SccOk := by
  unfold ConnectionInfo.rendered
  cases hversion : ciP.apiVersion with
  | v1 => simp
  | v2 =>
    split
    · simp
    · rename_i hstatus
      simp only [true_and, not_or] at hstatus
      simp [hstatus.1]

theorem check_orionError (error : StatusCode) : Check ciP (false, ciP.orionError error) := by
  obtain ⟨httpStatusCode, heq⟩ := rendered_eq ciP
  unfold ConnectionInfo.orionError
  rw [heq]
  exact ⟨rfl, rfl, rfl, rfl, by simp, fun _ => ⟨_, rfl, trivial⟩⟩

theorem check_restError (httpStatusCode : HttpStatusCode) (outMimeType : MimeType) (request : String)
    (error : StatusCode) :
    Check ciP (false, { ciP.restErrorReplyGet with
      httpStatusCode, outMimeType, answer := some (.restError request error) }) := by
  obtain ⟨status, heq⟩ := rendered_eq { ciP with httpStatusCode := .SccOk }
  unfold ConnectionInfo.restErrorReplyGet
  rw [heq]
  exact ⟨rfl, rfl, rfl, rfl, by simp, fun _ => ⟨_, rfl, trivial⟩⟩

theorem check_passed (servicePathV : List String) (inMimeType outMimeType : MimeType) (url : String) :
    Check ciP (true, { ciP with servicePathV, inMimeType, outMimeType, url }) :=
  ⟨rfl, rfl, rfl, rfl, fun _ => ⟨rfl, rfl⟩, by simp⟩

end Rendered

theorem check_url {check : Bool × ConnectionInfo} (h : urlCheck ciP = some check) :
    Check ciP check ∧ check.1 = !forbiddenChars ciP.url [] ∧
      (check.1 = false → check.2.httpStatusCode ≠ .SccOk) ∧
      (check.1 = true → check.2.url = String.ofList (ciP.url.toList.reverse.dropWhile (· = '/')).reverse) := by
  unfold urlCheck at h
  cases hforbidden : forbiddenChars ciP.url [] with
  | true =>
    rw [if_pos hforbidden, Option.some.injEq] at h
    subst h
    have hstep := check_orionError { ciP with httpStatusCode := .SccBadRequest } ⟨.SccBadRequest, "invalid character in URI"⟩
    refine ⟨⟨hstep.method, hstep.apiVersion, hstep.httpHeaders, hstep.replies, by simp, hstep.failed⟩, rfl, fun _ => ?_, by simp⟩
    have hstatus := status_rendered { ciP with httpStatusCode := .SccBadRequest }
    unfold ConnectionInfo.orionError
    simp [hstatus]
  | false =>
    rw [if_neg (by simp [hforbidden])] at h
    dsimp only at h
    split at h
    · cases h
    · rw [Option.some.injEq] at h
      subst h
      exact ⟨check_passed ciP ciP.servicePathV ciP.inMimeType ciP.outMimeType _, rfl, by simp, fun _ => rfl⟩

theorem check_servicePaths (ciP : ConnectionInfo) :
    Check ciP (servicePathsCheck ciP) ∧
      (servicePathsCheck ciP).1 = decide ((servicePathSplit ciP.httpHeaders.servicePath).1 = 0) ∧
      (servicePathsCheck ciP).2.url = ciP.url ∧
      ((servicePathsCheck ciP).1 = false →
        ((servicePathsCheck ciP).2.httpStatusCode = .SccOk ↔ ciP.apiVersion = .v1 ∧ ciP.httpStatusCode = .SccOk)) := by
  unfold servicePathsCheck
  dsimp only
  split
  · rename_i hsplit
    exact ⟨check_passed ciP _ ciP.inMimeType ciP.outMimeType ciP.url, by simp [hsplit], rfl, by simp⟩
  · rename_i hsplit
    set ciP' : ConnectionInfo := { ciP with servicePathV := (servicePathSplit ciP.httpHeaders.servicePath).2 } with hciP'
    have hstep := check_orionError ciP' ⟨.SccBadRequest, servicePathDetails (servicePathSplit ciP.httpHeaders.servicePath).1⟩
    refine ⟨⟨hstep.method, hstep.apiVersion, hstep.httpHeaders, hstep.replies, by simp, hstep.failed⟩, by simp [hsplit], ?_,
      fun _ => status_rendered ciP'⟩
    obtain ⟨status, heq⟩ := rendered_eq ciP'
    unfold ConnectionInfo.orionError
    rw [heq]

/-- An empty type is not supported. -/
theorem contentTypeCheck_cases (ciP : ConnectionInfo) :
    if ciP.httpHeaders.contentLength = 0 ∨ ciP.httpHeaders.contentType ∈ supportedTypes ciP.apiVersion then
      contentTypeCheck ciP = (true, ciP)
    else ∃ details, contentTypeCheck ciP = (false, { ciP.restErrorReplyGet with
      httpStatusCode := SccUnsupportedMediaType
      answer := some (.restError "OrionError" ⟨SccUnsupportedMediaType, details⟩) }) := by
  have hempty : "" ∉ supportedTypes ciP.apiVersion := by
    cases ciP.apiVersion <;> decide
  unfold contentTypeCheck
  dsimp only
  by_cases hlength : ciP.httpHeaders.contentLength = 0
  · rw [if_pos (Or.inl hlength), if_pos hlength]
  · rw [if_neg hlength]
    by_cases hsupported : ciP.httpHeaders.contentType ∈ supportedTypes ciP.apiVersion
    · have hne : ciP.httpHeaders.contentType ≠ "" := fun heq => hempty (heq ▸ hsupported)
      rw [if_pos (Or.inr hsupported), if_neg hne, if_neg (not_not_intro hsupported)]
    · rw [if_neg (by tauto)]
      split
      · exact ⟨_, rfl⟩
      · exact ⟨_, rfl⟩

/-- A failure is never a success. -/
theorem check_types (ciP : ConnectionInfo) :
    Check ciP (typesCheck ciP) ∧
      (typesCheck ciP).1 = ((ciP.httpHeaders.contentLength = 0 || ciP.httpHeaders.contentType ∈ supportedTypes ciP.apiVersion) &&
        wantedOutputSupported ciP.apiVersion ciP.httpHeaders.accept ≠ .NOMIMETYPE) ∧
      ((typesCheck ciP).1 = true → (typesCheck ciP).2.url = ciP.url) ∧
      ((typesCheck ciP).1 = false → (typesCheck ciP).2.httpStatusCode ≠ .SccOk) := by
  have hcontent := contentTypeCheck_cases ciP
  unfold typesCheck
  split at hcontent
  · rename_i hsupported
    rw [hcontent]
    unfold outMimeTypeCheck
    dsimp only
    by_cases hout : wantedOutputSupported ciP.apiVersion ciP.httpHeaders.accept = .NOMIMETYPE
    · simp only [hout, if_true, Bool.true_eq_false, if_false]
      exact ⟨check_restError ciP SccNotAcceptable .JSON "OrionError" _, by simp, by simp, by simp⟩
    · simp only [hout, if_false, Bool.true_eq_false]
      exact ⟨check_passed ciP ciP.servicePathV _ _ ciP.url, by simp [hsupported, hout], by simp, by simp⟩
  · rename_i hunsupported
    obtain ⟨details, hdetails⟩ := hcontent
    rw [hdetails]
    simp only [if_true]
    refine ⟨check_restError ciP SccUnsupportedMediaType ciP.restErrorReplyGet.outMimeType "OrionError" ⟨_, details⟩, ?_,
      by simp, by simp⟩
    have hfalse := not_or.1 hunsupported
    simp [hfalse.1, hfalse.2]

/-! ### The last call -/

variable {debug : Bool} {payloadParse : RestService → ConnectionInfo → HttpStatusCode × String}
  {treat : RestTreat → ConnectionInfo → HttpStatusCode × String}

/-- Behind the three checks. -/
theorem checked_all (h : Checked r 0 ciP) (hurl : ciP.url = r.url) {check : Bool × ConnectionInfo}
    (hcheck : urlCheck ciP = some check) :
    Checked r r.failures (replying (typesCheck (replying (servicePathsCheck (replying check))))) ∧
      (r.failures = 0 → (replying (typesCheck (replying (servicePathsCheck (replying check))))).url = r.path) := by
  obtain ⟨hfirst, hflag, hstatus, htrimmed⟩ := check_url hcheck
  rw [hurl] at hflag htrimmed
  have hpath : check.1 = true → (replying check).url = r.path := fun htrue =>
    (url_replying check).trans (htrimmed htrue)
  have hchecked := hfirst.replying h fun hfalse _ => iff_of_false (hstatus hfalse) fun hsent => by
    rw [hflag, hsent.url] at hfalse
    cases hfalse
  set ciP1 := replying check
  obtain ⟨hsecond, hflag2, hurl2, hstatus2⟩ := check_servicePaths ciP1
  rw [hchecked.httpHeaders] at hflag2
  have haccepted : (servicePathsCheck ciP1).1 = r.servicePathAccepted := hflag2
  have hchecked2 := hsecond.replying hchecked fun hfalse hzero => by
    have hforbidden : forbiddenChars r.url [] = false := by
      rw [hflag] at hzero
      cases hforbidden : forbiddenChars r.url [] with
      | true => simp [hforbidden] at hzero
      | false => rfl
    rw [hstatus2 hfalse, hchecked.apiVersion, hchecked.status hzero]
    constructor
    · rintro ⟨hv1, hok⟩
      refine ⟨hv1, hforbidden, ?_, haccepted ▸ hfalse⟩
      by_contra hne
      rw [if_neg hne] at hok
      cases hok
    · intro hsent
      exact ⟨hsent.version, if_pos hsent.arguments⟩
  have hurl2' : (replying (servicePathsCheck ciP1)).url = ciP1.url := (url_replying _).trans hurl2
  set ciP2 := replying (servicePathsCheck ciP1)
  obtain ⟨hthird, hflag3, hurl3, hstatus3⟩ := check_types ciP2
  rw [hchecked2.httpHeaders, hchecked2.apiVersion] at hflag3
  have htypes : (typesCheck ciP2).1 = r.typesAccepted := hflag3
  have hchecked3 := hthird.replying hchecked2 fun hfalse hzero => iff_of_false (hstatus3 hfalse) fun hsent => by
    rw [haccepted, hsent.servicePath] at hzero
    simp at hzero
  have hcount : 0 + (!check.1).toNat + (!(servicePathsCheck ciP1).1).toNat + (!(typesCheck ciP2).1).toNat = r.failures := by
    rw [hflag, haccepted, htypes, Nat.zero_add, Bool.not_not]
    rfl
  rw [hcount] at hchecked3
  refine ⟨hchecked3, fun hzero => ?_⟩
  rw [hzero] at hcount
  have hpassed : check.1 = true ∧ (typesCheck ciP2).1 = true := by
    cases hurlPassed : check.1 <;> cases htypesPassed : (typesCheck ciP2).1 <;> simp_all
  rw [url_replying, hurl3 hpassed.2, hurl2', hpath hpassed.1]

/-- The connection of a request that is served. -/
def Request.ready (r : Request) (ciP : ConnectionInfo) : ConnectionInfo :=
  { ciP with
    url := r.path
    servicePathV := (servicePathSplit r.httpHeaders.servicePath).2
    inMimeType := mimeTypeParse r.httpHeaders.contentType
    outMimeType := wantedOutputSupported (apiVersionGet r.url) r.httpHeaders.accept }

/-- The URL is not made of slashes only. -/
theorem path_of_check {check : Bool × ConnectionInfo} (hcheck : urlCheck ciP = some check) (hurl : ciP.url = r.url)
    (hforbidden : forbiddenChars r.url [] = false) : check = (true, { ciP with url := r.path }) ∧ r.path ≠ "" ∧ r.path ≠ "/" := by
  unfold urlCheck at hcheck
  rw [if_neg (by simp [hurl, hforbidden])] at hcheck
  dsimp only at hcheck
  split at hcheck
  · cases hcheck
  · rename_i hne
    rw [Option.some.injEq] at hcheck
    rw [hurl] at hcheck hne
    refine ⟨hcheck.symm, fun hempty => ?_, fun hslash => ?_⟩
    · exact hne (String.ofList_eq_empty_iff.1 hempty)
    · have hlist : (r.url.toList.reverse.dropWhile (· = '/')) = ['/'] := by
        rw [← List.reverse_inj]
        simpa [Request.path] using congrArg String.toList hslash
      have hhead := List.head?_dropWhile_not (fun c : Char => decide (c = '/')) r.url.toList.reverse
      rw [hlist] at hhead
      simp at hhead

theorem servicePathsCheck_passed (ciP : ConnectionInfo) (h : (servicePathSplit ciP.httpHeaders.servicePath).1 = 0) :
    servicePathsCheck ciP = (true, { ciP with servicePathV := (servicePathSplit ciP.httpHeaders.servicePath).2 }) := by
  unfold servicePathsCheck
  dsimp only
  rw [if_pos h]

theorem typesCheck_passed (ciP : ConnectionInfo)
    (hcontent : ciP.httpHeaders.contentLength = 0 ∨ ciP.httpHeaders.contentType ∈ supportedTypes ciP.apiVersion)
    (hout : wantedOutputSupported ciP.apiVersion ciP.httpHeaders.accept ≠ .NOMIMETYPE) :
    typesCheck ciP = (true, { ciP with
      inMimeType := mimeTypeParse ciP.httpHeaders.contentType
      outMimeType := wantedOutputSupported ciP.apiVersion ciP.httpHeaders.accept }) := by
  have hcases := contentTypeCheck_cases ciP
  rw [if_pos hcontent] at hcases
  unfold typesCheck outMimeTypeCheck
  simp only [hcases, hout, if_false, Bool.true_eq_false]

theorem Request.passed_of_failures (h : r.failures = 0) :
    forbiddenChars r.url [] = false ∧ (servicePathSplit r.httpHeaders.servicePath).1 = 0 ∧
      (r.httpHeaders.contentLength = 0 ∨ r.httpHeaders.contentType ∈ supportedTypes (apiVersionGet r.url)) ∧
      wantedOutputSupported (apiVersionGet r.url) r.httpHeaders.accept ≠ .NOMIMETYPE := by
  unfold Request.failures at h
  have hforbidden : forbiddenChars r.url [] = false := by
    rw [← Bool.toNat_eq_zero]
    omega
  have hpath : (!r.servicePathAccepted) = false := by
    rw [← Bool.toNat_eq_zero]
    omega
  have htypes : (!r.typesAccepted) = false := by
    rw [← Bool.toNat_eq_zero]
    omega
  simp only [Request.servicePathAccepted, Request.typesAccepted, Bool.not_eq_false', decide_eq_true_eq, Bool.and_eq_true,
    Bool.or_eq_true] at hpath htypes
  exact ⟨hforbidden, hpath, htypes.1, htypes.2⟩

theorem lastCall_of_passed (h : Checked r 0 ciP) (hurl : ciP.url = r.url) (hfailures : r.failures = 0)
    (harguments : (uriArguments r.arguments).answer = none) {out : ConnectionInfo}
    (hlast : lastCall debug payloadParse treat r.url ciP = some out) :
    serveChecked debug payloadParse treat r.url (r.ready ciP) = some out ∧ r.path ≠ "" ∧ r.path ≠ "/" := by
  obtain ⟨hforbidden, hsplit, hcontent, hout⟩ := Request.passed_of_failures hfailures
  obtain ⟨check, hcheck, hrest⟩ := Option.bind_eq_some_iff.1 hlast
  obtain ⟨rfl, hpath⟩ := path_of_check hcheck hurl hforbidden
  refine ⟨?_, hpath⟩
  have hservice := servicePathsCheck_passed { ciP with url := r.path } (by rw [h.httpHeaders]; exact hsplit)
  have htypes := typesCheck_passed
    { ciP with url := r.path, servicePathV := (servicePathSplit ciP.httpHeaders.servicePath).2 }
    (by rw [h.httpHeaders, h.apiVersion]; exact hcontent) (by rw [h.httpHeaders, h.apiVersion]; exact hout)
  have hstatus := h.status rfl
  rw [if_pos harguments] at hstatus
  simp only [replying, if_true, hservice, htypes] at hrest
  rw [if_neg (not_not_intro hstatus)] at hrest
  unfold Request.ready
  rw [← h.httpHeaders, ← h.apiVersion]
  exact hrest

theorem tooLarge_cases (ciP : ConnectionInfo) :
    if ciP.httpHeaders.contentLength ≤ PAYLOAD_MAX_SIZE then tooLarge ciP = ciP
    else Check ciP (false, tooLarge ciP) ∧ (tooLarge ciP).url = ciP.url ∧ (tooLarge ciP).httpStatusCode ≠ .SccOk := by
  unfold tooLarge
  split
  · rename_i hsize
    rw [if_neg (by omega)]
  · rename_i hsize
    rw [if_pos (by omega)]
    refine ⟨check_restError ciP SccRequestEntityTooLarge ciP.restErrorReplyGet.outMimeType ciP.url _, ?_, by simp⟩
    obtain ⟨status, heq⟩ := rendered_eq { ciP with httpStatusCode := .SccOk }
    unfold ConnectionInfo.restErrorReplyGet
    rw [heq]

/-- The end of the last call, for a request that has been refused or is too large or without its length. -/
theorem serveChecked_refused {url : String} {out : ConnectionInfo} (herrors : ∀ answer ∈ ciP.answer, answer.IsError)
    (hrefused : ciP.answer ≠ none ∨ PAYLOAD_MAX_SIZE < ciP.httpHeaders.contentLength ∨ lengthMissing ciP = true)
    (h : serveChecked debug payloadParse treat url ciP = some out) :
    ∃ reply, out.replies = ciP.replies ++ [reply] ∧ reply.IsError ∧ (ciP.answer = none → reply.httpStatusCode ≠ .SccOk) := by
  have hlarge := tooLarge_cases ciP
  have hreplies : (tooLarge ciP).replies = ciP.replies := by
    split at hlarge
    · rw [hlarge]
    · exact hlarge.1.replies
  have hmissing : lengthMissing (tooLarge ciP) = lengthMissing ciP := by
    split at hlarge
    · rw [hlarge]
    · unfold lengthMissing
      rw [hlarge.2.1, hlarge.1.method, hlarge.1.httpHeaders]
  unfold serveChecked at h
  dsimp only at h
  rw [hmissing] at h
  split at h
  · rw [Option.some.injEq] at h
    subst h
    obtain ⟨status, heq⟩ := rendered_eq { tooLarge ciP with httpStatusCode := .SccOk }
    refine ⟨⟨SccLengthRequired, some (.restError url
      ⟨SccLengthRequired, "Zero/No Content-Length in PUT/POST/PATCH request"⟩)⟩, ?_, ⟨_, rfl, trivial⟩, by simp⟩
    unfold ConnectionInfo.restErrorReplyGet ConnectionInfo.restReply
    rw [heq, ← hreplies]
  · rename_i hlength
    have hanswer : (tooLarge ciP).answer ≠ none := by
      split at hlarge
      · rename_i hsize
        rw [hlarge]
        rcases hrefused with hanswer | hsize' | hlength'
        · exact hanswer
        · omega
        · exact absurd hlength' hlength
      · obtain ⟨answer, heq, -⟩ := hlarge.1.failed rfl
        rw [heq]
        simp
    rw [if_pos hanswer, Option.some.injEq] at h
    subst h
    obtain ⟨answer, heq⟩ := Option.ne_none_iff_exists'.1 hanswer
    refine ⟨⟨(tooLarge ciP).httpStatusCode, (tooLarge ciP).answer⟩, ?_, ⟨answer, heq, ?_⟩, fun hnone => ?_⟩
    · unfold ConnectionInfo.restReply
      rw [hreplies]
    · split at hlarge
      · rw [hlarge] at heq
        exact herrors answer heq
      · obtain ⟨answer', heq', herror⟩ := hlarge.1.failed rfl
        obtain rfl : answer' = answer := Option.some.inj (heq'.symm.trans heq)
        exact herror
    · split at hlarge
      · rw [hlarge] at hanswer
        exact absurd hnone hanswer
      · exact hlarge.2.2

/-- A reply for each check that is not passed, and one more at the end. -/
theorem lastCall_refused (h : Checked r 0 ciP) (hurl : ciP.url = r.url) (hrefused : ¬r.Accepted) {out : ConnectionInfo}
    (hlast : lastCall debug payloadParse treat r.url ciP = some out) :
    out.replies.length = r.failures + 1 ∧ (∀ reply ∈ out.replies, reply.IsError) ∧
      ∀ reply ∈ out.replies.head?, (reply.httpStatusCode = .SccOk ↔ r.SentAsSuccess) := by
  obtain ⟨check, hcheck, hrest⟩ := Option.bind_eq_some_iff.1 hlast
  obtain ⟨hchecked, hpath⟩ := checked_all h hurl hcheck
  set ciP' := replying (typesCheck (replying (servicePathsCheck (replying check))))
  have hfinal : ∃ reply, out.replies = ciP'.replies ++ [reply] ∧ reply.IsError ∧
      (r.failures = 0 → reply.httpStatusCode ≠ .SccOk) := by
    dsimp only at hrest
    split at hrest
    · rename_i hstatus
      rw [Option.some.injEq] at hrest
      subst hrest
      have hanswer : ciP'.answer ≠ none := by
        intro hnone
        obtain ⟨hzero, hargs⟩ := hchecked.accepted.1 hnone
        exact hstatus ((hchecked.status hzero).trans (if_pos hargs))
      obtain ⟨answer, heq⟩ := Option.ne_none_iff_exists'.1 hanswer
      exact ⟨_, rfl, ⟨answer, heq, hchecked.answer answer heq⟩, fun _ => hstatus⟩
    · rename_i hstatus
      have hmiss : ciP'.answer ≠ none ∨ PAYLOAD_MAX_SIZE < ciP'.httpHeaders.contentLength ∨ lengthMissing ciP' = true := by
        by_contra hnot
        simp only [not_or, not_not, Nat.not_lt] at hnot
        obtain ⟨hnone, hsize, hlength⟩ := hnot
        obtain ⟨hzero, hargs⟩ := hchecked.accepted.1 hnone
        rw [hchecked.httpHeaders] at hsize
        refine hrefused ⟨hzero, hargs, hsize, fun hmethod hcontent => ?_⟩
        by_contra hlog
        refine hlength ?_
        unfold lengthMissing
        rw [hchecked.method, hchecked.httpHeaders, hpath hzero]
        simp only [not_or, Bool.not_eq_true] at hlog
        simp only [hmethod, hcontent, hlog, decide_true, Bool.not_false, Bool.and_self]
      obtain ⟨reply, hreply, herror, hok⟩ := serveChecked_refused hchecked.answer hmiss hrest
      refine ⟨reply, hreply, herror, fun hzero => hok ?_⟩
      refine hchecked.accepted.2 ⟨hzero, ?_⟩
      by_contra hne
      rw [hchecked.status hzero, if_neg hne] at hstatus
      exact hstatus (by simp)
  obtain ⟨reply, hreplies, herror, hok⟩ := hfinal
  rw [hreplies]
  refine ⟨by rw [List.length_append, hchecked.count, List.length_singleton], ?_, ?_⟩
  · rw [List.forall_mem_append, List.forall_mem_singleton]
    exact ⟨hchecked.errors, herror⟩
  · intro first hfirst
    cases hold : ciP'.replies with
    | nil =>
      have hzero : r.failures = 0 := by rw [← hchecked.count, hold, List.length_nil]
      rw [hold, List.nil_append, List.head?_cons, Option.mem_def, Option.some.injEq] at hfirst
      subst hfirst
      refine iff_of_false (hok hzero) fun hsent => ?_
      have hpassed := (Request.passed_of_failures hzero).2.1
      have hfalse := hsent.servicePath
      simp [Request.servicePathAccepted, hpassed] at hfalse
    | cons old rest =>
      refine hchecked.first first ?_
      rw [hold] at hfirst ⊢
      exact hfirst

theorem serveChecked_accepted (h : Checked r 0 ciP) (haccepted : r.Accepted) {out : ConnectionInfo}
    (hserve : serveChecked debug payloadParse treat r.url (r.ready ciP) = some out) :
    restService debug payloadParse treat (r.ready ciP) = some out := by
  have hheaders : (r.ready ciP).httpHeaders = r.httpHeaders := h.httpHeaders
  have hlarge : tooLarge (r.ready ciP) = r.ready ciP := by
    unfold tooLarge
    rw [if_neg (by rw [hheaders]; exact Nat.not_lt.2 haccepted.size)]
  have hanswer : (r.ready ciP).answer = none := h.accepted.2 ⟨rfl, haccepted.arguments⟩
  have hmethod : (r.ready ciP).method = r.method := h.method
  have hlength : lengthMissing (r.ready ciP) = false := by
    unfold lengthMissing
    rw [hheaders, hmethod]
    by_contra hmissing
    simp only [Bool.not_eq_false, Bool.and_eq_true, decide_eq_true_eq, Bool.not_eq_true'] at hmissing
    obtain ⟨⟨hverb, hcontent⟩, hlog, hadmin⟩ := hmissing
    rcases haccepted.length hverb hcontent with hstarts | hstarts
    · exact Bool.false_ne_true (hlog.symm.trans hstarts)
    · exact Bool.false_ne_true (hadmin.symm.trans hstarts)
  unfold serveChecked at hserve
  dsimp only at hserve
  rw [hlarge, hlength, if_neg Bool.false_ne_true, hanswer, if_neg (not_not_intro rfl)] at hserve
  exact hserve

variable (debug payloadParse) in
/-- The payload is parsed and not accepted. -/
def PayloadRefused (ciP : ConnectionInfo) : Prop :=
  ∃ s, dispatch ciP.method (stringSplit ciP.url '/') (restServiceV debug).entries "" = .service s ∧
    parses s ciP = true ∧ (payloadParse s ciP).2 ≠ "OK"

variable (debug payloadParse) in
/-- A service is found, the payload is accepted if it is parsed, and so is the tenant. -/
def Treats (ciP : ConnectionInfo) : Prop :=
  ∃ s, dispatch ciP.method (stringSplit ciP.url '/') (restServiceV debug).entries "" = .service s ∧
    (parses s ciP = true → (payloadParse s ciP).2 = "OK") ∧
      (ciP.tenantFromHttpHeader = "" ∨ tenantCheck ciP.tenantFromHttpHeader = "OK")

/-- A reply with the response of a service. -/
def Reply.IsTreated (reply : Reply) : Prop := ∃ treat response, reply.answer = some (.treated treat response)

theorem not_isError_of_isTreated {reply : Reply} (h : reply.IsTreated) : ¬reply.IsError := by
  rintro ⟨answer, hanswer, herror⟩
  obtain ⟨treat, response, htreated⟩ := h
  obtain rfl : answer = .treated treat response := Option.some.inj (hanswer.symm.trans htreated)
  exact herror

/-- One reply, with the response of the service unless the tenant is not accepted. -/
theorem treatService_replies {s : RestService} {out : ConnectionInfo} (hempty : ciP.replies = [])
    (h : treatService treat s ciP = some out) :
    ∃ reply, out.replies = [reply] ∧
      if ciP.tenantFromHttpHeader = "" ∨ tenantCheck ciP.tenantFromHttpHeader = "OK" then reply.IsTreated
      else reply.IsError := by
  unfold treatService at h
  dsimp only at h
  split at h
  · rename_i htenant
    rw [Option.some.injEq] at h
    subst h
    simp only [ConnectionInfo.restReply, replies_rendered, hempty, List.nil_append]
    refine ⟨_, rfl, ?_⟩
    rw [if_neg (by tauto)]
    exact ⟨_, rfl, trivial⟩
  · rename_i htenant
    rw [Option.ite_none_left_eq_some, Option.some.injEq] at h
    obtain ⟨-, rfl⟩ := h
    simp only [ConnectionInfo.restReply, hempty, List.nil_append]
    refine ⟨_, rfl, ?_⟩
    rw [if_pos (by tauto)]
    exact ⟨_, _, rfl⟩

/-- A payload that is not accepted is answered twice, everything else once. -/
theorem restService_replies {out : ConnectionInfo} (hurl : ciP.url ≠ "" ∧ ciP.url ≠ "/")
    (hstatus : ciP.httpStatusCode = .SccOk) (hempty : ciP.replies = [])
    (h : restService debug payloadParse treat ciP = some out) :
    (PayloadRefused debug payloadParse ciP → out.replies.length = 2) ∧
      (¬PayloadRefused debug payloadParse ciP → out.replies.length = 1) ∧
      (Treats debug payloadParse ciP → ∀ reply ∈ out.replies, reply.IsTreated) ∧
      (¬Treats debug payloadParse ciP → ∀ reply ∈ out.replies, reply.IsError) := by
  have hsame : { ciP with httpStatusCode := .SccOk } = ciP := by rw [← hstatus]
  unfold restService at h
  rw [if_neg (by tauto)] at h
  dsimp only at h
  rw [hsame] at h
  cases hdispatch : dispatch ciP.method (stringSplit ciP.url '/') (restServiceV debug).entries "" with
  | outside =>
    rw [hdispatch] at h
    cases h
  | unrecognized payloadWord =>
    rw [hdispatch] at h
    simp only [Option.some.injEq] at h
    subst h
    have hreplies : ciP.restErrorReplyGet.replies = [] := (replies_rendered _).trans hempty
    simp only [PayloadRefused, Treats, hdispatch, ConnectionInfo.restReply, hreplies, List.nil_append, List.length_singleton,
      reduceCtorEq, false_and, exists_false, not_false_eq_true, List.forall_mem_singleton, forall_const, true_and,
      false_imp_iff]
    exact ⟨_, rfl, trivial⟩
  | service s =>
    rw [hdispatch] at h
    dsimp only at h
    have hrefused : PayloadRefused debug payloadParse ciP ↔ parses s ciP = true ∧ (payloadParse s ciP).2 ≠ "OK" := by
      simp [PayloadRefused, hdispatch]
    have htreats : Treats debug payloadParse ciP ↔ (parses s ciP = true → (payloadParse s ciP).2 = "OK") ∧
        (ciP.tenantFromHttpHeader = "" ∨ tenantCheck ciP.tenantFromHttpHeader = "OK") := by
      simp [Treats, hdispatch]
    by_cases hparsed : parses s ciP = true ∧ (payloadParse s ciP).2 ≠ "OK"
    · rw [if_pos hparsed.1, if_pos hparsed.2, Option.some.injEq] at h
      subst h
      rw [hrefused, htreats]
      simp only [ConnectionInfo.restReply, hempty, List.nil_append, List.cons_append, List.length_cons, List.length_nil]
      refine ⟨fun _ => trivial, fun hnot => absurd hparsed hnot, fun hok => absurd (hok.1 hparsed.1) hparsed.2, fun _ => ?_⟩
      simp only [List.forall_mem_cons]
      exact ⟨⟨_, rfl, trivial⟩, ⟨_, rfl, trivial⟩, by simp⟩
    · have hservice : ∃ ciP' : ConnectionInfo, ciP'.replies = [] ∧ ciP'.tenantFromHttpHeader = ciP.tenantFromHttpHeader ∧
          treatService treat s ciP' = some out := by
        split at h
        · rename_i hparses
          rw [if_neg (by tauto)] at h
          exact ⟨{ ciP with httpStatusCode := (payloadParse s ciP).1 }, hempty, rfl, h⟩
        · exact ⟨ciP, hempty, rfl, h⟩
      obtain ⟨ciP', hempty', htenant, htreated⟩ := hservice
      obtain ⟨reply, hreplies, hreply⟩ := treatService_replies hempty' htreated
      rw [htenant] at hreply
      rw [hrefused, htreats, hreplies]
      simp only [List.length_singleton, List.forall_mem_singleton]
      refine ⟨fun hyes => absurd hyes hparsed, fun _ => trivial, fun hok => ?_, fun hno => ?_⟩
      · rw [if_pos hok.2] at hreply
        exact hreply
      · have htenant' : ¬(ciP.tenantFromHttpHeader = "" ∨ tenantCheck ciP.tenantFromHttpHeader = "OK") := fun hok =>
          hno ⟨fun hparses => by_contra fun hne => hparsed ⟨hparses, hne⟩, hok⟩
        rw [if_neg htenant'] at hreply
        exact hreply

/-! ### What is queued -/

/-- The replies to a request, of which the first one is sent. -/
structure Answered (debug : Bool) (payloadParse : RestService → ConnectionInfo → HttpStatusCode × String) (r : Request)
    (ready : ConnectionInfo) (replies : List Reply) : Prop where
  /-- A reply for each check that is not passed, one at the end, and one more for a payload that is not accepted. -/
  once : replies.length = 1 ↔ r.failures = 0 ∧ ¬(r.Accepted ∧ PayloadRefused debug payloadParse ready)
  refused : ¬r.Accepted → replies.length = r.failures + 1
  payload : r.Accepted ∧ PayloadRefused debug payloadParse ready → replies.length = 2
  treated : (∃ reply ∈ replies, reply.IsTreated) ↔ r.Accepted ∧ Treats debug payloadParse ready
  errors : ¬(r.Accepted ∧ Treats debug payloadParse ready) → ∀ reply ∈ replies, reply.IsError
  success : ¬r.Accepted → ∀ reply ∈ replies.head?, (reply.httpStatusCode = .SccOk ↔ r.SentAsSuccess)

/-- Whatever the payload and the functions that parse and treat it are, a request is treated if and only if it passes
all the checks, its payload and tenant are accepted and there is a service for it; otherwise all replies are errors. -/
theorem answered (hconnect : connect r = some ciP) (payload : Option (List UInt8)) (payloadSize : Nat) {out : ConnectionInfo}
    (hlast : lastCall debug payloadParse treat r.url { ciP with payload, payloadSize } = some out) :
    Answered debug payloadParse r (r.ready { ciP with payload, payloadSize }) out.replies := by
  have hchecked := checked_connect hconnect payload payloadSize
  have hurl : ciP.url = r.url := by
    unfold connect at hconnect
    rw [Option.map_eq_some_iff] at hconnect
    obtain ⟨tenant, -, rfl⟩ := hconnect
    rfl
  set read : ConnectionInfo := { ciP with payload, payloadSize } with hread
  by_cases haccepted : r.Accepted
  · obtain ⟨hserve, hpath⟩ := lastCall_of_passed hchecked hurl haccepted.failures haccepted.arguments hlast
    have hstatus : (r.ready read).httpStatusCode = .SccOk := (hchecked.status rfl).trans (if_pos haccepted.arguments)
    have hempty : (r.ready read).replies = [] := List.length_eq_zero_iff.1 hchecked.count
    have hservice := restService_replies hpath hstatus hempty (serveChecked_accepted hchecked haccepted hserve)
    obtain ⟨htwice, honce, htreats, herrors⟩ := hservice
    refine ⟨?_, fun hno => absurd haccepted hno, fun h => htwice h.2, ?_, fun h => herrors fun h' => h ⟨haccepted, h'⟩,
      fun hno => absurd haccepted hno⟩
    · by_cases hpayload : PayloadRefused debug payloadParse (r.ready read)
      · simp [htwice hpayload, haccepted, hpayload]
      · simp [honce hpayload, haccepted.failures, hpayload]
    · by_cases hyes : Treats debug payloadParse (r.ready read)
      · refine iff_of_true ?_ ⟨haccepted, hyes⟩
        have hne : out.replies ≠ [] := by
          intro hnil
          by_cases hpayload : PayloadRefused debug payloadParse (r.ready read)
          · simp [hnil] at htwice
            exact htwice hpayload
          · simp [hnil] at honce
            exact hpayload honce
        obtain ⟨reply, hreply⟩ := List.exists_mem_of_ne_nil _ hne
        exact ⟨reply, hreply, htreats hyes reply hreply⟩
      · refine iff_of_false ?_ fun h => hyes h.2
        rintro ⟨reply, hreply, htreated⟩
        exact not_isError_of_isTreated htreated (herrors hyes reply hreply)
  · obtain ⟨hcount, herrors, hfirst⟩ := lastCall_refused hchecked hurl haccepted hlast
    refine ⟨?_, fun _ => hcount, fun h => absurd h.1 haccepted, ?_, fun _ => herrors, fun _ => hfirst⟩
    · rw [hcount]
      simp [haccepted]
    · refine iff_of_false ?_ fun h => haccepted h.1
      rintro ⟨reply, hreply, htreated⟩
      exact not_isError_of_isTreated htreated (herrors reply hreply)

end Checks

/-- Payloads that are all accepted. -/
def parsesAll (_ : RestService) (_ : ConnectionInfo) : HttpStatusCode × String := (.SccOk, "OK")

/-- Services with an empty response. -/
def treatsAll (_ : RestTreat) (_ : ConnectionInfo) : HttpStatusCode × String := (.SccOk, "")

/-- A service path that does not begin with a slash. -/
def relativePathRequest : Request where
  method := "GET"
  url := "/v1/contextEntities/"
  headers := [("Fiware-Servicepath", "a"), ("Fiware-Service", "T1")]

/-- The request is answered twice, and the error that is sent is a success. -/
theorem answered_relative_path : ∃ ciP out, connect relativePathRequest = some ciP ∧
    lastCall false parsesAll treatsAll relativePathRequest.url
      { ciP with payload := none, payloadSize := 0 } = some out ∧
    Answered false parsesAll relativePathRequest
      (relativePathRequest.ready { ciP with payload := none, payloadSize := 0 }) out.replies ∧
    out.replies.map Reply.httpStatusCode = [.SccOk, .SccOk] := by
  have hrun : ((connect relativePathRequest).bind fun ciP =>
      lastCall false parsesAll treatsAll relativePathRequest.url
        { ciP with payload := none, payloadSize := 0 }).map (fun out => out.replies.map Reply.httpStatusCode) =
        some [.SccOk, .SccOk] := by
    decide +kernel
  obtain ⟨out, hout, hstatus⟩ := Option.map_eq_some_iff.1 hrun
  obtain ⟨ciP, hconnect, hlast⟩ := Option.bind_eq_some_iff.1 hout
  exact ⟨ciP, out, hconnect, hlast, answered hconnect none 0 hlast, hstatus⟩

end OrionBroker.Rest
