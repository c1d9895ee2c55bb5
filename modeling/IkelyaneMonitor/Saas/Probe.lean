import Mathlib
import IkelyaneMonitor.Net.TargetGuard

/-!
# One synthetic check (`modules/saas/runner/probe.ts`)

* `ProbeRequest`, `ProbeOptions`, `ProbeResult`, `ProbeErrorCode` : what is asked for and what comes out;
* `Platform` : the standard library, with URLs as a parameter; `Exchange` : what the network does to one request;
* `readBody`, `requestOnce`, `judge` : one request, and the assertions; `Hop`, `follow`, `probeFrom`, `probe` : the redirects.

A run lists the requests that were sent next to the result.
-/

namespace IkelyaneMonitor.Saas
open Net (IpAddress LookupError assertLiteralTargetAllowed guardedLookup hostnameOf)

inductive ProbeErrorCode where
  | invalid_url | blocked_target | dns | connection | tls | timeout | too_many_redirects | status_mismatch | body_mismatch
  deriving DecidableEq, Repr

structure ProbeRequest where
  url : String
  method : String
  headers : Option (List (String × String))
  body : Option String
  expectedStatus : Int
  expectedBodyContains : Option String
  followRedirects : Bool
  verifySsl : Bool
  timeoutMs : Nat

structure ProbeOptions where
  allowPrivateTargets : Bool
  userAgent : Option String

structure TlsInfo where
  validTo : Int
  issuer : Option String
  deriving DecidableEq, Repr

structure ProbeResult where
  passed : Bool
  statusCode : Option Int
  responseMs : Option ℚ
  error : Option ProbeErrorCode
  errorDetail : Option String
  tls : Option TlsInfo
  deriving DecidableEq

def maxRedirects : Nat := 5

def maxBodyBytes : Nat := 1024 * 1024

def methodsWithBody : List String := ["POST", "PUT", "PATCH", "DELETE"]

/-- The standard library. `parse text base` is `new URL(text, base)`. -/
structure Platform (URL : Type) where
  parse : String → Option URL → Option URL
  protocol : URL → String
  origin : URL → String
  hostname : URL → String
  isIP : String → Option IpAddress
  toUpperCase : String → String
  decodeUtf8 : List UInt8 → String

/-- A response on the wire, received to its end or to the cap. -/
structure Response where
  statusCode : Int
  location : Option String
  chunks : List (List UInt8)
  /-- The certificate of the connection, if it has one. -/
  certificate : Option TlsInfo
  deriving DecidableEq

/-- What the network does to one request: the answer of the resolver, the response or the code of an error; whether the
time limit has passed by then, and the time since the probe started. -/
structure Exchange where
  answer : Except String (List String)
  response : Except String Response
  aborted : Bool
  elapsedMs : ℚ

/-- A request on the wire, with the resolved addresses it goes to, unless its URL names one. -/
structure Sent (URL : Type) where
  url : URL
  method : String
  headers : List (String × String)
  body : Option String
  answer : Option (List String)
  response : Option Response

structure Run (URL : Type) where
  sent : List (Sent URL)
  result : ProbeResult

structure HopResponse where
  statusCode : Int
  location : Option String
  body : Option String
  tls : Option TlsInfo

structure ProbeFailure where
  code : ProbeErrorCode
  detail : Option String

def contains (text part : String) : Bool := decide (part.toList <:+: text.toList)

def tlsErrorMarks : List String :=
  ["CERT", "SSL", "TLS", "SELF_SIGNED", "UNABLE_TO_GET", "UNABLE_TO_VERIFY", "HOSTNAME", "ERR_TLS"]

/-- The case of `code` is that of the codes of the platform, in capitals. -/
def classifyCode (code : String) : ProbeFailure :=
  if code = "EBLOCKEDTARGET" then ⟨.blocked_target, none⟩
  else if code ∈ ["ENOTFOUND", "EAI_AGAIN", "EAI_NODATA", "EAI_NONAME"] then ⟨.dns, some code⟩
  else if tlsErrorMarks.any fun mark => contains code.toUpper mark then ⟨.tls, some code⟩
  else if code = "ABORT_ERR" then ⟨.timeout, none⟩
  else ⟨.connection, if code = "" then none else some code⟩

def classifyLookupError : LookupError → ProbeFailure
  | .blocked address => ⟨.blocked_target, some address⟩
  | .code code => classifyCode code

/-- `{ ...base, ...headers }` -/
def spread (base headers : List (String × String)) : List (String × String) :=
  headers.foldl (fun acc header =>
    if acc.any fun h => h.1 == header.1 then acc.map fun h => if h.1 = header.1 then header else h else acc ++ [header]) base

def requestHeaders (options : ProbeOptions) (headers : List (String × String)) : List (String × String) :=
  spread [("user-agent", options.userAgent.getD "IkelyaneMonitor-SyntheticCheck/1.0"), ("accept", "*/*")] headers

/-- The bytes kept of a body, chunk after chunk, and the size so far. -/
def readChunk (kept : List UInt8 × Nat) (chunk : List UInt8) : List UInt8 × Nat :=
  if maxBodyBytes ≤ kept.2 then kept else (kept.1 ++ chunk.take (maxBodyBytes - kept.2), kept.2 + chunk.length)

def readBody (chunks : List (List UInt8)) : List UInt8 := (chunks.foldl readChunk ([], 0)).1

section Probe
variable {URL : Type} (platform : Platform URL) (request : ProbeRequest) (options : ProbeOptions)

/-- Where the redirects have led to. -/
structure Hop (URL : Type) where
  url : URL
  method : String
  headers : List (String × String)
  body : Option String
  tls : Option TlsInfo
  statusCode : Option Int

def Hop.failed (h : Hop URL) (error : ProbeErrorCode) (errorDetail : Option String) : ProbeResult :=
  ⟨false, h.statusCode, none, some error, errorDetail, h.tls⟩

/-- The `catch` of the probe. -/
def Hop.caught (h : Hop URL) (exchange : Exchange) (failure : ProbeFailure) : ProbeResult :=
  if exchange.aborted then h.failed .timeout (some (toString request.timeoutMs ++ " ms"))
    else h.failed failure.code failure.detail

def isRedirect (code : Int) : Bool := decide (code ∈ [301, 302, 303, 307, 308])

def needBody : Bool :=
  request.expectedBodyContains.any (fun text => text ≠ "") && platform.toUpperCase request.method ≠ "HEAD"

def received (h : Hop URL) (response : Response) : HopResponse where
  statusCode := response.statusCode
  location := response.location
  body := if needBody platform request then some (platform.decodeUtf8 (readBody response.chunks)) else none
  tls := if platform.protocol h.url = "https:" then response.certificate else none

/-- The request that was sent, if it was, and what came of it. -/
def requestOnce (h : Hop URL) (exchange : Exchange) : Option (Sent URL) × Except ProbeFailure HopResponse :=
  let send (answer : Option (List String)) : Option (Sent URL) × Except ProbeFailure HopResponse :=
    let sent : Sent URL := ⟨h.url, h.method, requestHeaders options h.headers, h.body, answer, exchange.response.toOption⟩
    (some sent, match exchange.response with
      | .error code => .error (classifyCode code)
      | .ok response => .ok (received platform request h response))
  if (platform.isIP (hostnameOf (platform.hostname h.url))).isSome then send none
  else
    match guardedLookup platform.isIP options.allowPrivateTargets true exchange.answer with
    | .error error => (none, .error (classifyLookupError error))
    | .ok _ => send exchange.answer.toOption

/-- The assertions, on a response that is not followed. -/
def judge (h : Hop URL) (response : HopResponse) (responseMs : ℚ) : ProbeResult :=
  if response.statusCode ≠ request.expectedStatus then
    { h.failed .status_mismatch (some ("HTTP " ++ toString response.statusCode)) with responseMs := some responseMs }
  else if needBody platform request && !contains (response.body.getD "") (request.expectedBodyContains.getD "") then
    { h.failed .body_mismatch none with responseMs := some responseMs }
  else ⟨true, h.statusCode, some responseMs, none, none, h.tls⟩

inductive HopOutcome (URL : Type) where
  | stop (sent : Option (Sent URL)) (result : ProbeResult)
  /-- A redirect to follow to this location. -/
  | redirected (sent : Option (Sent URL)) (h : Hop URL) (statusCode : Int) (location : String)

/-- One pass of the loop, as far as the check for too many redirects. -/
def hopOnce (h : Hop URL) (exchange : Exchange) : HopOutcome URL :=
  if platform.protocol h.url ≠ "http:" ∧ platform.protocol h.url ≠ "https:" then
    .stop none (h.failed .invalid_url (some (platform.protocol h.url)))
  else
    match assertLiteralTargetAllowed platform.isIP (platform.hostname h.url) options.allowPrivateTargets with
    | .error host => .stop none (h.caught request exchange ⟨.blocked_target, some host⟩)
    | .ok _ =>
        match requestOnce platform request options h exchange with
        | (sent, .error failure) => .stop sent (h.caught request exchange failure)
        | (sent, .ok response) =>
            let h := { h with tls := h.tls <|> response.tls, statusCode := some response.statusCode }
            match request.followRedirects && isRedirect response.statusCode, response.location.filter fun l => l ≠ "" with
            | true, some location => .redirected sent h response.statusCode location
            | _, _ => .stop sent (judge platform request h response exchange.elapsedMs)

/-- The next hop, unless the location is no URL. -/
def follow (h : Hop URL) (statusCode : Int) (location : String) : Option (Hop URL) :=
  (platform.parse location (some h.url)).map fun next =>
    let h := { h with headers := if platform.origin next ≠ platform.origin h.url then [] else h.headers, url := next }
    if statusCode = 303 ∨ (statusCode = 301 ∨ statusCode = 302) ∧ h.method ≠ "GET" ∧ h.method ≠ "HEAD" then
      { h with method := if h.method = "HEAD" then "HEAD" else "GET", body := none }
    else h

/-- With so many redirects left; `network` gives the exchange of each hop. -/
def probeFrom (network : Nat → Exchange) : Nat → Hop URL → Run URL
  | left, h =>
      match hopOnce platform request options h (network (maxRedirects - left)) with
      | .stop sent result => ⟨sent.toList, result⟩
      | .redirected sent h statusCode location =>
          match left with
          | 0 => ⟨sent.toList, h.failed .too_many_redirects (some ("> " ++ toString maxRedirects))⟩
          | left + 1 =>
              match follow platform h statusCode location with
              | none => ⟨sent.toList, h.failed .invalid_url (some "Location")⟩
              | some next =>
                  let rest := probeFrom network left next
                  ⟨sent.toList ++ rest.sent, rest.result⟩

/-- The first hop. -/
def firstHop (url : URL) : Hop URL :=
  let method := platform.toUpperCase request.method
  { url := url
    method := method
    headers := request.headers.getD []
    body := if method ∈ methodsWithBody then request.body.filter fun text => text ≠ "" else none
    tls := none
    statusCode := none }

def probe (network : Nat → Exchange) : Run URL :=
  match platform.parse request.url none with
  | none => ⟨[], ⟨false, none, none, some .invalid_url, none, none⟩⟩
  | some url => probeFrom platform request options network maxRedirects (firstHop platform request url)

end Probe

end IkelyaneMonitor.Saas
