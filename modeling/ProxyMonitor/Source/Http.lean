import ProxyMonitor.Rpc
import ProxyMonitor.Source.Data

namespace ProxyMonitor

structure HttpRequest where
  method : String
  url : String
  body : Option String
  deriving DecidableEq

inductive Exchange where
  | unanswered (fault : ClientFault)
  | answered (status : Nat) (body : Except ClientFault String)

namespace Http

def isSuccess (status : Nat) : Bool := 200 ≤ status && status < 300

def reason? : Nat → Option String
  | 100 => "Continue"
  | 101 => "Switching Protocols"
  | 102 => "Processing"
  | 103 => "Early Hints"
  | 200 => "OK"
  | 201 => "Created"
  | 202 => "Accepted"
  | 203 => "Non Authoritative Information"
  | 204 => "No Content"
  | 205 => "Reset Content"
  | 206 => "Partial Content"
  | 207 => "Multi-Status"
  | 208 => "Already Reported"
  | 226 => "IM Used"
  | 300 => "Multiple Choices"
  | 301 => "Moved Permanently"
  | 302 => "Found"
  | 303 => "See Other"
  | 304 => "Not Modified"
  | 305 => "Use Proxy"
  | 307 => "Temporary Redirect"
  | 308 => "Permanent Redirect"
  | 400 => "Bad Request"
  | 401 => "Unauthorized"
  | 402 => "Payment Required"
  | 403 => "Forbidden"
  | 404 => "Not Found"
  | 405 => "Method Not Allowed"
  | 406 => "Not Acceptable"
  | 407 => "Proxy Authentication Required"
  | 408 => "Request Timeout"
  | 409 => "Conflict"
  | 410 => "Gone"
  | 411 => "Length Required"
  | 412 => "Precondition Failed"
  | 413 => "Payload Too Large"
  | 414 => "URI Too Long"
  | 415 => "Unsupported Media Type"
  | 416 => "Range Not Satisfiable"
  | 417 => "Expectation Failed"
  | 418 => "I'm a teapot"
  | 421 => "Misdirected Request"
  | 422 => "Unprocessable Entity"
  | 423 => "Locked"
  | 424 => "Failed Dependency"
  | 425 => "Too Early"
  | 426 => "Upgrade Required"
  | 428 => "Precondition Required"
  | 429 => "Too Many Requests"
  | 431 => "Request Header Fields Too Large"
  | 451 => "Unavailable For Legal Reasons"
  | 500 => "Internal Server Error"
  | 501 => "Not Implemented"
  | 502 => "Bad Gateway"
  | 503 => "Service Unavailable"
  | 504 => "Gateway Timeout"
  | 505 => "HTTP Version Not Supported"
  | 506 => "Variant Also Negotiates"
  | 507 => "Insufficient Storage"
  | 508 => "Loop Detected"
  | 510 => "Not Extended"
  | 511 => "Network Authentication Required"
  | _ => none

def statusText (status : Nat) : String :=
  toString status ++ " " ++ (reason? status).getD "<unknown status code>"

/-- The body of an answer of success; `refuse` names any other status. -/
def body (refuse : Nat → FetchError) : Exchange → Except FetchError String
  | .unanswered fault => .error (.ofClient fault)
  | .answered status body =>
    if !isSuccess status then .error (refuse status)
    else if status = 204 then .ok ""
    else body.mapError .ofClient

def returned (what : String) (status : Nat) : FetchError :=
  .transport (what ++ " returned status " ++ statusText status)

end Http

structure HttpSource where
  endpoint : String
  metricsPath : String
  infoPath : String
  rpcVersion : String
  deriving DecidableEq

namespace HttpSource

def dropSlashes (path : String) : String := String.ofList (path.toList.dropWhile (· = '/'))

/-- The endpoint is kept without the slashes at its end. -/
def new (endpoint metricsPath infoPath rpcVersion : String) : HttpSource :=
  ⟨String.ofList (endpoint.toList.reverse.dropWhile (· = '/')).reverse, metricsPath, infoPath,
    rpcVersion⟩

def description (source : HttpSource) : String := "http: " ++ source.endpoint

def url (source : HttpSource) (path : String) : String :=
  source.endpoint ++ "/" ++ dropSlashes path

def metricsRequest (source : HttpSource) : HttpRequest :=
  ⟨"GET", source.url source.metricsPath, none⟩

def infoRequest (source : HttpSource) : HttpRequest := ⟨"GET", source.url source.infoPath, none⟩

def rpcRequest (source : HttpSource) (method : RpcMethod) (urls : Option (List String)) :
    HttpRequest :=
  ⟨"POST", source.endpoint, some (Rpc.request source.rpcVersion method urls)⟩

def metrics (exchange : Exchange) : Except FetchError String :=
  Http.body .endpointUnavailable exchange

def rpcResult {α : Type} (decode : Json → Option α) (method : RpcMethod) (exchange : Exchange) :
    Except FetchError α :=
  Http.body (Http.returned method.wireName) exchange >>= Rpc.decodeResponse decode method

def reports (exchange : Exchange) : Except FetchError (List RawReport) :=
  rpcResult (Json.listOf? RawReport.ofJson?) .describeReports exchange

def documents (exchange : Exchange) : Except FetchError (List Document) :=
  rpcResult (Json.listOf? Document.ofJson?) .describe exchange

def info (exchange : Exchange) : Except FetchError BuildInfo := do
  let body ← Http.body (Http.returned "info") exchange
  match (Json.read? body).bind BuildInfo.ofJson? with
  | some info => .ok info
  | none => .error (.decode Json.refusal)

end HttpSource

end ProxyMonitor
