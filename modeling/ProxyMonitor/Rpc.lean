import ProxyMonitor.FetchError
import ProxyMonitor.Json.Reader
import ProxyMonitor.Json.Record
import ProxyMonitor.Json.Writer

namespace ProxyMonitor

inductive RpcMethod where
  | describeReports
  | describe
  deriving DecidableEq

namespace RpcMethod

def wireName : RpcMethod → String
  | describeReports => "img_proxy_describe_report"
  | describe => "img_proxy_describe"

end RpcMethod

namespace Rpc

def request (version : String) (method : RpcMethod) (urls : Option (List String)) : String :=
  let params := match urls with
    | some urls => [("params", Json.object [("urls", .strings urls)])]
    | none => []
  Json.compact (.object ([("jsonrpc", .string version), ("method", .string method.wireName)] ++
    params))

/-- An answer; one that reports an error has a code and no result. -/
structure Envelope (α : Type) where
  version : Option String
  code : Option String
  result : Option α

namespace Envelope

def ofFields? {α : Type} (decode : Json → Option α) :
    List (Option Json) → Option (Envelope α)
  | [version, code, result] => do
    let version ← Json.optional Json.asString? version
    let code ← Json.optional Json.asString? code
    let result ← Json.optional decode result
    some ⟨version, code, result⟩
  | _ => none

/-- An array has to give all three fields. -/
def ofJson? {α : Type} (decode : Json → Option α) (json : Json) : Option (Envelope α) :=
  match json with
  | .object members =>
    (Json.fieldsOfMembers? ["jsonrpc", "code", "result"] members).bind (ofFields? decode)
  | .array items => ofFields? decode (items.map some)
  | _ => none

def result? {α : Type} (method : RpcMethod) (envelope : Envelope α) : Except FetchError α :=
  match envelope.result with
  | some result => .ok result
  | none => .error (.rpc method.wireName (envelope.code.getD "missing result"))

end Envelope

def decodeResponse {α : Type} (decode : Json → Option α) (method : RpcMethod) (body : String) :
    Except FetchError α :=
  match (Json.read? body).bind (Envelope.ofJson? decode) with
  | some envelope => envelope.result? method
  | none => .error (.decode Json.refusal)

def anyValue? (json : Json) : Option Json :=
  if json.isReadable then some json.canonical else none

end Rpc

end ProxyMonitor
