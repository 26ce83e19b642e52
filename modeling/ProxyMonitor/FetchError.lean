import ProxyMonitor.Exposition.Read
import ProxyMonitor.Files

namespace ProxyMonitor

/-- How a request fails on its way, with the account that the client gives of it. -/
inductive ClientFault where
  | timeout
  | decode (text : String)
  | other (text : String)
  deriving DecidableEq, Repr

inductive FetchError where
  | transport (text : String)
  | timeout
  | endpointUnavailable (status : Nat)
  | parse (problem : Exposition.Problem)
  | decode (text : String)
  | rpc (method code : String)
  | io (text : String)
  deriving DecidableEq, Repr

namespace FetchError

def message : FetchError → String
  | .transport text => "Request failed: " ++ text
  | .timeout => "Request timed out"
  | .endpointUnavailable status =>
    "Metrics endpoint unavailable (status " ++ toString status ++ ")"
  | .parse problem => problem.message
  | .decode text => "Failed to decode response: " ++ text
  | .rpc method code => "RPC method " ++ method ++ " failed with code " ++ code
  | .io text => "Read error: " ++ text

def ofClient : ClientFault → FetchError
  | .timeout => .timeout
  | .decode text => .decode text
  | .other text => .transport text

def ofFile (fault : FileFault) : FetchError := .io fault.text

end FetchError

end ProxyMonitor
