import ProxyMonitor.Json.Record
import ProxyMonitor.Sorting

namespace ProxyMonitor

inductive DocumentStatus where
  | blocked
  | allowed
  | neverSeen
  deriving DecidableEq, Repr

namespace DocumentStatus

def name : DocumentStatus → String
  | blocked => "Blocked"
  | allowed => "Allowed"
  | neverSeen => "NeverSeen"

def text : DocumentStatus → String
  | blocked => "Blocked"
  | allowed => "Allowed"
  | neverSeen => "Never seen"

def ofName? (name : String) : Option DocumentStatus :=
  [blocked, allowed, neverSeen].find? fun status => status.name == name

/-- A name, or an object with that name alone and null under it. -/
def ofJson? : Json → Option DocumentStatus
  | .string name => ofName? name
  | .object [(name, .null)] => ofName? name
  | _ => none

end DocumentStatus

structure Document where
  index : Nat
  url : String
  status : DocumentStatus
  categories : List String
  provider : String
  deriving DecidableEq

namespace Document

def fieldNames : List String := ["index", "url", "status", "categories", "provider"]

def ofJson? (json : Json) : Option Document := do
  match ← Json.fields? fieldNames json with
  | [index, some (.string url), some status, categories, provider] =>
    let index ← Json.defaulted Json.asWord? 0 index
    let status ← DocumentStatus.ofJson? status
    let categories ← Json.defaulted Json.asStrings? [] categories
    let provider ← Json.defaulted Json.asString? "" provider
    some ⟨index, url, status, categories, provider⟩
  | _ => none

def toJson (document : Document) : Json :=
  .object [("index", .ofNat document.index), ("url", .string document.url),
    ("status", .string document.status.name), ("categories", .strings document.categories),
    ("provider", .string document.provider)]

instance : Sortable Document where
  key document field :=
    match field with
    | "index" => some (.ofWord document.index)
    | "url" => some (.text document.url)
    | "categories" => some (.text (",".intercalate document.categories))
    | "status" => some (.text document.status.text)
    | "provider" => some (.text document.provider)
    | _ => none

end Document

def indexDocuments (documents : List Document) : List Document :=
  documents.zipIdx.map fun (document, index) => { document with index }

structure BuildInfo where
  packageVersion : String
  gitVersion : String
  deriving DecidableEq

namespace BuildInfo

def ofJson? (json : Json) : Option BuildInfo := do
  match ← Json.fields? ["package_version", "git_version"] json with
  | [some (.string packageVersion), some (.string gitVersion)] =>
    some ⟨packageVersion, gitVersion⟩
  | _ => none

def toJson (info : BuildInfo) : Json :=
  .object [("package_version", .string info.packageVersion),
    ("git_version", .string info.gitVersion)]

end BuildInfo

end ProxyMonitor
