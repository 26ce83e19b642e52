import Std.Data.HashMap
import ProxyMonitor.Json.Record
import ProxyMonitor.Sorting

namespace ProxyMonitor

def gatewayLink (gateway url : String) : String :=
  gateway ++ String.ofList (url.toList.reverse.takeWhile (· ≠ '/')).reverse

/-- A report as the proxy sends it; fields of no further use are kept in `extra`, by name. -/
structure RawReport where
  id : String
  url : String
  categories : List String
  updatedAt : String
  extra : List (String × Json)

namespace RawReport

def fieldNames : List String := ["id", "url", "categories", "updated_at"]

def ofMembers? (members : List (String × Json)) : Option RawReport := do
  let fields ← Json.fieldsOfMembers? fieldNames members
  let extra := members.filter fun member => !fieldNames.contains member.1
  match fields with
  | [some (.string id), some (.string url), categories, updatedAt] =>
    let categories ← Json.defaulted Json.asStrings? [] categories
    let updatedAt ← Json.defaulted Json.asString? "" updatedAt
    if Json.membersReadable extra then
      some ⟨id, url, categories, updatedAt, Json.sortMembers (Json.canonicalMembers extra)⟩
    else none
  | _ => none

def ofJson? : Json → Option RawReport
  | .object members => ofMembers? members
  | _ => none

def toJson (report : RawReport) : Json :=
  .object ([("id", .string report.id), ("url", .string report.url),
    ("categories", .strings report.categories), ("updated_at", .string report.updatedAt)] ++
    report.extra)

end RawReport

/-- All reports of one url; `index` is the place of its first one and outlives sorting. -/
structure AggregatedReport where
  index : Nat
  ids : List String
  url : String
  categories : List String
  updatedAt : String
  count : Nat
  deriving DecidableEq

def mergeCategories (known added : List String) : List String :=
  added.foldl (fun known category => if known.contains category then known else known ++ [category])
    known

namespace AggregatedReport

def first (index : Nat) (report : RawReport) : AggregatedReport :=
  ⟨index, [report.id], report.url, mergeCategories [] report.categories, report.updatedAt, 1⟩

def merge (entry : AggregatedReport) (report : RawReport) : AggregatedReport :=
  { entry with
    ids := entry.ids ++ [report.id]
    categories := mergeCategories entry.categories report.categories
    updatedAt := if entry.updatedAt < report.updatedAt then report.updatedAt else entry.updatedAt
    count := entry.count + 1 }

def toJson (entry : AggregatedReport) : Json :=
  .object [("index", .ofNat entry.index), ("id", .strings entry.ids), ("url", .string entry.url),
    ("categories", .strings entry.categories), ("updated_at", .string entry.updatedAt),
    ("num_reports", .ofNat entry.count)]

instance : Sortable AggregatedReport where
  key entry field :=
    match field with
    | "index" => some (.ofWord entry.index)
    | "url" => some (.text entry.url)
    | "categories" => some (.text (",".intercalate entry.categories))
    | "num_reports" => some (.ofWord entry.count)
    | "updated_at" => some (.text entry.updatedAt)
    | _ => none

end AggregatedReport

structure Aggregation where
  entries : Array AggregatedReport
  positions : Std.HashMap String Nat

namespace Aggregation

def empty : Aggregation := ⟨#[], ∅⟩

def add (aggregation : Aggregation) (report : RawReport) : Aggregation :=
  match aggregation.positions[report.url]? with
  | some place =>
    { aggregation with entries := aggregation.entries.modify place (·.merge report) }
  | none =>
    let index := aggregation.entries.size
    { entries := aggregation.entries.push (.first index report)
      positions := aggregation.positions.insert report.url index }

end Aggregation

def aggregate (reports : List RawReport) : List AggregatedReport :=
  (reports.foldl Aggregation.add .empty).entries.toList

end ProxyMonitor
