import ProxyMonitor.Proofs.Json.Reading
import ProxyMonitor.Proofs.Json.Records
import ProxyMonitor.Proofs.Json.RoundTrip
import ProxyMonitor.Report

/-! Raw reports that are written and read again are the same reports, and the four fields of a report
stay apart from all others. -/

namespace ProxyMonitor

namespace RawReport

def others (members : List (String × Json)) : List (String × Json) :=
  members.filter fun member => !fieldNames.contains member.1

theorem mem_others {members : List (String × Json)} {member : String × Json} :
    member ∈ others members ↔ member ∈ members ∧ member.1 ∉ fieldNames := by
  rw [others, List.mem_filter, Bool.not_eq_true', List.contains_eq_mem, decide_eq_false_iff_not]

theorem ofMembers?_eq_some_iff {members : List (String × Json)} {report : RawReport} :
    ofMembers? members = some report ↔ ∃ categories updatedAt,
      Json.fieldsOfMembers? fieldNames members = some
        [some (.string report.id), some (.string report.url), categories, updatedAt] ∧
      Json.defaulted Json.asStrings? [] categories = some report.categories ∧
      Json.defaulted Json.asString? "" updatedAt = some report.updatedAt ∧
      Json.membersReadable (others members) = true ∧
      report.extra = Json.sortMembers (Json.canonicalMembers (others members)) := by
  constructor
  · intro read
    obtain ⟨fields, found, read⟩ := Option.bind_eq_some_iff.mp read
    dsimp only at read
    split at read
    next id url categories updatedAt =>
      obtain ⟨texts, listed, read⟩ := Option.bind_eq_some_iff.mp read
      obtain ⟨time, timed, read⟩ := Option.bind_eq_some_iff.mp read
      split at read
      next readable =>
        cases read
        exact ⟨categories, updatedAt, found, listed, timed, readable, rfl⟩
      next => cases read
    next => cases read
  · intro shape
    obtain ⟨categories, updatedAt, found, listed, timed, readable, extra⟩ := shape
    rw [others] at readable extra
    simp only [ofMembers?, found, Option.bind_eq_bind, Option.bind_some, listed, timed, readable,
      if_true, ← extra]

theorem lookup_others {members : List (String × Json)} {name : String}
    (unknown : name ∉ fieldNames) :
    (others members).reverse.lookup name = (Json.object members).get? name := by
  have same : (others members).filter (·.1 == name) = members.filter (·.1 == name) := by
    rw [others, List.filter_filter]
    apply List.filter_congr
    intro member _
    by_cases named : member.1 = name
    · simp [named, unknown]
    · simp [named]
  rw [Json.get?, Json.lookup_reverse, Json.lookup_reverse, same]

/-- The fields of a report and its extra fields in an object: none is missing, none is renamed, and
none is taken for another. -/
structure SplitsInto (item : Json) (report : RawReport) : Prop where
  id : item.get? "id" = some (.string report.id)
  url : item.get? "url" = some (.string report.url)
  categories : Json.defaulted Json.asStrings? [] (item.get? "categories") = some report.categories
  updatedAt : Json.defaulted Json.asString? "" (item.get? "updated_at") = some report.updatedAt
  sorted : Ascending report.extra
  apart : ∀ member ∈ report.extra, member.1 ∉ fieldNames
  kept : ∀ name ∉ fieldNames,
    Option.Rel Json.Alike (item.get? name) (report.extra.lookup name)

section

variable {item : Json} {report : RawReport}

theorem splitsInto_of_ofJson? (read : ofJson? item = some report) : SplitsInto item report := by
  cases item with
  | object members =>
      obtain ⟨categories, updatedAt, found, listed, timed, -, extra⟩ :=
        ofMembers?_eq_some_iff.mp read
      obtain - | ⟨id, - | ⟨url, - | ⟨list, - | ⟨time, -⟩⟩⟩⟩ :=
        Json.fieldsOfMembers?_eq_some_iff.mp found
      refine ⟨Json.get?_of_alone id, Json.get?_of_alone url, ?_, ?_, ?_, ?_, ?_⟩
      · rw [Json.get?_of_alone list, listed]
      · rw [Json.get?_of_alone time, timed]
      · rw [extra]
        exact Json.ascending_sortMembers _
      · intro member inside
        rw [extra] at inside
        obtain ⟨own, given, rfl⟩ := Json.exists_of_mem_canonical inside
        exact (mem_others.mp given).2
      · intro name unknown
        rw [extra, Json.lookup_sortMembers, Json.lookup_canonicalMembers, lookup_others unknown]
        cases (Json.object members).get? name with
        | none => exact .none
        | some value => exact .some value.alike_canonical
  | _ => cases read

theorem isReadable_of_ofJson? (read : ofJson? item = some report) : item.isReadable = true := by
  cases item with
  | object members =>
      obtain ⟨categories, updatedAt, found, listed, timed, readable, -⟩ :=
        ofMembers?_eq_some_iff.mp read
      apply Json.membersReadable_iff.mpr
      intro member inside
      by_cases known : member.1 ∈ fieldNames
      · obtain ⟨field, among, alone⟩ :=
          Json.exists_of_mem_left (Json.fieldsOfMembers?_eq_some_iff.mp found) known
        have own : member ∈ members.filter (·.1 == member.1) :=
          List.mem_filter.mpr ⟨inside, beq_self_eq_true _⟩
        rw [alone, Option.mem_toList] at own
        obtain ⟨value, rfl, same⟩ := Option.map_eq_some_iff.mp own
        rw [← same]
        simp only [List.mem_cons, List.not_mem_nil, or_false, Option.some.injEq] at among
        obtain rfl | rfl | rfl | rfl := among
        · rfl
        · rfl
        · rw [Json.asStrings?_eq_some_iff.mp listed]
          exact Json.areReadable_iff.mpr (by simp [Json.isReadable])
        · rw [Json.asString?_eq_some_iff.mp timed]
          rfl
      · exact Json.membersReadable_iff.mp readable member (mem_others.mpr ⟨inside, known⟩)
  | _ => cases read

theorem extra_canonical_and_nests (read : ofJson? item = some report)
    {ok : JsonNumber → Prop} {depth : Nat} (nests : Json.Nests ok depth item) :
    ∀ member ∈ report.extra, member.2.canonical = member.2 ∧ Json.Nests ok (depth + 1) member.2 := by
  cases nests with
  | @object _ members room each =>
      obtain ⟨-, -, -, -, -, -, extra⟩ := ofMembers?_eq_some_iff.mp read
      intro member inside
      rw [extra] at inside
      obtain ⟨own, given, rfl⟩ := Json.exists_of_mem_canonical inside
      exact ⟨Json.canonical_canonical _, (each own (mem_others.mp given).1).canonical⟩
  | _ => cases read

/-- What reading makes of the extra fields of a report: sorted canonical values under names of
their own. -/
structure Regular (report : RawReport) : Prop where
  sorted : Ascending report.extra
  apart : ∀ member ∈ report.extra, member.1 ∉ fieldNames
  canonical : ∀ member ∈ report.extra, member.2.canonical = member.2
  readable : ∀ member ∈ report.extra, member.2.isReadable = true

theorem others_fields (report : RawReport) (apart : ∀ member ∈ report.extra, member.1 ∉ fieldNames) :
    others ([("id", .string report.id), ("url", .string report.url),
      ("categories", .strings report.categories), ("updated_at", .string report.updatedAt)] ++
      report.extra) = report.extra := by
  have kept : others report.extra = report.extra := by
    apply List.filter_eq_self.mpr
    intro member inside
    simp [apart member inside]
  rw [others, List.filter_append]
  exact kept

theorem ofJson?_toJson (regular : Regular report) : ofJson? report.toJson = some report := by
  have absent : ∀ name ∈ fieldNames, report.extra.filter (·.1 == name) = [] := by
    intro name known
    apply List.filter_eq_nil_iff.mpr
    intro member inside same
    rw [← beq_iff_eq.mp same] at known
    exact regular.apart member inside known
  have others := others_fields report regular.apart
  apply ofMembers?_eq_some_iff.mpr
  refine ⟨some (.strings report.categories), some (.string report.updatedAt), ?_, ?_, rfl, ?_, ?_⟩
  · apply Json.fieldsOfMembers?_eq_some_iff.mpr
    refine .cons ?_ (.cons ?_ (.cons ?_ (.cons ?_ .nil)))
    all_goals
      rw [List.filter_append, absent _ (by decide)]
      rfl
  · exact Json.asStrings?_eq_some_iff.mpr rfl
  · rw [others]
    exact Json.membersReadable_iff.mpr regular.readable
  · rw [others, Json.canonicalMembers_of_canonical regular.canonical,
      Json.sortMembers_of_ascending regular.sorted]

theorem nests_toJson {ok : JsonNumber → Prop} {depth : Nat} (room : depth + 1 < Json.depthLimit)
    (each : ∀ member ∈ report.extra, Json.Nests ok (depth + 1) member.2) :
    Json.Nests ok depth report.toJson := by
  apply Json.Nests.object (Nat.lt_of_succ_lt room)
  intro member inside
  rcases List.mem_append.mp inside with known | extra
  · simp only [List.mem_cons, List.not_mem_nil, or_false] at known
    rcases known with rfl | rfl | rfl | rfl
    · exact .string _ _
    · exact .string _ _
    · exact .array room (by simp)
    · exact .string _ _
  · exact each member extra

end

end RawReport

def decodeReports? (text : String) : Option (List RawReport) :=
  (Json.read? text).bind (Json.listOf? RawReport.ofJson?)

def encodeReports (reports : List RawReport) : String :=
  Json.compact (.array (reports.map RawReport.toJson))

theorem decoded_regular {text : String} {items : List Json}
    (read : Json.read? text = some (.array items)) {reports : List RawReport}
    (each : List.Forall₂ (fun item report => RawReport.ofJson? item = some report) items reports)
    {report : RawReport} (inside : report ∈ reports) :
    report.Regular ∧ ∀ member ∈ report.extra, Json.Nests (fun _ => True) 2 member.2 := by
  have readable : (Json.array items).isReadable = true := by
    apply Json.areReadable_iff.mpr
    intro item among
    obtain ⟨own, -, decoded⟩ := Json.exists_of_mem_left each among
    exact RawReport.isReadable_of_ofJson? decoded
  obtain ⟨-, nests⟩ := Json.Nests.array_iff.mp (Json.nests_of_read? read readable)
  obtain ⟨item, among, decoded⟩ := Json.exists_of_mem_right each inside
  have extra := RawReport.extra_canonical_and_nests decoded (nests item among)
  have split := RawReport.splitsInto_of_ofJson? decoded
  exact ⟨⟨split.sorted, split.apart, fun member given => (extra member given).1,
    fun member given => (extra member given).2.isReadable⟩, fun member given => (extra member given).2⟩

/-- Reports that are decoded from any text, with integers in their extra fields, are decoded again
from their own text, and both texts hold the fields of every report apart from its extra fields. -/
theorem reports_survive_saving {text : String} {reports : List RawReport}
    (decoded : decodeReports? text = some reports)
    (integers : ∀ report ∈ reports, ∀ member ∈ report.extra, ∀ number ∈ member.2.numbers,
      number.IsInteger) :
    decodeReports? (encodeReports reports) = some reports ∧
      ∃ items saved, Json.read? text = some (.array items) ∧
        Json.read? (encodeReports reports) = some (.array saved) ∧
        List.Forall₂ RawReport.SplitsInto items reports ∧
        List.Forall₂ RawReport.SplitsInto saved reports := by
  obtain ⟨json, read, list⟩ := Option.bind_eq_some_iff.mp decoded
  obtain ⟨items, rfl, each⟩ := Json.listOf?_eq_some_iff.mp list
  have again : List.Forall₂ (fun item report => RawReport.ofJson? item = some report)
      (reports.map RawReport.toJson) reports := by
    rw [List.forall₂_map_left_iff, List.forall₂_same]
    intro report inside
    exact RawReport.ofJson?_toJson (decoded_regular read each inside).1
  -- Written again, the extra values stand below as many containers as when they were read.
  have nests : Json.Nests JsonNumber.ReadsBack 0 (.array (reports.map RawReport.toJson)) := by
    apply Json.Nests.array (by decide)
    intro item among
    obtain ⟨report, inside, rfl⟩ := List.mem_map.mp among
    apply RawReport.nests_toJson (by decide)
    intro member given
    apply ((decoded_regular read each inside).2 member given).imp
    intro number among _
    exact (integers report inside member given number among).readsBack
  have reread : Json.read? (encodeReports reports) =
      some (.array (reports.map RawReport.toJson)) := Json.read?_compact nests
  refine ⟨?_, items, _, read, reread, ?_, ?_⟩
  · rw [decodeReports?, reread, Option.bind_some]
    exact Json.listOf?_eq_some_iff.mpr ⟨_, rfl, again⟩
  · exact each.imp fun _ _ => RawReport.splitsInto_of_ofJson?
  · exact again.imp fun _ _ => RawReport.splitsInto_of_ofJson?

theorem reports_survive_saving_of_close_names :
    let item : Json := .object
      [("Id", .number (.integer 3)), ("url", .string "\"\\ü\n\x01"), ("id", .string "1"),
        ("updated_at ", .object [("b", .null), ("a", .array [.number (.double .negativeZero)]),
          ("b", .string "updated_at")]),
        ("categories", .strings ["", "id"]), ("Id", .number (.integer (-9223372036854775808)))]
    let report : RawReport := ⟨"1", "\"\\ü\n\x01", ["", "id"], "",
      [("Id", .number (.integer (-9223372036854775808))),
        ("updated_at ", .object [("a", .array [.number (.double .negativeZero)]),
          ("b", .string "updated_at")])]⟩
    decodeReports? (Json.compact (.array [item])) = some [report] ∧
      (∀ own ∈ [report], ∀ member ∈ own.extra, ∀ number ∈ member.2.numbers, number.IsInteger) ∧
      decodeReports? (encodeReports [report]) = some [report] := by
  intro item report
  have three : (JsonNumber.integer 3).IsInteger :=
    ⟨['3'], _, [], rfl, rfl, rfl, by decide, rfl⟩
  have least : (JsonNumber.integer (-9223372036854775808)).IsInteger :=
    ⟨"-9223372036854775808".toList, _, [], rfl, rfl, rfl, by decide, rfl⟩
  have zero : (JsonNumber.double .negativeZero).IsInteger :=
    ⟨['-', '0'], _, [], rfl, rfl, rfl, by decide, Json.value?_negativeZero⟩
  have read : Json.read? (Json.compact (.array [item])) = some (.array [item]) :=
    Json.read?_compact (by simp [item, Json.strings, Json.depthLimit, three.readsBack,
      least.readsBack, zero.readsBack])
  have decoded : decodeReports? (Json.compact (.array [item])) = some [report] := by
    rw [decodeReports?, read]
    rfl
  have integers : ∀ own ∈ [report], ∀ member ∈ own.extra, ∀ number ∈ member.2.numbers,
      number.IsInteger := by
    simp only [report, Json.numbers, Json.memberNumbers, Json.itemNumbers, List.append_nil,
      List.forall_mem_cons, List.not_mem_nil, false_implies, implies_true, and_true]
    exact ⟨least, zero⟩
  exact ⟨decoded, integers, (reports_survive_saving decoded integers).1⟩

end ProxyMonitor
