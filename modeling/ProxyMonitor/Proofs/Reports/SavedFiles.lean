import ProxyMonitor.Proofs.Json.Records
import ProxyMonitor.Proofs.Json.RoundTrip
import ProxyMonitor.Source.File

/-! Saved report files are read as the answers of a proxy are: a bare list of reports is no envelope,
and an envelope around it gives the same reports. -/

namespace ProxyMonitor

open Rpc

/-- An array of valid reports, and the reports. -/
def IsReportList (json : Json) (reports : List RawReport) : Prop :=
  ∃ items, json = .array items ∧
    List.Forall₂ (fun item report => RawReport.ofJson? item = some report) items reports

theorem isReportList_iff {json : Json} {reports : List RawReport} :
    IsReportList json reports ↔ Json.listOf? RawReport.ofJson? json = some reports :=
  Json.listOf?_eq_some_iff.symm

def reportEnvelope? (json : Json) : Option (Envelope (List RawReport)) :=
  Envelope.ofJson? (Json.listOf? RawReport.ofJson?) json

namespace RawReport

theorem exists_members {json : Json} {report : RawReport} (read : ofJson? json = some report) :
    ∃ members, json = .object members ∧ ofMembers? members = some report := by
  cases json with
  | object members => exact ⟨members, rfl, read⟩
  | _ => cases read

end RawReport

theorem reportEnvelope?_of_list {json : Json} {reports : List RawReport}
    (list : IsReportList json reports) : reportEnvelope? json = none := by
  obtain ⟨items, rfl, each⟩ := list
  cases each with
  | nil => rfl
  | @cons first report later others read rest =>
      obtain ⟨members, rfl, -⟩ := RawReport.exists_members read
      rcases later with _ | ⟨second, _ | ⟨third, _ | ⟨fourth, more⟩⟩⟩ <;> rfl

/-- Some JSON stands as the result in an envelope. -/
def Wraps (outer inner : Json) : Prop :=
  ∃ envelope, Envelope.ofJson? some outer = some envelope ∧ envelope.result = some inner

section

variable {α : Type} {decode : Json → Option α} {inner : Json} {value : α}

theorem exists_ofFields? {fields : List (Option Json)} {envelope : Envelope Json}
    (read : Envelope.ofFields? some fields = some envelope) (held : envelope.result = some inner)
    (decoded : decode inner = some value) :
    ∃ opened, Envelope.ofFields? decode fields = some opened ∧ opened.result = some value := by
  match fields, read with
  | [version, code, result], read =>
    obtain ⟨version', first, read⟩ := Option.bind_eq_some_iff.mp read
    obtain ⟨code', second, read⟩ := Option.bind_eq_some_iff.mp read
    obtain ⟨result', third, read⟩ := Option.bind_eq_some_iff.mp read
    obtain rfl := Option.some.inj read
    obtain rfl : result' = some inner := held
    obtain ⟨_, there, solid, same⟩ := Json.optional_eq_some_some_iff.mp third
    obtain rfl := Option.some.inj same
    have last : Json.optional decode result = some (some value) :=
      Json.optional_eq_some_some_iff.mpr ⟨_, there, solid, decoded⟩
    refine ⟨⟨version', code', some value⟩, ?_, rfl⟩
    rw [Envelope.ofFields?, first, second, last]
    rfl

theorem Wraps.exists_ofJson? {outer : Json} (wraps : Wraps outer inner)
    (decoded : decode inner = some value) :
    ∃ opened, Envelope.ofJson? decode outer = some opened ∧ opened.result = some value := by
  obtain ⟨envelope, read, held⟩ := wraps
  match outer, read with
  | .object members, read =>
    obtain ⟨fields, found, read⟩ := Option.bind_eq_some_iff.mp read
    obtain ⟨opened, made, result⟩ := exists_ofFields? read held decoded
    exact ⟨opened, Option.bind_eq_some_iff.mpr ⟨fields, found, made⟩, result⟩
  | .array items, read => exact exists_ofFields? read held decoded

end

def answerOf (envelope : Envelope (List RawReport)) : Except FetchError (List RawReport) :=
  match envelope.result with
  | some reports => .ok reports
  | none => .error (.rpc "img_proxy_describe_report" (envelope.code.getD "missing result"))

section

variable {content : String} {json : Json}

theorem readReportFile_of_list (read : Json.read? content = some json)
    (accepted : json.isReadable = true) {reports : List RawReport}
    (list : IsReportList json reports) : readReportFile content = .ok reports := by
  simp only [readReportFile, read, Option.filter_some, accepted, if_true,
    isReportList_iff.mp list]

theorem readReportFile_of_other (read : Json.read? content = some json)
    (accepted : json.isReadable = true) (other : ∀ reports, ¬ IsReportList json reports) :
    readReportFile content =
      decodeResponse (Json.listOf? RawReport.ofJson?) .describeReports content := by
  have unlisted : Json.listOf? RawReport.ofJson? json = none := by
    apply Option.eq_none_iff_forall_ne_some.mpr
    intro reports list
    exact other reports (isReportList_iff.mpr list)
  simp only [readReportFile, decodeResponse, read, Option.filter_some, accepted, if_true, unlisted,
    Option.bind_some]
  cases Envelope.ofJson? (Json.listOf? RawReport.ofJson?) json <;> rfl

theorem decodeResponse_of_envelope (read : Json.read? content = some json)
    {envelope : Envelope (List RawReport)} (held : reportEnvelope? json = some envelope) :
    decodeResponse (Json.listOf? RawReport.ofJson?) .describeReports content =
      answerOf envelope := by
  have opened : (Json.read? content).bind
      (Envelope.ofJson? (Json.listOf? RawReport.ofJson?)) = some envelope := by
    rw [read]
    exact held
  rw [decodeResponse, opened]
  simp only [Envelope.result?, answerOf]
  cases envelope.result <;> rfl

theorem not_list_of_envelope {envelope : Envelope (List RawReport)}
    (held : reportEnvelope? json = some envelope) (reports : List RawReport) :
    ¬ IsReportList json reports := by
  intro list
  rw [reportEnvelope?_of_list list] at held
  cases held

end

/-- What a saved file with some JSON gives, beside the answer of a proxy with the same text. -/
structure ReadLikeAnswer (content : String) (json : Json) : Prop where
  bare : ∀ reports, IsReportList json reports → readReportFile content = .ok reports
  other : (∀ reports, ¬ IsReportList json reports) → readReportFile content =
    decodeResponse (Json.listOf? RawReport.ofJson?) .describeReports content
  enveloped : ∀ envelope, reportEnvelope? json = some envelope →
    readReportFile content = answerOf envelope
  neither : (∀ reports, ¬ IsReportList json reports) → reportEnvelope? json = none →
    readReportFile content = .error (.decode Json.refusal)
  unambiguous : ∀ reports, IsReportList json reports → reportEnvelope? json = none
  wrapped : ∀ reports, IsReportList json reports → ∀ outerContent outer,
    Json.read? outerContent = some outer → outer.isReadable = true → Wraps outer json →
      readReportFile outerContent = .ok reports ∧
        decodeResponse (Json.listOf? RawReport.ofJson?) .describeReports outerContent = .ok reports

/-- A file source gives the reports of its report file, and they are read like an answer. -/
theorem saved_reports_read_like_answer {content : String} {json : Json}
    (read : Json.read? content = some json) (accepted : json.isReadable = true) :
    ReadLikeAnswer content json ∧
      ∀ (source : FileSource) (path : String) (files : String → Except FileFault String),
        source.reportsPath = some path → files path = .ok content →
          (source.fetch files).reports = readReportFile content := by
  constructor
  · have enveloped : ∀ envelope, reportEnvelope? json = some envelope →
        readReportFile content = answerOf envelope := by
      intro envelope held
      rw [readReportFile_of_other read accepted (not_list_of_envelope held)]
      exact decodeResponse_of_envelope read held
    refine ⟨fun _ => readReportFile_of_list read accepted, readReportFile_of_other read accepted,
      enveloped, ?neither, fun _ => reportEnvelope?_of_list, ?wrapped⟩
    case neither =>
      intro other unenveloped
      have refused : (Json.read? content).bind
          (Envelope.ofJson? (Json.listOf? RawReport.ofJson?)) = none := by
        rw [read]
        exact unenveloped
      rw [readReportFile_of_other read accepted other, decodeResponse, refused]
    case wrapped =>
      intro reports list outerContent outer readOuter acceptedOuter wraps
      obtain ⟨opened, held, result⟩ := wraps.exists_ofJson? (isReportList_iff.mp list)
      have answer : decodeResponse (Json.listOf? RawReport.ofJson?) .describeReports outerContent =
          .ok reports := by
        rw [decodeResponse_of_envelope readOuter held, answerOf, result]
      refine ⟨?_, answer⟩
      rw [readReportFile_of_other readOuter acceptedOuter (not_list_of_envelope held), answer]
  · intro source path files named there
    simp only [FileSource.fetch, named, there]
    rfl

theorem saved_reports_read_like_answer_of_array :
    let item : Json := .object
      [("url", .string "u"), ("id", .string "1"), ("tag", .array [.null]), ("Id", .bool true)]
    let outer : Json := .array [.string "1.0", .null, .array [item]]
    let report : RawReport := ⟨"1", "u", [], "", [("Id", .bool true), ("tag", .array [.null])]⟩
    Json.read? (Json.compact (.array [item])) = some (.array [item]) ∧
      Json.read? (Json.compact outer) = some outer ∧ outer.isReadable = true ∧
      IsReportList (.array [item]) [report] ∧ Wraps outer (.array [item]) ∧
      readReportFile (Json.compact (.array [item])) = .ok [report] ∧
      readReportFile (Json.compact outer) = .ok [report] := by
  intro item outer report
  have read : Json.read? (Json.compact (.array [item])) = some (.array [item]) :=
    Json.read?_compact (by simp [item, Json.depthLimit])
  have readOuter : Json.read? (Json.compact outer) = some outer :=
    Json.read?_compact (by simp [item, outer, Json.depthLimit])
  have list : IsReportList (.array [item]) [report] := ⟨_, rfl, .cons (by rfl) .nil⟩
  have wraps : Wraps outer (.array [item]) := ⟨⟨some "1.0", none, some (.array [item])⟩, rfl, rfl⟩
  have alike := (saved_reports_read_like_answer read (by rfl)).1
  exact ⟨read, readOuter, rfl, list, wraps, alike.bare _ list,
    (alike.wrapped _ list _ _ readOuter rfl wraps).1⟩

end ProxyMonitor
