import Mathlib.Data.List.Forall2
import ProxyMonitor.Proofs.Charts.Metrics
import ProxyMonitor.Proofs.Charts.Windows

/-! Whole runs of the history: each window is that of its series alone. -/

namespace ProxyMonitor

structure Recording where
  snapshot : Snapshot
  timeMs : Nat

structure Reading where
  value : Option Binary64
  timeMs : Nat
  deriving DecidableEq

namespace RateMeter

def points (meter : RateMeter) : List Reading → List TimePoint
  | [] => []
  | reading :: rest =>
      let (meter, rate) := meter.observe reading.value reading.timeMs
      (rate.map (TimePoint.mk reading.timeMs)).toList ++ meter.points rest

end RateMeter

namespace Reading

def point? (reading : Reading) : Option TimePoint :=
  reading.value.map (TimePoint.mk reading.timeMs)

end Reading

namespace Series

def points : Option RateMeter → List Reading → List TimePoint
  | some meter, readings => meter.points readings
  | none, readings => readings.filterMap Reading.point?

def emit : Option RateMeter → Reading → Option RateMeter × Option Binary64
  | some meter, reading =>
      let (meter, rate) := meter.observe reading.value reading.timeMs
      (some meter, rate)
  | none, reading => (none, reading.value)

theorem points_cons (meter? : Option RateMeter) (reading : Reading) (rest : List Reading) :
    points meter? (reading :: rest) =
      ((emit meter? reading).2.map (TimePoint.mk reading.timeMs)).toList ++
        points (emit meter? reading).1 rest := by
  cases meter? with
  | some meter => rfl
  | none =>
      obtain ⟨value, timeMs⟩ := reading
      cases value <;> rfl

theorem times_points (meter? : Option RateMeter) (readings : List Reading) :
    ((points meter? readings).map TimePoint.timeMs).Sublist (readings.map Reading.timeMs) := by
  induction readings generalizing meter? with
  | nil => cases meter? <;> exact .slnil
  | cons reading rest ih =>
      rw [points_cons, List.map_append, List.map_cons]
      cases (emit meter? reading).2 with
      | none => exact .cons _ (ih _)
      | some value => exact .cons_cons _ (ih _)

def meter? (options : HistoryOptions) : Series → Option RateMeter
  | residentMemory => none
  | _ => some options.meter

end Series

namespace History

def readings (history : History) (recordings : List Recording) (series : Series) : List Reading :=
  recordings.map fun recording =>
    ⟨history.reading recording.snapshot series, recording.timeMs⟩

theorem readings_cons (history : History) (recording : Recording) (rest : List Recording)
    (series : Series) :
    history.readings (recording :: rest) series =
      ⟨history.reading recording.snapshot series, recording.timeMs⟩ ::
        history.readings rest series := rfl

def meter? (history : History) : Series → Option RateMeter
  | .requestRate => some history.requestMeter
  | .residentMemory => none
  | .fetchedRate => some history.fetchedMeter
  | .servedRate => some history.servedMeter

def run (history : History) (recordings : List Recording) : History :=
  recordings.foldl (fun history recording => history.record recording.snapshot recording.timeMs)
    history

variable (history : History) (recording : Recording) (series : Series)

theorem run_concat (recordings : List Recording) :
    history.run (recordings ++ [recording]) =
      (history.run recordings).record recording.snapshot recording.timeMs := by
  rw [run, run, List.foldl_append, List.foldl_cons, List.foldl_nil]

theorem meter?_record :
    (history.record recording.snapshot recording.timeMs).meter? series =
      (Series.emit (history.meter? series)
        ⟨history.reading recording.snapshot series, recording.timeMs⟩).1 := by
  cases series <;> rfl

theorem window_record :
    (history.record recording.snapshot recording.timeMs).window series =
      extend (history.window series) recording.timeMs
        (Series.emit (history.meter? series)
          ⟨history.reading recording.snapshot series, recording.timeMs⟩).2 := by
  cases series <;> rfl

theorem extend_eq_pushAll (window : Window) (timeMs : Nat) (value : Option Binary64) :
    extend window timeMs value = window.pushAll (value.map (TimePoint.mk timeMs)).toList := by
  cases value <;> rfl

theorem readings_record (recordings : List Recording) :
    (history.record recording.snapshot recording.timeMs).readings recordings series =
      history.readings recordings series := by
  cases series <;> rfl

theorem window_run (recordings : List Recording) :
    (history.run recordings).window series =
      (history.window series).pushAll
        (Series.points (history.meter? series) (history.readings recordings series)) := by
  -- The induction is on the recordings from the front, with the meter as it is by then.
  induction recordings generalizing history with
  | nil => cases series <;> rfl
  | cons recording rest ih =>
      rw [run, List.foldl_cons, ← run, ih, window_record, meter?_record, readings_record,
        extend_eq_pushAll, readings_cons, Series.points_cons, Window.pushAll_append]

/-- Recordings at the same times, of snapshots that differ in one metric at most. -/
def EditedIn (changed : Metric) : List Recording → List Recording → Prop :=
  List.Forall₂ fun recording edited =>
    recording.timeMs = edited.timeMs ∧
      changed.others recording.snapshot = changed.others edited.snapshot

theorem readings_congr {changed : Metric} {recordings edited : List Recording}
    (apart : changed.Apart series.metric) (edits : EditedIn changed recordings edited) :
    history.readings recordings series = history.readings edited series := by
  induction edits with
  | nil => rfl
  | cons here later ih =>
      rw [readings_cons, readings_cons, ih, here.1, history.reading_congr apart here.2]

end History

namespace Series

/-- Readings of a series, one off each recording. -/
def ReadsOff (methods : List String) (series : Series) :
    List Recording → List Reading → Prop :=
  List.Forall₂ fun recording reading =>
    reading.timeMs = recording.timeMs ∧ Reads methods recording.snapshot series reading.value

def charted (options : HistoryOptions) (series : Series) (readings : List Reading) : Window :=
  (Window.new options.capacity).pushAll (points (series.meter? options) readings)

theorem readsOff_iff {options : HistoryOptions} {series : Series} {recordings : List Recording}
    {readings : List Reading} :
    series.ReadsOff options.apiMethods recordings readings ↔
      (History.new options).readings recordings series = readings := by
  have pointwise : (fun (recording : Recording) (reading : Reading) =>
      reading.timeMs = recording.timeMs ∧
        Reads options.apiMethods recording.snapshot series reading.value) =
      fun recording reading =>
        ⟨(History.new options).reading recording.snapshot series, recording.timeMs⟩ = reading := by
    funext recording reading
    obtain ⟨value, timeMs⟩ := reading
    rw [Reading.mk.injEq, and_comm, eq_comm (a := timeMs)]
    exact propext (and_congr_left' (reads_iff (History.new options)))
  rw [ReadsOff, pointwise, ← List.forall₂_map_left_iff (R := Eq), List.forall₂_eq_eq_eq]
  rfl

theorem times_of_readings (options : HistoryOptions) (recordings : List Recording)
    (series : Series) :
    ((points (series.meter? options)
      ((History.new options).readings recordings series)).map TimePoint.timeMs).Sublist
      (recordings.map Recording.timeMs) := by
  have times := times_points (series.meter? options)
    ((History.new options).readings recordings series)
  rwa [History.readings, List.map_map] at times

end Series

/-- The windows after some recordings depend on nothing but what their own series read. -/
structure ChartedApart (options : HistoryOptions) (recordings : List Recording) : Prop where
  read : ∀ series : Series, ∃ readings, series.ReadsOff options.apiMethods recordings readings
  alone : ∀ (series : Series) (readings : List Reading),
    series.ReadsOff options.apiMethods recordings readings →
      ((History.new options).run recordings).window series = series.charted options readings
  added : ∀ series last, ∃ value,
    ((History.new options).run (recordings ++ [last])).window series =
      History.extend (((History.new options).run recordings).window series) last.timeMs value
  unaltered : ∀ (changed : Metric) (series : Series), changed.Apart series.metric →
    ∀ edited, History.EditedIn changed recordings edited →
      ((History.new options).run edited).window series =
        ((History.new options).run recordings).window series
  independent : ∀ series other : Series, series ≠ other →
    ∀ edited, History.EditedIn series.metric recordings edited →
      ((History.new options).run edited).window other =
        ((History.new options).run recordings).window other
  ordered : (∀ recording ∈ recordings, 0 < recording.timeMs) →
    recordings.Pairwise (·.timeMs ≤ ·.timeMs) →
    ∀ series, ∃ primed,
      (((History.new options).run recordings).window series).points =
          List.replicate primed .placeholder ++
            (((History.new options).run recordings).window series).recorded ∧
        (((History.new options).run recordings).window series).recorded.Pairwise
          (·.timeMs ≤ ·.timeMs)

theorem window_run_new (options : HistoryOptions) (recordings : List Recording) (series : Series) :
    ((History.new options).run recordings).window series =
      series.charted options ((History.new options).readings recordings series) := by
  rw [History.window_run, Series.charted]
  cases series <;> rfl

theorem series_charted_apart (options : HistoryOptions) (recordings : List Recording) :
    ChartedApart options recordings := by
  have unaltered : ∀ (changed : Metric) (series : Series), changed.Apart series.metric →
      ∀ edited, History.EditedIn changed recordings edited →
        ((History.new options).run edited).window series =
          ((History.new options).run recordings).window series := by
    intro changed series apart edited edits
    rw [window_run_new, window_run_new, (History.new options).readings_congr series apart edits]
  refine ⟨?read, ?alone, ?added, unaltered, ?independent, ?ordered⟩
  case read =>
    intro series
    exact ⟨_, Series.readsOff_iff.mpr rfl⟩
  case alone =>
    intro series readings reads
    rw [window_run_new, Series.readsOff_iff.mp reads]
  case added =>
    intro series last
    rw [History.run_concat, History.window_record]
    exact ⟨_, rfl⟩
  case independent =>
    intro series other different edited edits
    exact unaltered series.metric other (Series.metric_apart different) edited edits
  case ordered =>
    intro timed inOrder series
    have times := series.times_of_readings options recordings
    rw [window_run_new, Series.charted]
    generalize Series.points _ _ = points at times ⊢
    have pointsTimed : ∀ point ∈ points, 0 < point.timeMs := by
      intro point among
      obtain ⟨recording, made, sameTime⟩ :=
        List.mem_map.mp (times.subset (List.mem_map_of_mem among))
      exact sameTime ▸ timed recording made
    have pointsInOrder : points.Pairwise (·.timeMs ≤ ·.timeMs) :=
      List.pairwise_map.mp ((List.pairwise_map.mpr inOrder).sublist times)
    rw [Window.recorded_pushAll_new _ pointsTimed, Window.points_pushAll_new]
    exact ⟨_, rfl, pointsInOrder.sublist (List.drop_sublist _ _)⟩

def trafficAt (timeMs : Nat) (counters : List (String × Nat)) : Recording where
  snapshot := [⟨MetricName.traffic, "", .counter, counters.map fun (metric, count) =>
    ⟨Labels.empty.insert "metric" metric, .single (.ofNat count)⟩⟩]
  timeMs

def Recording.withMemory (recording : Recording) (bytes : Nat) : Recording :=
  { recording with
    snapshot := recording.snapshot ++
      [⟨MetricName.residentMemory, "", .gauge, [⟨.empty, .single (.ofNat bytes)⟩]⟩] }

theorem series_charted_apart_unserved :
    let recordings :=
      [(trafficAt 1000 [("fetched", 100), ("served", 50)]).withMemory 0,
        (trafficAt 2000 [("fetched", 300), ("served", 90)]).withMemory 4096]
    let edited :=
      [(trafficAt 1000 [("fetched", 100)]).withMemory 0,
        (trafficAt 2000 [("served", 9), ("fetched", 300)]).withMemory 4096]
    let memory := [⟨none, 1000⟩, ⟨some (.ofNat 4096), 2000⟩]
    let window := ((History.new .default).run recordings).window
    Series.servedRate ≠ Series.fetchedRate ∧
      Series.servedRate.metric.Apart Series.fetchedRate.metric ∧
      History.EditedIn Series.servedRate.metric recordings edited ∧
      (∀ recording ∈ recordings, 0 < recording.timeMs) ∧
      recordings.Pairwise (·.timeMs ≤ ·.timeMs) ∧
      Series.residentMemory.ReadsOff HistoryOptions.default.apiMethods recordings memory ∧
      window .residentMemory = Series.residentMemory.charted .default memory ∧
      (window .residentMemory).recorded = [⟨2000, .ofNat 4096⟩] ∧
      ((History.new .default).run edited).window .fetchedRate = window .fetchedRate ∧
      (∃ primed, (window .fetchedRate).points =
          List.replicate primed .placeholder ++ (window .fetchedRate).recorded ∧
        (window .fetchedRate).recorded.Pairwise (·.timeMs ≤ ·.timeMs)) ∧
      (window .fetchedRate).recorded = [⟨2000, .ofNat 40⟩] := by
  intro recordings edited memory window
  have charted := series_charted_apart .default recordings
  have different : Series.servedRate ≠ Series.fetchedRate := by decide
  have edits : History.EditedIn Series.servedRate.metric recordings edited :=
    .cons ⟨rfl, by decide +kernel⟩ (.cons ⟨rfl, by decide +kernel⟩ .nil)
  have timed : ∀ recording ∈ recordings, 0 < recording.timeMs := by decide
  have inOrder : recordings.Pairwise (·.timeMs ≤ ·.timeMs) := by decide
  have reads : Series.residentMemory.ReadsOff HistoryOptions.default.apiMethods recordings
      memory := Series.readsOff_iff.mpr (by decide +kernel)
  exact ⟨different, Series.metric_apart different, edits, timed, inOrder, reads,
    charted.alone _ _ reads, by decide +kernel,
    charted.independent _ _ different _ edits, charted.ordered timed inOrder _, by decide +kernel⟩

end ProxyMonitor
