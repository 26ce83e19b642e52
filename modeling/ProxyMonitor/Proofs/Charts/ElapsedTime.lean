import ProxyMonitor.Proofs.Charts.Rates

/-! Measured rates need time between two calls; only a clamped fall is answered without it. -/

namespace ProxyMonitor

variable {periodMs : Nat} {resetPolicy : ResetPolicy}

def Reading.FellBelow (call last : Reading) : Prop :=
  ∃ old new, last.value = some old ∧ call.value = some new ∧ new.lt old = true

theorem Between.later_or_clamped {last call : Reading} {rate : Binary64}
    (between : Between periodMs .measured resetPolicy last call (some rate)) :
    last.timeMs < call.timeMs ∨
      resetPolicy = .clampToZero ∧ rate = .zero ∧ call.FellBelow last := by
  cases between with
  | clamped primed fell policy => exact .inr ⟨policy, rfl, _, _, rfl, rfl, fell⟩
  | derived primed kept passed => exact .inl (Nat.lt_of_sub_pos passed)

namespace RateMeter

theorem points_cons (meter : RateMeter) (call : Reading) (rest : List Reading) :
    meter.points (call :: rest) =
      ((meter.observe call.value call.timeMs).2.map (TimePoint.mk call.timeMs)).toList ++
        (meter.observe call.value call.timeMs).1.points rest := rfl

theorem points_concat (meter : RateMeter) (earlier : List Reading) (call : Reading) :
    meter.points (earlier ++ [call]) =
      meter.points earlier ++
        ((meter.rateAfter earlier call).map (TimePoint.mk call.timeMs)).toList := by
  induction earlier generalizing meter with
  | nil => simp [points, rateAfter, run]
  | cons first rest ih =>
      rw [List.cons_append, points_cons, points_cons, ih, List.append_assoc]
      rfl

/-- One point after another in a series: a later one, or a clamped fall at the same time. -/
def Spaced (resetPolicy : ResetPolicy) (point next : TimePoint) : Prop :=
  point.timeMs < next.timeMs ∨
    resetPolicy = .clampToZero ∧ next.timeMs = point.timeMs ∧ next.value = .zero

theorem points_spaced {calls : List Reading} (inOrder : calls.Pairwise (·.timeMs ≤ ·.timeMs)) :
    ((RateMeter.new periodMs .measured resetPolicy).points calls).Pairwise
      (Spaced resetPolicy) := by
  -- Calls are added at the end, where the one before decides about the new point.
  induction calls using List.reverseRecOn with
  | nil => exact .nil
  | append_singleton earlier call ih =>
      obtain ⟨earlierInOrder, -, before⟩ := List.pairwise_append.mp inOrder
      rw [points_concat, List.pairwise_append]
      refine ⟨ih earlierInOrder, ?alone, ?apart⟩
      case alone =>
        cases (RateMeter.new periodMs .measured resetPolicy).rateAfter earlier call with
        | none => exact .nil
        | some rate => exact List.pairwise_singleton _ _
      case apart =>
        intro point among next added
        obtain ⟨rate, answered, rfl⟩ := Option.map_eq_some_iff.mp (Option.mem_toList.mp added)
        have times := Series.times_points (some (.new periodMs .measured resetPolicy)) earlier
        obtain ⟨source, member, sameTime⟩ :=
          List.mem_map.mp (times.subset (List.mem_map_of_mem among))
        rcases List.eq_nil_or_concat' earlier with rfl | ⟨others, last, rfl⟩
        · cases member
        · -- The point came no later than the last call did, so it counts as that call.
          have notLater : source.timeMs ≤ last.timeMs := by
            rcases List.mem_append.mp member with among | here
            · exact (List.pairwise_append.mp earlierInOrder).2.2 source among last
                List.mem_cons_self
            · rw [List.mem_singleton.mp here]
          have lastBefore : last.timeMs ≤ call.timeMs :=
            before last List.mem_concat_self call List.mem_cons_self
          rw [rateAfter_concat, ← Between.iff_rateAfter] at answered
          change point.timeMs < call.timeMs ∨
            resetPolicy = .clampToZero ∧ call.timeMs = point.timeMs ∧ rate = .zero
          rcases answered.later_or_clamped with later | ⟨policy, naught, -⟩
          · left
            omega
          · by_cases before : point.timeMs < call.timeMs
            · exact .inl before
            · exact .inr ⟨policy, by omega, naught⟩

end RateMeter

theorem Window.recorded_sublist (capacity : Nat) (points : List TimePoint) :
    ((new capacity).pushAll points).recorded.Sublist points := by
  rw [recorded, points_pushAll_new, List.filter_append, List.filter_replicate]
  exact List.filter_sublist.trans (List.drop_sublist _ _)

theorem Series.meter?_of_counter {options : HistoryOptions} {series : Series}
    (counter : series ≠ residentMemory) : series.meter? options = some options.meter := by
  cases series with
  | residentMemory => exact absurd rfl counter
  | _ => rfl

theorem recorded_spaced {options : HistoryOptions} (measured : options.basis = .measured)
    {recordings : List Recording} (inOrder : recordings.Pairwise (·.timeMs ≤ ·.timeMs))
    {series : Series} (counter : series ≠ .residentMemory) :
    (((History.new options).run recordings).window series).recorded.Pairwise
      (RateMeter.Spaced options.resetPolicy) := by
  rw [window_run_new, Series.charted, Series.meter?_of_counter counter]
  have spaced : ((RateMeter.new options.periodMs .measured options.resetPolicy).points
      ((History.new options).readings recordings series)).Pairwise
        (RateMeter.Spaced options.resetPolicy) :=
    RateMeter.points_spaced (List.pairwise_map.mpr inOrder)
  rw [← measured] at spaced
  exact spaced.sublist (Window.recorded_sublist _ _)

/-- Rates on measured time, call by call and as they are charted. -/
structure TakesTime (options : HistoryOptions) : Prop where
  later : options.resetPolicy = .rebaseline →
    ∀ earlier call rate, options.meter.rateAfter earlier call = some rate →
      ∃ last ∈ earlier.getLast?, last.timeMs < call.timeMs
  /-- Clamping answers a fall with zero, at whatever time it is seen. -/
  clamped : ∀ earlier call rate, options.meter.rateAfter earlier call = some rate →
    ∃ last ∈ earlier.getLast?,
      last.timeMs < call.timeMs ∨ rate = .zero ∧ call.FellBelow last
  increasing : options.resetPolicy = .rebaseline →
    ∀ recordings : List Recording, recordings.Pairwise (·.timeMs ≤ ·.timeMs) →
      ∀ series, series ≠ Series.residentMemory →
        (((History.new options).run recordings).window series).recorded.Pairwise
          (·.timeMs < ·.timeMs)
  spaced : ∀ recordings : List Recording, recordings.Pairwise (·.timeMs ≤ ·.timeMs) →
    ∀ series, series ≠ Series.residentMemory →
      (((History.new options).run recordings).window series).recorded.Pairwise fun point next =>
        point.timeMs < next.timeMs ∨ next.timeMs = point.timeMs ∧ next.value = .zero

theorem measured_rates_take_time (capacity periodMs : Nat) (resetPolicy : ResetPolicy)
    (apiMethods : List String) :
    TakesTime ⟨capacity, periodMs, .measured, resetPolicy, apiMethods⟩ := by
  have answers : ∀ earlier call rate,
      (RateMeter.new periodMs .measured resetPolicy).rateAfter earlier call = some rate →
        ∃ last ∈ earlier.getLast?, last.timeMs < call.timeMs ∨
          resetPolicy = .clampToZero ∧ rate = .zero ∧ call.FellBelow last := by
    intro earlier call rate answered
    rcases List.eq_nil_or_concat' earlier with rfl | ⟨others, last, rfl⟩
    · rw [RateMeter.rateAfter_nil] at answered
      cases answered
    · rw [RateMeter.rateAfter_concat, ← Between.iff_rateAfter] at answered
      exact ⟨last, by simp, answered.later_or_clamped⟩
  refine ⟨?later, ?clamped, ?increasing, ?spaced⟩
  case later =>
    rintro rfl earlier call rate answered
    obtain ⟨last, before, later | ⟨clamps, -⟩⟩ := answers earlier call rate answered
    · exact ⟨last, before, later⟩
    · cases clamps
  case clamped =>
    intro earlier call rate answered
    obtain ⟨last, before, spacing⟩ := answers earlier call rate answered
    exact ⟨last, before, spacing.imp_right And.right⟩
  case increasing =>
    rintro rfl recordings inOrder series counter
    refine (recorded_spaced rfl inOrder counter).imp ?_
    rintro point next (later | ⟨clamps, -⟩)
    · exact later
    · cases clamps
  case spaced =>
    intro recordings inOrder series counter
    exact (recorded_spaced rfl inOrder counter).imp fun spacing => spacing.imp_right And.right

theorem measured_rates_take_time_of_traffic :
    let options : HistoryOptions := ⟨4, 5000, .measured, .rebaseline, []⟩
    let recordings := [trafficAt 1000 [("fetched", 100)], trafficAt 2000 [("fetched", 300)],
      trafficAt 2000 [("fetched", 400)]]
    let recorded := (((History.new options).run recordings).window .fetchedRate).recorded
    recordings.Pairwise (·.timeMs ≤ ·.timeMs) ∧ Series.fetchedRate ≠ .residentMemory ∧
      recorded = [⟨2000, .ofNat 200⟩] ∧ recorded.Pairwise (·.timeMs < ·.timeMs) ∧
      ∃ last ∈ [(⟨some (.ofNat 100), 1000⟩ : Reading)].getLast?, last.timeMs < 2000 := by
  intro options recordings recorded
  have taking := measured_rates_take_time 4 5000 .rebaseline []
  have inOrder : recordings.Pairwise (·.timeMs ≤ ·.timeMs) := by decide
  have counter : Series.fetchedRate ≠ .residentMemory := by decide
  have answered : options.meter.rateAfter [⟨some (.ofNat 100), 1000⟩] ⟨some (.ofNat 300), 2000⟩ =
      some (.ofNat 200) := by decide +kernel
  exact ⟨inOrder, counter, by decide +kernel, taking.increasing rfl recordings inOrder _ counter,
    taking.later rfl _ _ _ answered⟩

/-- A fall that is seen at the time of the call before it is clamped to zero all the same, and the
series has two points for one instant. -/
theorem clamped_fall_takes_no_time :
    let options : HistoryOptions := ⟨4, 5000, .measured, .clampToZero, []⟩
    let recordings := [trafficAt 1000 [("fetched", 100)], trafficAt 2000 [("fetched", 300)],
      trafficAt 2000 [("fetched", 10)]]
    options.meter.rateAfter [⟨some (.ofNat 100), 1000⟩] ⟨some (.ofNat 10), 1000⟩ = some .zero ∧
      ¬ (∀ earlier last call rate, options.meter.rateAfter (earlier ++ [last]) call = some rate →
        last.timeMs < call.timeMs) ∧
      (((History.new options).run recordings).window .fetchedRate).recorded =
        [⟨2000, .ofNat 200⟩, ⟨2000, .zero⟩] := by
  intro options recordings
  have clamped : options.meter.rateAfter [⟨some (.ofNat 100), 1000⟩] ⟨some (.ofNat 10), 1000⟩ =
      some .zero := by decide +kernel
  refine ⟨clamped, ?_, by decide +kernel⟩
  intro later
  exact absurd (later [] _ _ _ clamped) (by decide)

end ProxyMonitor
