import Mathlib.Data.List.Induction
import ProxyMonitor.Proofs.Charts.Runs
import ProxyMonitor.Proofs.Signs

namespace ProxyMonitor

namespace RateMeter

def run (meter : RateMeter) (calls : List Reading) : RateMeter :=
  calls.foldl (fun meter call => (meter.observe call.value call.timeMs).1) meter

def rateAfter (meter : RateMeter) (earlier : List Reading) (call : Reading) : Option Binary64 :=
  ((meter.run earlier).observe call.value call.timeMs).2

theorem run_concat (meter : RateMeter) (earlier : List Reading) (call : Reading) :
    meter.run (earlier ++ [call]) =
      ((meter.run earlier).observe call.value call.timeMs).1 := by
  rw [run, run, List.foldl_append, List.foldl_cons, List.foldl_nil]

theorem run_settings (meter : RateMeter) (calls : List Reading) :
    meter.run calls = { meter with previous := (meter.run calls).previous } := by
  induction calls using List.reverseRecOn with
  | nil => rfl
  | append_singleton earlier call ih => rw [run_concat, ih]; rfl

theorem previous_concat (meter : RateMeter) (earlier : List Reading) (call : Reading) :
    (meter.run (earlier ++ [call])).previous = call.value.map (⟨·, call.timeMs⟩) := by
  rw [run_concat]
  rfl

theorem baseline?_concat (meter : RateMeter) (earlier : List Reading) (call : Reading) :
    (meter.run (earlier ++ [call])).baseline? = call.value := by
  rw [baseline?, previous_concat]
  cases call.value <;> rfl

theorem rateAfter_concat (meter : RateMeter) (earlier : List Reading) (last call : Reading) :
    meter.rateAfter (earlier ++ [last]) call = meter.rateAfter [last] call := by
  have same : meter.run (earlier ++ [last]) = meter.run [last] := by
    rw [run_settings, run_settings meter [last], previous_concat, ← List.nil_append [last],
      previous_concat]
  rw [rateAfter, same, rateAfter]

theorem rateAfter_nil (periodMs : Nat) (basis : RateBasis) (resetPolicy : ResetPolicy)
    (call : Reading) : (new periodMs basis resetPolicy).rateAfter [] call = none := by
  obtain ⟨value, nowMs⟩ := call
  cases value <;> rfl

end RateMeter

namespace RateBasis

/-- The time between two calls as a basis counts it; a clock set back counts as none. -/
def lapseMs (periodMs : Nat) (lastMs nowMs : Nat) : RateBasis → Nat
  | nominal => periodMs
  | measured => nowMs - lastMs

end RateBasis

def seconds (lapseMs : Nat) : Binary64 := (Binary64.ofNat lapseMs).div (.ofNat 1000)

/-- The answers to a call, by the call before it. -/
inductive Between (periodMs : Nat) (basis : RateBasis) (resetPolicy : ResetPolicy) :
    Reading → Reading → Option Binary64 → Prop where
  | missed {lastMs : Nat} {call : Reading} :
      Between periodMs basis resetPolicy ⟨none, lastMs⟩ call none
  | missing {last : Reading} {nowMs : Nat} :
      Between periodMs basis resetPolicy last ⟨none, nowMs⟩ none
  | unprimed {old : Binary64} {lastMs : Nat} {call : Reading}
      (zero : old = .zero ∨ old = .negativeZero) :
      Between periodMs basis resetPolicy ⟨some old, lastMs⟩ call none
  | rebaselined {old new : Binary64} {lastMs nowMs : Nat} (fell : new.lt old = true)
      (policy : resetPolicy = .rebaseline) :
      Between periodMs basis resetPolicy ⟨some old, lastMs⟩ ⟨some new, nowMs⟩ none
  | clamped {old new : Binary64} {lastMs nowMs : Nat}
      (primed : ¬ (old = .zero ∨ old = .negativeZero)) (fell : new.lt old = true)
      (policy : resetPolicy = .clampToZero) :
      Between periodMs basis resetPolicy ⟨some old, lastMs⟩ ⟨some new, nowMs⟩ (some .zero)
  | stalled {old new : Binary64} {lastMs nowMs : Nat} (kept : new.lt old = false)
      (still : basis.lapseMs periodMs lastMs nowMs = 0) :
      Between periodMs basis resetPolicy ⟨some old, lastMs⟩ ⟨some new, nowMs⟩ none
  | derived {old new : Binary64} {lastMs nowMs : Nat}
      (primed : ¬ (old = .zero ∨ old = .negativeZero)) (kept : new.lt old = false)
      (passed : 0 < basis.lapseMs periodMs lastMs nowMs) :
      Between periodMs basis resetPolicy ⟨some old, lastMs⟩ ⟨some new, nowMs⟩
        (some ((new.sub old).div (seconds (basis.lapseMs periodMs lastMs nowMs))))

namespace Between

variable {periodMs : Nat} {basis : RateBasis} {resetPolicy : ResetPolicy}

theorem rateAfter_values (old new : Binary64) (lastMs nowMs : Nat) :
    (RateMeter.new periodMs basis resetPolicy).rateAfter [⟨some old, lastMs⟩] ⟨some new, nowMs⟩ =
      if old.same .zero then none
      else if new.lt old then
        match resetPolicy with
        | .rebaseline => none
        | .clampToZero => some .zero
      else if basis.lapseMs periodMs lastMs nowMs = 0 then none
      else some ((new.sub old).div (seconds (basis.lapseMs periodMs lastMs nowMs))) := by
  cases basis <;> rfl

theorem rateAfter_eq {last call : Reading} {rate : Option Binary64}
    (between : Between periodMs basis resetPolicy last call rate) :
    (RateMeter.new periodMs basis resetPolicy).rateAfter [last] call = rate := by
  cases between with
  | missed => rfl
  | @missing last nowMs =>
      obtain ⟨before, lastMs⟩ := last
      cases before <;> rfl
  | @unprimed old lastMs call zero =>
      obtain ⟨value, nowMs⟩ := call
      cases value with
      | none => rfl
      | some new => rw [rateAfter_values, if_pos ((Binary64.same_zero_iff old).mpr zero)]
  | rebaselined fell policy =>
      subst policy
      rw [rateAfter_values]
      simp only [fell, if_true, ite_self]
  | clamped primed fell policy =>
      subst policy
      rw [rateAfter_values, if_neg (mt (Binary64.same_zero_iff _).mp primed), if_pos fell]
  | stalled kept still =>
      rw [rateAfter_values]
      simp [kept, still]
  | derived primed kept passed =>
      rw [rateAfter_values, if_neg (mt (Binary64.same_zero_iff _).mp primed), kept, if_neg passed.ne']
      rfl

theorem of_calls (last call : Reading) :
    Between periodMs basis resetPolicy last call
      ((RateMeter.new periodMs basis resetPolicy).rateAfter [last] call) := by
  obtain ⟨before, lastMs⟩ := last
  obtain ⟨value, nowMs⟩ := call
  cases before with
  | none => exact .missed
  | some old =>
      cases value with
      | none => exact .missing
      | some new =>
          rw [rateAfter_values]
          split
          next zero => exact .unprimed ((Binary64.same_zero_iff old).mp zero)
          next nonzero =>
            have primed := mt (Binary64.same_zero_iff old).mpr nonzero
            split
            next fell =>
              cases resetPolicy with
              | rebaseline => exact .rebaselined fell rfl
              | clampToZero => exact .clamped primed fell rfl
            next kept =>
              have kept : new.lt old = false := Bool.eq_false_iff.mpr kept
              split
              next still => exact .stalled kept still
              next passed => exact .derived primed kept (Nat.pos_of_ne_zero passed)

theorem iff_rateAfter {last call : Reading} {rate : Option Binary64} :
    Between periodMs basis resetPolicy last call rate ↔
      (RateMeter.new periodMs basis resetPolicy).rateAfter [last] call = rate := by
  constructor
  · exact rateAfter_eq
  · rintro rfl
    exact of_calls last call

theorem not_lt_zero {last call : Reading} {rate : Binary64}
    (between : Between periodMs basis resetPolicy last call (some rate)) :
    rate.lt .zero = false := by
  cases between with
  | clamped => rfl
  | derived primed kept passed =>
      exact Binary64.not_div_lt_zero (Binary64.not_sub_lt_zero kept)
        (Binary64.seconds_positive passed)

end Between

/-- The answers of a meter over all runs. -/
structure RatesDerived (periodMs : Nat) (basis : RateBasis) (resetPolicy : ResetPolicy) : Prop where
  /-- Every call moves the baseline, whether it is answered with a rate or not. -/
  baseline : ∀ earlier call,
    ((RateMeter.new periodMs basis resetPolicy).run (earlier ++ [call])).baseline? = call.value
  first : ∀ call, (RateMeter.new periodMs basis resetPolicy).rateAfter [] call = none
  later : ∀ earlier last call rate,
    (RateMeter.new periodMs basis resetPolicy).rateAfter (earlier ++ [last]) call = rate ↔
      Between periodMs basis resetPolicy last call rate
  nonnegative : ∀ earlier call rate,
    (RateMeter.new periodMs basis resetPolicy).rateAfter earlier call = some rate →
      rate.lt .zero = false
  divisor : ∀ lastMs nowMs, 0 < basis.lapseMs periodMs lastMs nowMs →
    Binary64.zero.lt (seconds (basis.lapseMs periodMs lastMs nowMs)) = true

theorem rates_derived (periodMs : Nat) (basis : RateBasis) (resetPolicy : ResetPolicy) :
    RatesDerived periodMs basis resetPolicy := by
  have later : ∀ earlier last call rate,
      (RateMeter.new periodMs basis resetPolicy).rateAfter (earlier ++ [last]) call = rate ↔
        Between periodMs basis resetPolicy last call rate := by
    intro earlier last call rate
    rw [RateMeter.rateAfter_concat, Between.iff_rateAfter]
  refine ⟨RateMeter.baseline?_concat _, RateMeter.rateAfter_nil _ _ _, later, ?nonnegative,
    ?divisor⟩
  case nonnegative =>
    intro earlier call rate answered
    rcases List.eq_nil_or_concat' earlier with rfl | ⟨before, last, rfl⟩
    · rw [RateMeter.rateAfter_nil] at answered
      cases answered
    · exact ((later before last call (some rate)).mp answered).not_lt_zero
  case divisor =>
    intro lastMs nowMs passed
    exact Binary64.seconds_positive passed

theorem rates_derived_of_restart :
    let meter := RateMeter.new 5000 .measured .clampToZero
    let risen : Reading := ⟨some (.ofNat 300), 11000⟩
    let fallen : Reading := ⟨some (.ofNat 50), 12000⟩
    meter.rateAfter [⟨some (.ofNat 100), 1000⟩] risen = some (.ofNat 20) ∧
      (Binary64.ofNat 20).lt .zero = false ∧
      0 < RateBasis.measured.lapseMs 5000 1000 11000 ∧
      Binary64.zero.lt (seconds (RateBasis.measured.lapseMs 5000 1000 11000)) = true ∧
      meter.rateAfter [⟨some (.ofNat 100), 1000⟩, risen] fallen = some .zero ∧
      Between 5000 .measured .clampToZero risen fallen (some .zero) := by
  intro meter risen fallen
  have derived := rates_derived 5000 .measured .clampToZero
  have rise : meter.rateAfter [⟨some (.ofNat 100), 1000⟩] risen = some (.ofNat 20) := by
    decide +kernel
  have fall : meter.rateAfter ([⟨some (.ofNat 100), 1000⟩] ++ [risen]) fallen = some .zero := by
    decide +kernel
  exact ⟨rise, derived.nonnegative _ _ _ rise, by decide, derived.divisor _ _ (by decide), fall,
    (derived.later _ _ _ _).mp fall⟩

end ProxyMonitor
