import Mathlib.Order.Monotone.Basic
import ProxyMonitor.Binary64.Arithmetic
import ProxyMonitor.Proofs.Rounding

namespace ProxyMonitor.Binary64

theorem units_significand {significand : Nat} (step : Nat) (normal : rankStep ≤ significand)
    (small : significand < 2 * rankStep) :
    units (step * rankStep + significand) = significand * 2 ^ step := by
  obtain ⟨rest, rfl⟩ := Nat.exists_eq_add_of_le normal
  cases step with
  | zero =>
      rw [Nat.zero_mul, Nat.zero_add, units, if_pos small, Nat.pow_zero, Nat.mul_one]
  | succ step =>
      have below : rest < rankStep := by omega
      have place : (step + 1) * rankStep + (rankStep + rest) = rankStep * (step + 2) + rest := by
        ring
      have large : ¬ rankStep * (step + 2) + rest < 2 * rankStep := by
        have := Nat.mul_le_mul_left rankStep (Nat.le_add_left 2 step)
        omega
      rw [place, units, if_neg large, Nat.mul_add_mod, Nat.mod_eq_of_lt below,
        Nat.mul_add_div rankStep_pos, Nat.div_eq_of_lt below, Nat.shiftLeft_eq]
      rfl

theorem units_mono : Monotone units := by
  apply monotone_nat_of_le_succ
  intro rank
  by_cases low : rank < rankStep
  · rw [units, units, if_pos (by omega), if_pos (by omega)]
    exact Nat.le_succ rank
  · have below := Nat.mod_lt rank rankStep_pos
    obtain ⟨step, split⟩ : ∃ step, rank = step * rankStep + (rankStep + rank % rankStep) := by
      have whole := Nat.div_add_mod rank rankStep
      have one : 1 ≤ rank / rankStep := (Nat.le_div_iff_mul_le rankStep_pos).mpr (by omega)
      refine ⟨rank / rankStep - 1, ?_⟩
      calc
        rank = rankStep * (rank / rankStep - 1 + 1) + rank % rankStep := by
          rw [Nat.sub_add_cancel one, whole]
        _ = _ := by ring
    generalize rank % rankStep = rest at below split
    subst split
    rw [units_significand step (Nat.le_add_right _ _) (by omega)]
    -- The next rank has the same step, or it begins the next power of two.
    by_cases last : rest + 1 < rankStep
    · rw [Nat.add_assoc, units_significand step (by omega) (by omega)]
      exact Nat.mul_le_mul_right _ (Nat.le_succ _)
    · have next : step * rankStep + (rankStep + rest) + 1 = (step + 1) * rankStep + rankStep := by
        have : rest + 1 = rankStep := by omega
        calc
          step * rankStep + (rankStep + rest) + 1 =
              step * rankStep + rankStep + (rest + 1) := by ring
          _ = _ := by
            rw [this]
            ring
      rw [next, units_significand (step + 1) (Nat.le_refl _) (by omega), pow_succ]
      calc
        (rankStep + rest) * 2 ^ step ≤ (rankStep * 2) * 2 ^ step :=
          Nat.mul_le_mul_right _ (by omega)
        _ = _ := by ring

theorem units_zero : units 0 = 0 := by
  have positive := rankStep_pos
  rw [units, if_pos (by omega)]

theorem not_ofRank_lt_zero (rank : Nat) : (ofRank false rank).lt zero = false := by
  rw [ofRank]
  split
  · simp [lt, position?, signed, zero]
  · simp [lt, position?, signed, zero]

theorem not_ofSignedUnits_lt_zero (zeroNegative : Bool) {n : Int} (nonneg : 0 ≤ n) (den : Nat) :
    (ofSignedUnits zeroNegative n den).lt zero = false := by
  rw [ofSignedUnits]
  split
  · rw [ofRank, dif_pos (by decide +kernel)]
    cases zeroNegative <;> rfl
  · rw [decide_eq_false (Int.not_lt.mpr nonneg)]
    exact not_ofRank_lt_zero _

theorem signed_units_le {s t : Bool} {a b : Nat} (le : signed t b ≤ signed s a) :
    signed t (units b) ≤ signed s (units a) := by
  cases s with
  | false =>
      cases t with
      | false => exact Int.ofNat_le.mpr (units_mono (Int.ofNat_le.mp le))
      | true =>
          have least : -(units b : Int) ≤ 0 := Int.neg_nonpos_of_nonneg (Int.natCast_nonneg _)
          exact Int.le_trans least (Int.natCast_nonneg _)
  | true =>
      cases t with
      | false =>
          have opposite : (b : Int) ≤ -(a : Int) := le
          have left : a = 0 := by omega
          have right : b = 0 := by omega
          simp [left, right, units_zero, signed]
      | true =>
          have reversed : a ≤ b := Int.ofNat_le.mp (Int.neg_le_neg_iff.mp le)
          exact Int.neg_le_neg (Int.ofNat_le.mpr (units_mono reversed))

theorem signed_false (n : Nat) : signed false n = n := rfl

theorem signed_true (n : Nat) : signed true n = -(n : Int) := rfl

theorem signed_not (s : Bool) (n : Nat) : signed (!s) n = -signed s n := by
  cases s <;> simp [signed]

theorem signed_bounds {rank count : Nat} (below : rank < count) (s : Bool) :
    -(count : Int) < signed s rank ∧ signed s rank < count := by
  cases s with
  | false =>
      rw [signed_false]
      omega
  | true =>
      rw [signed_true]
      omega

theorem lt_of_positions {x y : Binary64} {a b : Int} (left : x.position? = some a)
    (right : y.position? = some b) : x.lt y = decide (a < b) := by
  rw [lt, left, right]

theorem sub_finite (s t : Bool) (a b : Fin rankCount) :
    (finite s a).sub (finite t b) =
      ofSignedUnits (s && !t) (signed s (units a) + signed (!t) (units b)) 1 := by
  simp only [sub, isNaN, neg, add, Bool.false_eq_true, if_false]

/-- What is not below another number exceeds it by no negative number. -/
theorem not_sub_lt_zero {x y : Binary64} (notBelow : x.lt y = false) :
    (x.sub y).lt zero = false := by
  cases y with
  | nan t => cases x <;> rfl
  | infinite t =>
      cases x with
      | nan s => rfl
      | infinite s =>
          cases s <;> cases t
          case true.false => 
            rw [lt_of_positions rfl rfl, decide_eq_false_iff_not] at notBelow
            exact absurd (show -(rankCount : Int) < rankCount by decide) notBelow
          all_goals rfl
      | finite s a =>
          cases t with
          | true => rfl
          | false =>
              rw [lt_of_positions rfl rfl, decide_eq_false_iff_not] at notBelow
              exact absurd (signed_bounds a.isLt s).2 notBelow
  | finite t b =>
      cases x with
      | nan s => rfl
      | infinite s =>
          cases s with
          | false => rfl
          | true =>
              rw [lt_of_positions rfl rfl, decide_eq_false_iff_not] at notBelow
              exact absurd (signed_bounds b.isLt t).1 notBelow
      | finite s a =>
          rw [lt_of_positions rfl rfl, decide_eq_false_iff_not, Int.not_lt] at notBelow
          have grown := signed_units_le notBelow
          rw [sub_finite, signed_not]
          apply not_ofSignedUnits_lt_zero
          omega

theorem nearestRank_zero {den : Nat} (positive : 0 < den) : nearestRank 0 den = 0 := by
  have exact := nearestRank_units 0 positive
  rwa [units_zero, Nat.zero_mul] at exact

theorem div_finite (s t : Bool) (a b : Fin rankCount) (nonzero : b.val ≠ 0) :
    (finite s a).div (finite t b) = ofUnits (s != t) (units a * unitScale) (units b) := by
  simp only [div, nonzero, if_false]

theorem positive_cases {y : Binary64} (positive : zero.lt y = true) :
    y = infinite false ∨ ∃ b : Fin rankCount, y = finite false b ∧ 0 < b.val := by
  have above {a : Int} (there : y.position? = some a) : 0 < a := by
    rwa [lt_of_positions (a := 0) rfl there, decide_eq_true_eq] at positive
  cases y with
  | nan t => cases positive
  | infinite t =>
      cases t with
      | false => exact .inl rfl
      | true =>
          have : 0 < -(rankCount : Int) := above rfl
          omega
  | finite t b =>
      cases t with
      | false =>
          have : (0 : Int) < b.val := above rfl
          exact .inr ⟨b, rfl, by omega⟩
      | true =>
          have : 0 < -(b.val : Int) := above rfl
          omega

theorem not_div_lt_zero {x y : Binary64} (nonnegative : x.lt zero = false)
    (positive : zero.lt y = true) : (x.div y).lt zero = false := by
  have above {a : Int} (there : x.position? = some a) : 0 ≤ a := by
    rwa [lt_of_positions (b := 0) there rfl, decide_eq_false_iff_not, Int.not_lt] at nonnegative
  rcases positive_cases positive with rfl | ⟨b, rfl, nonzero⟩
  · cases x with
    | nan s => rfl
    | infinite s => rfl
    | finite s a =>
        rw [div, ofRank, dif_pos (by decide +kernel)]
        cases s <;> rfl
  · cases x with
    | nan s => rfl
    | infinite s =>
        cases s with
        | false => rfl
        | true =>
            have : 0 ≤ -(rankCount : Int) := above rfl
            exact absurd this (by decide)
    | finite s a =>
        rw [div_finite _ _ _ _ nonzero.ne', ofUnits]
        cases s with
        | false => exact not_ofRank_lt_zero _
        | true =>
            have : 0 ≤ -(a.val : Int) := above rfl
            have naught : a.val = 0 := by omega
            rw [naught, units_zero, Nat.zero_mul, nearestRank_zero (units_pos nonzero), ofRank,
              dif_pos (by decide +kernel)]
            rfl

theorem ofRank_positive {rank : Nat} (positive : 0 < rank) : zero.lt (ofRank false rank) = true := by
  rw [ofRank]
  split
  · rw [lt_of_positions (b := rank) rfl rfl]
    exact decide_eq_true (Int.natCast_pos.mpr positive)
  · rfl

theorem nearestRank_pos {num den : Nat} (positive : 0 < den) (unit : den ≤ num) :
    0 < nearestRank num den := by
  have whole : 0 < num / den := Nat.div_pos unit positive
  rw [nearestRank]
  by_cases wide : Nat.log2 (num / den) - 52 = 0
  · rw [wide, Nat.zero_mul, Nat.zero_add, Nat.shiftLeft_zero, roundHalfEven]
    split
    · exact whole
    · exact Nat.succ_pos _
  · have := Nat.mul_pos (Nat.pos_of_ne_zero wide) rankStep_pos
    omega

theorem le_nearestRank {num den step : Nat} (large : 52 + step ≤ Nat.log2 (num / den)) :
    step * rankStep ≤ nearestRank num den := by
  rw [nearestRank]
  exact Nat.le_trans (Nat.mul_le_mul_right _ (by omega)) (Nat.le_add_right _ _)

theorem unitScale_eq : unitScale = 2 ^ 1074 := by decide +kernel

theorem unitScale_pos : 0 < unitScale := by decide +kernel

theorem le_units_ofNat {n : Nat} (positive : 0 < n) :
    rankStep ≤ units (nearestRank (n * unitScale) 1) := by
  have grown : unitScale ≤ n * unitScale := Nat.le_mul_of_pos_left _ positive
  have large : 1074 ≤ Nat.log2 (n * unitScale / 1) := by
    rw [Nat.div_one]
    calc
      1074 ≤ Nat.log2 unitScale := by decide +kernel
      _ ≤ _ := (Nat.le_log2 (Nat.mul_pos positive unitScale_pos).ne').mpr
        (Nat.le_trans (Nat.log2_self_le unitScale_pos.ne') grown)
  have ranks : rankStep ≤ nearestRank (n * unitScale) 1 := by
    have raised : 1022 * rankStep ≤ nearestRank (n * unitScale) 1 := le_nearestRank large
    omega
  calc
    rankStep = units rankStep := by
      rw [units, if_pos (by have := rankStep_pos; omega)]
    _ ≤ _ := units_mono ranks

/-- A whole number has at most as many digits as a significand, so it is the value of some rank. -/
theorem exists_rank {n : Nat} (small : n ≤ 2 ^ 53) :
    ∃ rank : Fin rankCount, units rank = n * unitScale := by
  rcases Nat.eq_zero_or_pos n with rfl | positive
  · exact ⟨⟨0, by decide +kernel⟩, by rw [units_zero, Nat.zero_mul]⟩
  obtain ⟨significand, step, normal, below, low, value⟩ : ∃ significand step,
      rankStep ≤ significand ∧ significand < 2 * rankStep ∧ step ≤ 1075 ∧
        significand * 2 ^ step = n * 2 ^ 1074 := by
    rcases Nat.lt_or_eq_of_le small with below | rfl
    -- Shifted to 53 digits, the number is the significand.
    · have digits : n.log2 < 53 := (Nat.log2_lt positive.ne').mpr below
      obtain ⟨shift, filled⟩ := Nat.exists_eq_add_of_le (Nat.le_of_lt_succ digits)
      refine ⟨n * 2 ^ shift, 1074 - shift, ?_, ?_, by omega, ?_⟩
      · calc
          rankStep = 2 ^ n.log2 * 2 ^ shift := by rw [← pow_add, ← filled, rankStep_eq]
          _ ≤ n * 2 ^ shift := Nat.mul_le_mul_right _ (Nat.log2_self_le positive.ne')
      · calc
          n * 2 ^ shift < 2 ^ (n.log2 + 1) * 2 ^ shift :=
            Nat.mul_lt_mul_of_pos_right Nat.lt_log2_self (Nat.two_pow_pos _)
          _ = 2 * 2 ^ (n.log2 + shift) := by ring
          _ = 2 * rankStep := by rw [← filled, rankStep_eq]
      · rw [Nat.mul_assoc, ← pow_add, Nat.add_sub_cancel' (by omega)]
    · refine ⟨rankStep, 1075, Nat.le_refl _, by decide +kernel, Nat.le_refl _, ?_⟩
      rw [rankStep_eq, ← pow_add, ← pow_add]
  have finite : step * rankStep + significand < rankCount := by
    calc
      step * rankStep + significand < 1075 * rankStep + 2 * rankStep :=
        Nat.add_lt_add_of_le_of_lt (Nat.mul_le_mul_right _ low) below
      _ ≤ rankCount := by decide +kernel
  refine ⟨⟨_, finite⟩, ?_⟩
  rw [units_significand step normal below, value, unitScale_eq]

theorem ofNat_exact {n : Nat} (small : n ≤ 2 ^ 53) :
    ∃ rank : Fin rankCount, ofNat n = finite false rank ∧ units rank = n * unitScale := by
  obtain ⟨rank, value⟩ := exists_rank small
  refine ⟨rank, ?_, value⟩
  rw [ofNat, ofUnits, ← value, ← Nat.mul_one (units _), nearestRank_units _ Nat.one_pos, ofRank,
    dif_pos rank.isLt]

theorem seconds_positive {elapsedMs : Nat} (passed : 0 < elapsedMs) :
    zero.lt ((ofNat elapsedMs).div (ofNat 1000)) = true := by
  obtain ⟨thousand, shown, size⟩ := ofNat_exact (show 1000 ≤ 2 ^ 53 by decide)
  have nonzero : thousand.val ≠ 0 := by
    intro zero
    rw [zero, units_zero] at size
    have := unitScale_pos
    omega
  rw [shown, ofNat, ofUnits, ofRank]
  split
  next finite =>
    have large := le_units_ofNat passed
    have thousandth : 1000 * unitScale ≤ units (nearestRank (elapsedMs * unitScale) 1) * unitScale :=
      Nat.mul_le_mul_right _ (Nat.le_trans (by decide +kernel) large)
    rw [div_finite _ _ _ _ nonzero, ofUnits, size]
    exact ofRank_positive (nearestRank_pos (by decide +kernel) thousandth)
  next infinite => rfl

end ProxyMonitor.Binary64
