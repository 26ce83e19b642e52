import Mathlib.Tactic.Positivity
import Mathlib.Tactic.Ring
import ProxyMonitor.Decimal

/-! Rounding leaves exact values alone, so every double has a decimal that reads back. -/

namespace ProxyMonitor

namespace Binary64

theorem rankStep_eq : rankStep = 2 ^ 52 := rfl

theorem rankStep_pos : 0 < rankStep := by decide +kernel

theorem exists_significand (rank : Nat) :
    ∃ significand step, units rank = significand * 2 ^ step ∧
      rank = step * rankStep + significand ∧ Nat.log2 (units rank) - 52 = step ∧
      significand < 2 * rankStep := by
  by_cases low : rank < 2 * rankStep
  · refine ⟨rank, 0, by simp [units, low], by simp, ?_, low⟩
    rw [units, if_pos low]
    by_cases zero : rank = 0
    · simp [zero]
    · have bound : Nat.log2 rank < 53 := by
        rw [Nat.log2_lt zero]
        rw [rankStep_eq] at low
        omega
      omega
  -- Above the first two powers of two, each further one doubles the distance of the ranks.
  · have split := Nat.div_add_mod rank rankStep
    have below := Nat.mod_lt rank rankStep_pos
    have two : 2 ≤ rank / rankStep := (Nat.le_div_iff_mul_le rankStep_pos).mpr (by omega)
    refine ⟨rankStep + rank % rankStep, rank / rankStep - 1, ?_, ?_, ?_, by omega⟩
    · rw [units, if_neg low, Nat.shiftLeft_eq]
    · calc
        rank = rankStep * (rank / rankStep - 1 + 1) + rank % rankStep := by
          rw [Nat.sub_add_cancel (by omega), split]
        _ = _ := by ring
    · have log : Nat.log2 (units rank) = 52 + (rank / rankStep - 1) := by
        have positive : units rank ≠ 0 := by
          rw [units, if_neg low, Nat.shiftLeft_eq]
          have positive := rankStep_pos
          exact Nat.mul_ne_zero (by omega) (by positivity)
        rw [Nat.log2_eq_iff positive, units, if_neg low, Nat.shiftLeft_eq, rankStep_eq]
        rw [rankStep_eq] at below
        constructor
        · rw [pow_add]
          exact Nat.mul_le_mul_right _ (by omega)
        · rw [show 52 + (rank / 2 ^ 52 - 1) + 1 = 53 + (rank / 2 ^ 52 - 1) by omega, pow_add]
          exact Nat.mul_lt_mul_of_pos_right (by omega) (by positivity)
      omega

theorem units_pos {rank : Nat} (positive : 0 < rank) : 0 < units rank := by
  obtain ⟨significand, step, value, place, log, -⟩ := exists_significand rank
  by_contra zero
  have none : units rank = 0 := by omega
  have unit : step = 0 := by
    rw [← log, none]
    decide
  subst unit
  omega

theorem units_lt {rank doublings : Nat} (finite : rank < rankCount) (enough : 2046 ≤ doublings) :
    units rank < 2 ^ 53 * 2 ^ doublings := by
  obtain ⟨significand, step, value, place, -, small⟩ := exists_significand rank
  have few : step ≤ doublings := by
    rw [rankCount] at finite
    have bound : step < 2047 := Nat.lt_of_mul_lt_mul_right (a := rankStep) (by omega)
    omega
  have significandBelow : significand < 2 ^ 53 := by
    rw [rankStep_eq] at small
    omega
  rw [value]
  exact Nat.mul_lt_mul_of_lt_of_le significandBelow (Nat.pow_le_pow_right Nat.zero_lt_two few)
    (Nat.two_pow_pos _)

theorem roundHalfEven_mul (whole : Nat) {den : Nat} (positive : 0 < den) :
    roundHalfEven (whole * den) den = whole := by
  simp [roundHalfEven, positive]

theorem nearestRank_units (rank : Nat) {den : Nat} (positive : 0 < den) :
    nearestRank (units rank * den) den = rank := by
  obtain ⟨significand, step, value, place, log, -⟩ := exists_significand rank
  have spread : units rank * den = significand * (den <<< step) := by
    rw [value, Nat.shiftLeft_eq]
    ring
  simp only [nearestRank, Nat.mul_div_cancel _ positive, log]
  rw [spread, roundHalfEven_mul _ (by rw [Nat.shiftLeft_eq]; positivity)]
  exact place.symm

end Binary64

namespace Decimal

open Binary64

theorem powerOfTen_pos (exponent : Nat) : 0 < powerOfTen exponent := Nat.pow_pos (by decide)

theorem exact_digits (rank : Nat) :
    (exact rank).digits * unitScale = units rank * powerOfTen 1074 := by
  have scale : Nat.pow 5 1074 * unitScale = powerOfTen 1074 := by decide +kernel
  rw [← scale]
  exact Nat.mul_assoc _ _ _

theorem length_exact_digits {rank : Nat} (positive : 0 < rank) (finite : rank < rankCount) :
    743 < (Nat.toDigits 10 (exact rank).digits).length ∧
      (Nat.toDigits 10 (exact rank).digits).length ≤ 1384 := by
  have least := units_pos positive
  have most : units rank < 2 ^ 53 * 2 ^ 2046 := units_lt finite (Nat.le_refl _)
  constructor
  · rw [← Nat.not_le, Nat.length_toDigits_le_iff (by decide) (by decide), Nat.not_lt]
    refine Nat.le_trans ?_ (Nat.le_mul_of_pos_left _ least)
    decide +kernel
  · rw [Nat.length_toDigits_le_iff (by decide) (by decide)]
    refine Nat.lt_of_le_of_lt (Nat.mul_le_mul_right _ most.le) ?_
    decide +kernel

/-- The exact decimal of a double reads back as this double. -/
theorem nearest_exact {rank : Nat} (negative : Bool) (positive : 0 < rank)
    (finite : rank < rankCount) : nearest negative (exact rank) = ofRank negative rank := by
  obtain ⟨long, short⟩ := length_exact_digits positive finite
  have exponent : (exact rank).exponent = -1074 := rfl
  have nonzero : (exact rank).digits ≠ 0 := by
    intro zero
    rw [zero] at long
    simp at long
  have above : ¬ (-1074 + ((Nat.toDigits 10 (exact rank).digits).length : Int) < lowest) := by
    rw [lowest]
    omega
  have below : ¬ highest < -1074 + ((Nat.toDigits 10 (exact rank).digits).length : Int) := by
    rw [highest]
    omega
  simp only [nearest, exponent]
  rw [if_neg (not_or.mpr ⟨nonzero, above⟩), if_neg below, if_pos (by decide), exact_digits, ofUnits]
  exact congrArg _ (nearestRank_units rank (powerOfTen_pos 1074))

theorem nearest_sign {d : Decimal} {rank : Nat} (finite : rank < rankCount)
    (h : nearest false d = ofRank false rank) (negative : Bool) :
    nearest negative d = ofRank negative rank := by
  have ranked : ∀ other, ofRank false other = ofRank false rank → other = rank := by
    intro other same
    rw [ofRank, ofRank, dif_pos finite] at same
    split at same
    · simpa using same
    · cases same
  simp only [nearest] at h ⊢
  split
  next cond =>
    rw [if_pos cond] at h
    rw [ranked 0 h]
  next cond =>
    rw [if_neg cond] at h
    split
    next cond =>
      rw [if_pos cond, ofRank, dif_pos finite] at h
      cases h
    next cond =>
      rw [if_neg cond] at h
      split
      next cond =>
        rw [if_pos cond] at h
        rw [ofUnits, ranked _ h]
      next cond =>
        rw [if_neg cond] at h
        rw [ofUnits, ranked _ h]

theorem readsBack_shortest (tie : Tie) {rank : Nat} (positive : 0 < rank)
    (finite : rank < rankCount) : readsBack rank (shortest tie rank) = true := by
  simp only [shortest]
  cases found : (List.range 17).findSome? fun places =>
      ((neighbours tie rank (magnitude rank - (places : Nat))).map
        (onGrid (magnitude rank - (places : Nat)))).find? (readsBack rank) with
  | none =>
      rw [Option.getD_none, readsBack, nearest_exact false positive finite]
      exact beq_self_eq_true _
  | some d =>
      obtain ⟨places, -, here⟩ := List.exists_of_findSome?_eq_some found
      exact List.find?_some here

theorem nearest_shortest (tie : Tie) {rank : Nat} (positive : 0 < rank) (finite : rank < rankCount)
    (negative : Bool) : nearest negative (shortest tie rank) = ofRank negative rank :=
  nearest_sign finite (beq_iff_eq.mp (readsBack_shortest tie positive finite)) negative

end Decimal

end ProxyMonitor
