import Mathlib.Data.List.Forall2
import ProxyMonitor.Distribution
import ProxyMonitor.Proofs.Signs

/-! Counts of single buckets: what the cumulative counts of a histogram rise by. Rises of whole
numbers are exact and add up to the last count. -/

namespace ProxyMonitor

namespace Binary64

/-- The number is this whole one. Both zeros are `0`. -/
def Is (x : Binary64) (n : Nat) : Prop :=
  ∃ negative rank, x = finite negative rank ∧ signed negative (units rank) = n * unitScale

variable {x y : Binary64} {m n : Nat}

theorem zero_is : zero.Is 0 := by
  refine ⟨false, ⟨0, by decide⟩, rfl, ?_⟩
  rw [signed_false, units_zero, Nat.cast_zero, zero_mul]

theorem negativeZero_is : negativeZero.Is 0 := by
  refine ⟨true, ⟨0, by decide⟩, rfl, ?_⟩
  rw [signed_true, units_zero, Nat.cast_zero, zero_mul, neg_zero]

theorem ofNat_is (small : n ≤ 2 ^ 53) : (ofNat n).Is n := by
  obtain ⟨rank, shown, value⟩ := ofNat_exact small
  refine ⟨false, rank, shown, ?_⟩
  rw [signed_false, value, Nat.cast_mul]

theorem sub_is (greater : x.Is m) (lesser : y.Is n) (le : n ≤ m) (small : m ≤ 2 ^ 53) :
    (x.sub y).Is (m - n) := by
  obtain ⟨s, a, rfl, left⟩ := greater
  obtain ⟨t, b, rfl, right⟩ := lesser
  have exact : signed s (units a) + signed (!t) (units b) = ((m - n) * unitScale : Nat) := by
    rw [signed_not, left, right]
    push_cast [le]
    ring
  rw [sub_finite, exact, ofSignedUnits]
  split
  next none =>
    have equal : m - n = 0 := by
      have := unitScale_pos
      rcases Nat.mul_eq_zero.mp (Int.ofNat_eq_zero.mp none) with equal | absurd <;> omega
    rw [equal, ofRank, dif_pos (by decide +kernel)]
    cases s && !t
    · exact zero_is
    · exact negativeZero_is
  next some =>
    rw [decide_eq_false (Int.not_lt.mpr (Int.natCast_nonneg _)), Int.natAbs_natCast]
    exact ofNat_is (Nat.le_trans (Nat.sub_le m n) small)

theorem toWord_of_is (whole : x.Is n) (fits : n ≤ Word.greatest) : x.toWord = n := by
  obtain ⟨negative, rank, rfl, value⟩ := whole
  cases negative with
  | false =>
      rw [signed_false, ← Nat.cast_mul] at value
      have size : units rank = n * unitScale := Int.ofNat_inj.mp value
      calc
        toWord (finite false rank) = Nat.min (units rank / unitScale) Word.greatest := rfl
        _ = Nat.min n Word.greatest := by
          rw [size, Nat.mul_div_cancel _ unitScale_pos]
        _ = n := Nat.min_eq_left fits
  | true =>
      rw [signed_true, ← Nat.cast_mul] at value
      have nothing : n * unitScale = 0 := by omega
      rcases Nat.mul_eq_zero.mp nothing with zero | absurd
      · exact zero.symm
      · exact (unitScale_pos.ne' absurd).elim

theorem toWord_le (x : Binary64) : x.toWord ≤ Word.greatest := by
  cases x with
  | nan _ => exact Nat.zero_le _
  | infinite negative =>
      cases negative with
      | true => exact Nat.zero_le _
      | false => exact Nat.le_refl _
  | finite negative rank =>
      cases negative with
      | true => exact Nat.zero_le _
      | false => exact Nat.min_le_right _ _

theorem toWord_of_isNaN (nan : x.isNaN = true) : x.toWord = 0 := by
  cases x with
  | nan _ => rfl
  | infinite _ => cases nan
  | finite _ _ => cases nan

theorem toWord_of_lt_zero (below : x.lt zero = true) : x.toWord = 0 := by
  cases x with
  | nan _ => rfl
  | infinite negative =>
      cases negative with
      | true => rfl
      | false =>
          have : (rankCount : Int) < 0 := of_decide_eq_true below
          omega
  | finite negative rank =>
      cases negative with
      | true => rfl
      | false =>
          have : ((rank : Nat) : Int) < 0 := of_decide_eq_true below
          omega

end Binary64

namespace Distribution

open Binary64

/-- What a count rises by, as a word: `0` where it falls or where the difference is no number. -/
def rise (previous cumulative : Binary64) : Nat :=
  let difference := cumulative.sub previous
  if difference.isNaN || difference.lt .zero then 0 else difference.toWord

theorem rise_eq_toWord (previous cumulative : Binary64) :
    rise previous cumulative = (cumulative.sub previous).toWord := by
  rw [rise]
  split
  next without =>
    rcases Bool.or_eq_true_iff.mp without with nan | falls
    · exact (toWord_of_isNaN nan).symm
    · exact (toWord_of_lt_zero falls).symm
  next => rfl

theorem ownCount_eq_rise (previous cumulative : Binary64) :
    ownCount previous cumulative = rise previous cumulative := by
  have nothing : zero.toWord = 0 := toWord_of_is zero_is (Nat.zero_le _)
  rw [ownCount, rise_eq_toWord, Binary64.max]
  split
  next nan => rw [nothing, toWord_of_isNaN nan]
  next =>
    rw [if_neg (by decide)]
    split
    next falls => rw [nothing, toWord_of_lt_zero falls]
    next => rfl

theorem rise_le (previous cumulative : Binary64) : rise previous cumulative ≤ Word.greatest := by
  rw [rise_eq_toWord]
  exact toWord_le _

theorem rise_of_is {previous cumulative : Binary64} {m n : Nat} (before : previous.Is m)
    (after : cumulative.Is n) (le : m ≤ n) (small : n ≤ 2 ^ 53) :
    rise previous cumulative = n - m := by
  have fits : n - m ≤ Word.greatest :=
    Nat.le_trans (Nat.le_trans (Nat.sub_le n m) small) (by decide)
  rw [rise_eq_toWord, toWord_of_is (sub_is after before le small) fits]

def barsAfter (previous : Binary64) (buckets : List Bucket) : List Bar :=
  List.zipWith (fun bucket before => ⟨bucket.upperBound, rise before bucket.cumulative⟩) buckets
    (previous :: buckets.map Bucket.cumulative)

theorem barsAfter_cons (previous : Binary64) (bucket : Bucket) (rest : List Bucket) :
    barsAfter previous (bucket :: rest) =
      ⟨bucket.upperBound, rise previous bucket.cumulative⟩ :: barsAfter bucket.cumulative rest := rfl

theorem upperBounds_barsAfter (previous : Binary64) (buckets : List Bucket) :
    (barsAfter previous buckets).map Bar.upperBound = buckets.map Bucket.upperBound := by
  induction buckets generalizing previous with
  | nil => rfl
  | cons bucket rest ih => rw [barsAfter_cons, List.map_cons, List.map_cons, ih]

/-- The cumulative counts of a histogram are these whole numbers; they never fall, and a double
holds each one exactly. -/
structure Counted (buckets : List Bucket) (counts : List Nat) : Prop where
  whole : List.Forall₂ (fun bucket n => bucket.cumulative.Is n) buckets counts
  ascending : counts.Pairwise (· ≤ ·)
  small : ∀ n ∈ counts, n ≤ 2 ^ 53

theorem Counted.tail {bucket : Bucket} {rest : List Bucket} {n : Nat} {counts : List Nat}
    (h : Counted (bucket :: rest) (n :: counts)) : Counted rest counts where
  whole := (List.forall₂_cons.mp h.whole).2
  ascending := (List.pairwise_cons.mp h.ascending).2
  small := fun m member => h.small m (List.mem_cons_of_mem _ member)

theorem sum_barsAfter {previous : Binary64} {first : Nat} {buckets : List Bucket}
    {counts : List Nat} (start : previous.Is first) (above : ∀ n ∈ counts, first ≤ n)
    (counted : Counted buckets counts) :
    first + ((barsAfter previous buckets).map Bar.count).sum = counts.getLastD first := by
  induction buckets generalizing previous first counts with
  | nil =>
      obtain rfl := List.forall₂_nil_left_iff.mp counted.whole
      rfl
  | cons bucket rest ih =>
      cases counts with
      | nil => cases counted.whole
      | cons n counts =>
          have here : bucket.cumulative.Is n := (List.forall₂_cons.mp counted.whole).1
          have le : first ≤ n := above n List.mem_cons_self
          have later := ih here (List.pairwise_cons.mp counted.ascending).1 counted.tail
          rw [barsAfter_cons, List.map_cons, List.sum_cons, List.getLastD_cons, ← later,
            rise_of_is start here le (counted.small n List.mem_cons_self), ← Nat.add_assoc,
            Nat.add_sub_cancel' le]

end Distribution

end ProxyMonitor
