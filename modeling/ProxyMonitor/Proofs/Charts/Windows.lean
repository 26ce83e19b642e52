import Mathlib.Data.List.DropRight
import ProxyMonitor.Proofs.NumberOrder
import ProxyMonitor.Window

namespace ProxyMonitor

namespace Window

def pushAll (window : Window) (points : List TimePoint) : Window := points.foldl push window

theorem pushAll_append (window : Window) (earlier later : List TimePoint) :
    window.pushAll (earlier ++ later) = (window.pushAll earlier).pushAll later :=
  List.foldl_append

theorem length_new (capacity : Nat) : (new capacity).points.length = max capacity 1 :=
  List.length_replicate

theorem points_pushAll {window : Window} (points : List TimePoint)
    (primed : 0 < window.points.length) :
    (window.pushAll points).points = (window.points ++ points).drop points.length := by
  induction points generalizing window with
  | nil => simp [pushAll]
  | cons point rest ih =>
      obtain ⟨oldest, newer, shown⟩ := List.exists_cons_of_length_pos primed
      rw [pushAll, List.foldl_cons, ← pushAll, ih (by simp [push]), push, shown]
      simp

theorem points_pushAll_new (capacity : Nat) (points : List TimePoint) :
    ((new capacity).pushAll points).points =
      List.replicate (max capacity 1 - points.length) .placeholder ++
        points.drop (points.length - max capacity 1) := by
  have primed : 0 < (new capacity).points.length := by
    rw [length_new]
    omega
  rw [points_pushAll points primed, List.drop_append, length_new, new, List.drop_replicate]

theorem recorded_pushAll_new (capacity : Nat) {points : List TimePoint}
    (timed : ∀ point ∈ points, 0 < point.timeMs) :
    ((new capacity).pushAll points).recorded = points.drop (points.length - max capacity 1) := by
  have unprimed : ∀ point ∈ points.drop (points.length - max capacity 1),
      (!point.isPlaceholder) = true := by
    intro point kept
    have positive := timed point (List.mem_of_mem_drop kept)
    simp only [TimePoint.isPlaceholder, Bool.not_eq_true', beq_eq_false_iff_ne]
    omega
  rw [recorded, points_pushAll_new, List.filter_append, List.filter_eq_self.mpr unprimed,
    List.filter_replicate]
  rfl

theorem points_pushAll_eq_rtake (capacity : Nat) (points : List TimePoint) :
    ((new capacity).pushAll points).points =
      (List.replicate (max capacity 1) TimePoint.placeholder ++ points).rtake (max capacity 1) := by
  have surplus : (List.replicate (max capacity 1) TimePoint.placeholder ++ points).length -
      max capacity 1 = points.length := by
    rw [List.length_append, List.length_replicate, Nat.add_sub_cancel_left]
  rw [points_pushAll_new, List.rtake, surplus, List.drop_append, List.drop_replicate,
    List.length_replicate]

theorem capacity_pushAll (window : Window) (points : List TimePoint) :
    (window.pushAll points).capacity = window.capacity := by
  induction points generalizing window with
  | nil => rfl
  | cons point rest ih => exact ih (window.push point)

theorem length_pushAll_new (capacity : Nat) (points : List TimePoint) :
    ((new capacity).pushAll points).points.length = max capacity 1 := by
  rw [points_pushAll_new, List.length_append, List.length_replicate, List.length_drop]
  omega

theorem latest?_push (window : Window) (point : TimePoint) :
    (window.push point).latest? = some point := List.getLast?_concat

theorem latest?_pushAll_new (capacity : Nat) (points : List TimePoint) :
    ((new capacity).pushAll points).latest? = some (points.getLast?.getD .placeholder) := by
  rcases List.eq_nil_or_concat points with rfl | ⟨before, point, rfl⟩
  · have room : max capacity 1 ≠ 0 := by omega
    exact List.getLast?_replicate.trans (if_neg room)
  · rw [List.concat_eq_append, pushAll_append, List.getLast?_concat]
    exact latest?_push _ point

theorem bounds_eq (window : Window) :
    window.bounds =
      ((window.points.map TimePoint.value).foldl Binary64.min (.infinite false),
        (window.points.map TimePoint.value).foldl Binary64.max (.infinite true)) := by
  rw [bounds]
  generalize Binary64.infinite false = low
  generalize Binary64.infinite true = high
  induction window.points generalizing low high with
  | nil => rfl
  | cons point rest ih => exact ih (low.min point.value) (high.max point.value)

/-- What a window shows after some points were pushed onto a new one. -/
structure Shows (capacity : Nat) (pushed : List TimePoint) (window : Window) : Prop where
  capacity_eq : window.capacity = max capacity 1
  length_eq : window.points.length = max capacity 1
  points_eq : window.points =
    (List.replicate (max capacity 1) TimePoint.placeholder ++ pushed).rtake (max capacity 1)
  latest_eq : window.latest? = some (pushed.getLast?.getD .placeholder)
  recorded_eq : (∀ point ∈ pushed, point.timeMs ≠ 0) →
    window.recorded = pushed.rtake (min (max capacity 1) pushed.length)
  extremes : Binary64.Extremes (window.points.map TimePoint.value) window.bounds.1 window.bounds.2

/-- Whatever its capacity and however many points were pushed, a window shows the last ones. -/
theorem pushed_points_shown (capacity : Nat) (pushed : List TimePoint) :
    Shows capacity pushed ((new capacity).pushAll pushed) where
  capacity_eq := capacity_pushAll (new capacity) pushed
  length_eq := length_pushAll_new capacity pushed
  points_eq := points_pushAll_eq_rtake capacity pushed
  latest_eq := latest?_pushAll_new capacity pushed
  recorded_eq := by
    intro timed
    have positive : ∀ point ∈ pushed, 0 < point.timeMs := by
      intro point member
      exact Nat.pos_of_ne_zero (timed point member)
    have kept : pushed.length - min (max capacity 1) pushed.length =
        pushed.length - max capacity 1 := by omega
    rw [recorded_pushAll_new capacity positive, List.rtake, kept]
  extremes := by
    rw [bounds_eq]
    exact Binary64.extremes_foldl _

theorem pushed_points_shown_beyond_capacity :
    let pushed := [⟨1, .nan false⟩, ⟨2, .ofNat 3⟩, ⟨3, .ofInt (-1)⟩, ⟨4, .nan true⟩]
    let window := (new 3).pushAll pushed
    (∀ point ∈ pushed, point.timeMs ≠ 0) ∧ window.recorded = pushed.drop 1 ∧
      window.latest? = some ⟨4, .nan true⟩ ∧ window.bounds = (.ofInt (-1), .ofNat 3) := by
  intro pushed window
  have timed : ∀ point ∈ pushed, point.timeMs ≠ 0 := by decide
  have shown := pushed_points_shown 3 pushed
  exact ⟨timed, shown.recorded_eq timed, shown.latest_eq, by decide +kernel⟩

end Window

end ProxyMonitor
