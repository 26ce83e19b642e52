import ProxyMonitor.Proofs.Signs

/-! The order of numbers by their positions, and how it agrees with the order of all data. -/

namespace ProxyMonitor.Binary64

variable {x y : Binary64}

theorem same_iff : x.same y = true ↔
    ∃ place, x.position? = some place ∧ y.position? = some place := by
  rw [same]
  cases x.position? <;> cases y.position? <;> simp [eq_comm]

theorem lt_iff : x.lt y = true ↔
    ∃ a b, x.position? = some a ∧ y.position? = some b ∧ a < b := by
  rw [lt]
  cases x.position? <;> cases y.position? <;> simp

theorem le_iff : x.le y = true ↔
    ∃ a b, x.position? = some a ∧ y.position? = some b ∧ a ≤ b := by
  rw [le]
  cases x.position? <;> cases y.position? <;> simp

theorem exists_position (number : x.isNaN = false) : ∃ place, x.position? = some place := by
  cases x with
  | nan s => cases number
  | infinite s => exact ⟨_, rfl⟩
  | finite s rank => exact ⟨_, rfl⟩

theorem le_refl_of_number (number : x.isNaN = false) : x.le x = true := by
  obtain ⟨place, there⟩ := exists_position number
  exact le_iff.mpr ⟨place, place, there, there, Int.le_refl place⟩

theorem le_trans {z : Binary64} (first : x.le y = true) (second : y.le z = true) :
    x.le z = true := by
  obtain ⟨a, b, left, middle, below⟩ := le_iff.mp first
  obtain ⟨b', c, same, right, above⟩ := le_iff.mp second
  obtain rfl : b = b' := Option.some.inj (middle.symm.trans same)
  exact le_iff.mpr ⟨a, c, left, right, Int.le_trans below above⟩

theorem le_of_not_lt (left : x.isNaN = false) (right : y.isNaN = false)
    (notBelow : ¬ y.lt x = true) : x.le y = true := by
  obtain ⟨a, leftPlace⟩ := exists_position left
  obtain ⟨b, rightPlace⟩ := exists_position right
  rw [lt_of_positions rightPlace leftPlace, decide_eq_true_eq, Int.not_lt] at notBelow
  exact le_iff.mpr ⟨a, b, leftPlace, rightPlace, notBelow⟩

theorem le_of_lt (below : x.lt y = true) : x.le y = true := by
  obtain ⟨a, b, left, right, less⟩ := lt_iff.mp below
  exact le_iff.mpr ⟨a, b, left, right, Int.le_of_lt less⟩

theorem same_comm (x y : Binary64) : x.same y = y.same x := by
  rw [Bool.eq_iff_iff, same_iff, same_iff]
  exact exists_congr fun _ => and_comm

theorem eq_infinite_of_le (above : (infinite false).le x = true) : x = infinite false := by
  cases x with
  | nan s => cases above
  | infinite s =>
      cases s with
      | false => rfl
      | true =>
          have reach : (rankCount : Int) ≤ -(rankCount : Int) := of_decide_eq_true above
          exact absurd reach (by decide)
  | finite s rank =>
      have reach : (rankCount : Int) ≤ signed s rank := of_decide_eq_true above
      have below := (signed_bounds rank.isLt s).2
      omega

theorem eq_negative_infinite_of_le (below : x.le (infinite true) = true) : x = infinite true := by
  cases x with
  | nan s => cases below
  | infinite s =>
      cases s with
      | true => rfl
      | false =>
          have reach : (rankCount : Int) ≤ -(rankCount : Int) := of_decide_eq_true below
          exact absurd reach (by decide)
  | finite s rank =>
      have reach : signed s rank ≤ -(rankCount : Int) := of_decide_eq_true below
      have above := (signed_bounds rank.isLt s).1
      omega

theorem position_of_totalKey (number : x.isNaN = false) :
    x.position? = some (if 0 ≤ x.totalKey then x.totalKey else x.totalKey + 1) := by
  have signless (n : Nat) :
      some (n : Int) = some (if 0 ≤ (n : Int) then (n : Int) else (n : Int) + 1) := by
    rw [if_pos (Int.natCast_nonneg n)]
  have opposite (n : Nat) : some (-(n : Int)) =
      some (if 0 ≤ -(n : Int) - 1 then -(n : Int) - 1 else -(n : Int) - 1 + 1) := by
    rw [if_neg (by omega), Int.sub_add_cancel]
  cases x with
  | nan s => cases number
  | infinite s =>
      cases s with
      | false => exact signless rankCount
      | true => exact opposite rankCount
  | finite s rank =>
      cases s with
      | false => exact signless rank
      | true => exact opposite rank

theorem lt_of_totalKey_le (le : x.totalKey ≤ y.totalKey) (left : x.isNaN = false)
    (right : y.isNaN = false) (apart : x.same y = false) : x.lt y = true := by
  rw [same, position_of_totalKey left, position_of_totalKey right, decide_eq_false_iff_not] at apart
  rw [lt_of_positions (position_of_totalKey left) (position_of_totalKey right), decide_eq_true_eq]
  omega

structure Prefers (choose : Binary64 → Binary64 → Binary64) (before : Binary64 → Binary64 → Prop) :
    Prop where
  givesWay : ∀ {x y : Binary64}, x.isNaN = false → y.isNaN = true → choose x y = x
  chosen : ∀ {x y : Binary64}, x.isNaN = false → y.isNaN = false →
    choose x y = x ∧ before x y ∨ choose x y = y ∧ before y x
  refl : ∀ {x : Binary64}, x.isNaN = false → before x x
  trans : ∀ {x y z : Binary64}, before x y → before y z → before x z

theorem prefers_min : Prefers min fun x y => x.le y = true where
  givesWay := by
    intro x y left right
    rw [min, left, right]
    rfl
  chosen := by
    intro x y left right
    rw [min, left, right, if_neg Bool.false_ne_true, if_neg Bool.false_ne_true]
    by_cases less : y.lt x = true
    · rw [if_pos less]
      exact .inr ⟨rfl, le_of_lt less⟩
    · rw [if_neg less]
      exact .inl ⟨rfl, le_of_not_lt left right less⟩
  refl := le_refl_of_number
  trans := le_trans

theorem prefers_max : Prefers max fun x y => y.le x = true where
  givesWay := by
    intro x y left right
    rw [max, left, right]
    rfl
  chosen := by
    intro x y left right
    rw [max, left, right, if_neg Bool.false_ne_true, if_neg Bool.false_ne_true]
    by_cases less : x.lt y = true
    · rw [if_pos less]
      exact .inr ⟨rfl, le_of_lt less⟩
    · rw [if_neg less]
      exact .inl ⟨rfl, le_of_not_lt right left less⟩
  refl := le_refl_of_number
  trans := fun first second => le_trans second first

structure Foremost (before : Binary64 → Binary64 → Prop) (start : Binary64)
    (values : List Binary64) (first : Binary64) : Prop where
  number : first.isNaN = false
  source : first = start ∨ first ∈ values
  before_start : before first start
  before_all : ∀ x ∈ values, x.isNaN = false → before first x

theorem Prefers.foremost {choose : Binary64 → Binary64 → Binary64}
    {before : Binary64 → Binary64 → Prop} (prefers : Prefers choose before)
    (values : List Binary64) {start : Binary64} (number : start.isNaN = false) :
    Foremost before start values (values.foldl choose start) := by
  induction values generalizing start with
  | nil => exact ⟨number, .inl rfl, prefers.refl number, fun _ member => nomatch member⟩
  | cons value rest ih =>
      rw [List.foldl_cons]
      cases kind : value.isNaN with
      | true =>
          rw [prefers.givesWay number kind]
          have later := ih number
          refine ⟨later.number, later.source.imp id (List.mem_cons_of_mem _), later.before_start, ?_⟩
          intro x member isNumber
          rcases List.mem_cons.mp member with rfl | member
          · rw [kind] at isNumber
            cases isNumber
          · exact later.before_all x member isNumber
      | false =>
          -- The choice between the start and the value comes before both of them.
          have step : ∃ kept, choose start value = kept ∧ kept.isNaN = false ∧
              (kept = start ∨ kept = value) ∧ before kept start ∧ before kept value := by
            rcases prefers.chosen number kind with ⟨same, first⟩ | ⟨same, first⟩
            · exact ⟨start, same, number, .inl rfl, prefers.refl number, first⟩
            · exact ⟨value, same, kind, .inr rfl, first, prefers.refl kind⟩
          obtain ⟨kept, same, isNumber, source, below, alsoBelow⟩ := step
          rw [same]
          have later := ih isNumber
          refine ⟨later.number, ?_, prefers.trans later.before_start below, ?_⟩
          · rcases later.source with found | member
            · rw [found]
              rcases source with same | same
              · exact .inl same
              · exact .inr (same ▸ List.mem_cons_self)
            · exact .inr (List.mem_cons_of_mem _ member)
          · intro x member number
            rcases List.mem_cons.mp member with rfl | member
            · exact prefers.trans later.before_start alsoBelow
            · exact later.before_all x member number

/-- Where nothing comes after the start, the start is chosen only if it is one of the values or
there is no number among them. -/
theorem Foremost.mem {before : Binary64 → Binary64 → Prop} {start first : Binary64}
    {values : List Binary64} (foremost : Foremost before start values first)
    (last : ∀ x, before start x → x = start) {x : Binary64} (member : x ∈ values)
    (number : x.isNaN = false) : first ∈ values := by
  rcases foremost.source with rfl | inside
  · rw [← last x (foremost.before_all x member number)]
    exact member
  · exact inside

theorem Foremost.eq_start {before : Binary64 → Binary64 → Prop} {start first : Binary64}
    {values : List Binary64} (foremost : Foremost before start values first)
    (numberless : ∀ x ∈ values, x.isNaN = true) : first = start := by
  rcases foremost.source with same | inside
  · exact same
  · have number := foremost.number
    rw [numberless first inside] at number
    cases number

/-- The least and the greatest number among some values. Without a number among them these are the
infinities, the positive one as the least. -/
structure Extremes (values : List Binary64) (least greatest : Binary64) : Prop where
  least_mem : (∃ x ∈ values, x.isNaN = false) → least ∈ values
  least_le : ∀ x ∈ values, x.isNaN = false → least.le x = true
  greatest_mem : (∃ x ∈ values, x.isNaN = false) → greatest ∈ values
  le_greatest : ∀ x ∈ values, x.isNaN = false → x.le greatest = true
  none : (∀ x ∈ values, x.isNaN = true) → least = infinite false ∧ greatest = infinite true

theorem extremes_foldl (values : List Binary64) :
    Extremes values (values.foldl min (infinite false)) (values.foldl max (infinite true)) := by
  have least := prefers_min.foremost values (rfl : (infinite false).isNaN = false)
  have greatest := prefers_max.foremost values (rfl : (infinite true).isNaN = false)
  constructor
  · intro some
    obtain ⟨x, member, number⟩ := some
    exact least.mem (fun _ => eq_infinite_of_le) member number
  · exact least.before_all
  · intro some
    obtain ⟨x, member, number⟩ := some
    exact greatest.mem (fun _ => eq_negative_infinite_of_le) member number
  · exact greatest.before_all
  · intro numberless
    exact ⟨least.eq_start numberless, greatest.eq_start numberless⟩

end ProxyMonitor.Binary64
