import ProxyMonitor.Decimal.Reading
import ProxyMonitor.Exposition.Render
import ProxyMonitor.Proofs.Exposition.Grammar
import ProxyMonitor.Proofs.Rounding

namespace ProxyMonitor

namespace Decimal

theorem digitsValue_append (first second : List Char) :
    digitsValue (first ++ second) =
      10 ^ second.length * digitsValue first + digitsValue second := by
  rw [digitsValue, Nat.ofDigitChars_append, Nat.ofDigitChars_eq_ofDigitChars_zero, digitsValue,
    digitsValue]

theorem digitsValue_replicate_zero (count : Nat) : digitsValue (List.replicate count '0') = 0 := by
  rw [digitsValue, Nat.ofDigitChars_replicate_zero, Nat.mul_zero]

theorem digitsValue_toDigits (n : Nat) : digitsValue (Nat.toDigits 10 n) = n :=
  Nat.ofDigitChars_ten_toDigits

theorem all_isDigit_toDigits (n : Nat) : ∀ c ∈ Nat.toDigits 10 n, c.isDigit = true :=
  fun _ member => Nat.isDigit_of_mem_toDigits (by decide) (by decide) member

theorem toDigits_mul_power {n : Nat} (positive : 0 < n) (exponent : Nat) :
    Nat.toDigits 10 (n * 10 ^ exponent) = Nat.toDigits 10 n ++ List.replicate exponent '0' := by
  induction exponent with
  | zero => simp
  | succ exponent ih =>
      have shifted : n * 10 ^ (exponent + 1) = 10 * (n * 10 ^ exponent) + 0 := by ring
      have lead : 0 < n * 10 ^ exponent := by positivity
      rw [shifted, ← Nat.toDigits_append_toDigits (by decide) lead (by decide), ih,
        List.append_assoc, List.replicate_succ', Nat.toDigits_zero]

theorem read_whole {digits : List Char} (nonempty : digits ≠ [])
    (all : ∀ c ∈ digits, c.isDigit = true) : read? digits = some ⟨digitsValue digits, 0⟩ := by
  have taken : digits.takeWhile Char.isDigit = digits := List.takeWhile_eq_self_iff.mpr all
  have left : digits.dropWhile Char.isDigit = [] := List.dropWhile_eq_nil_iff.mpr all
  simp only [read?, taken, left, nonempty, false_and, if_false, readExponent?, Option.map_some,
    List.append_nil]
  rfl

theorem read_pointed {whole fraction : List Char} (nonempty : whole ≠ [])
    (allWhole : ∀ c ∈ whole, c.isDigit = true) (allFraction : ∀ c ∈ fraction, c.isDigit = true) :
    read? (whole ++ '.' :: fraction) =
      some ⟨digitsValue (whole ++ fraction), -(fraction.length : Int)⟩ := by
  have taken : (whole ++ '.' :: fraction).takeWhile Char.isDigit = whole := by
    rw [List.takeWhile_append_of_pos allWhole, List.takeWhile_cons_of_neg (by decide),
      List.append_nil]
  have left : (whole ++ '.' :: fraction).dropWhile Char.isDigit = '.' :: fraction := by
    rw [List.dropWhile_append_of_pos allWhole, List.dropWhile_cons_of_neg (by decide)]
  have takenFraction : fraction.takeWhile Char.isDigit = fraction :=
    List.takeWhile_eq_self_iff.mpr allFraction
  have leftFraction : fraction.dropWhile Char.isDigit = [] :=
    List.dropWhile_eq_nil_iff.mpr allFraction
  simp only [read?, taken, left, takenFraction, leftFraction, nonempty, false_and, if_false,
    readExponent?, Option.map_some, Int.zero_sub]

/-- A positional text: digits, and perhaps a point and digits. -/
structure Positional (text : List Char) (d : Decimal) : Prop where
  leads : ∃ c rest, text = c :: rest ∧ c.isDigit = true
  chars : ∀ c ∈ text, c.isDigit = true ∨ c = '.'
  reads : ∃ same, read? text = some same ∧
    ∀ negative, nearest negative same = nearest negative d

theorem leads_of_digits {digits : List Char} (rest : List Char) (nonempty : digits ≠ [])
    (all : ∀ c ∈ digits, c.isDigit = true) :
    ∃ c tail, digits ++ rest = c :: tail ∧ c.isDigit = true := by
  obtain ⟨c, tail, rfl⟩ := List.exists_cons_of_ne_nil nonempty
  exact ⟨c, tail ++ rest, rfl, all c List.mem_cons_self⟩

theorem positional_pointed (n : Nat) {places : Nat} (present : places ≠ 0) :
    Positional (pointed places (Nat.toDigits 10 n)) ⟨n, -(places : Int)⟩ := by
  have all := all_isDigit_toDigits n
  set digits := Nat.toDigits 10 n with digits_eq
  -- With zeros in front there is a digit left of the point.
  set padded := List.replicate (places + 1 - digits.length) '0' ++ digits with padded_eq
  have allPadded : ∀ c ∈ padded, c.isDigit = true := by
    intro c member
    rcases List.mem_append.mp member with member | member
    · rw [List.eq_of_mem_replicate member]
      decide
    · exact all c member
  have long : places < padded.length := by
    rw [padded_eq, List.length_append, List.length_replicate]
    omega
  have value : digitsValue padded = n := by
    rw [padded_eq, digitsValue_append, digitsValue_replicate_zero, Nat.mul_zero, Nat.zero_add,
      digits_eq, digitsValue_toDigits]
  have text : pointed places digits =
      padded.take (padded.length - places) ++ '.' :: padded.drop (padded.length - places) := by
    rw [pointed, if_neg present]
  have nonempty : padded.take (padded.length - places) ≠ [] := by
    intro empty
    have length := congrArg List.length empty
    rw [List.length_take, List.length_nil] at length
    omega
  have allWhole : ∀ c ∈ padded.take (padded.length - places), c.isDigit = true :=
    fun c member => allPadded c (List.mem_of_mem_take member)
  have allFraction : ∀ c ∈ padded.drop (padded.length - places), c.isDigit = true :=
    fun c member => allPadded c (List.mem_of_mem_drop member)
  have fractionLength : (padded.drop (padded.length - places)).length = places := by
    rw [List.length_drop]
    omega
  rw [text]
  refine ⟨leads_of_digits _ nonempty allWhole, ?_, ⟨n, -(places : Int)⟩, ?_, fun _ => rfl⟩
  · intro c member
    rcases List.mem_append.mp member with member | member
    · exact .inl (allWhole c member)
    · rcases List.mem_cons.mp member with rfl | member
      · exact .inr rfl
      · exact .inl (allFraction c member)
  · rw [read_pointed nonempty allWhole allFraction, List.take_append_drop, value, fractionLength]

theorem positional_of_digits {digits : List Char} {d : Decimal} (nonempty : digits ≠ [])
    (all : ∀ c ∈ digits, c.isDigit = true)
    (same : ∀ negative, nearest negative ⟨digitsValue digits, 0⟩ = nearest negative d) :
    Positional digits d := by
  refine ⟨?_, fun c member => .inl (all c member), _, read_whole nonempty all, same⟩
  simpa using leads_of_digits [] nonempty all

theorem nearest_mul_power {n : Nat} (positive : 0 < n) (exponent : Nat) (negative : Bool) :
    nearest negative ⟨n * 10 ^ exponent, 0⟩ = nearest negative ⟨n, exponent⟩ := by
  have length : ((0 : Int) + ((Nat.toDigits 10 (n * 10 ^ exponent)).length : Int)) =
      (exponent : Int) + ((Nat.toDigits 10 n).length : Int) := by
    rw [toDigits_mul_power positive, List.length_append, List.length_replicate]
    omega
  have nonzero : n * 10 ^ exponent ≠ 0 := by positivity
  have whole : ¬ ((exponent : Int) < 0) := by omega
  have same : n * 10 ^ exponent * Nat.pow 10 0 = n * Nat.pow 10 exponent := Nat.mul_one _
  simp only [nearest, length, nonzero, positive.ne', false_or, Int.lt_irrefl, if_false, whole,
    Int.natAbs_zero, Int.natAbs_natCast, powerOfTen, same]

theorem positional_correct (d : Decimal) : Positional d.positional d := by
  obtain ⟨n, exponent⟩ := d
  have all := all_isDigit_toDigits n
  have value := digitsValue_toDigits n
  rw [positional]
  split
  next negative =>
    have magnitude : -((exponent.natAbs : Nat) : Int) = exponent := by
      rw [Int.ofNat_natAbs_of_nonpos negative.le, Int.neg_neg]
    have text := positional_pointed n (Int.natAbs_ne_zero.mpr negative.ne)
    rwa [magnitude] at text
  next wide =>
    obtain ⟨exponent, rfl⟩ := Int.eq_ofNat_of_zero_le (Int.not_lt.mp wide)
    split
    next zero =>
      obtain rfl : n = 0 := zero
      refine positional_of_digits Nat.toDigits_ne_nil all fun sign => ?_
      rw [value, nearest, nearest, if_pos (.inl rfl), if_pos (.inl rfl)]
    next nonzero =>
      have positive : 0 < n := Nat.pos_of_ne_zero nonzero
      simp only [Int.natAbs_natCast]
      rw [← toDigits_mul_power positive]
      refine positional_of_digits Nat.toDigits_ne_nil (all_isDigit_toDigits _) fun sign => ?_
      rw [digitsValue_toDigits, nearest_mul_power positive]

end Decimal

namespace Binary64

theorem toList_toString_int (n : Int) :
    (toString n).toList = signText (decide (n < 0)) ++ Nat.toDigits 10 n.natAbs := by
  cases n with
  | ofNat n => exact String.toList_ofList
  | negSucc n =>
      have text : toString (Int.negSucc n) = "-" ++ String.ofList (Nat.toDigits 10 (n + 1)) := rfl
      rw [text, String.toList_append, decide_eq_true (Int.negSucc_lt_zero n)]
      exact congrArg (['-'] ++ ·) String.toList_ofList

theorem toLower_of_isDigit {c : Char} (digit : c.isDigit = true) : c.toLower = c := by
  have range := Exposition.isDigit_range digit
  refine dif_neg fun upper => ?_
  have bound : 65 ≤ c.val.toNat := UInt32.le_iff_toNat_le.mp upper.1
  omega

theorem splitSign_signText (negative : Bool) {c : Char} (digit : c.isDigit = true)
    (rest : List Char) :
    Decimal.splitSign (signText negative ++ c :: rest) = (negative, c :: rest) := by
  have minus : c ≠ '-' := by
    intro same
    subst same
    revert digit
    decide
  have plus : c ≠ '+' := by
    intro same
    subst same
    revert digit
    decide
  cases negative with
  | true => rfl
  | false => simp [signText, Decimal.splitSign, minus, plus]

theorem read_digits (negative : Bool) {text : List Char}
    (leads : ∃ c rest, text = c :: rest ∧ c.isDigit = true) :
    read? (signText negative ++ text) = (Decimal.read? text).map (Decimal.nearest negative) := by
  obtain ⟨c, rest, rfl, digit⟩ := leads
  have unlike : ∀ {word : List Char}, word.head?.any Char.isDigit = false →
      String.ofList ((c :: rest).map Char.toLower) ≠ String.ofList word := by
    intro word noDigit same
    have same := String.ofList_injective same
    rw [List.map_cons, toLower_of_isDigit digit] at same
    rw [← same] at noDigit
    simp [digit] at noDigit
  have inf := @unlike ['i', 'n', 'f'] rfl
  have infinity := @unlike ['i', 'n', 'f', 'i', 'n', 'i', 't', 'y'] rfl
  have nan := @unlike ['n', 'a', 'n'] rfl
  simp only [read?, splitSign_signText negative digit]
  rw [if_neg (not_or.mpr ⟨inf, infinity⟩), if_neg nan]

/-- The same number, NaN without its sign. -/
def canonical : Binary64 → Binary64
  | .nan _ => .nan false
  | x => x

theorem ofRank_val (negative : Bool) (rank : Fin rankCount) :
    ofRank negative rank.val = .finite negative rank := by
  rw [ofRank, dif_pos rank.isLt]

theorem exists_positional_text (negative : Bool) (rank : Fin rankCount) :
    ∃ digits d, (Binary64.finite negative rank).text = signText negative ++ digits ∧
      Decimal.Positional digits d ∧ Decimal.nearest negative d = .finite negative rank := by
  rw [text, ← ofRank_val]
  split
  next zero =>
    have digits := Decimal.positional_correct ⟨0, 0⟩
    refine ⟨['0'], ⟨0, 0⟩, rfl, digits, ?_⟩
    rw [Decimal.nearest, if_pos (.inl rfl), zero]
  next nonzero =>
    have positive : 0 < rank.val := Nat.pos_of_ne_zero nonzero
    exact ⟨_, _, rfl, Decimal.positional_correct _,
      Decimal.nearest_shortest .up positive rank.isLt negative⟩

theorem read_text (negative : Bool) (rank : Fin rankCount) :
    read? (Binary64.finite negative rank).text = some (.finite negative rank) := by
  obtain ⟨digits, d, split, positional, value⟩ := exists_positional_text negative rank
  obtain ⟨same, read, near⟩ := positional.reads
  rw [split, read_digits negative positional.leads, read, Option.map_some, near, value]

theorem isWord_signed (negative : Bool) {text : List Char} (nonempty : text ≠ [])
    (chars : ∀ c ∈ text, c.isDigit = true ∨ c = '.') : Text.IsWord (signText negative ++ text) := by
  refine ⟨List.append_ne_nil_of_right_ne_nil _ nonempty, fun c member => ?_⟩
  rcases List.mem_append.mp member with member | member
  · cases negative with
    | false => cases member
    | true =>
        obtain rfl : c = '-' := by simpa [signText] using member
        decide
  · rcases chars c member with digit | rfl
    · have inName := Exposition.isMetricChar_iff.mpr (.inr (.inl digit))
      exact Exposition.isBlank_of_isMetricChar inName
    · decide

theorem isWord_positional (negative : Bool) {text : List Char} {d : Decimal}
    (positional : Decimal.Positional text d) : Text.IsWord (signText negative ++ text) := by
  obtain ⟨c, rest, lead, -⟩ := positional.leads
  exact isWord_signed negative (lead ▸ List.cons_ne_nil c rest) positional.chars

theorem isWord_text (x : Binary64) : Text.IsWord x.text := by
  cases x with
  | finite negative rank =>
      obtain ⟨digits, d, split, positional, -⟩ := exists_positional_text negative rank
      rw [split]
      exact isWord_positional negative positional
  | infinite negative => cases negative <;> decide
  | nan negative => cases negative <;> decide

end Binary64

namespace Exposition

theorem read_renderValue (x : Binary64) : Binary64.read? (renderValue x) = some x.canonical := by
  cases x with
  | finite negative rank => exact Binary64.read_text negative rank
  | infinite negative => cases negative <;> decide +kernel
  | nan negative => cases negative <;> decide +kernel

theorem isWord_renderValue (x : Binary64) : Text.IsWord (renderValue x) := by
  cases x with
  | finite negative rank => exact Binary64.isWord_text (.finite negative rank)
  | infinite negative => cases negative <;> decide
  | nan negative => cases negative <;> decide

end Exposition

end ProxyMonitor
