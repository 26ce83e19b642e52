import ProxyMonitor.Json.Reader
import ProxyMonitor.Json.Writer
import ProxyMonitor.Proofs.NumberText

namespace ProxyMonitor

namespace Json

/-- A value ends here: with its container, before the next value, or with the text. -/
def Ended (rest : List Char) : Prop := ∀ c ∈ rest.head?, c = ',' ∨ c = ']' ∨ c = '\x7d'

namespace Ended

variable {rest : List Char}

theorem nil : Ended [] := by
  intro c first
  cases first

theorem cons {c : Char} (mark : c = ',' ∨ c = ']' ∨ c = '\x7d') (rest : List Char) :
    Ended (c :: rest) := by
  intro d first
  obtain rfl : c = d := Option.some.inj first
  exact mark

theorem takeWhile_isDigit (ended : Ended rest) : rest.takeWhile Char.isDigit = [] := by
  cases rest with
  | nil => rfl
  | cons c later => rcases ended c rfl with rfl | rfl | rfl <;> rfl

theorem dropWhile_isDigit (ended : Ended rest) : rest.dropWhile Char.isDigit = rest := by
  cases rest with
  | nil => rfl
  | cons c later => rcases ended c rfl with rfl | rfl | rfl <;> rfl

theorem readFraction? (ended : Ended rest) : Json.readFraction? rest = some (none, rest) := by
  cases rest with
  | nil => rfl
  | cons c later => rcases ended c rfl with rfl | rfl | rfl <;> rfl

theorem readPower? (ended : Ended rest) : Json.readPower? rest = some (none, rest) := by
  cases rest with
  | nil => rfl
  | cons c later => rcases ended c rfl with rfl | rfl | rfl <;> rfl

end Ended

theorem head?_toDigits {n : Nat} (positive : 0 < n) : (Nat.toDigits 10 n).head? ≠ some '0' := by
  induction n using Nat.strongRecOn with
  | ind n ih =>
      rw [Nat.toDigits_eq_if (by decide)]
      split
      next small =>
        have digits : ∀ d < 10, 0 < d → [Nat.digitChar d].head? ≠ some '0' := by decide
        exact digits n small positive
      next large =>
        have lead : 0 < n / 10 := Nat.div_pos (Nat.le_of_not_lt large) (by decide)
        have shorter : n / 10 < n := Nat.div_lt_self positive (by decide)
        obtain ⟨c, rest, digits⟩ := List.exists_cons_of_ne_nil (@Nat.toDigits_ne_nil (n / 10) 10)
        have earlier := ih (n / 10) shorter lead
        rw [digits] at earlier ⊢
        exact earlier

theorem length_toDigits_of_zero {n : Nat} (zero : (Nat.toDigits 10 n).head? = some '0') :
    (Nat.toDigits 10 n).length = 1 := by
  rcases Nat.eq_zero_or_pos n with rfl | positive
  · rfl
  · exact absurd zero (head?_toDigits positive)

def readUnsigned? (negative : Bool) (cs : List Char) : Option (NumberText × List Char) := do
  let whole := cs.takeWhile Char.isDigit
  if whole = [] ∨ (whole.head? = some '0' ∧ whole.length ≠ 1) then none
  else
    let (fraction, cs) ← readFraction? (cs.dropWhile Char.isDigit)
    let (exponent, cs) ← readPower? cs
    return (⟨negative, whole, fraction, exponent⟩, cs)

theorem readNumberText?_unsigned {c : Char} (minus : c ≠ '-') (cs : List Char) :
    readNumberText? (c :: cs) = readUnsigned? false (c :: cs) := by
  simp only [readNumberText?]
  split
  next same => exact absurd (List.cons.inj same).1 minus
  next => rfl

theorem exists_readUnsigned? (cs : List Char) :
    ∃ negative after, readNumberText? cs = readUnsigned? negative after := by
  rcases cs with _ | ⟨c, rest⟩
  · exact ⟨false, [], rfl⟩
  · by_cases minus : c = '-'
    · subst minus
      exact ⟨true, rest, rfl⟩
    · exact ⟨false, c :: rest, readNumberText?_unsigned minus rest⟩

theorem readNumberText?_signText (negative : Bool) {c : Char} (digit : c.isDigit = true)
    (cs : List Char) :
    readNumberText? (Binary64.signText negative ++ c :: cs) = readUnsigned? negative (c :: cs) := by
  cases negative with
  | true => rfl
  | false =>
      apply readNumberText?_unsigned
      rintro rfl
      cases digit

theorem readUnsigned?_integer (negative : Bool) (n : Nat) {rest : List Char}
    (ended : Ended rest) :
    readUnsigned? negative (Nat.toDigits 10 n ++ rest) =
      some (⟨negative, Nat.toDigits 10 n, none, none⟩, rest) := by
  have all := Decimal.all_isDigit_toDigits n
  have whole : (Nat.toDigits 10 n ++ rest).takeWhile Char.isDigit = Nat.toDigits 10 n := by
    rw [List.takeWhile_append_of_pos all, ended.takeWhile_isDigit, List.append_nil]
  have left : (Nat.toDigits 10 n ++ rest).dropWhile Char.isDigit = rest := by
    rw [List.dropWhile_append_of_pos all, ended.dropWhile_isDigit]
  have led : ¬ (Nat.toDigits 10 n = [] ∨
      (Nat.toDigits 10 n).head? = some '0' ∧ (Nat.toDigits 10 n).length ≠ 1) := by
    rintro (empty | ⟨zero, long⟩)
    · exact Nat.toDigits_ne_nil empty
    · exact long (length_toDigits_of_zero zero)
  simp only [readUnsigned?, whole, left, if_neg led, ended.readFraction?]
  change (Json.readPower? rest).bind _ = _
  rw [ended.readPower?]
  rfl

theorem readNumberText?_integer (negative : Bool) (n : Nat) {rest : List Char}
    (ended : Ended rest) :
    readNumberText? (Binary64.signText negative ++ Nat.toDigits 10 n ++ rest) =
      some (⟨negative, Nat.toDigits 10 n, none, none⟩, rest) := by
  obtain ⟨c, later, digits⟩ := List.exists_cons_of_ne_nil (@Nat.toDigits_ne_nil n 10)
  have digit : c.isDigit = true :=
    Decimal.all_isDigit_toDigits n c (digits ▸ List.mem_cons_self)
  have read := readUnsigned?_integer negative n ended
  rw [digits] at read ⊢
  rw [List.append_assoc, List.cons_append, readNumberText?_signText negative digit]
  exact read

theorem readNumberText?_negativeZero {rest : List Char} (ended : Ended rest) :
    readNumberText? ("-0.0".toList ++ rest) = some (⟨true, ['0'], some ['0'], none⟩, rest) := by
  have taken : ('0' :: rest).takeWhile Char.isDigit = ['0'] := by
    rw [List.takeWhile_cons_of_pos (by decide), ended.takeWhile_isDigit]
  have left : ('0' :: rest).dropWhile Char.isDigit = rest := by
    rw [List.dropWhile_cons_of_pos (by decide), ended.dropWhile_isDigit]
  have fraction : Json.readFraction? ('.' :: '0' :: rest) = some (some ['0'], rest) := by
    simp only [Json.readFraction?, taken, left, List.cons_ne_nil, if_false]
  have whole : ('0' :: '.' :: '0' :: rest).takeWhile Char.isDigit = ['0'] := rfl
  have after : ('0' :: '.' :: '0' :: rest).dropWhile Char.isDigit = '.' :: '0' :: rest := rfl
  have led : ¬ (['0'] = [] ∨ ['0'].head? = some '0' ∧ ['0'].length ≠ 1) := by decide
  change readNumberText? (Binary64.signText true ++ '0' :: '.' :: '0' :: rest) = _
  rw [readNumberText?_signText true (by decide)]
  simp only [readUnsigned?, whole, after, if_neg led, fraction]
  change (Json.readPower? rest).bind _ = _
  rw [ended.readPower?]
  rfl

theorem value?_natural {n : Nat} (fits : n ≤ Word.greatest) :
    NumberText.value? ⟨false, Nat.toDigits 10 n, none, none⟩ = some (.integer n) := by
  have value := Decimal.digitsValue_toDigits n
  simp only [NumberText.value?, value, fits, Bool.not_false, and_self, if_true]

theorem value?_negative {n : Nat} (nonzero : n ≠ 0) (fits : n ≤ Word.half) :
    NumberText.value? ⟨true, Nat.toDigits 10 n, none, none⟩ = some (.integer (-(n : Int))) := by
  have value := Decimal.digitsValue_toDigits n
  simp only [NumberText.value?, value, fits, nonzero, Bool.not_true, Bool.false_eq_true, ne_eq,
    not_false_eq_true, and_self, and_false, false_and, if_true, if_false]

theorem value?_negativeZero :
    NumberText.value? ⟨true, ['0'], none, none⟩ = some (.double .negativeZero) := by
  decide +kernel

theorem whole_of_readUnsigned? {negative : Bool} {cs rest : List Char} {text : NumberText}
    (read : readUnsigned? negative cs = some (text, rest)) :
    text.whole ≠ [] ∧ (∀ c ∈ text.whole, c.isDigit = true) ∧
      (text.whole.head? = some '0' → text.whole.length = 1) := by
  rw [readUnsigned?] at read
  dsimp only at read
  split at read
  next => cases read
  next led =>
    obtain ⟨⟨fraction, after⟩, -, read⟩ := Option.bind_eq_some_iff.mp read
    obtain ⟨⟨exponent, last⟩, -, same⟩ := Option.bind_eq_some_iff.mp read
    cases same
    obtain ⟨filled, alone⟩ := not_or.mp led
    refine ⟨filled, fun c inside => List.mem_takeWhile_imp inside, fun zero => ?_⟩
    by_contra long
    exact alone ⟨zero, long⟩

theorem eq_zero_of_digitsValue {whole : List Char} (filled : whole ≠ [])
    (digits : ∀ c ∈ whole, c.isDigit = true)
    (alone : whole.head? = some '0' → whole.length = 1) (zero : Decimal.digitsValue whole = 0) :
    whole = ['0'] := by
  obtain ⟨c, rest, rfl⟩ := List.exists_cons_of_ne_nil filled
  have split : Decimal.digitsValue (c :: rest) =
      10 ^ rest.length * Decimal.digitsValue [c] + Decimal.digitsValue rest :=
    Decimal.digitsValue_append [c] rest
  have nothing : Decimal.digitsValue [c] = 0 := by
    have product : 10 ^ rest.length * Decimal.digitsValue [c] = 0 := by omega
    exact (Nat.mul_eq_zero.mp product).resolve_left (by positivity)
  have lead : c = '0' := by
    have range := Exposition.isDigit_range (digits c List.mem_cons_self)
    have value : Decimal.digitsValue [c] = c.toNat - 48 := by
      simp [Decimal.digitsValue, Nat.ofDigitChars]
    apply Char.toNat_inj.mp
    change c.toNat = 48
    change 48 ≤ c.toNat ∧ c.toNat ≤ 57 at range
    omega
  subst lead
  have single := alone rfl
  rw [List.length_cons, Nat.add_eq_right, List.length_eq_zero_iff] at single
  rw [single]

end Json

namespace JsonNumber

open Json

/-- Some text of an integer that fits 64 bits, with or without a sign, stands for the number. -/
def IsInteger (number : JsonNumber) : Prop :=
  ∃ cs text rest, readNumberText? cs = some (text, rest) ∧ text.fraction = none ∧
    text.exponent = none ∧
    Decimal.digitsValue text.whole ≤ (if text.negative then Word.half else Word.greatest) ∧
    text.value? = some number

/-- Where a value ends, the text of the number is read as the number. -/
def ReadsBack (number : JsonNumber) : Prop :=
  ∃ text : NumberText, text.value? = some number ∧ ∀ rest, Ended rest →
    readNumberText? ((numberText number).toList ++ rest) = some (text, rest)

theorem readsBack_natural {n : Nat} (fits : n ≤ Word.greatest) :
    (JsonNumber.integer n).ReadsBack := by
  refine ⟨⟨false, Nat.toDigits 10 n, none, none⟩, value?_natural fits, fun rest ended => ?_⟩
  have read := readNumberText?_integer false n ended
  rwa [numberText, Binary64.toList_toString_int, decide_eq_false (Int.not_lt.mpr n.cast_nonneg)]

theorem readsBack_negative {n : Nat} (nonzero : n ≠ 0) (fits : n ≤ Word.half) :
    (JsonNumber.integer (-(n : Int))).ReadsBack := by
  refine ⟨⟨true, Nat.toDigits 10 n, none, none⟩, value?_negative nonzero fits,
    fun rest ended => ?_⟩
  have below : -(n : Int) < 0 := by omega
  have read := readNumberText?_integer true n ended
  rwa [numberText, Binary64.toList_toString_int, decide_eq_true below, Int.natAbs_neg,
    Int.natAbs_natCast]

theorem readsBack_negativeZero : (JsonNumber.double .negativeZero).ReadsBack :=
  ⟨⟨true, ['0'], some ['0'], none⟩, by decide +kernel,
    fun _ ended => readNumberText?_negativeZero ended⟩

theorem IsInteger.readsBack {number : JsonNumber} (integer : number.IsInteger) :
    number.ReadsBack := by
  obtain ⟨cs, text, rest, read, plain, plainToo, fits, value⟩ := integer
  obtain ⟨sign, after, same⟩ := exists_readUnsigned? cs
  obtain ⟨filled, digits, alone⟩ := whole_of_readUnsigned? (same.symm.trans read)
  obtain ⟨negative, whole, fraction, exponent⟩ := text
  obtain rfl : fraction = none := plain
  obtain rfl : exponent = none := plainToo
  cases negative with
  | false =>
      rw [NumberText.value?, if_pos ⟨rfl, rfl, rfl, fits⟩] at value
      cases value
      exact readsBack_natural fits
  | true =>
      by_cases zero : Decimal.digitsValue whole = 0
      · obtain rfl : whole = ['0'] := eq_zero_of_digitsValue filled digits alone zero
        rw [value?_negativeZero] at value
        cases value
        exact readsBack_negativeZero
      · rw [NumberText.value?, if_neg (by simp), if_pos ⟨rfl, rfl, rfl, zero, fits⟩] at value
        cases value
        exact readsBack_negative zero fits

end JsonNumber

end ProxyMonitor
