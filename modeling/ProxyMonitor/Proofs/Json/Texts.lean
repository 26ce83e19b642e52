import ProxyMonitor.Json.Reader
import ProxyMonitor.Json.Writer

namespace ProxyMonitor.Json

/-- A unit stands for a character: itself, or the word of a control character. -/
def TextUnit.Means (unit : TextUnit) (c : Char) : Prop :=
  unit = .plain c ∨ unit = .word c.toNat ∧ c.toNat < 32

theorem hexValue?_hexDigit : ∀ n < 16, hexValue? (hexDigit n) = some n := by decide

theorem hexWord?_control {n : Nat} (small : n < 32) :
    hexWord? ['0', '0', hexDigit (n / 16), hexDigit (n % 16)] = some n := by
  have high : hexValue? (hexDigit (n / 16)) = some (n / 16) := hexValue?_hexDigit _ (by omega)
  have low : hexValue? (hexDigit (n % 16)) = some (n % 16) := hexValue?_hexDigit _ (by omega)
  have zero : hexValue? '0' = some 0 := rfl
  simp [hexWord?, List.mapM_cons, high, low, zero, Nat.div_add_mod]

theorem readUnits_plain {c : Char} (quote : c ≠ '"') (backslash : c ≠ '\\') (large : 32 ≤ c.toNat)
    (rest : List Char) :
    readUnits (c :: rest) = (readUnits rest).map (Prod.map (.plain c :: ·) id) := by
  rw [readUnits.eq_def]
  split
  · next none => cases none
  · next same => exact absurd (List.cons.inj same).1 quote
  · next same => exact absurd (List.cons.inj same).1 backslash
  · next same => exact absurd (List.cons.inj same).1 backslash
  · next same =>
      obtain ⟨rfl, rfl⟩ := List.cons.inj same
      exact if_neg (Nat.not_lt.mpr large)

theorem readUnits_escapeChar (c : Char) : ∃ unit, TextUnit.Means unit c ∧ ∀ rest,
    readUnits ((escapeChar c).toList ++ rest) =
      (readUnits rest).map (Prod.map (unit :: ·) id) := by
  by_cases named : c ∈ ['"', '\\', '\x08', '\x0c', '\n', '\r', '\t']
  · refine ⟨.plain c, .inl rfl, fun rest => ?_⟩
    simp only [List.mem_cons, List.not_mem_nil, or_false] at named
    rcases named with rfl | rfl | rfl | rfl | rfl | rfl | rfl <;> rfl
  · simp only [List.mem_cons, List.not_mem_nil, or_false, not_or] at named
    obtain ⟨quote, backslash, backspace, feed, newline, carriage, tab⟩ := named
    have escape : escapeChar c = if c.toNat < 32 then
        "\\u00" ++ String.ofList [hexDigit (c.toNat / 16), hexDigit (c.toNat % 16)]
        else String.singleton c := by
      simp only [escapeChar, quote, backslash, backspace, feed, newline, carriage, tab, if_false]
    by_cases control : c.toNat < 32
    · refine ⟨.word c.toNat, .inr ⟨rfl, control⟩, fun rest => ?_⟩
      rw [escape, if_pos control, String.toList_append, @String.toList_ofList [_, _]]
      change readUnits ('\\' :: 'u' :: '0' :: '0' :: hexDigit (c.toNat / 16) ::
        hexDigit (c.toNat % 16) :: rest) = _
      rw [readUnits, hexWord?_control control]
    · refine ⟨.plain c, .inl rfl, fun rest => ?_⟩
      rw [escape, if_neg control, String.toList_singleton]
      exact readUnits_plain quote backslash (Nat.le_of_not_lt control) rest

theorem joinUnits?_means {unit : TextUnit} {c : Char} (means : unit.Means c)
    (rest : List TextUnit) : joinUnits? (unit :: rest) = (joinUnits? rest).map (c :: ·) := by
  rcases means with rfl | ⟨rfl, control⟩
  · rfl
  · have itself : Char.ofNat c.toNat = c := Char.ofNat_toNat c
    have noHigh : ¬ (0xD800 ≤ c.toNat ∧ c.toNat < 0xDC00) := by omega
    have noLow : ¬ (0xDC00 ≤ c.toNat ∧ c.toNat < 0xE000) := by omega
    have noHalf : ¬ (0xD800 ≤ c.toNat ∧ c.toNat < 0xE000) := by omega
    rcases rest with _ | ⟨next, rest⟩
    · simp [joinUnits?, noHalf, itself]
    · cases next with
      | plain d => simp [joinUnits?, noHalf, itself]
      | word low => rw [joinUnits?, if_neg noHigh, if_neg noLow, itself]

def escaped (cs : List Char) : List Char := cs.flatMap fun c => (escapeChar c).toList

theorem toList_quote (text : String) :
    (quote text).toList = '"' :: (escaped text.toList ++ ['"']) := by
  have folded (cs : List Char) (out : String) :
      (cs.foldl (fun out c => out ++ escapeChar c) out).toList = out.toList ++ escaped cs := by
    induction cs generalizing out with
    | nil => simp [escaped]
    | cons c rest ih => simp [ih, escaped]
  rw [quote, String.toList_append, String.toList_append, folded]
  rfl

theorem readUnits_escaped (cs rest : List Char) :
    ∃ units, joinUnits? units = some cs ∧
      readUnits (escaped cs ++ '"' :: rest) = some (units, rest) := by
  induction cs with
  | nil => exact ⟨[], rfl, rfl⟩
  | cons c later ih =>
      obtain ⟨units, joined, read⟩ := ih
      obtain ⟨unit, means, first⟩ := readUnits_escapeChar c
      refine ⟨unit :: units, ?_, ?_⟩
      · rw [joinUnits?_means means, joined]
        rfl
      · rw [escaped, List.flatMap_cons, List.append_assoc, first, ← escaped, read]
        rfl

theorem readString?_escaped (text : String) (rest : List Char) :
    readString? (escaped text.toList ++ '"' :: rest) = some (some text, rest) := by
  obtain ⟨units, joined, read⟩ := readUnits_escaped text.toList rest
  rw [readString?, read, Option.map_some, Prod.map_apply, joined, Option.map_some,
    String.ofList_toList]
  rfl

end ProxyMonitor.Json
