import ProxyMonitor.Exposition.Line
import ProxyMonitor.Proofs.Text

/-! The grammar of sample lines, written apart from the readers. -/

namespace ProxyMonitor.Exposition

open Text (Blanks IsWord)

/-- The names `[A-Za-z_:][A-Za-z0-9_:]*`. -/
inductive MetricName : List Char → Prop where
  | mk {c : Char} {rest : List Char} (first : c.isAlpha ∨ c = '_' ∨ c = ':')
      (later : ∀ d ∈ rest, d.isAlpha ∨ d.isDigit ∨ d = '_' ∨ d = ':') : MetricName (c :: rest)

/-- The names `[A-Za-z_][A-Za-z0-9_]*`. -/
inductive LabelName : List Char → Prop where
  | mk {c : Char} {rest : List Char} (first : c.isAlpha ∨ c = '_')
      (later : ∀ d ∈ rest, d.isAlpha ∨ d.isDigit ∨ d = '_') : LabelName (c :: rest)

/-- What a backslash and the character after it stand for. -/
def escapeMeaning (c : Char) : List Char :=
  if c = 'n' then ['\n'] else if c = '\\' then ['\\'] else if c = '"' then ['"'] else ['\\', c]

/-- The inside of quotes as written, and what it decodes to. -/
inductive QuotedText : List Char → List Char → Prop where
  | nil : QuotedText [] []
  | plain {c : Char} {written decoded : List Char} (noQuote : c ≠ '"') (noEscape : c ≠ '\\')
      (rest : QuotedText written decoded) : QuotedText (c :: written) (c :: decoded)
  | escape {c : Char} {written decoded : List Char} (rest : QuotedText written decoded) :
      QuotedText ('\\' :: c :: written) (escapeMeaning c ++ decoded)

inductive PairText : List Char → String × String → Prop where
  | mk {label before after written decoded : List Char} (name : LabelName label)
      (blanksBefore : Blanks before) (blanksAfter : Blanks after)
      (quoted : QuotedText written decoded) :
      PairText (label ++ before ++ '=' :: after ++ '"' :: written ++ ['"'])
        (String.ofList label, String.ofList decoded)

/-- Pairs with commas between them; one comma may follow the last. -/
inductive PairsText : List Char → List (String × String) → Prop where
  | nil : PairsText [] []
  | last {text after : List Char} {pair : String × String} (first : PairText text pair)
      (blanks : Blanks after) : PairsText (text ++ after) [pair]
  | cons {text before after rest : List Char} {pair : String × String}
      {pairs : List (String × String)} (first : PairText text pair)
      (blanksBefore : Blanks before) (blanksAfter : Blanks after) (later : PairsText rest pairs) :
      PairsText (text ++ before ++ ',' :: after ++ rest) (pair :: pairs)

inductive BodyText : List Char → List (String × String) → Prop where
  | mk {blanks rest : List Char} {pairs : List (String × String)} (leading : Blanks blanks)
      (inside : PairsText rest pairs) : BodyText (blanks ++ rest) pairs

/-- The four special words and whatever else reads as a number. -/
inductive ValueText : List Char → Binary64 → Prop where
  | notANumber : ValueText ['N', 'a', 'N'] (.nan false)
  | infinite : ValueText ['I', 'n', 'f'] (.infinite false)
  | plusInfinite : ValueText ['+', 'I', 'n', 'f'] (.infinite false)
  | minusInfinite : ValueText ['-', 'I', 'n', 'f'] (.infinite true)
  | number {token : List Char} {value : Binary64} (read : Binary64.read? token = some value) :
      ValueText token value

/-- One value token, and perhaps a time stamp after it. -/
inductive TailText : List Char → Binary64 → Prop where
  | bare {before token after : List Char} {value : Binary64} (blanksBefore : Blanks before)
      (word : IsWord token) (denotes : ValueText token value) (blanksAfter : Blanks after) :
      TailText (before ++ token ++ after) value
  | stamped {before token between time after : List Char} {value : Binary64}
      (blanksBefore : Blanks before) (word : IsWord token) (denotes : ValueText token value)
      (blanksBetween : Blanks between) (apart : between ≠ []) (timeWord : IsWord time)
      (integer : (readInteger? time).isSome) (blanksAfter : Blanks after) :
      TailText (before ++ token ++ between ++ time ++ after) value

/-- A whole sample line and the sample that it states. -/
inductive LineText : List Char → SampleLine → Prop where
  | bare {name tail : List Char} {value : Binary64} (isName : MetricName name)
      (apart : ∃ c ∈ tail.head?, Text.isBlank c = true) (ending : TailText tail value) :
      LineText (name ++ tail) ⟨String.ofList name, .empty, value⟩
  | labelled {name body tail : List Char} {pairs : List (String × String)} {labels : Labels}
      {value : Binary64} (isName : MetricName name) (inside : BodyText body pairs)
      (distinct : (pairs.map Prod.fst).Nodup) (entries : labels.pairs.Perm pairs)
      (ending : TailText tail value) :
      LineText (name ++ '{' :: body ++ '}' :: tail) ⟨String.ofList name, labels, value⟩

theorem isAlpha_range {c : Char} (letter : c.isAlpha = true) :
    65 ≤ c.val.toNat ∧ c.val.toNat ≤ 90 ∨ 97 ≤ c.val.toNat ∧ c.val.toNat ≤ 122 := by
  change (decide (65 ≤ c.val ∧ c.val ≤ 90) ||
    decide (97 ≤ c.val) && decide (c.val ≤ 122)) = true at letter
  simpa [UInt32.le_iff_toNat_le] using letter

theorem isDigit_range {c : Char} (digit : c.isDigit = true) :
    48 ≤ c.val.toNat ∧ c.val.toNat ≤ 57 := by
  change (decide (48 ≤ c.val) && decide (c.val ≤ 57)) = true at digit
  simpa [UInt32.le_iff_toNat_le] using digit

theorem isDigit_of_isAlpha {c : Char} (letter : c.isAlpha = true) : c.isDigit = false := by
  rw [Bool.eq_false_iff]
  intro digit
  have low := isDigit_range digit
  have high := isAlpha_range letter
  omega

theorem isMetricChar_iff {c : Char} :
    isMetricChar c = true ↔ c.isAlpha ∨ c.isDigit ∨ c = '_' ∨ c = ':' := by
  simp [isMetricChar, Char.isAlphanum, or_assoc]

theorem isLabelChar_iff {c : Char} :
    isLabelChar c = true ↔ c.isAlpha ∨ c.isDigit ∨ c = '_' := by
  simp [isLabelChar, Char.isAlphanum, or_assoc]

theorem isMetricName_iff {name : List Char} : isMetricName name = true ↔ MetricName name := by
  constructor
  · intro h
    cases name with
    | nil => cases h
    | cons c rest =>
        simp only [isMetricName, Bool.and_eq_true, Bool.not_eq_true', List.all_eq_true,
          isMetricChar_iff] at h
        obtain ⟨⟨first, noDigit⟩, later⟩ := h
        refine .mk ?_ later
        simpa [noDigit] using first
  · intro given
    rcases given with ⟨first, later⟩
    simp only [isMetricName, Bool.and_eq_true, Bool.not_eq_true', List.all_eq_true,
      isMetricChar_iff]
    refine ⟨?_, later⟩
    rcases first with letter | rfl | rfl
    · exact ⟨.inl letter, isDigit_of_isAlpha letter⟩
    · decide
    · decide

instance (name : List Char) : Decidable (MetricName name) := decidable_of_iff _ isMetricName_iff

theorem MetricName.all_isMetricChar {name : List Char} (h : MetricName name) :
    ∀ c ∈ name, isMetricChar c = true := by
  have held := isMetricName_iff.mpr h
  cases h with
  | mk first later =>
      simp only [isMetricName, Bool.and_eq_true, List.all_eq_true] at held
      intro d member
      rcases List.mem_cons.mp member with rfl | member
      · exact held.1.1
      · exact held.2 d member

theorem MetricName.append {name suffix : List Char} (h : MetricName name)
    (inside : suffix.all isMetricChar = true) : MetricName (name ++ suffix) := by
  cases h with
  | mk first later =>
      refine .mk first fun d member => ?_
      rcases List.mem_append.mp member with member | member
      · exact later d member
      · exact isMetricChar_iff.mp (List.all_eq_true.mp inside d member)

theorem labelName_iff {name : List Char} :
    LabelName name ↔
      name ≠ [] ∧ name.head?.any Char.isDigit = false ∧ ∀ c ∈ name, isLabelChar c = true := by
  constructor
  · intro given
    rcases given with ⟨first, later⟩
    refine ⟨by simp, ?_, ?_⟩
    · rcases first with letter | rfl
      · simpa using isDigit_of_isAlpha letter
      · rfl
    · intro d member
      rw [isLabelChar_iff]
      rcases List.mem_cons.mp member with rfl | member
      · exact first.imp id .inr
      · exact later d member
  · intro given
    rcases given with ⟨nonempty, noDigit, inside⟩
    cases name with
    | nil => exact absurd rfl nonempty
    | cons c rest =>
        have first := isLabelChar_iff.mp (inside c List.mem_cons_self)
        have noDigit : c.isDigit = false := by simpa using noDigit
        refine .mk (by simpa [noDigit] using first) fun d member => ?_
        exact isLabelChar_iff.mp (inside d (List.mem_cons_of_mem _ member))

instance (name : List Char) : Decidable (LabelName name) :=
  decidable_of_iff (name ≠ [] ∧ name.head?.any Char.isDigit = false ∧ name.all isLabelChar = true)
    (by rw [labelName_iff, List.all_eq_true])

theorem isLabelChar_isMetricChar {c : Char} (h : isLabelChar c = true) : isMetricChar c = true := by
  rw [isLabelChar_iff] at h
  rw [isMetricChar_iff]
  exact h.imp id (Or.imp id .inl)

theorem isMetricChar_of_isBlank {c : Char} (blank : Text.isBlank c = true) :
    isMetricChar c = false := by
  rw [Bool.eq_false_iff]
  intro inName
  rw [isMetricChar_iff] at inName
  rcases inName with letter | digit | rfl | rfl
  · have inside := isAlpha_range letter
    have outside := Text.isBlank_range blank
    omega
  · have inside := isDigit_range digit
    have outside := Text.isBlank_range blank
    omega
  · revert blank
    decide
  · revert blank
    decide

theorem isBlank_of_isMetricChar {c : Char} (inName : isMetricChar c = true) :
    Text.isBlank c = false := by
  rw [Bool.eq_false_iff]
  intro blank
  rw [isMetricChar_of_isBlank blank] at inName
  cases inName

theorem MetricName.isWord {name : List Char} (h : MetricName name) : IsWord name := by
  refine ⟨?_, fun c member => isBlank_of_isMetricChar (h.all_isMetricChar c member)⟩
  cases h
  exact List.cons_ne_nil _ _

theorem LabelName.isWord {name : List Char} (h : LabelName name) : IsWord name := by
  obtain ⟨nonempty, -, inside⟩ := labelName_iff.mp h
  exact ⟨nonempty, fun c member =>
    isBlank_of_isMetricChar (isLabelChar_isMetricChar (inside c member))⟩

end ProxyMonitor.Exposition
