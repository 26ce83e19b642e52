import ProxyMonitor.Proofs.NumberText
import ProxyMonitor.Proofs.Settings.Layers

/-! What becomes of a text setting on its way through the environment. -/

namespace ProxyMonitor

def InNumber (c : Char) : Prop := c.isAlphanum = true ∨ c = '+' ∨ c = '-' ∨ c = '.'

instance (c : Char) : Decidable (InNumber c) := inferInstanceAs (Decidable (_ ∨ _))

theorem InNumber.digit {c : Char} (digit : c.isDigit = true) : InNumber c :=
  .inl (by simp [Char.isAlphanum, digit])

theorem InNumber.of_toLower {c : Char} (lower : c.toLower.isAlphanum = true) : InNumber c := by
  by_cases upper : 'A'.val ≤ c.val ∧ c.val ≤ 'Z'.val
  · have letter : c.isUpper = true := decide_eq_true upper
    refine .inl ?_
    change (c.isUpper || c.isLower || c.isDigit) = true
    rw [letter, Bool.true_or, Bool.true_or]
  · have same : c.toLower = c := dif_neg upper
    exact .inl (same ▸ lower)

theorem InNumber.of_word {text word : List Char} (same : text.map Char.toLower = word)
    (letters : word.all Char.isAlphanum = true) : ∀ c ∈ text, InNumber c := by
  intro c member
  exact .of_toLower (List.all_eq_true.mp letters _ (same ▸ List.mem_map_of_mem member))

theorem InNumber.of_splitSign {text : List Char}
    (rest : ∀ c ∈ (Decimal.splitSign text).2, InNumber c) : ∀ c ∈ text, InNumber c := by
  unfold Decimal.splitSign at rest
  split at rest
  · exact List.forall_mem_cons.mpr ⟨.inr (.inr (.inl rfl)), rest⟩
  · exact List.forall_mem_cons.mpr ⟨.inr (.inl rfl), rest⟩
  · exact rest

theorem InNumber.of_exponent {text : List Char} {e : Int}
    (read : Decimal.readExponent? text = some e) : ∀ c ∈ text, InNumber c := by
  cases text with
  | nil => exact List.forall_mem_nil _
  | cons mark rest =>
      simp only [Decimal.readExponent?] at read
      split at read
      next exponent =>
        obtain ⟨letter, -, digits⟩ := exponent
        refine List.forall_mem_cons.mpr ⟨?_, .of_splitSign fun c member => ?_⟩
        · rcases letter with rfl | rfl <;> decide
        · exact .digit (List.all_eq_true.mp digits c member)
      next => cases read

theorem InNumber.of_decimal {text : List Char} {d : Decimal}
    (read : Decimal.read? text = some d) : ∀ c ∈ text, InNumber c := by
  have whole : ∀ (chars : List Char), (∀ c ∈ chars.dropWhile Char.isDigit, InNumber c) →
      ∀ c ∈ chars, InNumber c := by
    intro chars rest
    rw [← List.takeWhile_append_dropWhile (p := Char.isDigit) (l := chars)]
    exact List.forall_mem_append.mpr
      ⟨fun c member => .digit (List.mem_takeWhile_imp member), rest⟩
  refine whole text ?_
  simp only [Decimal.read?] at read
  generalize text.dropWhile Char.isDigit = rest at read ⊢
  split at read
  next fraction =>
    rw [Option.ite_none_left_eq_some, Option.map_eq_some_iff] at read
    obtain ⟨-, e, exponent, -⟩ := read
    exact List.forall_mem_cons.mpr
      ⟨.inr (.inr (.inr rfl)), whole fraction (.of_exponent exponent)⟩
  next =>
    rw [Option.ite_none_left_eq_some, Option.map_eq_some_iff] at read
    obtain ⟨-, e, exponent, -⟩ := read
    exact .of_exponent exponent

theorem InNumber.of_integer {text : List Char} {n : Int} (read : readInteger? text = some n) :
    ∀ c ∈ text, InNumber c := by
  simp only [readInteger?] at read
  split at read
  next whole =>
    exact .of_splitSign fun c member => .digit (List.all_eq_true.mp whole.2 c member)
  next => cases read

theorem InNumber.of_number {text : List Char} {x : Binary64}
    (read : Binary64.read? text = some x) : ∀ c ∈ text, InNumber c := by
  refine .of_splitSign ?_
  simp only [Binary64.read?, ← String.toList_inj, String.toList_ofList] at read
  split at read
  next infinity =>
    rcases infinity with word | word
    · exact .of_word word (by decide)
    · exact .of_word word (by decide)
  next =>
    split at read
    next word => exact .of_word word (by decide)
    next =>
      obtain ⟨d, decimal, -⟩ := Option.map_eq_some_iff.mp read
      exact .of_decimal decimal

theorem read_toString (x : Binary64) :
    Binary64.read? (toString x).toList = some x.canonical := by
  have text : (toString x).toList = x.text := String.toList_ofList
  rw [text]
  cases x with
  | finite negative rank => exact Binary64.read_text negative rank
  | infinite negative => cases negative <;> decide +kernel
  | nan negative => cases negative <;> decide +kernel

theorem toString_canonical (x : Binary64) : toString x.canonical = toString x := by
  cases x <;> rfl

theorem readInteger_digits (negative : Bool) (n : Nat)
    (signed : Word.isSigned (Binary64.signed negative n) = true) :
    readInteger? (Binary64.signText negative ++ Nat.toDigits 10 n) =
      some (Binary64.signed negative n) := by
  have nonempty : Nat.toDigits 10 n ≠ [] := Nat.toDigits_ne_nil
  have digits : (Nat.toDigits 10 n).all Char.isDigit = true :=
    List.all_eq_true.mpr (Decimal.all_isDigit_toDigits n)
  have split : Decimal.splitSign (Binary64.signText negative ++ Nat.toDigits 10 n) =
      (negative, Nat.toDigits 10 n) := by
    obtain ⟨c, rest, lead⟩ := List.exists_cons_of_ne_nil nonempty
    have digit : c.isDigit = true :=
      List.all_eq_true.mp digits c (lead ▸ List.mem_cons_self)
    rw [lead, Binary64.splitSign_signText negative digit]
  simp only [readInteger?, split]
  rw [if_pos ⟨nonempty, digits⟩, Decimal.digitsValue_toDigits, if_pos signed]

theorem readInteger_toString {n : Int} (signed : Word.isSigned n = true) :
    readInteger? (toString n).toList = some n := by
  have value : Binary64.signed (decide (n < 0)) n.natAbs = n := by
    rw [Binary64.signed]
    by_cases negative : n < 0
    · rw [decide_eq_true negative, if_pos rfl]
      omega
    · rw [decide_eq_false negative, if_neg Bool.false_ne_true]
      omega
  have read := readInteger_digits (decide (n < 0)) n.natAbs (by rwa [value])
  rw [value] at read
  rw [Binary64.toList_toString_int]
  exact read

theorem isSigned_of_readInteger {text : List Char} {n : Int} (read : readInteger? text = some n) :
    Word.isSigned n = true := by
  rw [readInteger?, Option.ite_none_right_eq_some, Option.ite_none_right_eq_some] at read
  obtain ⟨-, signed, same⟩ := read
  rwa [Option.some.inj same] at signed

namespace Settings

def Spells (text : String) (value : Bool) : Prop :=
  text.toList.map Char.toLower = (toString value).toList

instance (text : String) (value : Bool) : Decidable (Spells text value) :=
  inferInstanceAs (Decidable (_ = _))

namespace Spells

variable {text : String} {value : Bool}

theorem leads (spells : Spells text value) :
    ∃ c rest, text.toList = c :: rest ∧ c.isDigit = false ∧ c ≠ '+' ∧ c ≠ '-' ∧ c ≠ '.' := by
  obtain ⟨letter, tail, word, unlike⟩ : ∃ letter tail, (toString value).toList = letter :: tail ∧
      letter ∉ ['+', '-', '.'] ∧ letter.isDigit = false := by
    cases value
    · exact ⟨'f', ['a', 'l', 's', 'e'], rfl, by decide⟩
    · exact ⟨'t', ['r', 'u', 'e'], rfl, by decide⟩
  obtain ⟨c, rest, split, lower, -⟩ := List.map_eq_cons_iff.mp (Eq.trans spells word)
  subst lower
  -- Lower case leaves digits, signs and the point alone, so none of them becomes a letter.
  refine ⟨c, rest, split, ?_, ?_, ?_, ?_⟩
  · by_contra digit
    rw [Bool.not_eq_false] at digit
    rw [Binary64.toLower_of_isDigit digit, digit] at unlike
    cases unlike.2
  all_goals
    rintro rfl
    exact absurd unlike.1 (by decide)

theorem splitSign (spells : Spells text value) :
    Decimal.splitSign text.toList = (false, text.toList) := by
  obtain ⟨c, rest, split, -, plus, minus, -⟩ := spells.leads
  rw [split]
  simp [Decimal.splitSign, plus, minus]

theorem readInteger_eq_none (spells : Spells text value) : readInteger? text.toList = none := by
  obtain ⟨c, rest, split, digit, -⟩ := spells.leads
  rw [readInteger?, spells.splitSign]
  exact if_neg fun whole => by simp [split, digit] at whole

theorem read_eq_none (spells : Spells text value) : Binary64.read? text.toList = none := by
  obtain ⟨c, rest, split, digit, -, -, point⟩ := spells.leads
  have decimal : Decimal.read? text.toList = none := by
    rw [split]
    simp [Decimal.read?, digit, point]
  have word : String.ofList (text.toList.map Char.toLower) = toString value := by
    rw [show text.toList.map Char.toLower = _ from spells, String.ofList_toList]
  simp only [Binary64.read?, spells.splitSign, word, decimal]
  cases value <;> decide

theorem printed (value : Bool) : Spells (toString value) value := by
  cases value <;> decide

end Spells

/-- What a text in the environment arrives as: as itself, unless it reads as a truth value, an
integer or a number, which is then printed. -/
inductive Arrives (text : String) : String → Prop where
  | truth {value : Bool} (spells : Spells text value) : Arrives text (toString value)
  | integer {n : Int} (reads : readInteger? text.toList = some n) : Arrives text (toString n)
  | number {x : Binary64} (noInteger : readInteger? text.toList = none)
      (reads : Binary64.read? text.toList = some x) : Arrives text (toString x)
  | itself (noTruth : ∀ value, ¬ Spells text value) (noInteger : readInteger? text.toList = none)
      (noNumber : Binary64.read? text.toList = none) : Arrives text text

/-- Texts that arrive as they are: those that read as nothing else, and those that are written as
they would be printed. -/
inductive Survives (text : String) : Prop where
  | truth {value : Bool} (printed : text = toString value)
  | integer {n : Int} (signed : Word.isSigned n = true) (printed : text = toString n)
  | number {x : Binary64} (noInteger : readInteger? text.toList = none)
      (printed : text = toString x)
  | itself (noTruth : ∀ value, ¬ Spells text value) (noInteger : readInteger? text.toList = none)
      (noNumber : Binary64.read? text.toList = none)

inductive SameValue (text other : String) : Prop where
  | truth {value : Bool} (spells : Spells text value) (again : Spells other value)
  | integer {n : Int} (reads : readInteger? text.toList = some n)
      (again : readInteger? other.toList = some n)
  | number {x : Binary64} (reads : Binary64.read? text.toList = some x)
      (again : Binary64.read? other.toList = some x.canonical)

section Guesses

variable {name text : String}

theorem lower_eq_iff {value : Bool} :
    String.ofList (text.toList.map Char.toLower) = toString value ↔ Spells text value := by
  rw [Spells, ← String.toList_inj, String.toList_ofList]

theorem variableValue_of_spells {value : Bool} (spells : Spells text value) :
    variableValue name text = .bool value := by
  have lower := lower_eq_iff.mpr spells
  cases value with
  | true => exact if_pos lower
  | false =>
      rw [variableValue, lower]
      rfl

theorem unlike_truths (noTruth : ∀ value, ¬ Spells text value) :
    ¬ String.ofList (text.toList.map Char.toLower) = "true" ∧
      ¬ String.ofList (text.toList.map Char.toLower) = "false" := by
  constructor
  · intro lower
    exact noTruth true (lower_eq_iff.mp lower)
  · intro lower
    exact noTruth false (lower_eq_iff.mp lower)

theorem variableValue_of_integer {n : Int} (reads : readInteger? text.toList = some n) :
    variableValue name text = .integer n := by
  have noTruth : ∀ value, ¬ Spells text value := by
    intro value spells
    rw [spells.readInteger_eq_none] at reads
    cases reads
  rw [variableValue, if_neg (unlike_truths noTruth).1, if_neg (unlike_truths noTruth).2]
  simp only [reads]

theorem variableValue_of_number {x : Binary64} (noInteger : readInteger? text.toList = none)
    (reads : Binary64.read? text.toList = some x) : variableValue name text = .float x := by
  have noTruth : ∀ value, ¬ Spells text value := by
    intro value spells
    rw [spells.read_eq_none] at reads
    cases reads
  rw [variableValue, if_neg (unlike_truths noTruth).1, if_neg (unlike_truths noTruth).2]
  simp only [noInteger, reads]

theorem variableValue_of_none (single : listNames.contains name = false)
    (noTruth : ∀ value, ¬ Spells text value) (noInteger : readInteger? text.toList = none)
    (noNumber : Binary64.read? text.toList = none) : variableValue name text = .text text := by
  rw [variableValue, if_neg (unlike_truths noTruth).1, if_neg (unlike_truths noTruth).2]
  simp only [noInteger, noNumber, single]
  rfl

theorem asText_variableValue {other : String} (single : listNames.contains name = false) :
    (variableValue name text).asText? = some other ↔ Arrives text other := by
  constructor
  · intro reads
    by_cases truth : ∃ value, Spells text value
    · obtain ⟨value, spells⟩ := truth
      rw [variableValue_of_spells spells] at reads
      exact Option.some.inj reads ▸ .truth spells
    · have noTruth := not_exists.mp truth
      cases integer : readInteger? text.toList with
      | some n =>
          rw [variableValue_of_integer integer] at reads
          exact Option.some.inj reads ▸ .integer integer
      | none =>
          cases number : Binary64.read? text.toList with
          | some x =>
              rw [variableValue_of_number integer number] at reads
              exact Option.some.inj reads ▸ .number integer number
          | none =>
              rw [variableValue_of_none single noTruth integer number] at reads
              exact Option.some.inj reads ▸ .itself noTruth integer number
  · rintro (spells | reads | ⟨noInteger, reads⟩ | ⟨noTruth, noInteger, noNumber⟩)
    · rw [variableValue_of_spells spells]
      rfl
    · rw [variableValue_of_integer reads]
      rfl
    · rw [variableValue_of_number noInteger reads]
      rfl
    · rw [variableValue_of_none single noTruth noInteger noNumber]
      rfl

end Guesses

namespace Arrives

variable {text other : String}

theorem unique {another : String} (arrives : Arrives text other) (again : Arrives text another) :
    other = another := by
  have first : (variableValue "" text).asText? = some other :=
    (asText_variableValue rfl).mpr arrives
  have second : (variableValue "" text).asText? = some another :=
    (asText_variableValue rfl).mpr again
  exact Option.some.inj (first.symm.trans second)

theorem sameValue (arrives : Arrives text other) (changed : other ≠ text) :
    SameValue text other := by
  cases arrives with
  | truth spells => exact .truth spells (.printed _)
  | integer reads => exact .integer reads (readInteger_toString (isSigned_of_readInteger reads))
  | number noInteger reads => exact .number reads (read_toString _)
  | itself => exact absurd rfl changed

theorem inNumber (arrives : Arrives text other) (changed : other ≠ text) :
    ∀ c ∈ text.toList, InNumber c := by
  cases arrives with
  | @truth value spells => exact .of_word spells (by cases value <;> decide)
  | integer reads => exact .of_integer reads
  | number noInteger reads => exact .of_number reads
  | itself => exact absurd rfl changed

end Arrives

theorem Survives.arrives {text : String} (survives : Survives text) : Arrives text text := by
  cases survives with
  | @truth value printed =>
      subst printed
      exact .truth (.printed value)
  | integer signed printed =>
      subst printed
      exact .integer (readInteger_toString signed)
  | @number x noInteger printed =>
      subst printed
      -- Read back, NaN may have lost its sign, which is not printed anyway.
      have arrives : Arrives (toString x) (toString x.canonical) :=
        .number noInteger (read_toString x)
      rwa [toString_canonical] at arrives
  | itself noTruth noInteger noNumber => exact .itself noTruth noInteger noNumber

theorem Arrives.eq_iff {text other : String} (arrives : Arrives text other) :
    other = text ↔ Survives text := by
  constructor
  · intro same
    cases arrives with
    | truth => exact .truth same.symm
    | integer reads => exact .integer (isSigned_of_readInteger reads) same.symm
    | number noInteger => exact .number noInteger same.symm
    | itself noTruth noInteger noNumber => exact .itself noTruth noInteger noNumber
  · intro survives
    exact arrives.unique survives.arrives

inductive TextField where
  | endpoint
  | metricsPath
  | infoPath
  | rpcVersion
  | gateway
  | logFilter
  deriving DecidableEq

namespace TextField

def name : TextField → String
  | endpoint => "endpoint"
  | metricsPath => "metrics_path"
  | infoPath => "info_path"
  | rpcVersion => "jsonrpc_version"
  | gateway => "gateway"
  | logFilter => "log_filter"

def value (settings : Settings) : TextField → String
  | endpoint => settings.endpoint
  | metricsPath => settings.metricsPath
  | infoPath => settings.infoPath
  | rpcVersion => settings.rpcVersion
  | gateway => settings.gateway
  | logFilter => settings.logFilter

theorem single (field : TextField) : listNames.contains field.name = false := by
  cases field <;> decide

end TextField

def variableText? (environment : Environment) (field : String) : Option String :=
  (environment.reverse.find? fun entry => decide (Sets entry.1 field)).map Prod.snd

theorem fromEnvironment_eq (environment : Environment) (field : String) :
    fromEnvironment? environment field =
      (variableText? environment field).map (variableValue field) := by
  rw [fromEnvironment?, variableText?, Option.map_map]
  rfl

variable {environment : Environment} {file : SettingLayer} {settings : Settings}

theorem Layered.text (layered : Layered .bare environment file settings) (field : TextField) :
    FieldSupplied environment file field.name SettingValue.asText? none
      (field.value .default) (field.value settings) := by
  cases field with
  | endpoint => exact layered.endpoint
  | metricsPath => exact layered.metricsPath
  | infoPath => exact layered.infoPath
  | rpcVersion => exact layered.rpcVersion
  | gateway => exact layered.gateway
  | logFilter => exact layered.logFilter

/-- How the text of a variable shows up in the settings. -/
structure Passes (text loaded : String) : Prop where
  arrives : Arrives text loaded
  unchanged_iff : loaded = text ↔ Survives text
  sameValue : loaded ≠ text → SameValue text loaded
  unchanged : (∃ c ∈ text.toList, ¬ InNumber c) → loaded = text

theorem Arrives.passes {text loaded : String} (arrives : Arrives text loaded) :
    Passes text loaded := by
  refine ⟨arrives, arrives.eq_iff, arrives.sameValue, ?_⟩
  rintro ⟨c, member, foreign⟩
  by_contra changed
  exact foreign (arrives.inNumber changed c member)

/-- Every text setting of loaded settings: from a variable it passes, from the file it is taken as
it stands. -/
structure TextLoaded (environment : Environment) (file : SettingLayer) (field : TextField)
    (loaded : String) : Prop where
  fromVariable : ∀ text, variableText? environment field.name = some text → Passes text loaded
  fromFile : ∀ text, variableText? environment field.name = none →
    file.lookup field.name = some (.text text) → loaded = text

theorem texts_loaded {found : Option (Except FileFault String)}
    (accepted : load found environment = .ok settings) :
    ∃ file, fileLayer? found = some file ∧
      ∀ field : TextField, TextLoaded environment file field (field.value settings) := by
  obtain ⟨file, present, layered, -⟩ := load_eq_ok_iff.mp accepted
  refine ⟨file, present, fun field => ⟨fun text given => ?_, fun text ungiven inFile => ?_⟩⟩
  · have set : (fromEnvironment? environment field.name).or (file.lookup field.name) =
        some (variableValue field.name text) := by
      rw [fromEnvironment_eq, given, Option.map_some, Option.some_or]
    exact ((asText_variableValue field.single).mp
      ((layered.text field).reads_setting set)).passes
  · have set : (fromEnvironment? environment field.name).or (file.lookup field.name) =
        some (.text text) := by
      rw [fromEnvironment_eq, ungiven, Option.map_none, Option.none_or, inFile]
    exact (Option.some.inj ((layered.text field).reads_setting set)).symm

theorem texts_loaded_of_both :
    let environment := [("IMGPROXY_DOCTOR_LOG_FILTER", "+1"), ("IMGPROXY_DOCTOR_GATEWAY", "0/1")]
    let settings := { Settings.default with
      logFilter := "1", gateway := "0/1", rpcVersion := "2.0" }
    load (some (.ok "jsonrpc_version = '2.0'")) environment = .ok settings ∧
      SameValue "+1" settings.logFilter ∧ ¬ Survives "+1" ∧ settings.gateway = "0/1" := by
  intro environment settings
  have accepted : load (some (.ok "jsonrpc_version = '2.0'")) environment = .ok settings :=
    ok_of_toOption (by decide +kernel)
  obtain ⟨file, -, loaded⟩ := texts_loaded accepted
  have filter := (loaded .logFilter).fromVariable "+1" (by decide)
  have gateway := (loaded .gateway).fromVariable "0/1" (by decide)
  refine ⟨accepted, filter.sameValue (by decide), ?_, gateway.unchanged ⟨'/', by decide⟩⟩
  intro survives
  exact absurd (filter.unchanged_iff.mpr survives) (by decide)

/-- The version that the file keeps loses its fraction in the environment. -/
theorem version_changed :
    let environment := [("IMGPROXY_DOCTOR_JSONRPC_VERSION", "2.0")]
    variableText? environment TextField.rpcVersion.name = some "2.0" ∧
      (∃ settings, load none environment = .ok settings ∧
        TextField.rpcVersion.value settings ≠ "2.0") ∧
      ∃ settings, load (some (.ok "jsonrpc_version = '2.0'")) [] = .ok settings ∧
        TextField.rpcVersion.value settings = "2.0" := by
  intro environment
  refine ⟨by decide, ⟨{ Settings.default with rpcVersion := "2" }, ?_, by decide⟩,
    { Settings.default with rpcVersion := "2.0" }, ?_, rfl⟩
  · exact ok_of_toOption (by decide +kernel)
  · exact ok_of_toOption (by decide +kernel)

end Settings

end ProxyMonitor
