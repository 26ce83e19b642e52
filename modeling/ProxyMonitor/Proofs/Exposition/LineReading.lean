import ProxyMonitor.Proofs.Exposition.Grammar
import ProxyMonitor.Proofs.Labels

/-! The readers of sample lines accept exactly the grammar. -/

namespace ProxyMonitor.Exposition

open Text (Blanks IsWord BeginsSolid)

theorem eq_of_splitLabelSet {scan : Scan} {cs inside tail : List Char}
    (h : splitLabelSet? scan cs = some (inside, tail)) : cs = inside ++ '}' :: tail := by
  fun_induction splitLabelSet? scan cs generalizing inside with
  | case1 => cases h
  | case2 c rest ih =>
      obtain ⟨⟨first, second⟩, found, same⟩ := Option.map_eq_some_iff.mp h
      cases same
      rw [ih found, List.cons_append, id_eq]
  | case3 c rest next =>
      rename_i ih
      obtain ⟨⟨first, second⟩, found, same⟩ := Option.map_eq_some_iff.mp h
      cases same
      rw [ih found, List.cons_append, id_eq]
  | case4 rest => cases h; rfl
  | case5 c rest noBrace ih =>
      obtain ⟨⟨first, second⟩, found, same⟩ := Option.map_eq_some_iff.mp h
      cases same
      rw [ih found, List.cons_append, id_eq]

/-- The search for the closing brace goes over `cs` and is outside quotes again. -/
def Passed (cs : List Char) : Prop :=
  ∀ rest, splitLabelSet? .outside (cs ++ rest) =
    (splitLabelSet? .outside rest).map (Prod.map (cs ++ ·) id)

theorem passed_append {first second : List Char} (left : Passed first) (right : Passed second) :
    Passed (first ++ second) := by
  intro rest
  rw [List.append_assoc, left, right, Option.map_map]
  congr 1
  funext parts
  simp only [Function.comp_apply, Prod.map, List.append_assoc, id_eq]

theorem passed_plain {cs : List Char} (noBrace : '}' ∉ cs) (noQuote : '"' ∉ cs) : Passed cs := by
  intro rest
  induction cs with
  | nil => exact (congrFun Option.map_id _).symm
  | cons c tail ih =>
      have brace : c ≠ '}' := fun e => noBrace (e ▸ List.mem_cons_self)
      have quote : c ≠ '"' := fun e => noQuote (e ▸ List.mem_cons_self)
      have later := ih (fun member => noBrace (List.mem_cons_of_mem _ member))
        fun member => noQuote (List.mem_cons_of_mem _ member)
      rw [List.cons_append, splitLabelSet?, if_neg brace, if_neg quote, later, Option.map_map]
      rfl

theorem splitLabelSet_quoted {written decoded : List Char} (quoted : QuotedText written decoded)
    (rest : List Char) :
    splitLabelSet? .quoted (written ++ '"' :: rest) =
      (splitLabelSet? .outside rest).map (Prod.map (written ++ '"' :: ·) id) := by
  induction quoted with
  | nil => simp [splitLabelSet?]
  | plain noQuote noEscape later ih =>
      rw [List.cons_append, splitLabelSet?, if_neg noEscape, if_neg noQuote, ih, Option.map_map]
      rfl
  | escape later ih =>
      rw [List.cons_append, List.cons_append, splitLabelSet?, if_pos rfl, splitLabelSet?, ih,
        Option.map_map, Option.map_map]
      rfl

theorem passed_quoted {written decoded : List Char} (quoted : QuotedText written decoded) :
    Passed ('"' :: written ++ ['"']) := by
  intro rest
  rw [List.append_assoc, List.cons_append, splitLabelSet?, if_neg (by decide), if_pos rfl,
    List.singleton_append, splitLabelSet_quoted quoted, Option.map_map]
  congr 1
  funext parts
  simp [Prod.map]

theorem passed_blanks {blanks : List Char} (h : Blanks blanks) : Passed blanks := by
  apply passed_plain
  · intro member
    have blank := h _ member
    revert blank
    decide
  · intro member
    have blank := h _ member
    revert blank
    decide

theorem passed_labelName {name : List Char} (h : LabelName name) : Passed name := by
  obtain ⟨-, -, inside⟩ := labelName_iff.mp h
  apply passed_plain
  · intro member
    have inName := inside _ member
    revert inName
    decide
  · intro member
    have inName := inside _ member
    revert inName
    decide

theorem passed_pair {text : List Char} {pair : String × String} (h : PairText text pair) :
    Passed text := by
  obtain ⟨name, blanksBefore, blanksAfter, quoted⟩ := h
  rename_i label before after written decoded
  have equals : Passed ['='] := passed_plain (by decide) (by decide)
  have whole := passed_append (passed_append (passed_labelName name) (passed_blanks blanksBefore))
    (passed_append equals (passed_append (passed_blanks blanksAfter) (passed_quoted quoted)))
  simpa [List.append_assoc] using whole

theorem passed_pairs {text : List Char} {pairs : List (String × String)}
    (h : PairsText text pairs) : Passed text := by
  induction h with
  | nil => exact passed_plain (by simp) (by simp)
  | last first blanks => exact passed_append (passed_pair first) (passed_blanks blanks)
  | cons first blanksBefore blanksAfter later ih =>
      have comma : Passed [','] := passed_plain (by decide) (by decide)
      have whole := passed_append (passed_append (passed_pair first) (passed_blanks blanksBefore))
        (passed_append comma (passed_append (passed_blanks blanksAfter) ih))
      simpa [List.append_assoc] using whole

theorem splitLabelSet_body {body : List Char} {pairs : List (String × String)}
    (h : BodyText body pairs) (tail : List Char) :
    splitLabelSet? .outside (body ++ '}' :: tail) = some (body, tail) := by
  obtain ⟨leading, inside⟩ := h
  rw [passed_append (passed_blanks leading) (passed_pairs inside)]
  simp [splitLabelSet?]

theorem decoded_eq_escapeMeaning (c : Char) :
    (if c = 'n' then ['\n'] else if c = '\\' ∨ c = '"' then [c] else ['\\', c]) =
      escapeMeaning c := by
  grind [escapeMeaning]

theorem readQuoted_complete {written decoded : List Char} (quoted : QuotedText written decoded)
    (rest : List Char) : readQuoted? (written ++ '"' :: rest) = some (decoded, rest) := by
  induction quoted with
  | nil => rfl
  | plain noQuote noEscape later ih => simp [readQuoted?, noEscape, ih]
  | @escape c written decoded later ih =>
      simp only [List.cons_append, readQuoted?, ih, Option.map_some, Prod.map, id_eq,
        decoded_eq_escapeMeaning]

theorem readQuoted_sound {cs decoded rest : List Char} (h : readQuoted? cs = some (decoded, rest)) :
    ∃ written, cs = written ++ '"' :: rest ∧ QuotedText written decoded := by
  fun_induction readQuoted? cs generalizing decoded with
  | case1 => cases h
  | case2 tail => cases h; exact ⟨[], rfl, .nil⟩
  | case3 c tail meaning =>
      rename_i ih
      obtain ⟨⟨first, second⟩, found, same⟩ := Option.map_eq_some_iff.mp h
      cases same
      obtain ⟨written, rfl, quoted⟩ := ih found
      refine ⟨'\\' :: c :: written, rfl, ?_⟩
      simp only [meaning, decoded_eq_escapeMeaning]
      exact .escape quoted
  | case4 => cases h
  | case5 c tail noQuote noPair noEscape ih =>
      obtain ⟨⟨first, second⟩, found, same⟩ := Option.map_eq_some_iff.mp h
      cases same
      obtain ⟨written, rfl, quoted⟩ := ih found
      refine ⟨c :: written, rfl, .plain noQuote ?_ quoted⟩
      intro same
      subst same
      cases written <;> simp at noPair

theorem takeWhile_run {p : Char → Bool} {run : List Char} (rest : List Char)
    (inside : ∀ c ∈ run, p c = true) (outside : ∀ c ∈ rest.head?, p c = false) :
    (run ++ rest).takeWhile p = run ∧ (run ++ rest).dropWhile p = rest := by
  rw [List.takeWhile_append_of_pos inside, List.dropWhile_append_of_pos inside]
  cases rest with
  | nil => simp
  | cons c tail => simp [outside c rfl]

theorem isLabelChar_of_isBlank {c : Char} (blank : Text.isBlank c = true) :
    isLabelChar c = false := by
  rw [Bool.eq_false_iff]
  intro inName
  have inMetric := isLabelChar_isMetricChar inName
  rw [isMetricChar_of_isBlank blank] at inMetric
  cases inMetric

theorem readPair_complete {text : List Char} {pair : String × String} (h : PairText text pair)
    (rest : List Char) : readPair (text ++ rest) = .ok (⟨pair.1, pair.2⟩, rest) := by
  obtain ⟨name, blanksBefore, blanksAfter, quoted⟩ := h
  rename_i label before after written decoded
  obtain ⟨nonempty, noDigit, inside⟩ := labelName_iff.mp name
  have split : label ++ before ++ '=' :: after ++ '"' :: written ++ ['"'] ++ rest =
      label ++ (before ++ '=' :: (after ++ '"' :: (written ++ '"' :: rest))) := by
    simp [List.append_assoc]
  have stopped : ∀ c ∈ (before ++ '=' :: (after ++ '"' :: (written ++ '"' :: rest))).head?,
      isLabelChar c = false := by
    intro c first
    cases before with
    | nil =>
        obtain rfl : '=' = c := by simpa using first
        decide
    | cons d blanks =>
        obtain rfl : d = c := by simpa using first
        exact isLabelChar_of_isBlank (blanksBefore d List.mem_cons_self)
  obtain ⟨taken, left⟩ := takeWhile_run _ inside stopped
  have equals : BeginsSolid ('=' :: (after ++ '"' :: (written ++ '"' :: rest))) := by
    intro c first
    obtain rfl : '=' = c := by simpa using first
    decide
  have quote : BeginsSolid ('"' :: (written ++ '"' :: rest)) := by
    intro c first
    obtain rfl : '"' = c := by simpa using first
    decide
  simp only [readPair]
  rw [split, taken, left, Text.trimStart_blanks_append blanksBefore, Text.trimStart_eq_self equals]
  simp only [nonempty, noDigit, Bool.false_eq_true, or_self, if_false]
  rw [Text.trimStart_blanks_append blanksAfter, Text.trimStart_eq_self quote]
  simp only [readQuoted_complete quoted]

theorem readPair_sound {cs rest : List Char} {pair : LabelPair}
    (h : readPair cs = .ok (pair, rest)) :
    ∃ text, cs = text ++ rest ∧ PairText text (pair.name, pair.value) := by
  simp only [readPair] at h
  split at h
  · cases h
  · rename_i named
    split at h
    next afterEquals equals =>
      split at h
      next quoted quote =>
        split at h
        next value after read =>
          cases h
          obtain ⟨before, blanksBefore, left⟩ :=
            Text.exists_blanks_append_trimStart (cs.dropWhile isLabelChar)
          obtain ⟨between, blanksBetween, right⟩ :=
            Text.exists_blanks_append_trimStart afterEquals
          obtain ⟨written, inQuotes, text⟩ := readQuoted_sound read
          rw [equals] at left
          rw [quote, inQuotes] at right
          have name : LabelName (cs.takeWhile isLabelChar) := by
            obtain ⟨nonempty, noDigit⟩ := not_or.mp named
            exact labelName_iff.mpr
              ⟨nonempty, by simpa using noDigit, fun c member => List.mem_takeWhile_imp member⟩
          refine ⟨_, ?_, .mk name blanksBefore blanksBetween text⟩
          calc
            cs = cs.takeWhile isLabelChar ++ cs.dropWhile isLabelChar :=
              List.takeWhile_append_dropWhile.symm
            _ = _ := by rw [left, right]; simp [List.append_assoc]
        next => cases h
      next => cases h
    next => cases h

theorem readSeparator_sound {cs next : List Char} (h : readSeparator cs = .ok next) :
    Blanks cs ∧ next = [] ∨
      ∃ before after, cs = before ++ ',' :: after ++ next ∧ Blanks before ∧ Blanks after := by
  obtain ⟨before, blanksBefore, split⟩ := Text.exists_blanks_append_trimStart cs
  simp only [readSeparator] at h
  split at h
  next empty =>
    cases h
    rw [empty, List.append_nil] at split
    exact .inl ⟨split ▸ blanksBefore, rfl⟩
  next rest comma =>
    cases h
    obtain ⟨after, blanksAfter, later⟩ := Text.exists_blanks_append_trimStart rest
    rw [comma] at split
    refine .inr ⟨before, after, ?_, blanksBefore, blanksAfter⟩
    rw [List.append_assoc, List.cons_append, ← later]
    exact split
  next => cases h

theorem readSeparator_blanks {blanks : List Char} (h : Blanks blanks) :
    readSeparator blanks = .ok [] := by
  rw [readSeparator, Text.trimStart_blanks h]

theorem readSeparator_comma {before after next : List Char} (blanksBefore : Blanks before)
    (blanksAfter : Blanks after) (solid : BeginsSolid next) :
    readSeparator (before ++ ',' :: after ++ next) = .ok next := by
  have comma : BeginsSolid (',' :: (after ++ next)) := by
    intro c first
    obtain rfl : ',' = c := by simpa using first
    decide
  rw [readSeparator, List.append_assoc, Text.trimStart_blanks_append blanksBefore,
    List.cons_append, Text.trimStart_eq_self comma]
  simp only [Text.trimStart_blanks_append blanksAfter, Text.trimStart_eq_self solid]

theorem PairText.beginsSolid {text : List Char} {pair : String × String} (h : PairText text pair)
    (rest : List Char) : BeginsSolid (text ++ rest) := by
  obtain ⟨name, -, -, -⟩ := h
  simpa only [List.append_assoc] using name.isWord.beginsSolid _

theorem PairsText.beginsSolid {text : List Char} {pairs : List (String × String)}
    (h : PairsText text pairs) : BeginsSolid text := by
  cases h with
  | nil => intro c first; cases first
  | last first blanks => exact first.beginsSolid _
  | cons first blanksBefore blanksAfter later =>
      simpa only [List.append_assoc] using first.beginsSolid _

theorem PairsText.eq_nil {pairs : List (String × String)} (h : PairsText [] pairs) :
    pairs = [] := by
  generalize empty : [] = cs at h
  cases h with
  | nil => rfl
  | last first blanks => cases first; simp at empty
  | cons first left right later => simp at empty

theorem readPairs_step {labels : Labels} {cs rest next : List Char} {pair : LabelPair}
    (pairRead : readPair cs = .ok (pair, rest)) (fresh : labels.contains pair.name = false)
    (separated : readSeparator rest = .ok next) :
    readPairs labels cs = readPairs (labels.insert pair.name pair.value) next := by
  have nonempty : cs ≠ [] := by
    intro same
    subst same
    have shorter := readPair_length_lt pairRead
    cases shorter
  rw [readPairs, if_neg nonempty]
  split
  next cause failed => rw [pairRead] at failed; cases failed
  next other after read =>
    rw [pairRead] at read
    cases read
    rw [if_neg (by simp [fresh])]
    split
    next cause failed => rw [separated] at failed; cases failed
    next other read =>
      rw [separated] at read
      cases read
      rfl

theorem contains_insert_eq_false {labels : Labels} {name value other : String}
    (fresh : labels.contains name = false) :
    (labels.insert name value).contains other = false ↔
      name ≠ other ∧ labels.contains other = false := by
  simp only [Bool.eq_false_iff, ne_eq, Labels.contains_of_perm (Labels.insert_perm fresh),
    Labels.contains_iff]
  simp

theorem insert_perm_append {labels : Labels} {name value : String}
    (fresh : labels.contains name = false) (pairs : List (String × String)) :
    (pairs ++ (labels.insert name value).pairs).Perm ((name, value) :: pairs ++ labels.pairs) :=
  ((Labels.insert_perm fresh).append_left pairs).trans List.perm_middle

theorem readPairs_sound {labels result : Labels} {cs : List Char}
    (h : readPairs labels cs = .ok result) :
    ∃ pairs, PairsText cs pairs ∧ (pairs.map Prod.fst).Nodup ∧
      (∀ pair ∈ pairs, labels.contains pair.1 = false) ∧
      result.pairs.Perm (pairs ++ labels.pairs) := by
  fun_induction readPairs labels cs with
  | case1 labels => cases h; exact ⟨[], .nil, by simp, by simp, .refl _⟩
  | case2 => cases h
  | case3 => cases h
  | case4 => cases h
  -- A pair with a new name, a separator, and the pairs after it.
  | case5 labels cs nonempty pair rest pairRead absent next separated ih =>
      obtain ⟨text, rfl, first⟩ := readPair_sound pairRead
      have fresh : labels.contains pair.name = false := by simpa using absent
      obtain ⟨pairs, later, distinct, others, entries⟩ := ih h
      have others := fun other member => (contains_insert_eq_false fresh).mp (others other member)
      refine ⟨(pair.name, pair.value) :: pairs, ?_, ?_, ?_,
        entries.trans (insert_perm_append fresh pairs)⟩
      · rcases readSeparator_sound separated with ⟨blanks, rfl⟩ | ⟨before, after, rfl, left, right⟩
        · obtain rfl := later.eq_nil
          exact .last first blanks
        · simpa only [List.append_assoc, List.cons_append] using PairsText.cons first left right later
      · rw [List.map_cons, List.nodup_cons, List.mem_map]
        refine ⟨?_, distinct⟩
        intro given
        rcases given with ⟨other, member, same⟩
        exact (others other member).1 same.symm
      · intro other member
        rcases List.mem_cons.mp member with rfl | member
        · exact fresh
        · exact (others other member).2

theorem readPairs_complete (labels : Labels) {cs : List Char} {pairs : List (String × String)}
    (h : PairsText cs pairs) (distinct : (pairs.map Prod.fst).Nodup)
    (fresh : ∀ pair ∈ pairs, labels.contains pair.1 = false) :
    ∃ result, readPairs labels cs = .ok result ∧ result.pairs.Perm (pairs ++ labels.pairs) := by
  induction h generalizing labels with
  | nil => exact ⟨labels, by rw [readPairs, if_pos rfl], .refl _⟩
  | @last text after pair first blanks =>
      have absent := fresh pair List.mem_cons_self
      refine ⟨labels.insert pair.1 pair.2, ?_, Labels.insert_perm absent⟩
      rw [readPairs_step (readPair_complete first after) absent (readSeparator_blanks blanks),
        readPairs, if_pos rfl]
  | @cons text before after rest pair pairs first left right later ih =>
      have absent := fresh pair List.mem_cons_self
      obtain ⟨unlike, distinct⟩ := List.nodup_cons.mp distinct
      have others : ∀ other ∈ pairs, (labels.insert pair.1 pair.2).contains other.1 = false := by
        intro other member
        refine (contains_insert_eq_false absent).mpr
          ⟨fun same => unlike ?_, fresh other (List.mem_cons_of_mem _ member)⟩
        exact List.mem_map.mpr ⟨other, member, same.symm⟩
      obtain ⟨result, read, entries⟩ := ih _ distinct others
      refine ⟨result, ?_, entries.trans (insert_perm_append absent pairs)⟩
      have separated := readSeparator_comma left right later.beginsSolid
      rw [← read, ← readPairs_step (readPair_complete first _) absent separated]
      simp only [List.append_assoc, List.cons_append]

theorem readLabels_iff {body : List Char} {labels : Labels} :
    readLabels body = .ok labels ↔
      ∃ pairs, BodyText body pairs ∧ (pairs.map Prod.fst).Nodup ∧ labels.pairs.Perm pairs := by
  constructor
  · intro h
    obtain ⟨pairs, inside, distinct, -, entries⟩ := readPairs_sound h
    obtain ⟨blanks, leading, split⟩ := Text.exists_blanks_append_trimStart body
    rw [split]
    exact ⟨pairs, .mk leading inside, distinct, by simpa [Labels.empty] using entries⟩
  · intro given
    rcases given with ⟨pairs, ⟨leading, inside⟩, distinct, entries⟩
    obtain ⟨result, read, found⟩ := readPairs_complete .empty inside distinct fun _ _ => rfl
    have same : result = labels := by
      refine Labels.eq_of_perm (found.trans ?_)
      simpa [Labels.empty] using entries.symm
    rw [readLabels, Text.trimStart_blanks_append leading, Text.trimStart_eq_self inside.beginsSolid,
      read, same]

theorem readValue_iff {token : List Char} {value : Binary64} :
    readValue token = .ok value ↔ ValueText token value := by
  have readable : readValue token = .ok value ↔ Binary64.read? token = some value := by
    rw [readValue]
    split
    next read => simp [read]
    next read => simp [read]
  rw [readable]
  constructor
  · exact .number
  · intro given
    rcases given with _ | _ | _ | _ | read
    · decide +kernel
    · decide +kernel
    · decide +kernel
    · decide +kernel
    · exact read

theorem readTail_sound {cs : List Char} {value : Binary64} (h : readTail cs = .ok value) :
    TailText cs value := by
  rw [readTail] at h
  split at h
  · cases h
  · rename_i token later split
    obtain ⟨before, rest, rfl, blanksBefore, word, ended, left⟩ :=
      Text.exists_of_words_eq_cons split
    cases valueRead : readValue token with
    | error cause => rw [valueRead] at h; cases h
    | ok number =>
        have denotes := readValue_iff.mp valueRead
        rw [valueRead] at h
        cases later with
        | nil =>
            cases h
            exact .bare blanksBefore word denotes (Text.blanks_of_words_eq_nil left)
        | cons time extra =>
            obtain ⟨between, after, rfl, blanksBetween, timeWord, -, others⟩ :=
              Text.exists_of_words_eq_cons left
            -- The value ends at a blank, and a time stamp begins with none.
            have apart : between ≠ [] := by
              intro same
              subst same
              obtain ⟨nonempty, solid⟩ := timeWord
              obtain ⟨c, rest, rfl⟩ := List.exists_cons_of_ne_nil nonempty
              have blank := ended c rfl
              rw [solid c List.mem_cons_self] at blank
              cases blank
            simp only [bind, Except.bind] at h
            split at h
            · cases h
            · rename_i integer
              cases extra with
              | nil =>
                  cases h
                  have integer := Option.isSome_iff_ne_none.mpr integer
                  have whole := TailText.stamped blanksBefore word denotes blanksBetween apart
                    timeWord integer (Text.blanks_of_words_eq_nil others)
                  simpa only [List.append_assoc] using whole
              | cons => cases h

theorem readTail_complete {cs : List Char} {value : Binary64} (h : TailText cs value) :
    readTail cs = .ok value := by
  cases h with
  | bare blanksBefore word denotes blanksAfter =>
      rw [readTail, List.append_assoc, Text.words_blanks_append blanksBefore,
        Text.words_word_append word fun c first => blanksAfter c (List.mem_of_mem_head? first),
        Text.words_blanks blanksAfter]
      simp only [readValue_iff.mpr denotes]
      rfl
  | @stamped before token between time after _ blanksBefore word denotes blanksBetween apart
      timeWord integer blanksAfter =>
      have ended : ∀ c ∈ (between ++ (time ++ after)).head?, Text.isBlank c = true := by
        intro c first
        obtain ⟨d, rest, rfl⟩ := List.exists_cons_of_ne_nil apart
        obtain rfl : d = c := by simpa using first
        exact blanksBetween d List.mem_cons_self
      have split : Text.words (before ++ token ++ between ++ time ++ after) = [token, time] := by
        rw [List.append_assoc, List.append_assoc, List.append_assoc,
          Text.words_blanks_append blanksBefore, Text.words_word_append word ended,
          Text.words_blanks_append blanksBetween,
          Text.words_word_append timeWord fun c first => blanksAfter c (List.mem_of_mem_head? first),
          Text.words_blanks blanksAfter]
      simp only [readTail, split, readValue_iff.mpr denotes]
      exact if_neg (Option.isSome_iff_ne_none.mp integer)

theorem readTail_cons_blank {c : Char} (blank : Text.isBlank c = true) (rest : List Char) :
    readTail (c :: rest) = readTail rest := by
  rw [readTail, readTail, Text.words, if_pos blank]

theorem readSampleLine_complete {line : List Char} {sample : SampleLine}
    (h : LineText line sample) : readSampleLine line = .ok sample := by
  cases h with
  | @bare name tail value isName apart ending =>
      obtain ⟨c, first, blank⟩ := apart
      obtain ⟨rest, rfl⟩ := List.head?_eq_some_iff.mp first
      obtain ⟨taken, left⟩ := takeWhile_run (c :: rest) isName.all_isMetricChar fun d head => by
        obtain rfl : c = d := by simpa using head
        exact isMetricChar_of_isBlank blank
      have brace : c ≠ '{' := by
        intro same
        subst same
        revert blank
        decide
      have value := readTail_complete ending
      rw [readTail_cons_blank blank] at value
      simp only [readSampleLine, taken, left, isMetricName_iff.mpr isName, blank, value]
      rfl
  | @labelled name body tail pairs labels value isName inside distinct entries ending =>
      obtain ⟨taken, left⟩ := takeWhile_run ('{' :: (body ++ '}' :: tail))
        isName.all_isMetricChar fun d head => by
          obtain rfl : '{' = d := by simpa using head
          decide
      have labelsRead := readLabels_iff.mpr ⟨pairs, inside, distinct, entries⟩
      rw [List.append_assoc, List.cons_append]
      simp only [readSampleLine, taken, left, isMetricName_iff.mpr isName, splitLabelSet_body inside,
        labelsRead, readTail_complete ending]
      rfl

theorem readSampleLine_sound {line : List Char} {sample : SampleLine}
    (h : readSampleLine line = .ok sample) : LineText line sample := by
  have parts : line = line.takeWhile isMetricChar ++ line.dropWhile isMetricChar :=
    List.takeWhile_append_dropWhile.symm
  simp only [readSampleLine] at h
  split at h
  · cases h
  · rename_i named
    have isName : MetricName (line.takeWhile isMetricChar) :=
      isMetricName_iff.mp (by simpa using named)
    split at h
    next rest open_ =>
      split at h
      · cases h
      · rename_i inside tail found
        rw [open_, eq_of_splitLabelSet found] at parts
        simp only [bind, Except.bind] at h
        split at h
        · cases h
        · rename_i labels labelsRead
          split at h
          · cases h
          · rename_i value valueRead
            cases h
            obtain ⟨pairs, body, distinct, entries⟩ := readLabels_iff.mp labelsRead
            have whole := LineText.labelled isName body distinct entries (readTail_sound valueRead)
            simpa only [List.append_assoc, List.cons_append, ← parts] using whole
    next => cases h
    next c tail noBrace split =>
      split at h
      next blank =>
        simp only [bind, Except.bind] at h
        split at h
        · cases h
        · rename_i value valueRead
          cases h
          rw [← readTail_cons_blank blank] at valueRead
          have whole := LineText.bare isName ⟨c, rfl, blank⟩ (readTail_sound valueRead)
          rw [← split, ← parts] at whole
          exact whole
      next => cases h

theorem readSampleLine_eq_ok_iff (line : List Char) (sample : SampleLine) :
    readSampleLine line = .ok sample ↔ LineText line sample :=
  ⟨readSampleLine_sound, readSampleLine_complete⟩

end ProxyMonitor.Exposition
