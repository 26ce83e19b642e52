import ProxyMonitor.Proofs.Json.Numbers
import ProxyMonitor.Proofs.Json.Texts
import ProxyMonitor.Proofs.Json.Values

/-! A value that is written on one line is read back as the value. -/

namespace ProxyMonitor.Json

/-- The text begins with a value or a name: no blank is skipped, and no container ends. -/
def Begun (cs : List Char) : Prop :=
  ∃ c rest, cs = c :: rest ∧ isSpace c = false ∧ c ≠ ']' ∧ c ≠ '\x7d'

theorem Begun.append {cs : List Char} (begun : Begun cs) (rest : List Char) :
    Begun (cs ++ rest) := by
  obtain ⟨c, later, rfl, solid⟩ := begun
  exact ⟨c, later ++ rest, rfl, solid⟩

theorem Begun.exists_fuel {cs : List Char} (begun : Begun cs) {fuel : Nat}
    (enough : 2 * cs.length ≤ fuel) : ∃ left, fuel = left + 1 := by
  obtain ⟨c, later, rfl, -⟩ := begun
  rw [List.length_cons] at enough
  exact ⟨fuel - 1, by omega⟩

theorem Begun.skipSpace {cs : List Char} (begun : Begun cs) : Json.skipSpace cs = cs := by
  obtain ⟨c, later, rfl, solid, -⟩ := begun
  exact List.dropWhile_cons_of_neg (by rw [solid]; decide)

theorem head_of_readNumberText? {cs : List Char} {result : NumberText × List Char}
    (read : readNumberText? cs = some result) :
    ∃ c rest, cs = c :: rest ∧ (c = '-' ∨ c.isDigit = true) := by
  cases cs with
  | nil => cases read
  | cons c rest =>
      refine ⟨c, rest, rfl, ?_⟩
      by_contra other
      obtain ⟨minus, digit⟩ := not_or.mp other
      have none : (c :: rest).takeWhile Char.isDigit = [] := List.takeWhile_cons_of_neg digit
      rw [readNumberText?_unsigned minus] at read
      simp only [readUnsigned?, none, true_or, if_true] at read
      cases read

theorem begun_of_number {c : Char} (first : c = '-' ∨ c.isDigit = true) (rest : List Char) :
    Begun (c :: rest) := by
  refine ⟨c, rest, rfl, ?_⟩
  rcases first with rfl | digit
  · decide
  · have other : ∀ d, d.isDigit = false → c ≠ d := by
      rintro d none rfl
      rw [none] at digit
      cases digit
    simp [isSpace, other]

theorem readValue_number (fuel depth : Nat) {c : Char} (first : c = '-' ∨ c.isDigit = true)
    (rest : List Char) :
    readValue (fuel + 1) depth (c :: rest) = (readNumberText? (c :: rest)).map
      (Prod.map (fun text => (text.value?.map Json.number).getD .unreadable) id) := by
  have other : ∀ d, d ≠ '-' → d.isDigit = false → c ≠ d := by
    rintro d minus none rfl
    rcases first with same | digit
    · exact minus same
    · rw [none] at digit
      cases digit
  rw [readValue, (begun_of_number first rest).skipSpace]
  split
  case h_7 => rfl
  all_goals
    next same => exact absurd (List.cons.inj same).1 (other _ (by decide) (by decide))

theorem toList_array (items : List Json) :
    (compact (.array items)).toList = '[' :: ((compactItems items).toList ++ [']']) := by
  rw [compact, String.toList_append, String.toList_append]
  rfl

theorem toList_object (members : List (String × Json)) :
    (compact (.object members)).toList =
      '\x7b' :: ((compactMembers members).toList ++ ['\x7d']) := by
  rw [compact, String.toList_append, String.toList_append]
  rfl

theorem toList_items (item next : Json) (rest : List Json) :
    (compactItems (item :: next :: rest)).toList =
      (compact item).toList ++ ',' :: (compactItems (next :: rest)).toList := by
  rw [compactItems, String.toList_append, String.toList_append, List.append_assoc]
  · rfl
  · intro none
    cases none

theorem toList_member (name : String) (value : Json) :
    (compactMembers [(name, value)]).toList =
      '"' :: (escaped name.toList ++ '"' :: ':' :: (compact value).toList) := by
  simp [compactMembers, toList_quote]

theorem toList_members (name : String) (value : Json) (next : String × Json)
    (rest : List (String × Json)) :
    (compactMembers ((name, value) :: next :: rest)).toList =
      '"' :: (escaped name.toList ++
        '"' :: ':' :: ((compact value).toList ++ ',' :: (compactMembers (next :: rest)).toList)) := by
  simp [compactMembers, toList_quote]

/-- The text of a value below `depth` containers is read as the value. Two units of fuel a character
are enough: each value takes one, and one more if it has a place in a container. -/
structure ReadsAt (depth : Nat) (json : Json) : Prop where
  begun : Begun (compact json).toList
  read : ∀ fuel rest, 2 * (compact json).toList.length ≤ fuel → Ended rest →
    readValue fuel depth ((compact json).toList ++ rest) = some (json, rest)

theorem readItems_compact {depth : Nat} {items : List Json} (filled : items ≠ [])
    (each : ∀ item ∈ items, ReadsAt depth item) {fuel : Nat}
    (enough : 2 * (compactItems items).toList.length + 1 ≤ fuel) (rest : List Char) :
    readItems fuel depth ((compactItems items).toList ++ ']' :: rest) = some (items, rest) := by
  -- The fuel pays for the rest of the list as well, so it is left free in the induction.
  induction items generalizing fuel with
  | nil => exact absurd rfl filled
  | cons item later ih =>
      obtain ⟨first, others⟩ := List.forall_mem_cons.mp each
      obtain ⟨fuel, rfl⟩ : ∃ left, fuel = left + 1 := ⟨fuel - 1, by omega⟩
      cases later with
      | nil =>
          have room : 2 * (compact item).toList.length ≤ fuel := Nat.le_of_succ_le_succ enough
          have value := first.read fuel _ room (Ended.cons (.inr (.inl rfl)) rest)
          rw [readItems, compactItems, value]
          rfl
      | cons next later =>
          rw [toList_items, List.length_append, List.length_cons] at enough
          have left : 2 * (compactItems (next :: later)).toList.length + 1 ≤ fuel := by omega
          have value := first.read fuel _ (by omega) (Ended.cons (.inl rfl)
            ((compactItems (next :: later)).toList ++ ']' :: rest))
          have remaining := ih (List.cons_ne_nil next later) others left
          rw [readItems, toList_items, List.append_assoc, List.cons_append, value]
          change (readItems fuel depth _).bind _ = _
          rw [remaining]
          rfl

theorem readMembers_named (fuel depth : Nat) (name : String) (cs : List Char) :
    readMembers (fuel + 1) depth ('"' :: (escaped name.toList ++ '"' :: ':' :: cs)) =
      (readValue fuel depth cs).bind fun (value, rest) =>
        match skipSpace rest with
        | '\x7d' :: rest => some ([(some name, value)], rest)
        | ',' :: rest => (readMembers fuel depth rest).bind fun (members, rest) =>
            some ((some name, value) :: members, rest)
        | _ => none := by
  rw [readMembers]
  change (readString? _).bind _ = _
  rw [readString?_escaped]
  rfl

theorem readMembers_compact {depth : Nat} {members : List (String × Json)} (filled : members ≠ [])
    (each : ∀ member ∈ members, ReadsAt depth member.2) {fuel : Nat}
    (enough : 2 * (compactMembers members).toList.length + 1 ≤ fuel) (rest : List Char) :
    readMembers fuel depth ((compactMembers members).toList ++ '\x7d' :: rest) =
      some (members.map (Prod.map some id), rest) := by
  induction members generalizing fuel with
  | nil => exact absurd rfl filled
  | cons member later ih =>
      obtain ⟨name, json⟩ := member
      obtain ⟨first, others⟩ := List.forall_mem_cons.mp each
      obtain ⟨fuel, rfl⟩ : ∃ left, fuel = left + 1 := ⟨fuel - 1, by omega⟩
      cases later with
      | nil =>
          rw [toList_member] at enough ⊢
          simp only [List.length_append, List.length_cons] at enough
          have room : 2 * (compact json).toList.length ≤ fuel := by omega
          have value := first.read fuel _ room (Ended.cons (.inr (.inr rfl)) rest)
          simp only [List.cons_append, List.append_assoc]
          rw [readMembers_named, value]
          rfl
      | cons next later =>
          rw [toList_members] at enough ⊢
          simp only [List.length_append, List.length_cons] at enough
          have room : 2 * (compact json).toList.length ≤ fuel := by omega
          have left : 2 * (compactMembers (next :: later)).toList.length + 1 ≤ fuel := by omega
          have value := first.read fuel _ room (Ended.cons (.inl rfl)
            ((compactMembers (next :: later)).toList ++ '\x7d' :: rest))
          have remaining := ih (List.cons_ne_nil next later) others left
          simp only [List.cons_append, List.append_assoc]
          rw [readMembers_named, value]
          change (readMembers fuel depth _).bind _ = _
          rw [remaining]
          rfl

theorem ofMembers?_named (members : List (String × Json)) :
    ofMembers? (members.map (Prod.map some id)) = .object members := by
  have names : (members.map (Prod.map some id)).mapM
      (fun member => member.1.map (·, member.2)) = some members := by
    induction members with
    | nil => rfl
    | cons member later ih =>
        rw [List.map_cons, List.mapM_cons, ih]
        rfl
  rw [ofMembers?, names]

theorem begun_items {items : List Json} (filled : items ≠ [])
    (each : ∀ item ∈ items, Begun (compact item).toList) : Begun (compactItems items).toList := by
  rcases items with _ | ⟨item, _ | ⟨next, later⟩⟩
  · exact absurd rfl filled
  · exact each item List.mem_cons_self
  · rw [toList_items]
    exact (each item List.mem_cons_self).append _

theorem begun_members {members : List (String × Json)} (filled : members ≠ []) :
    Begun (compactMembers members).toList := by
  have quoted (rest : List Char) : Begun ('"' :: rest) :=
    ⟨'"', rest, rfl, by decide, by decide, by decide⟩
  rcases members with _ | ⟨⟨name, value⟩, _ | ⟨next, later⟩⟩
  · exact absurd rfl filled
  · rw [toList_member]
    exact quoted _
  · rw [toList_members]
    exact quoted _

theorem readsAt_number {number : JsonNumber} (back : number.ReadsBack) (depth : Nat) :
    ReadsAt depth (.number number) := by
  obtain ⟨text, value, read⟩ := back
  have alone := read [] Ended.nil
  rw [List.append_nil] at alone
  obtain ⟨c, later, shape, first⟩ := head_of_readNumberText? alone
  have begun : Begun (compact (.number number)).toList := by
    rw [compact, shape]
    exact begun_of_number first later
  refine ⟨begun, fun fuel rest enough ended => ?_⟩
  obtain ⟨left, rfl⟩ := begun.exists_fuel enough
  have found := read rest ended
  rw [shape, List.cons_append] at found
  rw [compact, shape, List.cons_append, readValue_number left depth first, found, Option.map_some,
    Prod.map_apply, value]
  rfl

theorem readsAt_string (depth : Nat) (text : String) : ReadsAt depth (.string text) := by
  have begun : Begun (compact (.string text)).toList := by
    rw [compact, toList_quote]
    exact ⟨'"', _, rfl, by decide, by decide, by decide⟩
  refine ⟨begun, fun fuel rest enough ended => ?_⟩
  obtain ⟨left, rfl⟩ := begun.exists_fuel enough
  rw [compact, toList_quote, List.cons_append, List.append_assoc, List.singleton_append]
  change (readString? _).map _ = _
  rw [readString?_escaped]
  rfl

theorem readValue_items (fuel depth : Nat) {cs : List Char} (begun : Begun cs) :
    readValue (fuel + 1) depth ('[' :: cs) = (readItems fuel (depth + 1) cs).map
      (Prod.map (fun items => nested depth (.array items)) id) := by
  have opened : skipSpace ('[' :: cs) = '[' :: cs := rfl
  simp only [readValue, opened, begun.skipSpace]
  split
  next =>
    obtain ⟨c, later, same, -, bracket, -⟩ := begun
    exact absurd (List.cons.inj same).1.symm bracket
  next => rfl

theorem readValue_members (fuel depth : Nat) {cs : List Char} (begun : Begun cs) :
    readValue (fuel + 1) depth ('\x7b' :: cs) = (readMembers fuel (depth + 1) cs).map
      (Prod.map (fun members => nested depth (ofMembers? members)) id) := by
  have opened : skipSpace ('\x7b' :: cs) = '\x7b' :: cs := rfl
  simp only [readValue, opened, begun.skipSpace]
  split
  next =>
    obtain ⟨c, later, same, -, -, brace⟩ := begun
    exact absurd (List.cons.inj same).1.symm brace
  next => rfl

theorem readsAt_array {depth : Nat} (room : depth < depthLimit) {items : List Json}
    (each : ∀ item ∈ items, ReadsAt (depth + 1) item) : ReadsAt depth (.array items) := by
  have begun : Begun (compact (.array items)).toList := by
    rw [toList_array]
    exact ⟨'[', _, rfl, by decide, by decide, by decide⟩
  refine ⟨begun, fun fuel rest enough ended => ?_⟩
  obtain ⟨left, rfl⟩ := begun.exists_fuel enough
  rw [toList_array] at enough ⊢
  rw [List.length_cons, List.length_append, List.length_singleton] at enough
  rw [List.cons_append, List.append_assoc, List.singleton_append]
  by_cases filled : items = []
  · subst filled
    change some (nested depth (.array []), rest) = _
    rw [nested, if_pos room]
  · have inner := begun_items filled fun item inside => (each item inside).begun
    have remaining : 2 * (compactItems items).toList.length + 1 ≤ left := by omega
    rw [readValue_items left depth (inner.append _), readItems_compact filled each remaining,
      Option.map_some, Prod.map_apply, nested, if_pos room]
    rfl

theorem readsAt_object {depth : Nat} (room : depth < depthLimit) {members : List (String × Json)}
    (each : ∀ member ∈ members, ReadsAt (depth + 1) member.2) : ReadsAt depth (.object members) := by
  have begun : Begun (compact (.object members)).toList := by
    rw [toList_object]
    exact ⟨'\x7b', _, rfl, by decide, by decide, by decide⟩
  refine ⟨begun, fun fuel rest enough ended => ?_⟩
  obtain ⟨left, rfl⟩ := begun.exists_fuel enough
  rw [toList_object] at enough ⊢
  rw [List.length_cons, List.length_append, List.length_singleton] at enough
  rw [List.cons_append, List.append_assoc, List.singleton_append]
  by_cases filled : members = []
  · subst filled
    change some (nested depth (.object []), rest) = _
    rw [nested, if_pos room]
  · have inner := begun_members filled
    have remaining : 2 * (compactMembers members).toList.length + 1 ≤ left := by omega
    rw [readValue_members left depth (inner.append _), readMembers_compact filled each remaining,
      Option.map_some, Prod.map_apply, ofMembers?_named, nested, if_pos room]
    rfl

theorem Nests.readsAt {depth : Nat} {json : Json} (nests : Nests JsonNumber.ReadsBack depth json) :
    ReadsAt depth json := by
  induction nests with
  | null depth =>
      have begun : Begun (compact .null).toList := ⟨'n', _, rfl, by decide, by decide, by decide⟩
      refine ⟨begun, fun fuel rest enough _ => ?_⟩
      obtain ⟨left, rfl⟩ := begun.exists_fuel enough
      rfl
  | bool depth value =>
      have begun : Begun (compact (.bool value)).toList := by
        cases value
        · exact ⟨'f', _, rfl, by decide, by decide, by decide⟩
        · exact ⟨'t', _, rfl, by decide, by decide, by decide⟩
      refine ⟨begun, fun fuel rest enough _ => ?_⟩
      obtain ⟨left, rfl⟩ := begun.exists_fuel enough
      cases value <;> rfl
  | number depth back => exact readsAt_number back depth
  | string depth text => exact readsAt_string depth text
  | array room _ ih => exact readsAt_array room ih
  | object room _ ih => exact readsAt_object room ih

theorem read?_compact {json : Json} (nests : Nests JsonNumber.ReadsBack 0 json) :
    read? (compact json) = some json := by
  have read := nests.readsAt.read (2 * (compact json).toList.length + 1) []
    (Nat.le_succ _) Ended.nil
  rw [List.append_nil] at read
  simp only [read?, read]
  rfl

end ProxyMonitor.Json
