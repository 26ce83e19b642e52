import ProxyMonitor.Json.Reader
import ProxyMonitor.Proofs.Json.Records
import ProxyMonitor.Proofs.Json.Values

/-! Every value that is read and has no unreadable part nests below the limit. -/

namespace ProxyMonitor.Json

/-- A value nests below the limit, unless it has an unreadable part. -/
def NestsIfReadable (depth : Nat) (json : Json) : Prop :=
  json.isReadable = true → Nests (fun _ => True) depth json

structure ReadNesting (fuel : Nat) : Prop where
  value : ∀ {depth cs json rest}, readValue fuel depth cs = some (json, rest) →
    NestsIfReadable depth json
  items : ∀ {depth cs items rest}, readItems fuel depth cs = some (items, rest) →
    ∀ item ∈ items, NestsIfReadable depth item
  members : ∀ {depth cs members rest}, readMembers fuel depth cs = some (members, rest) →
    ∀ member ∈ members, NestsIfReadable depth member.2

section

variable {depth : Nat}

theorem nestsIfReadable_unreadable : NestsIfReadable depth .unreadable := by
  intro readable
  cases readable

theorem nestsIfReadable_nested {json : Json}
    (nests : depth < depthLimit → NestsIfReadable depth json) :
    NestsIfReadable depth (nested depth json) := by
  rw [nested]
  split
  next room => exact nests room
  next => exact nestsIfReadable_unreadable

theorem nestsIfReadable_array (room : depth < depthLimit) {items : List Json}
    (each : ∀ item ∈ items, NestsIfReadable (depth + 1) item) :
    NestsIfReadable depth (.array items) := by
  intro readable
  apply Nests.array room
  intro item inside
  exact each item inside (areReadable_iff.mp readable item inside)

theorem nestsIfReadable_ofMembers? (room : depth < depthLimit)
    {members : List (Option String × Json)}
    (each : ∀ member ∈ members, NestsIfReadable (depth + 1) member.2) :
    NestsIfReadable depth (ofMembers? members) := by
  rw [ofMembers?]
  split
  next named read =>
    intro readable
    apply Nests.object room
    intro member inside
    obtain ⟨own, given, same⟩ := exists_of_mem_right (mapM_eq_some_iff.mp read) inside
    obtain ⟨name, -, rfl⟩ := Option.map_eq_some_iff.mp same
    exact each own given (membersReadable_iff.mp readable _ inside)
  next => exact nestsIfReadable_unreadable

theorem nestsIfReadable_string (text : Option String) :
    NestsIfReadable depth ((text.map Json.string).getD .unreadable) := by
  cases text with
  | none => exact nestsIfReadable_unreadable
  | some text => exact fun _ => .string depth text

theorem nestsIfReadable_number (text : NumberText) :
    NestsIfReadable depth ((text.value?.map Json.number).getD .unreadable) := by
  cases text.value? with
  | none => exact nestsIfReadable_unreadable
  | some number => exact fun _ => .number depth trivial

end

namespace ReadNesting

variable {fuel : Nat}

theorem zero : ReadNesting 0 where
  value read := nomatch read
  items read := nomatch read
  members read := nomatch read

theorem value_succ (nesting : ReadNesting fuel) {depth : Nat} {cs : List Char} {json : Json}
    {rest : List Char} (read : readValue (fuel + 1) depth cs = some (json, rest)) :
    NestsIfReadable depth json := by
  rw [readValue] at read
  -- One case for each first character; only the containers go on to the other readers.
  split at read
  case h_1 =>
    cases read
    exact fun _ => .null depth
  case h_2 =>
    cases read
    exact fun _ => .bool depth true
  case h_3 =>
    cases read
    exact fun _ => .bool depth false
  case h_4 =>
    obtain ⟨⟨text, _⟩, -, same⟩ := Option.map_eq_some_iff.mp read
    cases same
    exact nestsIfReadable_string text
  case h_5 =>
    split at read
    next =>
      cases read
      exact nestsIfReadable_nested fun room => nestsIfReadable_array room (by simp)
    next =>
      obtain ⟨⟨items, _⟩, filled, same⟩ := Option.map_eq_some_iff.mp read
      cases same
      exact nestsIfReadable_nested fun room => nestsIfReadable_array room (nesting.items filled)
  case h_6 =>
    split at read
    next =>
      cases read
      exact nestsIfReadable_nested fun room _ => .object room (by simp)
    next =>
      obtain ⟨⟨members, _⟩, filled, same⟩ := Option.map_eq_some_iff.mp read
      cases same
      exact nestsIfReadable_nested fun room =>
        nestsIfReadable_ofMembers? room (nesting.members filled)
  case h_7 =>
    obtain ⟨⟨text, _⟩, -, same⟩ := Option.map_eq_some_iff.mp read
    cases same
    exact nestsIfReadable_number text

theorem items_succ (nesting : ReadNesting fuel) {depth : Nat} {cs : List Char} {items : List Json}
    {rest : List Char} (read : readItems (fuel + 1) depth cs = some (items, rest)) :
    ∀ item ∈ items, NestsIfReadable depth item := by
  rw [readItems] at read
  obtain ⟨⟨first, after⟩, value, others⟩ := Option.bind_eq_some_iff.mp read
  have head := nesting.value value
  dsimp only at others
  split at others
  next =>
    cases others
    exact List.forall_mem_singleton.mpr head
  next =>
    obtain ⟨⟨later, _⟩, filled, same⟩ := Option.bind_eq_some_iff.mp others
    cases same
    exact List.forall_mem_cons.mpr ⟨head, nesting.items filled⟩
  next => cases others

theorem members_succ (nesting : ReadNesting fuel) {depth : Nat} {cs : List Char}
    {members : List (Option String × Json)} {rest : List Char}
    (read : readMembers (fuel + 1) depth cs = some (members, rest)) :
    ∀ member ∈ members, NestsIfReadable depth member.2 := by
  rw [readMembers] at read
  split at read
  next =>
    obtain ⟨⟨name, _⟩, -, valued⟩ := Option.bind_eq_some_iff.mp read
    dsimp only at valued
    split at valued
    next =>
      obtain ⟨⟨first, after⟩, value, others⟩ := Option.bind_eq_some_iff.mp valued
      have head := nesting.value value
      dsimp only at others
      split at others
      next =>
        cases others
        exact List.forall_mem_singleton.mpr head
      next =>
        obtain ⟨⟨later, _⟩, filled, same⟩ := Option.bind_eq_some_iff.mp others
        cases same
        exact List.forall_mem_cons.mpr ⟨head, nesting.members filled⟩
      next => cases others
    next => cases valued
  next => cases read

theorem all (fuel : Nat) : ReadNesting fuel := by
  induction fuel with
  | zero => exact zero
  | succ fuel ih => exact ⟨ih.value_succ, ih.items_succ, ih.members_succ⟩

end ReadNesting

theorem nests_of_read? {text : String} {json : Json} (read : read? text = some json) :
    NestsIfReadable 0 json := by
  rw [read?] at read
  split at read
  next value =>
    split at read
    next =>
      cases read
      exact (ReadNesting.all _).value value
    next => cases read
  next => cases read

end ProxyMonitor.Json
