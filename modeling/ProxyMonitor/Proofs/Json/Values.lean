import Mathlib.Data.List.Forall2
import Mathlib.Data.List.Induction
import ProxyMonitor.Json.Reader
import ProxyMonitor.Proofs.Labels

/-! JSON values as trees: how deep they nest, the numbers in them, and their canonical form. -/

namespace ProxyMonitor.Json

theorem induct {motive : Json → Prop} (null : motive .null)
    (bool : ∀ value, motive (.bool value)) (number : ∀ value, motive (.number value))
    (string : ∀ text, motive (.string text))
    (array : ∀ items, (∀ item ∈ items, motive item) → motive (.array items))
    (object : ∀ members, (∀ member ∈ members, motive member.2) → motive (.object members))
    (unreadable : motive .unreadable) (json : Json) : motive json :=
  @Json.rec motive (fun items => ∀ item ∈ items, motive item)
    (fun members => ∀ member ∈ members, motive member.2) (fun member => motive member.2)
    null bool number string array object unreadable
    (fun _ member => nomatch member)
    (fun _ _ first rest => List.forall_mem_cons.mpr ⟨first, rest⟩)
    (fun _ member => nomatch member)
    (fun _ _ first rest => List.forall_mem_cons.mpr ⟨first, rest⟩)
    (fun _ _ value => value) json

theorem areReadable_iff {items : List Json} :
    areReadable items = true ↔ ∀ item ∈ items, item.isReadable = true := by
  induction items with
  | nil => simp [areReadable]
  | cons item rest ih => simp [areReadable, ih]

theorem membersReadable_iff {members : List (String × Json)} :
    membersReadable members = true ↔ ∀ member ∈ members, member.2.isReadable = true := by
  induction members with
  | nil => simp [membersReadable]
  | cons member rest ih => simp [membersReadable, ih]

theorem canonicalItems_eq (items : List Json) : canonicalItems items = items.map canonical := by
  induction items with
  | nil => rfl
  | cons item rest ih => rw [canonicalItems, ih, List.map_cons]

theorem canonicalMembers_eq (members : List (String × Json)) :
    canonicalMembers members = members.map fun member => (member.1, member.2.canonical) := by
  induction members with
  | nil => rfl
  | cons member rest ih => rw [canonicalMembers, ih, List.map_cons]

mutual

def numbers : Json → List JsonNumber
  | .number value => [value]
  | .array items => itemNumbers items
  | .object members => memberNumbers members
  | _ => []

def itemNumbers : List Json → List JsonNumber
  | [] => []
  | item :: rest => numbers item ++ itemNumbers rest

def memberNumbers : List (String × Json) → List JsonNumber
  | [] => []
  | (_, value) :: rest => numbers value ++ memberNumbers rest

end

theorem itemNumbers_eq (items : List Json) : itemNumbers items = items.flatMap numbers := by
  induction items with
  | nil => rfl
  | cons item rest ih => rw [itemNumbers, ih, List.flatMap_cons]

theorem memberNumbers_eq (members : List (String × Json)) :
    memberNumbers members = members.flatMap fun member => member.2.numbers := by
  induction members with
  | nil => rfl
  | cons member rest ih => rw [memberNumbers, ih, List.flatMap_cons]

theorem sortMembers_concat (members : List (String × Json)) (member : String × Json) :
    sortMembers (members ++ [member]) = insertEntry member.1 member.2 (sortMembers members) := by
  rw [sortMembers, List.foldl_append]
  rfl

theorem ascending_sortMembers (members : List (String × Json)) :
    Ascending (sortMembers members) := by
  induction members using List.reverseRecOn with
  | nil => exact .nil
  | append_singleton members member ih =>
      rw [sortMembers_concat]
      exact ascending_insertEntry ih

theorem mem_of_mem_sortMembers {members : List (String × Json)} {member : String × Json}
    (inside : member ∈ sortMembers members) : member ∈ members := by
  induction members using List.reverseRecOn with
  | nil => exact inside
  | append_singleton members last ih =>
      rw [sortMembers_concat] at inside
      rcases mem_insertEntry inside with rfl | inside
      · exact List.mem_append_right _ List.mem_cons_self
      · exact List.mem_append_left _ (ih inside)

theorem lookup_sortMembers (members : List (String × Json)) (name : String) :
    (sortMembers members).lookup name = members.reverse.lookup name := by
  induction members using List.reverseRecOn with
  | nil => rfl
  | append_singleton members last ih =>
      rw [sortMembers_concat, lookup_insertEntry, ih, List.reverse_concat, lookup_cons_eq]

theorem lookup_reverse (members : List (String × Json)) (name : String) :
    members.reverse.lookup name =
      (members.filter (·.1 == name)).getLast?.map Prod.snd := by
  induction members using List.reverseRecOn with
  | nil => rfl
  | append_singleton members last ih =>
      rw [List.reverse_concat, lookup_cons_eq, ih, List.filter_append]
      by_cases same : last.1 = name
      · simp [same]
      · simp [same, Ne.symm same]

theorem get?_of_alone {members : List (String × Json)} {name : String} {field : Option Json}
    (alone : members.filter (·.1 == name) = (field.map (Prod.mk name)).toList) :
    (Json.object members).get? name = field := by
  rw [get?, lookup_reverse, alone]
  cases field <;> rfl

theorem lookup_canonicalMembers (members : List (String × Json)) (name : String) :
    (canonicalMembers members).reverse.lookup name =
      (members.reverse.lookup name).map canonical := by
  rw [lookup_reverse, lookup_reverse, canonicalMembers_eq, List.filter_map, List.getLast?_map,
    Option.map_map, Option.map_map]
  rfl

theorem sortMembers_of_ascending {members : List (String × Json)} (ascending : Ascending members) :
    sortMembers members = members := by
  induction members using List.reverseRecOn with
  | nil => rfl
  | append_singleton members last ih =>
      obtain ⟨earlier, -, before⟩ := List.pairwise_append.mp ascending
      rw [sortMembers_concat, ih earlier]
      apply insertEntry_of_last
      intro entry inside
      exact before entry inside last List.mem_cons_self

theorem canonicalMembers_of_canonical {members : List (String × Json)}
    (each : ∀ member ∈ members, member.2.canonical = member.2) :
    canonicalMembers members = members := by
  rw [canonicalMembers_eq]
  calc
    members.map (fun member => (member.1, member.2.canonical)) = members.map id := by
      apply List.map_congr_left
      intro member inside
      rw [each member inside]
      rfl
    _ = members := List.map_id members

theorem exists_of_mem_canonical {members : List (String × Json)} {member : String × Json}
    (inside : member ∈ sortMembers (canonicalMembers members)) :
    ∃ own ∈ members, (own.1, own.2.canonical) = member := by
  have among := mem_of_mem_sortMembers inside
  rw [canonicalMembers_eq] at among
  exact List.mem_map.mp among

theorem canonicalMembers_sortMembers {members : List (String × Json)}
    (each : ∀ member ∈ members, member.2.canonical.canonical = member.2.canonical) :
    canonicalMembers (sortMembers (canonicalMembers members)) =
      sortMembers (canonicalMembers members) := by
  apply canonicalMembers_of_canonical
  intro member inside
  obtain ⟨own, given, rfl⟩ := exists_of_mem_canonical inside
  exact each own given

theorem canonical_canonical (json : Json) : json.canonical.canonical = json.canonical := by
  induction json using induct with
  | array items ih =>
      have same : items.map (canonical ∘ canonical) = items.map canonical := List.map_congr_left ih
      simp only [canonical, canonicalItems_eq, List.map_map, same]
  | object members ih =>
      rw [canonical, canonical, canonicalMembers_sortMembers ih,
        sortMembers_of_ascending (ascending_sortMembers _)]
  | _ => rfl

theorem mem_of_get? {members : List (String × Json)} {name : String} {value : Json}
    (found : (Json.object members).get? name = some value) :
    ∃ member ∈ members, member.2 = value := by
  rw [get?, lookup_reverse] at found
  obtain ⟨member, last, same⟩ := Option.map_eq_some_iff.mp found
  exact ⟨member, (List.mem_filter.mp (List.mem_of_getLast? last)).1, same⟩

theorem get?_canonical (members : List (String × Json)) (name : String) :
    (Json.object members).canonical.get? name =
      ((Json.object members).get? name).map canonical := by
  have ascending := ascending_sortMembers (canonicalMembers members)
  rw [canonical, get?, get?, ← lookup_sortMembers (sortMembers _), sortMembers_of_ascending ascending,
    lookup_sortMembers, lookup_canonicalMembers]

/-- Two values are equal up to the order of members and to members that are written over. -/
inductive Alike : Json → Json → Prop where
  | null : Alike .null .null
  | bool (value : Bool) : Alike (.bool value) (.bool value)
  | number (value : JsonNumber) : Alike (.number value) (.number value)
  | string (text : String) : Alike (.string text) (.string text)
  | array {items others : List Json} (each : List.Forall₂ Alike items others) :
      Alike (.array items) (.array others)
  | object {members others : List (String × Json)}
      (each : ∀ name, Option.Rel Alike ((Json.object members).get? name)
        ((Json.object others).get? name)) : Alike (.object members) (.object others)
  | unreadable : Alike .unreadable .unreadable

theorem alike_canonical (json : Json) : Alike json json.canonical := by
  induction json using induct with
  | null => exact .null
  | bool value => exact .bool value
  | number value => exact .number value
  | string text => exact .string text
  | array items ih =>
      rw [canonical, canonicalItems_eq]
      apply Alike.array
      rw [List.forall₂_map_right_iff, List.forall₂_same]
      exact ih
  | object members ih =>
      apply Alike.object
      intro name
      change Option.Rel Alike _ ((Json.object members).canonical.get? name)
      rw [get?_canonical]
      cases found : (Json.object members).get? name with
      | none => exact .none
      | some value =>
          obtain ⟨member, inside, rfl⟩ := mem_of_get? found
          exact .some (ih member inside)
  | unreadable => exact .unreadable

/-- All containers of a value lie below the limit, and all its numbers have some property. -/
inductive Nests (ok : JsonNumber → Prop) : (depth : Nat) → Json → Prop where
  | null (depth : Nat) : Nests ok depth .null
  | bool (depth : Nat) (value : Bool) : Nests ok depth (.bool value)
  | number (depth : Nat) {value : JsonNumber} (holds : ok value) : Nests ok depth (.number value)
  | string (depth : Nat) (text : String) : Nests ok depth (.string text)
  | array {depth : Nat} {items : List Json} (room : depth < depthLimit)
      (each : ∀ item ∈ items, Nests ok (depth + 1) item) : Nests ok depth (.array items)
  | object {depth : Nat} {members : List (String × Json)} (room : depth < depthLimit)
      (each : ∀ member ∈ members, Nests ok (depth + 1) member.2) : Nests ok depth (.object members)

namespace Nests

variable {ok also : JsonNumber → Prop} {depth : Nat} {json : Json}

@[simp]
theorem null_iff : Nests ok depth .null ↔ True := iff_true_intro (.null depth)

@[simp]
theorem bool_iff {value : Bool} : Nests ok depth (.bool value) ↔ True :=
  iff_true_intro (.bool depth value)

@[simp]
theorem number_iff {value : JsonNumber} : Nests ok depth (.number value) ↔ ok value :=
  ⟨fun nests => by cases nests; assumption, .number depth⟩

@[simp]
theorem string_iff {text : String} : Nests ok depth (.string text) ↔ True :=
  iff_true_intro (.string depth text)

@[simp]
theorem array_iff {items : List Json} : Nests ok depth (.array items) ↔
    depth < depthLimit ∧ ∀ item ∈ items, Nests ok (depth + 1) item :=
  ⟨fun nests => by cases nests with | array room each => exact ⟨room, each⟩,
    fun ⟨room, each⟩ => .array room each⟩

@[simp]
theorem object_iff {members : List (String × Json)} : Nests ok depth (.object members) ↔
    depth < depthLimit ∧ ∀ member ∈ members, Nests ok (depth + 1) member.2 :=
  ⟨fun nests => by cases nests with | object room each => exact ⟨room, each⟩,
    fun ⟨room, each⟩ => .object room each⟩

theorem isReadable (nests : Nests ok depth json) : json.isReadable = true := by
  induction nests with
  | array _ _ ih => exact areReadable_iff.mpr ih
  | object _ _ ih => exact membersReadable_iff.mpr ih
  | _ => rfl

theorem canonical (nests : Nests ok depth json) : Nests ok depth json.canonical := by
  induction nests with
  | null depth => exact .null depth
  | bool depth value => exact .bool depth value
  | number depth holds => exact .number depth holds
  | string depth text => exact .string depth text
  | array room _ ih =>
      rw [Json.canonical, canonicalItems_eq]
      exact .array room (List.forall_mem_map.mpr ih)
  | object room _ ih =>
      rw [Json.canonical]
      apply Nests.object room
      intro member inside
      obtain ⟨own, among, rfl⟩ := exists_of_mem_canonical inside
      exact ih own among

theorem imp (nests : Nests ok depth json)
    (numbers : ∀ number ∈ json.numbers, ok number → also number) : Nests also depth json := by
  induction nests with
  | null depth => exact .null depth
  | bool depth value => exact .bool depth value
  | number depth holds => exact .number depth (numbers _ List.mem_cons_self holds)
  | string depth text => exact .string depth text
  | array room _ ih =>
      rw [Json.numbers, itemNumbers_eq] at numbers
      apply Nests.array room
      intro item inside
      apply ih item inside
      intro number among
      exact numbers number (List.mem_flatMap.mpr ⟨item, inside, among⟩)
  | object room _ ih =>
      rw [Json.numbers, memberNumbers_eq] at numbers
      apply Nests.object room
      intro member inside
      apply ih member inside
      intro number among
      exact numbers number (List.mem_flatMap.mpr ⟨member, inside, among⟩)

end Nests

end ProxyMonitor.Json
