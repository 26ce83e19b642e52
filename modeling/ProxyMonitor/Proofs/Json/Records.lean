import Mathlib.Data.List.Forall2
import ProxyMonitor.Json.Record

namespace ProxyMonitor.Json

theorem mapM_eq_some_iff {α β : Type} {decode : α → Option β} {items : List α} {values : List β} :
    items.mapM decode = some values ↔
      List.Forall₂ (fun item value => decode item = some value) items values := by
  induction items generalizing values with
  | nil => simp [eq_comm]
  | cons item rest ih =>
      rw [List.mapM_cons]
      constructor
      · intro read
        obtain ⟨value, first, read⟩ := Option.bind_eq_some_iff.mp read
        obtain ⟨later, others, read⟩ := Option.bind_eq_some_iff.mp read
        cases read
        exact .cons first (ih.mp others)
      · intro each
        cases each with
        | cons first others =>
            rw [first, ih.mpr others]
            rfl

theorem exists_of_mem_right {α β : Type} {R : α → β → Prop} {items : List α} {values : List β}
    (each : List.Forall₂ R items values) {value : β} (inside : value ∈ values) :
    ∃ item ∈ items, R item value := by
  induction each with
  | nil => cases inside
  | cons first _ ih =>
      rcases List.mem_cons.mp inside with rfl | later
      · exact ⟨_, List.mem_cons_self, first⟩
      · obtain ⟨item, among, holds⟩ := ih later
        exact ⟨item, List.mem_cons_of_mem _ among, holds⟩

theorem exists_of_mem_left {α β : Type} {R : α → β → Prop} {items : List α} {values : List β}
    (each : List.Forall₂ R items values) {item : α} (inside : item ∈ items) :
    ∃ value ∈ values, R item value :=
  exists_of_mem_right each.flip inside

theorem fieldsOfMembers?_eq_some_iff {names : List String} {members : List (String × Json)}
    {fields : List (Option Json)} :
    fieldsOfMembers? names members = some fields ↔
      List.Forall₂ (fun name field =>
        members.filter (·.1 == name) = (field.map (Prod.mk name)).toList) names fields := by
  rw [fieldsOfMembers?, mapM_eq_some_iff]
  refine iff_of_eq (congrArg (List.Forall₂ · names fields) ?_)
  ext name field
  have named : ∀ member ∈ members.filter (·.1 == name), member.1 = name := by
    intro member inside
    exact beq_iff_eq.mp (List.mem_filter.mp inside).2
  generalize members.filter (·.1 == name) = found at named
  rcases found with _ | ⟨⟨own, json⟩, _ | ⟨second, later⟩⟩
  · cases field <;> simp
  · obtain rfl : own = name := named _ List.mem_cons_self
    cases field <;> simp
  · cases field <;> simp

theorem listOf?_eq_some_iff {α : Type} {decode : Json → Option α} {json : Json} {values : List α} :
    listOf? decode json = some values ↔
      ∃ items, json = .array items ∧
        List.Forall₂ (fun item value => decode item = some value) items values := by
  constructor
  · intro read
    obtain ⟨items, array, each⟩ := Option.bind_eq_some_iff.mp read
    refine ⟨items, ?_, mapM_eq_some_iff.mp each⟩
    cases json with
    | array own => rw [Option.some.inj array]
    | _ => cases array
  · intro shape
    obtain ⟨items, rfl, each⟩ := shape
    exact mapM_eq_some_iff.mpr each

theorem asString?_eq_some_iff {json : Json} {text : String} :
    json.asString? = some text ↔ json = .string text := by
  cases json <;> simp [asString?]

theorem asStrings?_eq_some_iff {json : Json} {texts : List String} :
    json.asStrings? = some texts ↔ json = strings texts := by
  have same : json.asStrings? = listOf? asString? json := rfl
  have each (items : List Json) :
      List.Forall₂ (fun item text => asString? item = some text) items texts ↔
        items = texts.map .string := by
    simp only [asString?_eq_some_iff]
    exact List.forall₂_map_right_iff.symm.trans (by rw [List.forall₂_eq_eq_eq])
  rw [same, listOf?_eq_some_iff, strings]
  constructor
  · intro shape
    obtain ⟨items, rfl, read⟩ := shape
    rw [(each items).mp read]
  · intro shape
    exact ⟨_, shape, (each _).mpr rfl⟩

theorem optional_eq_some_some_iff {α : Type} {decode : Json → Option α} {field : Option Json}
    {value : α} :
    optional decode field = some (some value) ↔
      ∃ json, field = some json ∧ json ≠ .null ∧ decode json = some value := by
  cases field with
  | none => simp [optional]
  | some json => cases json <;> simp [optional]

end ProxyMonitor.Json
