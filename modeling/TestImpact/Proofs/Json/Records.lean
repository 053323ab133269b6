import TestImpact.Json.Decode
import TestImpact.Proofs.Json.RoundTrip

/-!
# Records in JSON

A record is written as an object that has its fields in order and leaves out those without a value
(`slots`). Whatever is left out, the decoder finds under each name the value that was written there
and notices where there is none (`record?_slots`). What a field decoder makes of such a value is
said once for each decoder, and decoding of a whole record follows field by field.
-/

namespace TestImpact.Json

/-- The fields of an object, made from names with values some of which are absent. -/
def slots (fields : List (String × Option Json)) : List (String × Json) :=
  fields.flatMap fun field => optional field.1 field.2

theorem optional_some (name : String) (x : Json) : optional name (some x) = [(name, x)] := rfl

theorem slots_cons (field : String × Option Json) (fields : List (String × Option Json)) :
    slots (field :: fields) = optional field.1 field.2 ++ slots fields :=
  List.flatMap_cons

theorem mem_optional {p : String × Json} {name : String} {value : Option Json} :
    p ∈ optional name value ↔ p.1 = name ∧ value = some p.2 := by
  obtain ⟨n, x⟩ := p
  cases value with
  | none => simp [optional]
  | some y => simp [optional, eq_comm]

theorem mem_slots {p : String × Json} {fields : List (String × Option Json)} :
    p ∈ slots fields ↔ (p.1, some p.2) ∈ fields := by
  simp only [slots, List.mem_flatMap, mem_optional]
  constructor
  · rintro ⟨⟨n, v⟩, hmem, rfl, rfl⟩
    exact hmem
  · exact fun h => ⟨_, h, rfl, rfl⟩

/-- A record of exact values is exact. -/
theorem exact_slots {fields : List (String × Option Json)}
    (h : ∀ field ∈ fields, ∀ x ∈ field.2, Exact x) : Exact (.object (slots fields)) :=
  .object fun p hp => h _ (mem_slots.mp hp) p.2 rfl

theorem exact_some {x : Json} (h : Exact x) : ∀ y ∈ some x, Exact y :=
  fun _ hy => Option.some.inj hy ▸ h

/-! ## Finding fields -/

/-- Under a name stands the value of that name and nothing else, if names differ. -/
theorem filter_slots {fields : List (String × Option Json)} (hnodup : (fields.map (·.1)).Nodup)
    {name : String} {value : Option Json} (h : (name, value) ∈ fields) :
    (slots fields).filter (·.1 = name) = optional name value := by
  induction fields with
  | nil => cases h
  | cons field fields ih =>
    obtain ⟨n, v⟩ := field
    rw [List.map_cons, List.nodup_cons] at hnodup
    rw [slots_cons, List.filter_append]
    rcases List.mem_cons.mp h with heq | h
    · obtain ⟨rfl, rfl⟩ := Prod.mk.inj heq
      have hthis : (optional name value).filter (·.1 = name) = optional name value :=
        List.filter_eq_self.mpr fun p hp => decide_eq_true (mem_optional.mp hp).1
      have hothers : (slots fields).filter (·.1 = name) = [] := by
        refine List.filter_eq_nil_iff.mpr fun p hp heq => hnodup.1 ?_
        exact List.mem_map.mpr ⟨_, mem_slots.mp hp, of_decide_eq_true heq⟩
      rw [hthis, hothers, List.append_nil]
    · have hthis : (optional n v).filter (·.1 = name) = [] := by
        refine List.filter_eq_nil_iff.mpr fun p hp heq => hnodup.1 ?_
        have hn : n = name := (mem_optional.mp hp).1.symm.trans (of_decide_eq_true heq)
        exact List.mem_map.mpr ⟨_, h, hn.symm⟩
      rw [hthis, List.nil_append, ih hnodup.2 h]

/-- Where the names differ, each field is found with its value or not at all. -/
theorem uniqueField?_slots {fields : List (String × Option Json)}
    (hnodup : (fields.map (·.1)).Nodup) {name : String} {value : Option Json}
    (h : (name, value) ∈ fields) : uniqueField? name (slots fields) = some value := by
  rw [uniqueField?, filter_slots hnodup h]
  cases value <;> rfl

/-- **Records are read back** field by field, be the fields present or not. -/
theorem record?_slots {rules : List FieldRule} {fields : List (String × Option Json)}
    (hnames : rules.map (·.name) = fields.map (·.1)) (hnodup : (rules.map (·.name)).Nodup) :
    record? rules (.object (slots fields)) = some (fields.map (·.2)) := by
  rw [hnames] at hnodup
  -- the fields that are still to be found are some of all fields, in which each of them is sought
  have hfind : ∀ (rules : List FieldRule) (sought : List (String × Option Json)),
      rules.map (·.name) = sought.map (·.1) → (∀ field ∈ sought, field ∈ fields) →
        rules.mapM (fun rule => uniqueField? rule.name (slots fields)) =
          some (sought.map (·.2)) := by
    intro rules
    induction rules with
    | nil =>
      intro sought hnames _
      rw [List.map_eq_nil_iff.mp hnames.symm]
      rfl
    | cons rule rules ih =>
      intro sought hnames hsought
      cases sought with
      | nil => cases hnames
      | cons field sought =>
        obtain ⟨hname, hnames⟩ := List.cons.inj hnames
        have hname : rule.name = field.1 := hname
        have hmem : (rule.name, field.2) ∈ fields := hname ▸ hsought field (by simp)
        rw [List.mapM_cons, uniqueField?_slots hnodup hmem,
          ih sought hnames fun field' h => hsought field' (by simp [h])]
        rfl
  exact hfind rules fields hnames fun _ h => h

/-! ## Values and what they are written as -/

/-- Whether something is written as a JSON value: the decoder gives it back, the value outlives
being written and read, and it is not the `null` that stands for what is absent. -/
structure Faithful {α : Type} (decode : Json → Option α) (json : Json) (x : α) : Prop where
  decode_eq : decode json = some x
  exact : Exact json
  ne_null : json ≠ .null

section Faithful

variable {α : Type} {decode : Json → Option α} {encode : α → Json}

theorem faithful_string (s : String) : Faithful string? (.string s) s :=
  ⟨rfl, .string s, nofun⟩

theorem faithful_nat {bound n : Nat} (hbound : bound ≤ Decimal.bound64) (h : n < bound) :
    Faithful (natural? bound) (.nat n) n := by
  refine ⟨?_, Exact.nat (Nat.lt_of_lt_of_le h hbound), nofun⟩
  have hn : 0 ≤ (n : Int) ∧ (n : Int) < bound := by omega
  simp [natural?, nat, hn]

/-- Records are written as the list of their fields. -/
theorem faithful_slots {fields : List (String × Option Json)} {x : α}
    (hdecode : decode (.object (slots fields)) = some x)
    (hexact : ∀ field ∈ fields, ∀ y ∈ field.2, Exact y) :
    Faithful decode (.object (slots fields)) x :=
  ⟨hdecode, exact_slots hexact, nofun⟩

/-- Lists are written item by item. -/
theorem faithful_list (items : List α) (h : ∀ x ∈ items, Faithful decode (encode x) x) :
    Faithful (list? decode) (.array (items.map encode)) items := by
  refine ⟨?_, .array ?_, nofun⟩
  · show (items.map encode).mapM decode = some items
    induction items with
    | nil => rfl
    | cons x items ih =>
      rw [List.map_cons, List.mapM_cons, (h x (by simp)).decode_eq,
        ih fun y hy => h y (by simp [hy])]
      rfl
  · rw [List.forall_mem_map]
    exact fun x hx => (h x hx).exact

/-- What is absent is told from what is there. -/
theorem optional?_map {value : Option α} (h : ∀ x ∈ value, Faithful decode (encode x) x) :
    optional? decode (value.map encode) = some value := by
  cases value with
  | none => rfl
  | some x =>
    obtain ⟨hdecode, -, hnull⟩ := h x rfl
    show nullable? decode (encode x) = some (some x)
    unfold nullable?
    split
    · next heq => exact absurd heq hnull
    · rw [hdecode]
      rfl

theorem exact_map {value : Option α} (h : ∀ x ∈ value, Faithful decode (encode x) x) :
    ∀ y ∈ value.map encode, Exact y := by
  simp only [Option.mem_def, Option.map_eq_some_iff]
  rintro y ⟨x, hx, rfl⟩
  exact (h x hx).exact

theorem optional?_string (value : Option String) :
    optional? string? (value.map .string) = some value :=
  optional?_map fun s _ => faithful_string s

theorem exact_string (value : Option String) : ∀ y ∈ value.map Json.string, Exact y :=
  exact_map fun s _ => faithful_string s

end Faithful

end TestImpact.Json
