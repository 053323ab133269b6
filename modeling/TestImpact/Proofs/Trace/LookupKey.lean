import TestImpact.Proofs.Text.Affix
import TestImpact.Trace.Resolver

/-!
# Keys and ids

The keys of a method are told here by what they are, as texts: the name, the name without the
parentheses at its end, the part after the last period (`QualifiedName.Keys`). The lookup tries
exactly these (`QualifiedName.findSome?_lookupKeys`), so the id that it finds is that of the first
row of the first key that has a row (`methodId?_eq_some_iff`), and it finds none only if no key has
one (`methodId?_eq_none_iff`).
-/

namespace TestImpact

/-- `x` is the first element of a list that has a property. -/
def FirstIn {α : Type} (p : α → Prop) (xs : List α) (x : α) : Prop :=
  ∃ before after, xs = before ++ x :: after ∧ p x ∧ ∀ y ∈ before, ¬ p y

/-- What a search finds is the first element of the kind. -/
theorem find?_eq_some_iff_firstIn {α : Type} {p : α → Bool} {xs : List α} {x : α} :
    xs.find? p = some x ↔ FirstIn (fun y => p y = true) xs x := by
  rw [List.find?_eq_some_iff_append]
  constructor
  · rintro ⟨hx, before, after, rfl, hbefore⟩
    exact ⟨before, after, rfl, hx, fun y hy => by simpa using hbefore y hy⟩
  · rintro ⟨before, after, rfl, hx, hbefore⟩
    exact ⟨hx, before, after, rfl, fun y hy => by simpa using hbefore y hy⟩

/-! ## Lookup keys -/

namespace QualifiedName

/-- `short` is a name without the parentheses at its end. -/
def IsBare (name short : String) : Prop :=
  name = short ++ "()" ∨ short = name ∧ ∀ s, name ≠ s ++ "()"

/-- `id` is what follows the last period of a name, and is not empty. -/
def IsIdentifier (name id : String) : Prop :=
  ∃ qualifier, name = qualifier ++ "." ++ id ∧ '.' ∉ id.toList ∧ id ≠ ""

/-- The keys of a name, the most specific first: the name itself, the name without parentheses and
the identifier at its end. -/
inductive Keys (name : String) : List String → Prop
  | qualified {short id} : IsBare name short → IsIdentifier short id → Keys name [name, short, id]
  | plain {short} : IsBare name short → (∀ id, ¬ IsIdentifier short id) → Keys name [name, short]

theorem bare_append (short : List Char) : bare (short ++ ['(', ')']) = short := by
  rw [bare, Text.isSuffixOf?_eq_some_iff.mpr rfl, Option.getD_some]

theorem bare_of_ne {name : List Char} (h : ∀ s, name ≠ s ++ ['(', ')']) : bare name = name := by
  rw [bare]
  cases hs : List.isSuffixOf? ['(', ')'] name with
  | none => rfl
  | some s => exact absurd (Text.isSuffixOf?_eq_some_iff.mp hs) (h s)

theorem isBare_iff {name short : String} :
    IsBare name short ↔ short.toList = bare name.toList := by
  constructor
  · rintro (rfl | ⟨rfl, hne⟩)
    · rw [String.toList_append]
      exact (bare_append short.toList).symm
    · refine (bare_of_ne fun s hs => hne (String.ofList s) ?_).symm
      rw [← String.toList_inj, hs, String.toList_append, String.toList_ofList]
      rfl
  · intro h
    by_cases hname : ∃ s, name = s ++ "()"
    · obtain ⟨s, rfl⟩ := hname
      rw [String.toList_append] at h
      have hs : short.toList = s.toList := h.trans (bare_append s.toList)
      exact .inl (by rw [String.toList_inj.mp hs])
    · have hne : ∀ s, name ≠ s ++ "()" := fun s hs => hname ⟨s, hs⟩
      refine .inr ⟨String.toList_inj.mp (h.trans (bare_of_ne fun s hs => ?_)), hne⟩
      refine hne (String.ofList s) ?_
      rw [← String.toList_inj, hs, String.toList_append, String.toList_ofList]
      rfl

/-- Reading a name backwards up to the last period finds what follows it. -/
theorem identifier?_append {q id : List Char} (hdot : '.' ∉ id) (hne : id ≠ []) :
    identifier? (q ++ '.' :: id) = some id := by
  have htake : ((q ++ '.' :: id).reverse.takeWhile (· ≠ '.')).reverse = id := by
    rw [List.reverse_append, List.reverse_cons, List.append_assoc, List.takeWhile_append_of_pos]
    · simp
    · intro c hc
      have : c ≠ '.' := fun h => hdot (h ▸ List.mem_reverse.mp hc)
      simpa using this
  simp only [identifier?, htake]
  simp [hne]

/-- The identifier of a name follows its last dot and is not empty. -/
theorem identifier?_eq_some_iff {name id : List Char} :
    identifier? name = some id ↔ ∃ q, name = q ++ '.' :: id ∧ '.' ∉ id ∧ id ≠ [] := by
  constructor
  · intro h
    have hdot : '.' ∈ name := Decidable.byContradiction fun hno => by
      simp [identifier?, hno] at h
    obtain ⟨last, q, hrev, hlast⟩ := List.eq_append_cons_of_mem (List.mem_reverse.mpr hdot)
    obtain rfl : name = q.reverse ++ '.' :: last.reverse := by
      simpa using congrArg List.reverse hrev
    have hlast : '.' ∉ last.reverse := by simpa using hlast
    by_cases hne : last.reverse = []
    · simp [identifier?, hne] at h
    · rw [identifier?_append hlast hne] at h
      cases h
      exact ⟨q.reverse, rfl, hlast, hne⟩
  · rintro ⟨q, rfl, hdot, hne⟩
    exact identifier?_append hdot hne

theorem isIdentifier_iff {name id : String} :
    IsIdentifier name id ↔ identifier? name.toList = some id.toList := by
  rw [identifier?_eq_some_iff]
  constructor
  · rintro ⟨q, rfl, hdot, hne⟩
    refine ⟨q.toList, by simp [String.toList_append], hdot, ?_⟩
    exact fun h => hne (String.toList_eq_nil_iff.mp h)
  · rintro ⟨q, hname, hdot, hne⟩
    refine ⟨String.ofList q, ?_, hdot, fun h => hne (String.toList_eq_nil_iff.mpr h)⟩
    rw [← String.toList_inj, hname]
    simp [String.toList_append, String.toList_ofList]

/-- Every name has keys. -/
theorem exists_keys (name : String) : ∃ keys, Keys name keys := by
  have hbare : IsBare name (String.ofList (bare name.toList)) :=
    isBare_iff.mpr String.toList_ofList
  by_cases h : ∃ id, IsIdentifier (String.ofList (bare name.toList)) id
  · obtain ⟨id, hid⟩ := h
    exact ⟨_, .qualified hbare hid⟩
  · exact ⟨_, .plain hbare fun id hid => h ⟨id, hid⟩⟩

/-- The names under which a method is looked up are its keys, a repetition left out. -/
theorem findSome?_lookupKeys {α : Type} {name : String} {keys : List String} (h : Keys name keys)
    (f : String → Option α) : (lookupKeys name).findSome? f = keys.findSome? f := by
  -- the keys name a method twice where it has no parentheses; looking it up again finds no more
  have repeated : ∀ rest, (name :: rest).findSome? f = (name :: name :: rest).findSome? f := by
    intro rest
    cases hf : f name <;> simp [hf]
  cases h with
  | @qualified short id hbare hid =>
    rw [isBare_iff] at hbare
    rw [isIdentifier_iff, hbare] at hid
    by_cases hshort : short = name
    · subst hshort
      simp only [lookupKeys, ← hbare, ↓reduceIte]
      rw [hbare, hid, ← repeated]
      simp [String.ofList_toList]
    · have hne : bare name.toList ≠ name.toList := fun h =>
        hshort (String.toList_inj.mp (hbare.trans h))
      simp only [lookupKeys, hne, ↓reduceIte, hid]
      simp [← hbare, String.ofList_toList]
  | @plain short hbare hno =>
    rw [isBare_iff] at hbare
    have hid : identifier? (bare name.toList) = none := by
      rw [← hbare, Option.eq_none_iff_forall_ne_some]
      intro id hid
      exact hno (String.ofList id) (isIdentifier_iff.mpr (by rw [hid, String.toList_ofList]))
    by_cases hshort : short = name
    · subst hshort
      simp only [lookupKeys, ← hbare, ↓reduceIte]
      rw [hbare, hid, ← repeated]
      simp
    · have hne : bare name.toList ≠ name.toList := fun h =>
        hshort (String.toList_inj.mp (hbare.trans h))
      simp only [lookupKeys, hne, ↓reduceIte, hid]
      simp [← hbare, String.ofList_toList]

end QualifiedName

/-! ## Ids -/

/-- `id` is that of the first row of the first key of a name that is the name of a row. -/
def HasId (rows : List NamedRow) (name id : String) : Prop :=
  ∃ keys key row, QualifiedName.Keys name keys ∧
    FirstIn (fun k => ∃ r ∈ rows, r.name = k) keys key ∧
    FirstIn (fun r => r.name = key) rows row ∧ row.id = id

/-- No key of a name is the name of a row. -/
def HasNoId (rows : List NamedRow) (name : String) : Prop :=
  ∃ keys, QualifiedName.Keys name keys ∧ ∀ key ∈ keys, ∀ row ∈ rows, row.name ≠ key

/-- The id of a key is that of the first row with this name. -/
theorem idOf?_eq_some_iff {rows : List NamedRow} {key id : String} :
    NamedRow.idOf? rows key = some id ↔
      ∃ row, FirstIn (fun r => r.name = key) rows row ∧ row.id = id := by
  simp [NamedRow.idOf?, Option.map_eq_some_iff, find?_eq_some_iff_firstIn]

theorem idOf?_eq_none_iff {rows : List NamedRow} {key : String} :
    NamedRow.idOf? rows key = none ↔ ∀ row ∈ rows, row.name ≠ key := by
  simp [NamedRow.idOf?]

/-- No id is found for a method just where it has none. -/
theorem methodId?_eq_none_iff {rows : List NamedRow} {name : String} :
    methodId? rows name = none ↔ HasNoId rows name := by
  have hnone : ∀ keys, QualifiedName.Keys name keys →
      (methodId? rows name = none ↔ ∀ key ∈ keys, ∀ row ∈ rows, row.name ≠ key) := by
    intro keys hkeys
    simp only [methodId?, QualifiedName.findSome?_lookupKeys hkeys, List.findSome?_eq_none_iff,
      idOf?_eq_none_iff]
  constructor
  · intro h
    obtain ⟨keys, hkeys⟩ := QualifiedName.exists_keys name
    exact ⟨keys, hkeys, (hnone keys hkeys).mp h⟩
  · rintro ⟨keys, hkeys, h⟩
    exact (hnone keys hkeys).mpr h

/-- The id that is found for a method is the one it has. -/
theorem methodId?_eq_some_iff {rows : List NamedRow} {name id : String} :
    methodId? rows name = some id ↔ HasId rows name id := by
  constructor
  · intro h
    obtain ⟨keys, hkeys⟩ := QualifiedName.exists_keys name
    rw [methodId?, QualifiedName.findSome?_lookupKeys hkeys, List.findSome?_eq_some_iff] at h
    obtain ⟨before, key, after, rfl, hid, hbefore⟩ := h
    obtain ⟨row, hrow, rfl⟩ := idOf?_eq_some_iff.mp hid
    refine ⟨_, key, row, hkeys, ⟨before, after, rfl, ?_, ?_⟩, hrow, rfl⟩
    · obtain ⟨_, _, rfl, hname, -⟩ := hrow
      exact ⟨row, by simp, hname⟩
    · rintro k hk ⟨r, hr, hname⟩
      exact idOf?_eq_none_iff.mp (hbefore k hk) r hr hname
  · rintro ⟨keys, key, row, hkeys, ⟨before, after, rfl, -, hbefore⟩, hrow, rfl⟩
    rw [methodId?, QualifiedName.findSome?_lookupKeys hkeys, List.findSome?_eq_some_iff]
    refine ⟨before, key, after, rfl, idOf?_eq_some_iff.mpr ⟨row, hrow, rfl⟩, fun k hk => ?_⟩
    exact idOf?_eq_none_iff.mpr fun r hr hname => hbefore k hk ⟨r, hr, hname⟩

end TestImpact
