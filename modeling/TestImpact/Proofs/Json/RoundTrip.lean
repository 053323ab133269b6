import TestImpact.Proofs.Json.Scalars

/-!
# Written values are read back

A written value is read back as it was, in any layout that puts blanks only between its parts
(`parse?_write`). That holds of the values that are `Exact`: all but floating point numbers, whose
last bit may change, and malformed parts, which have no form of their own.

Arrays and objects are told from their items and fields: if these are read back, wherever they
stand, then the whole is (`readItems_join`, `readFields_join`). A reader takes at most two steps for
each character, which bounds how far it has to count.
-/

namespace TestImpact.Json

/-- The values whose written form denotes them and nothing else. -/
inductive Exact : Json → Prop
  | null : Exact .null
  | bool (b : Bool) : Exact (.bool b)
  | integer {n : Int} : -9223372036854775808 ≤ n → n < Decimal.bound64 →
      Exact (.number (.integer n))
  | string (s : String) : Exact (.string s)
  | array {items : List Json} : (∀ x ∈ items, Exact x) → Exact (.array items)
  | object {fields : List (String × Json)} : (∀ p ∈ fields, Exact p.2) → Exact (.object fields)

theorem Exact.nat {n : Nat} (h : n < Decimal.bound64) : Exact (.nat n) :=
  .integer (by omega) (by exact_mod_cast h)

/-! ## Blanks -/

/-- Whether a text is made of blanks only. -/
def Blanks (s : List Char) : Prop := ∀ c ∈ s, isBlank c = true

theorem skip_append {gap : List Char} (h : Blanks gap) (s : List Char) :
    skip (gap ++ s) = skip s :=
  List.dropWhile_append_of_pos h

theorem skip_cons {c : Char} (h : isBlank c = false) (s : List Char) : skip (c :: s) = c :: s := by
  simp [skip, h]

theorem endsNumber_sign {c : Char} (h : c ∈ [',', ']', '\x7D']) (s : List Char) :
    EndsNumber (c :: s) := by
  simp only [List.mem_cons, List.not_mem_nil, or_false] at h
  show c.isDigit = false ∧ c ≠ '.' ∧ c ≠ 'e' ∧ c ≠ 'E'
  rcases h with rfl | rfl | rfl <;> decide

/-- Blanks end a number, and so does what ends a number behind them. -/
theorem endsNumber_gap {gap s : List Char} (h : Blanks gap) (hs : EndsNumber s) :
    EndsNumber (gap ++ s) := by
  cases gap with
  | nil => exact hs
  | cons b gap =>
    have hb : isBlank b = true := h b (by simp)
    simp only [isBlank, Bool.or_eq_true, decide_eq_true_eq] at hb
    show b.isDigit = false ∧ b ≠ '.' ∧ b ≠ 'e' ∧ b ≠ 'E'
    rcases hb with ((rfl | rfl) | rfl) | rfl <;> decide

theorem isBlank_of_isDigit {d : Char} (h : d.isDigit = true) : isBlank d = false := by
  refine Bool.eq_false_iff.mpr fun hb => ?_
  simp only [isBlank, Bool.or_eq_true, decide_eq_true_eq] at hb
  rcases hb with ((rfl | rfl) | rfl) | rfl <;> exact absurd h (by decide)

theorem readValue_gap {gap : List Char} (h : Blanks gap) (bound : Nat) (s : List Char) :
    readValue bound (gap ++ s) = readValue bound s := by
  cases bound with
  | zero => rfl
  | succ bound => rw [readValue, readValue, skip_append h]

theorem readItems_gap {gap : List Char} (h : Blanks gap) (bound : Nat) (s : List Char) :
    readItems bound (gap ++ s) = readItems bound s := by
  cases bound with
  | zero => rfl
  | succ bound => rw [readItems, readItems, readValue_gap h]

theorem readFields_gap {gap : List Char} (h : Blanks gap) (bound : Nat) (s : List Char) :
    readFields bound (gap ++ s) = readFields bound s := by
  cases bound with
  | zero => rfl
  | succ bound => rw [readFields, readFields, skip_append h]

/-! ## Layouts -/

/-- The layouts that put nothing but blanks around the signs of JSON. -/
structure Layout.Spaced (layout : Layout) : Prop where
  before : ∀ level, Blanks (layout.before level)
  after : ∀ level, Blanks (layout.after level)
  between : ∀ level, ∃ gap, Blanks gap ∧ layout.between level = ',' :: gap
  colon : ∃ gap, Blanks gap ∧ layout.colon = ':' :: gap

theorem blanks_newLine (level : Nat) : Blanks (Layout.newLine level) := by
  intro c hc
  rcases List.mem_cons.mp hc with rfl | hc
  · rfl
  · rw [List.eq_of_mem_replicate hc]
    rfl

theorem Layout.spaced_compact : Layout.compact.Spaced where
  before _ := by simp [Blanks, compact]
  after _ := by simp [Blanks, compact]
  between _ := ⟨[], by simp [Blanks], rfl⟩
  colon := ⟨[], by simp [Blanks], rfl⟩

theorem Layout.spaced_indented : Layout.indented.Spaced where
  before level := blanks_newLine (level + 1)
  after level := blanks_newLine level
  between level := ⟨newLine (level + 1), blanks_newLine (level + 1), rfl⟩
  colon := ⟨[' '], by simp [Blanks, isBlank], rfl⟩

theorem writeItems_eq_map (layout : Layout) (level : Nat) (items : List Json) :
    writeItems layout level items = items.map (write layout level) := by
  induction items with
  | nil => rfl
  | cons x items ih => rw [writeItems, ih, List.map_cons]

/-- A field with its name. -/
def writeField (layout : Layout) (level : Nat) (field : String × Json) : List Char :=
  quote field.1.toList ++ layout.colon ++ write layout level field.2

theorem writeFields_eq_map (layout : Layout) (level : Nat) (fields : List (String × Json)) :
    writeFields layout level fields = fields.map (writeField layout level) := by
  induction fields with
  | nil => rfl
  | cons p fields ih => rw [writeFields, ih, List.map_cons, writeField]

/-! ## Values that are read back -/

/-- Whether a value is read back wherever it stands: at any level, before any text that does not
prolong it, by a reader with steps enough. -/
def ReadBack (layout : Layout) (x : Json) : Prop :=
  ∀ level bound rest, 2 * (write layout level x).length ≤ bound → EndsNumber rest →
    readValue bound (write layout level x ++ rest) = some (x, rest)

/-- Whether a text begins, but not with a blank or with a closing bracket. -/
def StartsPart (s : List Char) : Prop :=
  ∃ c t, s = c :: t ∧ isBlank c = false ∧ c ≠ ']' ∧ c ≠ '\x7D'

theorem StartsPart.append {s : List Char} (h : StartsPart s) (rest : List Char) :
    StartsPart (s ++ rest) := by
  obtain ⟨c, t, rfl, hc⟩ := h
  exact ⟨c, t ++ rest, rfl, hc⟩

theorem StartsPart.join {s : List Char} (h : StartsPart s) (sep : List Char)
    (ss : List (List Char)) : StartsPart (join sep (s :: ss)) := by
  cases ss with
  | nil => exact h
  | cons s' ss =>
    have hcons : Json.join sep (s :: s' :: ss) = s ++ (sep ++ Json.join sep (s' :: ss)) := by
      simp [Json.join]
    exact hcons ▸ h.append _

theorem StartsPart.skip_eq {s : List Char} (h : StartsPart s) : skip s = s := by
  obtain ⟨c, t, rfl, hc, -⟩ := h
  exact skip_cons hc t

theorem Exact.startsPart {x : Json} (h : Exact x) (layout : Layout) (level : Nat) :
    StartsPart (write layout level x) := by
  cases h with
  | null => exact ⟨'n', _, rfl, rfl, by decide, by decide⟩
  | bool b => cases b <;> exact ⟨_, _, rfl, rfl, by decide, by decide⟩
  | @integer n hlow hhigh =>
    by_cases hn : n < 0
    · exact ⟨'-', digits n.natAbs, by simp [write, writeNumber, hn], rfl, by decide, by decide⟩
    · cases hds : digits n.natAbs with
      | nil => exact absurd hds Nat.toDigits_ne_nil
      | cons d ds =>
        have hd : d.isDigit = true := isDigit_of_mem_digits (n := n.natAbs) (by simp [hds])
        refine ⟨d, ds, by simp [write, writeNumber, hn, hds], isBlank_of_isDigit hd, ?_, ?_⟩ <;>
          exact fun heq => absurd (heq ▸ hd) (by decide)
  | string s => exact ⟨'"', _, rfl, rfl, by decide, by decide⟩
  | @array items hitems =>
    simp only [write, Layout.bracket]
    split <;> exact ⟨'[', _, rfl, rfl, by decide, by decide⟩
  | @object fields hfields =>
    simp only [write, Layout.bracket]
    split <;> exact ⟨'\x7B', _, rfl, rfl, by decide, by decide⟩

theorem startsPart_writeField (layout : Layout) (level : Nat) (field : String × Json) :
    StartsPart (writeField layout level field) :=
  ⟨'"', _, rfl, rfl, by decide, by decide⟩

/-- There is always a first step to take, for no value is written as the empty text. -/
theorem Exact.readBack_of_succ {layout : Layout} {x : Json} (h : Exact x)
    (hread : ∀ level bound rest, 2 * (write layout level x).length ≤ bound + 1 →
      EndsNumber rest → readValue (bound + 1) (write layout level x ++ rest) = some (x, rest)) :
    ReadBack layout x := by
  intro level bound rest hbound hends
  obtain ⟨c, s, hwrite, -⟩ := h.startsPart layout level
  cases bound with
  | zero => simp [hwrite] at hbound
  | succ bound => exact hread level bound rest hbound hends

/-! ## Arrays -/

theorem readValue_bracket {gap s : List Char} (hgap : Blanks gap) (hs : StartsPart s)
    (bound : Nat) : readValue (bound + 1) ('[' :: (gap ++ s)) =
      (readItems bound s).map fun p => (.array p.1, p.2) := by
  rw [readValue, skip_cons rfl]
  simp only [skip_append hgap, hs.skip_eq]
  split
  · obtain ⟨c, t, heq, -, hc, -⟩ := hs
    exact absurd (List.cons.inj heq).1.symm hc
  · cases readItems bound s <;> rfl

section Step

variable {bound : Nat} {s rest more : List Char} {x : Json}

/-- A closing bracket behind a value makes it the last item. -/
theorem readItems_last (hx : readValue bound s = some (x, rest)) (h : skip rest = ']' :: more) :
    readItems (bound + 1) s = some ([x], more) := by
  simp [readItems, hx, h]

/-- A comma behind a value makes way for the next item. -/
theorem readItems_next (hx : readValue bound s = some (x, rest)) (h : skip rest = ',' :: more) :
    readItems (bound + 1) s = (readItems bound more).map fun p => (x :: p.1, p.2) := by
  simp only [readItems, hx, h, Option.bind_eq_bind, Option.bind_some]
  cases readItems bound more <;> rfl

end Step

/-- Items with separators between them are read back if each of them is. -/
theorem readItems_join {layout : Layout} (hlayout : layout.Spaced) (level inner : Nat)
    {gap : List Char} (hgap : Blanks gap) (rest : List Char) {items : List Json} (hne : items ≠ [])
    (hitems : ∀ x ∈ items, ReadBack layout x) (bound : Nat)
    (hbound : 2 * (join (layout.between level) (items.map (write layout inner))).length < bound) :
    readItems bound (join (layout.between level) (items.map (write layout inner)) ++
      (gap ++ ']' :: rest)) = some (items, rest) := by
  obtain ⟨sepGap, hsepGap, hsep⟩ := hlayout.between level
  induction items generalizing bound with
  | nil => exact absurd rfl hne
  | cons x items ih =>
    obtain ⟨bound, rfl⟩ : ∃ b, bound = b + 1 := ⟨bound - 1, by omega⟩
    have hx := hitems x (by simp) inner bound
    -- behind an item stands a comma or the closing bracket, and neither of them prolongs a number
    cases items with
    | nil =>
      simp only [List.map_cons, List.map_nil, join] at hbound ⊢
      have hends := endsNumber_gap hgap (endsNumber_sign (c := ']') (by simp) rest)
      exact readItems_last (hx _ (by omega) hends) (by rw [skip_append hgap, skip_cons rfl])
    | cons y items =>
      have hmore := ih (by simp) (fun z hz => hitems z (by simp [hz])) bound
      simp only [List.map_cons, join, hsep, List.length_append, List.length_cons,
        List.append_assoc, List.cons_append] at hbound hmore ⊢
      rw [readItems_next (hx _ (by omega) (endsNumber_sign (by simp) _)) (skip_cons rfl _),
        readItems_gap hsepGap, hmore (by omega)]
      rfl

/-! ## Objects -/

theorem readValue_brace {gap s : List Char} (hgap : Blanks gap) (hs : StartsPart s)
    (bound : Nat) : readValue (bound + 1) ('\x7B' :: (gap ++ s)) =
      (readFields bound s).map fun p =>
        (match p.1 with
          | some fields => .object fields
          | none => .malformed, p.2) := by
  rw [readValue, skip_cons rfl]
  simp only [skip_append hgap, hs.skip_eq]
  split
  · obtain ⟨c, t, heq, -, -, hc⟩ := hs
    exact absurd (List.cons.inj heq).1.symm hc
  · cases readFields bound s <;> rfl

section Step

variable {layout : Layout} {bound : Nat} {s rest more : List Char} {x : Json}

/-- A closing brace behind a value makes its field the last one. -/
theorem readFields_last (hlayout : layout.Spaced) (name : String)
    (hx : readValue bound s = some (x, rest)) (h : skip rest = '\x7D' :: more) :
    readFields (bound + 1) (quote name.toList ++ (layout.colon ++ s)) =
      some (some [(name, x)], more) := by
  obtain ⟨gap, hgap, hcolon⟩ := hlayout.colon
  simp [readFields, quote, skip_cons (c := '"') rfl, skip_cons (c := ':') rfl, readString_quote,
    hcolon, readValue_gap hgap, hx, h, addField]

/-- A comma behind a value makes way for the next field. -/
theorem readFields_next (hlayout : layout.Spaced) (name : String)
    (hx : readValue bound s = some (x, rest)) (h : skip rest = ',' :: more) :
    readFields (bound + 1) (quote name.toList ++ (layout.colon ++ s)) =
      (readFields bound more).map fun p => (addField name x p.1, p.2) := by
  obtain ⟨gap, hgap, hcolon⟩ := hlayout.colon
  simp [readFields, quote, skip_cons (c := '"') rfl, skip_cons (c := ':') rfl, readString_quote,
    hcolon, readValue_gap hgap, hx, h]
  cases readFields bound more <;> rfl

end Step

/-- Fields with separators between them are read back if their values are. -/
theorem readFields_join {layout : Layout} (hlayout : layout.Spaced) (level inner : Nat)
    {gap : List Char} (hgap : Blanks gap) (rest : List Char) {fields : List (String × Json)}
    (hne : fields ≠ []) (hfields : ∀ p ∈ fields, ReadBack layout p.2) (bound : Nat)
    (hbound : 2 * (join (layout.between level) (fields.map (writeField layout inner))).length <
      bound) :
    readFields bound (join (layout.between level) (fields.map (writeField layout inner)) ++
      (gap ++ '\x7D' :: rest)) = some (some fields, rest) := by
  obtain ⟨sepGap, hsepGap, hsep⟩ := hlayout.between level
  -- each field takes more steps than it has characters, so the steps last for the rest
  induction fields generalizing bound with
  | nil => exact absurd rfl hne
  | cons p fields ih =>
    obtain ⟨bound, rfl⟩ : ∃ b, bound = b + 1 := ⟨bound - 1, by omega⟩
    obtain ⟨name, x⟩ := p
    have hx : ReadBack layout x := hfields (name, x) (by simp)
    cases fields with
    | nil =>
      simp only [List.map_cons, List.map_nil, join, writeField, List.length_append,
        List.append_assoc] at hbound ⊢
      have hends := endsNumber_gap hgap (endsNumber_sign (c := '\x7D') (by simp) rest)
      exact readFields_last hlayout name (hx inner bound _ (by omega) hends)
        (by rw [skip_append hgap, skip_cons rfl])
    | cons q fields =>
      have hmore := ih (by simp) (fun z hz => hfields z (by simp [hz])) bound
      have hfield : writeField layout inner (name, x) =
          quote name.toList ++ layout.colon ++ write layout inner x := rfl
      simp only [List.map_cons, join, hsep, hfield, List.length_append, List.length_cons,
        List.append_assoc, List.cons_append] at hbound hmore ⊢
      rw [readFields_next hlayout name (hx inner bound _ (by omega) (endsNumber_sign (by simp) _))
        (skip_cons rfl _), readFields_gap hsepGap, hmore (by omega)]
      rfl

/-! ## All values -/

theorem readValue_digit {d : Char} (h : d.isDigit = true) (bound : Nat) (s : List Char) :
    readValue (bound + 1) (d :: s) =
      (readNumber false (d :: s)).map fun p => (ofNumberText p.1, p.2) := by
  rw [readValue, skip_cons (isBlank_of_isDigit h)]
  split
  iterate 7
    next heq =>
      obtain ⟨rfl, -⟩ := List.cons.inj heq
      exact absurd h (by decide)
  cases readNumber false (d :: s) <;> rfl

theorem readBack_integer (layout : Layout) {n : Int} (hlow : -9223372036854775808 ≤ n)
    (hhigh : n < Decimal.bound64) : ReadBack layout (.number (.integer n)) := by
  refine (Exact.integer hlow hhigh).readBack_of_succ fun level bound rest _ hends => ?_
  by_cases hn : n < 0
  · have hvalue := value?_negative (n := n.natAbs) (by omega) (by omega)
    have hcast : -(n.natAbs : Int) = n := by omega
    rw [hcast] at hvalue
    simp [write, writeNumber, hn, readValue, skip_cons (c := '-') rfl, readNumber_digits true hends,
      ofNumberText, hvalue]
  · -- without a minus, the first digit is what tells a number from other values
    have hvalue := value?_digits (n := n.natAbs) (by omega)
    have hcast : (n.natAbs : Int) = n := by omega
    rw [hcast] at hvalue
    have hwrite : write layout level (.number (.integer n)) = digits n.natAbs := by
      simp [write, writeNumber, hn]
    have hread := readNumber_digits false (n := n.natAbs) hends
    rw [hwrite]
    cases hds : digits n.natAbs with
    | nil => exact absurd hds Nat.toDigits_ne_nil
    | cons d ds =>
      have hd : d.isDigit = true := isDigit_of_mem_digits (n := n.natAbs) (by simp [hds])
      rw [hds, List.cons_append] at hread
      rw [List.cons_append, readValue_digit hd, hread, ← hds]
      simp [ofNumberText, hvalue]

theorem bracket_cons (layout : Layout) (level : Nat) (opening closing : Char) (s : List Char)
    (ss : List (List Char)) : layout.bracket level opening closing (s :: ss) =
      opening :: (layout.before level ++ (join (layout.between level) (s :: ss) ++
        (layout.after level ++ [closing]))) := by
  simp [Layout.bracket]

/-- An array is read back when its items are. -/
theorem readBack_array {layout : Layout} (hlayout : layout.Spaced) {items : List Json}
    (hexact : ∀ x ∈ items, Exact x) (hitems : ∀ x ∈ items, ReadBack layout x) :
    ReadBack layout (.array items) := by
  refine (Exact.array hexact).readBack_of_succ fun level bound rest hbound _ => ?_
  cases items with
  | nil =>
    simp [write, writeItems, Layout.bracket, readValue, skip_cons (c := '[') rfl,
      skip_cons (c := ']') rfl]
  | cons x items =>
    have hjoin := readItems_join hlayout level (level + 1) (hlayout.after level) rest
      (List.cons_ne_nil x items) hitems bound
    have hstart := ((hexact x (by simp)).startsPart layout (level + 1)).join (layout.between level)
      (items.map (write layout (level + 1)))
    simp only [write, writeItems_eq_map, List.map_cons, bracket_cons, List.length_cons,
      List.length_append, List.cons_append, List.nil_append, List.append_assoc] at hbound hjoin ⊢
    rw [readValue_bracket (hlayout.before level) (hstart.append _), hjoin (by omega)]
    rfl

/-- An object is read back when the values of its fields are. -/
theorem readBack_object {layout : Layout} (hlayout : layout.Spaced)
    {fields : List (String × Json)} (hexact : ∀ p ∈ fields, Exact p.2)
    (hfields : ∀ p ∈ fields, ReadBack layout p.2) : ReadBack layout (.object fields) := by
  refine (Exact.object hexact).readBack_of_succ fun level bound rest hbound _ => ?_
  cases fields with
  | nil =>
    simp [write, writeFields, Layout.bracket, readValue, skip_cons (c := '\x7B') rfl,
      skip_cons (c := '\x7D') rfl]
  | cons p fields =>
    have hjoin := readFields_join hlayout level (level + 1) (hlayout.after level) rest
      (List.cons_ne_nil p fields) hfields bound
    have hstart := (startsPart_writeField layout (level + 1) p).join (layout.between level)
      (fields.map (writeField layout (level + 1)))
    simp only [write, writeFields_eq_map, List.map_cons, bracket_cons, List.length_cons,
      List.length_append, List.cons_append, List.nil_append, List.append_assoc] at hbound hjoin ⊢
    rw [readValue_brace (hlayout.before level) (hstart.append _), hjoin (by omega)]
    rfl

/-- Every value is read back wherever it stands. The induction is on why it is exact: what the items
and fields promise is all that arrays and objects need. -/
theorem Exact.readBack {layout : Layout} (hlayout : layout.Spaced) {x : Json} (h : Exact x) :
    ReadBack layout x := by
  induction h with
  | null =>
    refine Exact.null.readBack_of_succ fun level bound rest _ _ => ?_
    simp [readValue, write, skip_cons (c := 'n') rfl]
  | bool b =>
    refine (Exact.bool b).readBack_of_succ fun level bound rest _ _ => ?_
    cases b with
    | true => simp [readValue, write, skip_cons (c := 't') rfl]
    | false => simp [readValue, write, skip_cons (c := 'f') rfl]
  | integer hlow hhigh => exact readBack_integer layout hlow hhigh
  | string s =>
    refine (Exact.string s).readBack_of_succ fun level bound rest _ _ => ?_
    simp [readValue, write, quote, skip_cons (c := '"') rfl, readString_quote]
  | array hexact hitems => exact readBack_array hlayout hexact hitems
  | object hexact hfields => exact readBack_object hlayout hexact hfields

/-- **Written values are read back**, in any layout. -/
theorem parse?_write {layout : Layout} (hlayout : layout.Spaced) {x : Json} (h : Exact x) :
    parse? (write layout 0 x) = some x := by
  have hread := h.readBack hlayout 0 (2 * (write layout 0 x).length + 2) [] (by omega) trivial
  rw [List.append_nil] at hread
  rw [parse?, hread]
  rfl

/-- What is written with indents is read back. -/
theorem parse?_pretty {x : Json} (h : Exact x) : parse? (pretty x).toList = some x := by
  rw [pretty, String.toList_ofList]
  exact parse?_write Layout.spaced_indented h

end TestImpact.Json
