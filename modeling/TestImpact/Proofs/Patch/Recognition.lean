import TestImpact.Proofs.Lists
import TestImpact.Proofs.Patch.Declaration
import TestImpact.Proofs.Pattern.Preference

/-!
# Which declarations the usual matcher knows

A line that has the signature of a method at its start is named by the usual matcher, whatever
follows the opening parenthesis (`Signature.recognized`). The search passes over the blanks at the
start, for no word begins there. From the first word it prefers to take all the modifiers, the whole
type and the whole name, and the parenthesis ends the match.
-/

namespace TestImpact.Patch

variable {line leading chain type gap name space after rest piece : List Char} {t : Trail}
  {c : Char} {m : String}

/-! ## Signatures -/

/-- Modifiers, each of them followed by blanks. -/
inductive Modifiers : List Char → Prop
  | nil : Modifiers []
  | cons (m : String) (blanks : List Char) {chain : List Char} (hm : m ∈ modifiers)
      (hne : blanks ≠ []) (hblanks : ∀ c ∈ blanks, isAsciiBlank c = true)
      (hchain : Modifiers chain) : Modifiers (m.toList ++ blanks ++ chain)

/-- The line has the signature of a method: blanks, modifiers, a type that begins with a word, a
name, and an opening parenthesis. Neither the type nor the name begins a statement, and the type
does not begin with a modifier. -/
structure Signature (line leading chain type gap name space after : List Char) : Prop extends
    Shape line (leading ++ chain) type gap name space after where
  leading_chars : ∀ c ∈ leading, isAsciiBlank c = true
  chain_modifiers : Modifiers chain
  type_word : ∃ c ∈ type.head?, isWordChar c = true
  type_modifier : ∀ m ∈ modifiers, ¬ m.toList <+: type
  type_keyword : isStatementKeyword type = false
  name_keyword : isStatementKeyword name = false

/-! ## Where pieces end -/

theorem forall_head?_append {kind : Char → Prop} (hpiece : ∀ c ∈ piece, kind c)
    (hrest : ∀ c ∈ rest.head?, kind c) : ∀ c ∈ (piece ++ rest).head?, kind c := by
  cases piece with
  | nil => exact hrest
  | cons d piece =>
    rintro c ⟨⟩
    exact hpiece d List.mem_cons_self

theorem forall_head?_append_of_ne {kind : Char → Prop} (hne : piece ≠ [])
    (hpiece : ∀ c ∈ piece, kind c) : ∀ c ∈ (piece ++ rest).head?, kind c := by
  obtain ⟨d, piece, rfl⟩ := List.exists_cons_of_ne_nil hne
  rintro c ⟨⟩
  exact hpiece d List.mem_cons_self

theorem isAsciiBlank_of_isWordChar (h : isWordChar c = true) : isAsciiBlank c = false := by
  rw [Bool.eq_false_iff]
  intro hblank
  rw [isWordChar_of_isAsciiBlank hblank] at h
  cases h

theorem isTypeChar_of_isAsciiBlank (h : isAsciiBlank c = true) : isTypeChar c = false := by
  have hne : c ≠ '<' ∧ c ≠ '>' := by
    constructor <;> rintro rfl <;> cases h
  simp [isTypeChar, isWordChar_of_isAsciiBlank h, hne]

/-- No word ends behind blanks. -/
theorem any_isWordChar_of_passes {cursor found : Cursor} (hpasses : cursor.Passes piece found)
    (hpiece : ∀ c ∈ piece, isAsciiBlank c = true) (hbefore : cursor.before.any isWordChar = false) :
    found.before.any isWordChar = false := by
  rw [hpasses.before]
  cases hlast : piece.getLast? with
  | none => exact hbefore
  | some c => exact isWordChar_of_isAsciiBlank (hpiece c (List.mem_of_getLast? hlast))

/-! ## Modifiers and blanks -/

/-- What the pattern repeats before the type. -/
def modifierOrBlank : Pattern := .alts (modifiers.map .literal ++ [.one .space])

theorem isWordChar_of_mem_modifier (hm : m ∈ modifiers) (hc : c ∈ m.toList) :
    isWordChar c = true := by
  have hall : ∀ m ∈ modifiers, m.toList.all isWordChar = true := by decide
  exact List.all_eq_true.mp (hall m hm) c hc

theorem modifier_ne_nil (hm : m ∈ modifiers) : m.toList ≠ [] := by
  have hall : ∀ m ∈ modifiers, m.toList ≠ [] := by decide
  exact hall m hm

/-- A text that begins with a modifier begins with a word. -/
theorem isWordChar_of_modifier_isPrefix (hm : m ∈ modifiers) (h : m.toList <+: c :: rest) :
    isWordChar c = true := by
  obtain ⟨d, front, hfront⟩ := List.exists_cons_of_ne_nil (modifier_ne_nil hm)
  rw [hfront, List.cons_prefix_cons] at h
  rw [← h.1]
  exact isWordChar_of_mem_modifier hm (by simp [hfront])

/-- Where a modifier stands, the pattern takes it. -/
theorem prefers_modifier (hm : m ∈ modifiers) (hrest : t.cursor.rest = m.toList ++ rest) :
    modifierOrBlank.Prefers {t.cursor.position} t (t.pass m.toList rest) := by
  have hapart : ∀ k ∈ modifiers, ∀ m ∈ modifiers, k.toList <+: m.toList → k = m := by decide
  obtain ⟨front, back, hsplit, hfront⟩ := List.eq_append_cons_of_mem hm
  have halts : modifiers.map Pattern.literal ++ [.one .space] =
      front.map Pattern.literal ++
        Pattern.literal m :: (back.map Pattern.literal ++ [.one .space]) := by
    rw [hsplit]
    simp
  unfold modifierOrBlank
  rw [halts]
  apply Pattern.prefers_alts _ (Pattern.prefers_literal hrest)
  intro q hq
  obtain ⟨k, hk, rfl⟩ := List.mem_map.mp hq
  have hkm : k ∈ modifiers := by
    rw [hsplit]
    exact List.mem_append_left _ hk
  apply Pattern.refuses_literal
  rw [hrest]
  intro hprefix
  -- no modifier is the beginning of another one
  apply hfront
  rcases List.prefix_or_prefix_of_prefix hprefix (List.prefix_append _ _) with hle | hle
  · rwa [← hapart k hkm m hm hle]
  · rwa [hapart m hm k hkm hle]

/-- Where a blank stands, the pattern takes it. -/
theorem prefers_blank (hrest : t.cursor.rest = c :: rest) (hc : isAsciiBlank c = true) :
    modifierOrBlank.Prefers {t.cursor.position} t (t.step c rest) := by
  apply Pattern.prefers_alts
  · intro q hq
    obtain ⟨m, hm, rfl⟩ := List.mem_map.mp hq
    apply Pattern.refuses_literal
    rw [hrest]
    intro hprefix
    have hword := isWordChar_of_modifier_isPrefix hm hprefix
    rw [isWordChar_of_isAsciiBlank hc] at hword
    cases hword
  · exact Pattern.prefers_one hrest (by rw [CharSet.contains_space, hc])

/-- The modifiers end where neither a modifier nor a blank follows. -/
theorem refuses_modifierOrBlank (hmodifier : ∀ m ∈ modifiers, ¬ m.toList <+: t.cursor.rest)
    (hblank : ∀ c ∈ t.cursor.rest.head?, isAsciiBlank c = false) :
    modifierOrBlank.Refuses {t.cursor.position} t := by
  apply Pattern.refuses_alts (by simp)
  rw [List.forall_mem_append, List.forall_mem_map, List.forall_mem_singleton]
  constructor
  · exact fun m hm => Pattern.refuses_literal (hmodifier m hm)
  · apply Pattern.refuses_one
    intro c hc
    rw [CharSet.contains_space]
    exact hblank c hc

/-- The rounds over a chain of modifiers take a modifier or a single blank each. -/
theorem Modifiers.preferredRounds (h : Modifiers chain) (hrest : t.cursor.rest = chain ++ rest) :
    ∃ n, modifierOrBlank.PreferredRounds n t (t.pass chain rest) := by
  induction h generalizing t with
  | nil =>
    refine ⟨0, ?_⟩
    exact Trail.pass_nil hrest
  | @cons m blanks chain hm _ hblanks _ ih =>
    have hword : t.cursor.rest = m.toList ++ (blanks ++ (chain ++ rest)) := by
      rw [hrest]
      simp only [List.append_assoc]
    have hfirst := prefers_modifier hm hword
    have hrounds : modifierOrBlank.PreferredRounds (blanks.length + 1) t
        ((t.pass m.toList (blanks ++ (chain ++ rest))).pass blanks (chain ++ rest)) := by
      refine ⟨_, hfirst, ?_⟩
      exact Pattern.preferredRounds_chars rfl (fun t c rest => prefers_blank) hblanks
    rw [Trail.pass_pass] at hrounds
    obtain ⟨n, hlater⟩ := ih (t := t.pass (m.toList ++ blanks) (chain ++ rest)) rfl
    rw [Trail.pass_pass] at hlater
    exact ⟨_, hrounds.append hlater⟩

/-! ## The first match -/

namespace Signature

variable (h : Signature line leading chain type gap name space after)

include h

/-- The text from the first word on. -/
theorem line_eq :
    line = leading ++ (chain ++ (type ++ (gap ++ (name ++ (space ++ '(' :: after))))) := by
  rw [h.eq]
  simp only [List.append_assoc]

/-- No modifier begins what follows the modifiers: there is no blank in it to go on after the
type. -/
theorem not_modifier_isPrefix (hm : m ∈ modifiers) : ¬ m.toList <+: type ++ (gap ++ rest) := by
  obtain ⟨c, blanks, rfl⟩ := List.exists_cons_of_ne_nil h.gap_ne
  intro hprefix
  apply h.type_modifier m hm
  apply isPrefix_of_notMem hprefix
  intro hc
  have hword := isWordChar_of_mem_modifier hm hc
  rw [isWordChar_of_isAsciiBlank (h.gap_chars c List.mem_cons_self)] at hword
  cases hword

theorem type_head : ∀ c ∈ (type ++ rest).head?, isWordChar c = true := by
  obtain ⟨d, hd, hword⟩ := h.type_word
  rw [List.head?_append_of_ne_nil _ h.type_ne, hd]
  rintro c ⟨⟩
  exact hword

theorem gap_head : ∀ c ∈ (gap ++ rest).head?, isTypeChar c = false :=
  forall_head?_append_of_ne h.gap_ne fun c hc => isTypeChar_of_isAsciiBlank (h.gap_chars c hc)

theorem name_head : ∀ c ∈ (name ++ rest).head?, isAsciiBlank c = false :=
  forall_head?_append_of_ne h.name_ne fun c hc => isAsciiBlank_of_isWordChar (h.name_chars c hc)

theorem space_head : ∀ c ∈ (space ++ '(' :: rest).head?, isWordChar c = false := by
  refine forall_head?_append (fun c hc => isWordChar_of_isAsciiBlank (h.space_chars c hc)) ?_
  rintro c ⟨⟩
  rfl

theorem chain_head : ∃ c ∈ (chain ++ (type ++ rest)).head?, isWordChar c = true := by
  cases h.chain_modifiers with
  | nil =>
    obtain ⟨c, hc, hword⟩ := h.type_word
    refine ⟨c, ?_, hword⟩
    show c ∈ (type ++ rest).head?
    rw [List.head?_append_of_ne_nil _ h.type_ne]
    exact hc
  | cons m blanks hm hne hblanks hchain =>
    obtain ⟨c, front, hfront⟩ := List.exists_cons_of_ne_nil (modifier_ne_nil hm)
    refine ⟨c, ?_, isWordChar_of_mem_modifier hm (by simp [hfront])⟩
    rw [hfront]
    rfl

/-- The repetition of modifiers and blanks ends where the type begins. -/
theorem prefers_modifiers (hrest : t.cursor.rest = chain ++ (type ++ (gap ++ rest))) :
    (Pattern.many modifierOrBlank).Prefers .univ t (t.pass chain (type ++ (gap ++ rest))) := by
  obtain ⟨n, hrounds⟩ := h.chain_modifiers.preferredRounds hrest
  refine (Pattern.prefers_many (by decide) hrounds ?_).mono (Set.subset_univ _)
  apply refuses_modifierOrBlank
  · exact fun m hm => h.not_modifier_isPrefix hm
  · exact fun c hc => isAsciiBlank_of_isWordChar (h.type_head c hc)

/-- The repetition of blanks before the type takes nothing. -/
theorem prefers_noBlanks (hrest : t.cursor.rest = type ++ rest) :
    (Pattern.many (.one .space)).Prefers .univ t t := by
  have hnil : t.cursor.rest = [] ++ (type ++ rest) := hrest
  have hnone := Pattern.prefers_many_one hnil CharSet.contains_space (by simp)
    fun c hc => isAsciiBlank_of_isWordChar (h.type_head c hc)
  rwa [Trail.pass_nil hrest] at hnone

theorem prefers_type (hrest : t.cursor.rest = type ++ (gap ++ rest)) :
    (Pattern.many1 (.one typeChars)).Prefers .univ t (t.pass type (gap ++ rest)) :=
  Pattern.prefers_many1_one hrest contains_typeChars h.type_chars h.gap_head h.type_ne

theorem prefers_gap (hrest : t.cursor.rest = gap ++ (name ++ rest)) :
    (Pattern.many1 (.one .space)).Prefers .univ t (t.pass gap (name ++ rest)) :=
  Pattern.prefers_many1_one hrest CharSet.contains_space h.gap_chars h.name_head h.gap_ne

theorem prefers_name (hrest : t.cursor.rest = name ++ (space ++ '(' :: rest)) :
    (Pattern.many1 (.one .word)).Prefers .univ t (t.pass name (space ++ '(' :: rest)) :=
  Pattern.prefers_many1_one hrest CharSet.contains_word h.name_chars h.space_head h.name_ne

theorem prefers_space (hrest : t.cursor.rest = space ++ '(' :: rest) :
    (Pattern.many (.one .space)).Prefers .univ t (t.pass space ('(' :: rest)) := by
  apply Pattern.prefers_many_one hrest CharSet.contains_space h.space_chars
  rintro c ⟨⟩
  rfl

/-- From the first word on, the search prefers what the signature says. -/
theorem prefers_declaration (hskipped : (Cursor.start line).Passes leading t.cursor) :
    ∃ u, declaration.body.Prefers .univ t u ∧ ∀ start stop,
      Match.text? ⟨start, stop, u.captures⟩ line 1 = some type ∧
      Match.text? ⟨start, stop, u.captures⟩ line 2 = some name := by
  have hrest : t.cursor.rest = chain ++ (type ++ (gap ++ (name ++ (space ++ '(' :: after)))) := by
    have hline : line = leading ++ t.cursor.rest := hskipped.rest
    exact List.append_cancel_left (hline.symm.trans h.line_eq)
  have hboundary : Assertion.holds .wordBoundary t.cursor.before t.cursor.rest.head? = true := by
    have hbefore : t.cursor.before.any isWordChar = false :=
      any_isWordChar_of_passes hskipped h.leading_chars rfl
    have hword : t.cursor.rest.head?.any isWordChar = true := by
      rw [hrest, Option.any_eq_true]
      exact h.chain_head
    show (t.cursor.before.any isWordChar != t.cursor.rest.head?.any isWordChar) = true
    rw [hbefore, hword]
    rfl
  -- the trail behind each part of the signature, in the order of the parts
  let t₁ := t.pass chain (type ++ (gap ++ (name ++ (space ++ '(' :: after))))
  let t₂ := t₁.pass type (gap ++ (name ++ (space ++ '(' :: after)))
  let t₃ := (t₂.remember 1 t₁.cursor.position).pass gap (name ++ (space ++ '(' :: after))
  let t₄ := t₃.pass name (space ++ '(' :: after)
  let t₅ := (t₄.remember 2 t₃.cursor.position).pass space ('(' :: after)
  have hpasses₁ : (Cursor.start line).Passes (leading ++ chain) t₁.cursor :=
    hskipped.trans (t.passes_pass hrest)
  have htype : t₁.cursor.Passes type t₂.cursor := t₁.passes_pass rfl
  have hgap : t₂.cursor.Passes gap t₃.cursor :=
    (t₂.remember 1 t₁.cursor.position).passes_pass rfl
  have hname : t₃.cursor.Passes name t₄.cursor := t₃.passes_pass rfl
  refine ⟨t₅.step '(' after, ?_, ?_⟩
  · apply Pattern.prefers_seqs_cons (Pattern.prefers_check hboundary)
    apply Pattern.prefers_seqs_cons (h.prefers_modifiers hrest)
    apply Pattern.prefers_seqs_cons (h.prefers_noBlanks rfl)
    apply Pattern.prefers_seqs_cons (Pattern.prefers_group (h.prefers_type rfl))
    apply Pattern.prefers_seqs_cons (h.prefers_gap rfl)
    apply Pattern.prefers_seqs_cons (Pattern.prefers_group (h.prefers_name rfl))
    apply Pattern.prefers_seqs_cons (h.prefers_space rfl)
    exact Pattern.prefers_one rfl (CharSet.contains_single.mpr rfl)
  · intro start stop
    constructor
    · exact congrArg some (hpasses₁.take_drop htype)
    · exact congrArg some (((hpasses₁.trans htype).trans hgap).take_drop hname)

end Signature

/-- Blanks at the start of a line are passed over: no word begins there. -/
theorem firstFrom?_blanks {visited : Visited} {cursor found : Cursor}
    (hpasses : cursor.Passes leading found) (hleading : ∀ c ∈ leading, isAsciiBlank c = true)
    (hbefore : cursor.before.any isWordChar = false) :
    declaration.plan.firstFrom? visited cursor.position cursor.before cursor.rest =
      declaration.plan.firstFrom? visited found.position found.before found.rest := by
  induction leading generalizing cursor with
  | nil =>
    rw [hpasses.rest, hpasses.position, hpasses.before]
    rfl
  | cons c leading ih =>
    obtain ⟨hc, hleading⟩ := List.forall_mem_cons.mp hleading
    have hword := isWordChar_of_isAsciiBlank hc
    have hboundary : Assertion.holds .wordBoundary cursor.before (some c) ≠ true := by
      show (cursor.before.any isWordChar != isWordChar c) ≠ true
      rw [hbefore, hword]
      decide
    have hfail :
        declaration.plan.matchAt ⟨cursor.position, cursor.before, c :: (leading ++ found.rest)⟩
          visited = (none, visited) := by
      show (if Assertion.holds .wordBoundary cursor.before (some c) = true then _ else Search.fail)
        visited = _
      rw [if_neg hboundary]
      rfl
    rw [hpasses.rest, List.cons_append, Plan.firstFrom?_skip hfail]
    exact ih hpasses.tail hleading hword

/-- What a match says that has a type and a name. -/
theorem declaredName?_of_text {found : Match} (htype : found.text? line 1 = some type)
    (hname : found.text? line 2 = some name) (htypeKeyword : isStatementKeyword type = false)
    (hnameKeyword : isStatementKeyword name = false) :
    declaredName? declaration line found = some (String.ofList name) := by
  have hgroups : declaration.groupNamed? "name" = some 2 ∧
      declaration.groupNamed? "type" = some 1 := by
    decide
  simp [declaredName?, hgroups, htype, hname, htypeKeyword, hnameKeyword]

/-- **A line with the signature of a method is named.** -/
theorem Signature.recognized (h : Signature line leading chain type gap name space after) :
    SignatureMatcher.default line = some (String.ofList name) := by
  obtain ⟨found, hskipped⟩ : ∃ found, (Cursor.start line).Passes leading found :=
    ⟨⟨_, _, _⟩, h.line_eq, rfl, rfl⟩
  obtain ⟨u, hprefers, htext⟩ := h.prefers_declaration (t := ⟨found, []⟩) hskipped
  have hmatch : (declaration.plan.matchAt found {}).1 = some u :=
    (hprefers 0).matchAt Visited.lacks_empty
  have hfirst : declaration.plan.firstFrom? {} 0 none line = some (found.position, u) :=
    (firstFrom?_blanks hskipped h.leading_chars rfl).trans (Plan.firstFrom?_of_matchAt hmatch)
  obtain ⟨later, hmatches⟩ := Expression.allMatches_of_firstFrom? hfirst
  obtain ⟨htype, hname⟩ := htext found.position u.cursor.position
  have hnamed := declaredName?_of_text htype hname h.type_keyword h.name_keyword
  show (declaration.allMatches line).findSome? (declaredName? declaration line) = _
  rw [hmatches, List.findSome?_cons, hnamed]

/-- Modifiers with a tab between them, a generic type, and a blank before the parenthesis. -/
theorem Signature.recognized_names :
    SignatureMatcher.default "  public  static\tList<String> names (int a) \x7b".toList =
      some "names" := by
  have hall : ∀ {piece : List Char} {kind : Char → Bool}, piece.all kind = true →
      ∀ c ∈ piece, kind c = true := List.all_eq_true.mp
  have hchain : Modifiers "public  static\t".toList :=
    .cons "public" [' ', ' '] (by decide) (by decide) (hall rfl)
      (.cons "static" ['\t'] (by decide) (by decide) (hall rfl) .nil)
  exact Signature.recognized
    { eq := (rfl : _ = "  ".toList ++ "public  static\t".toList ++ "List<String>".toList ++
          " ".toList ++ "names".toList ++ " ".toList ++ '(' :: "int a) \x7b".toList)
      type_ne := by decide
      type_chars := hall rfl
      gap_ne := by decide
      gap_chars := hall rfl
      name_ne := by decide
      name_chars := hall rfl
      space_chars := hall rfl
      leading_chars := hall rfl
      chain_modifiers := hchain
      type_word := ⟨'L', rfl, rfl⟩
      type_modifier := by decide
      type_keyword := by decide
      name_keyword := by decide }

end TestImpact.Patch
