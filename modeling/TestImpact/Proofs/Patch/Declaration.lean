import Mathlib.Data.List.DropRight
import Mathlib.Data.List.Basic
import TestImpact.Patch.Signature
import TestImpact.Proofs.Pattern.Characters
import TestImpact.Proofs.Pattern.Reading

/-!
# What the usual matcher takes for a declaration

A line that the usual matcher names has the name before an opening parenthesis, and a type before
the name. The text of a type is made of word characters and angle brackets, and nothing asks for a
word character: `<` and `>` alone are taken for a type where they stand between blanks. So a line is
named that declares a method, or one that compares a word with the result of a call
(`declares_or_compares`).
-/

namespace TestImpact

/-! ## Characters of a type -/

/-- The characters that the text of a type is made of. -/
def isTypeChar (c : Char) : Bool := isWordChar c || c = '<' || c = '>'

namespace Patch

variable {line : List Char} {n : String} {c : Char}

theorem contains_typeChars : typeChars.contains c = isTypeChar c := by
  have hranges : typeChars.ranges =
      [⟨48, 57⟩, ⟨60, 60⟩, ⟨62, 62⟩, ⟨65, 90⟩, ⟨95, 95⟩, ⟨97, 122⟩] := by decide
  rw [Bool.eq_iff_iff]
  simp [CharSet.contains, hranges, CharRange.contains, isTypeChar, isWordChar_iff, ← Char.toNat_inj]
  omega

/-! ## Shapes of a line -/

/-- The line has a type, blanks, a name, and an opening parenthesis that follows the name but for
blanks. -/
structure Shape (line before type gap name space after : List Char) : Prop where
  eq : line = before ++ type ++ gap ++ name ++ space ++ '(' :: after
  type_ne : type ≠ []
  type_chars : ∀ c ∈ type, isTypeChar c = true
  gap_ne : gap ≠ []
  gap_chars : ∀ c ∈ gap, isAsciiBlank c = true
  name_ne : name ≠ []
  name_chars : ∀ c ∈ name, isWordChar c = true
  space_chars : ∀ c ∈ space, isAsciiBlank c = true

/-- The line declares `n`: there is a word in the type, and neither the type nor the name begins a
statement. -/
def Declares (line : List Char) (n : String) : Prop :=
  ∃ before type gap space after, Shape line before type gap n.toList space after ∧
    isStatementKeyword type = false ∧ isStatementKeyword n.toList = false ∧
    ∃ c ∈ type, isWordChar c = true

/-- The line compares an operand that ends with a word to the result of `n`: angle brackets between
blanks stand where a type is expected. -/
def Compares (line : List Char) (n : String) : Prop :=
  ∃ operand blanks type gap space after,
    Shape line (operand ++ blanks) type gap n.toList space after ∧
    isStatementKeyword n.toList = false ∧
    (∀ c ∈ type, c = '<' ∨ c = '>') ∧
    (∃ c ∈ operand.getLast?, isWordChar c = true) ∧
    blanks ≠ [] ∧ ∀ c ∈ blanks, isAsciiBlank c = true

/-! ## What the pattern reads -/

/-- The characters of modifiers and of blanks. -/
def modifierChars : CharSet := ⟨CharSet.word.ranges ++ CharSet.space.ranges⟩

theorem contains_modifierChars :
    modifierChars.contains c = true ↔ isWordChar c = true ∨ isAsciiBlank c = true := by
  rw [← CharSet.contains_word, ← CharSet.contains_space]
  simp [modifierChars, CharSet.contains]

/-- All that the modifiers can read is made of such characters. -/
theorem within_modifierChars {set : CharSet}
    (h : set ∈ (Pattern.many (.alts (modifiers.map .literal ++ [.one .space]))).sets) :
    set.within modifierChars = true := by
  have hall : ∀ set ∈ (Pattern.many (.alts (modifiers.map .literal ++ [.one .space]))).sets,
      set.within modifierChars = true := by
    decide
  exact hall set h

/-- The text of a match as the pattern reads it: modifiers and blanks begin at the boundary of a
word. -/
theorem shape_of_readBy {m : Match} (h : m.ReadBy declaration.body line) :
    ∃ skipped chain type gap name space after,
      Shape line (skipped ++ chain) type gap name space after ∧
      m.text? line 1 = some type ∧ m.text? line 2 = some name ∧
      (∀ c ∈ chain, isWordChar c = true ∨ isAsciiBlank c = true) ∧
      (skipped.getLast?.any isWordChar ≠ (chain ++ type).head?.any isWordChar) := by
  obtain ⟨skipped, found, u, hskipped, hreads, rfl⟩ := h
  obtain ⟨-, ⟨hboundary, rfl⟩, t₂, hmodifiers, t₃, hblanks, -, ⟨t₄, htype, rfl⟩, t₅, hgap, -,
    ⟨t₆, hname, rfl⟩, t₇, hspace, c, after, hafter, hc, rfl⟩ := hreads
  obtain ⟨leading, hpasses₂, hleadingChars⟩ := hmodifiers.passes
  obtain ⟨blanks, hpasses₃, hblankChars⟩ := hblanks.passes_many
  obtain ⟨type, htypeNe, hpasses₄, htypeChars⟩ := htype.passes_many1
  obtain ⟨gap, hgapNe, hpasses₅, hgapChars⟩ := hgap.passes_many1
  obtain ⟨name, hnameNe, hpasses₆, hnameChars⟩ := hname.passes_many1
  obtain ⟨space, hpasses₇, hspaceChars⟩ := hspace.passes_many
  have hbefore₃ := (hskipped.trans hpasses₂).trans hpasses₃
  have hbefore₅ := (hbefore₃.trans hpasses₄).trans hpasses₅
  -- nothing but the two groups is remembered, so these are what the match captures
  have hcaptures₄ : t₄.captures = [] := by
    rw [htype.captures_eq rfl, hblanks.captures_eq rfl, hmodifiers.captures_eq rfl]
  have hcaptures₆ : t₆.captures = [⟨1, t₃.cursor.position, t₄.cursor.position⟩] := by
    rw [hname.captures_eq rfl, hgap.captures_eq rfl]
    show _ :: t₄.captures = _
    rw [hcaptures₄]
  have hcaptures : t₇.captures = [⟨2, t₅.cursor.position, t₆.cursor.position⟩,
      ⟨1, t₃.cursor.position, t₄.cursor.position⟩] := by
    rw [hspace.captures_eq rfl]
    show _ :: t₆.captures = _
    rw [hcaptures₆]
  refine ⟨skipped, leading ++ blanks, type, gap, name, space, after, ?_, ?_, ?_, ?_, ?_⟩
  · have hline : line = skipped ++ found.rest := hskipped.rest
    have hfound : found.rest = leading ++ t₂.cursor.rest := hpasses₂.rest
    have hname₄ : t₄.cursor.rest = gap ++ t₅.cursor.rest := hpasses₅.rest
    have hspace₆ : t₆.cursor.rest = space ++ t₇.cursor.rest := hpasses₇.rest
    refine ⟨?_, htypeNe, ?_, hgapNe, ?_, hnameNe, ?_, ?_⟩
    · rw [hline, hfound, hpasses₃.rest, hpasses₄.rest, hname₄, hpasses₆.rest, hspace₆, hafter,
        CharSet.contains_single.mp hc]
      simp only [List.append_assoc]
    · exact fun c hc => contains_typeChars ▸ htypeChars c hc
    · exact fun c hc => CharSet.contains_space ▸ hgapChars c hc
    · exact fun c hc => CharSet.contains_word ▸ hnameChars c hc
    · exact fun c hc => CharSet.contains_space ▸ hspaceChars c hc
  · show (t₇.captures.find? (·.group = 1)).map _ = _
    rw [hcaptures]
    exact congrArg some (hbefore₃.take_drop hpasses₄)
  · show (t₇.captures.find? (·.group = 2)).map _ = _
    rw [hcaptures]
    exact congrArg some (hbefore₅.take_drop hpasses₆)
  · rw [List.forall_mem_append]
    constructor
    · intro c hc
      obtain ⟨set, hset, hcontains⟩ := hleadingChars c hc
      have hwithin := within_modifierChars hset
      exact contains_modifierChars.mp (CharSet.contains_of_within hwithin hcontains)
    · exact fun c hc => .inr (CharSet.contains_space ▸ hblankChars c hc)
  · have hbefore : found.before = skipped.getLast? := by
      rw [hskipped.before]
      exact Option.or_none
    have hfirst : found.rest.head? = (leading ++ blanks ++ type).head? := by
      have hfound : found.rest = leading ++ t₂.cursor.rest := hpasses₂.rest
      rw [hfound, hpasses₃.rest, hpasses₄.rest, ← List.append_assoc, ← List.append_assoc]
      apply List.head?_append_of_ne_nil
      simp [htypeNe]
    have hdiffer : (found.before.any isWordChar != found.rest.head?.any isWordChar) = true :=
      hboundary
    rw [hbefore, hfirst] at hdiffer
    exact bne_iff_ne.mp hdiffer

/-- The matcher tells the name of a match that it does not take for a statement. -/
theorem readBy_of_default (h : SignatureMatcher.default line = some n) :
    ∃ m : Match, m.ReadBy declaration.body line ∧
      ∀ type name, m.text? line 1 = some type → m.text? line 2 = some name →
        isStatementKeyword type = false ∧ isStatementKeyword name = false ∧ n.toList = name := by
  obtain ⟨m, hm, hname⟩ := List.exists_of_findSome?_eq_some h
  refine ⟨m, Expression.readBy_of_mem_allMatches rfl hm, ?_⟩
  intro type name htype hname'
  have hgroups : declaration.groupNamed? "name" = some 2 ∧
      declaration.groupNamed? "type" = some 1 := by
    decide
  simp only [declaredName?, hgroups.1, hgroups.2, Option.bind_some, hname', htype, Option.or_some,
    Option.any_some, Option.getD_some] at hname
  split at hname
  · cases hname
  · next hkeyword =>
    cases hname
    rw [Bool.not_eq_true, Bool.or_eq_false_iff] at hkeyword
    exact ⟨hkeyword.2, hkeyword.1, String.toList_ofList⟩

/-- A line without an opening parenthesis declares nothing. -/
theorem default_eq_none_of_notMem (h : '(' ∉ line) : SignatureMatcher.default line = none := by
  cases hdefault : SignatureMatcher.default line with
  | none => rfl
  | some n =>
    obtain ⟨m, hread, -⟩ := readBy_of_default hdefault
    obtain ⟨_, _, _, _, _, _, _, hshape, -⟩ := shape_of_readBy hread
    exact absurd (by simp [hshape.eq]) h

/-- The words that begin a statement have no angle brackets. -/
theorem isStatementKeyword_of_bracket {type : List Char} (h : ∃ c ∈ type, isWordChar c = false) :
    isStatementKeyword type = false := by
  have hkeywords : ∀ k ∈ statementKeywords, k.toList.all isWordChar = true := by decide
  obtain ⟨c, hc, hword⟩ := h
  rw [Bool.eq_false_iff]
  intro hkeyword
  have hmem := hkeywords _ (List.contains_iff_mem.mp hkeyword)
  rw [String.toList_ofList] at hmem
  have hc' := List.all_eq_true.mp hmem c hc
  rw [hword] at hc'
  cases hc'

/-- A word character before the type can be taken for a part of it. -/
theorem Shape.extend {before type gap name space after : List Char}
    (h : Shape line (before ++ [c]) type gap name space after) (hc : isWordChar c = true) :
    Shape line before (c :: type) gap name space after :=
  { h with
    eq := by
      rw [h.eq]
      simp
    type_ne := List.cons_ne_nil c type
    type_chars := by
      rw [List.forall_mem_cons]
      refine ⟨?_, h.type_chars⟩
      rw [isTypeChar, hc]
      rfl }

/-- Blanks at the end of modifiers and blanks have a word before them: the last modifier or, at the
boundary where all begins, what stands there. -/
theorem exists_operand {skipped chain type : List Char}
    (hchain : ∀ c ∈ chain, isWordChar c = true ∨ isAsciiBlank c = true)
    (hboundary : skipped.getLast?.any isWordChar ≠ (chain ++ type).head?.any isWordChar)
    (htype : ∀ c ∈ type, isWordChar c = false)
    (hlast : ∀ c ∈ (skipped ++ chain).getLast?, isWordChar c = false) :
    ∃ operand blanks, skipped ++ chain = operand ++ blanks ∧
      (∃ c ∈ operand.getLast?, isWordChar c = true) ∧
      blanks ≠ [] ∧ ∀ c ∈ blanks, isAsciiBlank c = true := by
  have hsplit : chain.rdropWhile isAsciiBlank ++ chain.rtakeWhile isAsciiBlank = chain :=
    List.rdropWhile_append_rtakeWhile
  generalize hcore : chain.rdropWhile isAsciiBlank = core at hsplit
  generalize hblanks : chain.rtakeWhile isAsciiBlank = blanks at hsplit
  have hblank : ∀ c ∈ blanks, isAsciiBlank c = true := by
    rw [← hblanks]
    exact fun c hc => List.mem_rtakeWhile_imp hc
  have hoperand : ∃ c ∈ (skipped ++ core).getLast?, isWordChar c = true := by
    rcases List.eq_nil_or_concat' core with hnil | ⟨front, c, hconcat⟩
    · -- no modifier ends with a word, so the boundary is one because of what stands before it
      rw [hnil, List.nil_append] at hsplit
      have hfirst : (chain ++ type).head?.any isWordChar = false := by
        rw [← hsplit]
        cases blanks with
        | nil =>
          cases type with
          | nil => rfl
          | cons c rest => exact htype c List.mem_cons_self
        | cons c blanks => exact isWordChar_of_isAsciiBlank (hblank c List.mem_cons_self)
      rw [hfirst, ne_eq, Bool.not_eq_false, Option.any_eq_true] at hboundary
      rw [hnil, List.append_nil]
      exact hboundary
    · -- the last character that is kept is not blank, and modifiers have no others than words
      have hne : chain.rdropWhile isAsciiBlank ≠ [] := by
        rw [hcore, hconcat]
        simp
      have hnotBlank := List.rdropWhile_last_not isAsciiBlank chain hne
      have hc : c ∈ chain := by
        rw [← hsplit, hconcat]
        simp
      simp only [hcore, hconcat, List.getLast_append_singleton] at hnotBlank
      refine ⟨c, by simp [hconcat], ?_⟩
      exact (hchain c hc).resolve_right hnotBlank
  refine ⟨skipped ++ core, blanks, ?_, hoperand, ?_, hblank⟩
  · rw [List.append_assoc, hsplit]
  · rintro rfl
    obtain ⟨c, hc, hword⟩ := hoperand
    rw [List.append_nil] at hsplit
    rw [hsplit] at hc
    rw [hlast c hc] at hword
    cases hword

/-- **What the usual matcher names is declared or compared.** -/
theorem declares_or_compares (h : SignatureMatcher.default line = some n) :
    Declares line n ∨ Compares line n := by
  obtain ⟨m, hread, hnamed⟩ := readBy_of_default h
  obtain ⟨skipped, chain, type, gap, name, space, after, hshape, htype, hname, hchain, hboundary⟩ :=
    shape_of_readBy hread
  obtain ⟨htypeKeyword, hnameKeyword, hn⟩ := hnamed _ _ htype hname
  subst hn
  by_cases hword : ∃ c ∈ type, isWordChar c = true
  · exact .inl ⟨_, type, gap, space, after, hshape, htypeKeyword, hnameKeyword, hword⟩
  · have hnotWord : ∀ c ∈ type, isWordChar c = false := by
      intro c hc
      exact Bool.eq_false_iff.mpr fun h => hword ⟨c, hc, h⟩
    by_cases hlast : ∃ c ∈ (skipped ++ chain).getLast?, isWordChar c = true
    · -- the word that the brackets follow belongs to the type
      left
      obtain ⟨c, hc, hcWord⟩ := hlast
      obtain ⟨before, hbefore⟩ := List.getLast?_eq_some_iff.mp hc
      rw [hbefore] at hshape
      obtain ⟨d, rest, rfl⟩ := List.exists_cons_of_ne_nil hshape.type_ne
      refine ⟨before, c :: d :: rest, gap, space, after, hshape.extend hcWord, ?_, hnameKeyword, c,
        List.mem_cons_self, hcWord⟩
      apply isStatementKeyword_of_bracket
      exact ⟨d, by simp, hnotWord d List.mem_cons_self⟩
    · right
      have hlast' : ∀ c ∈ (skipped ++ chain).getLast?, isWordChar c = false := by
        intro c hc
        exact Bool.eq_false_iff.mpr fun h => hlast ⟨c, hc, h⟩
      obtain ⟨operand, blanks, hsplit, hoperand, hne, hblank⟩ :=
        exists_operand hchain hboundary hnotWord hlast'
      rw [hsplit] at hshape
      refine ⟨operand, blanks, type, gap, space, after, hshape, hnameKeyword, ?_, hoperand, hne,
        hblank⟩
      intro c hc
      have hchar := hshape.type_chars c hc
      simpa [isTypeChar, hnotWord c hc] using hchar

/-- A declaration with a generic type. -/
theorem declares_or_compares_names :
    SignatureMatcher.default "List<String> names() \x7b".toList = some "names" ∧
    (Declares "List<String> names() \x7b".toList "names" ∨
      Compares "List<String> names() \x7b".toList "names") := by
  have hnames : SignatureMatcher.default "List<String> names() \x7b".toList = some "names" := by
    decide +kernel
  exact ⟨hnames, declares_or_compares hnames⟩

/-- A piece of characters of a kind has no room but for the one that a text begins with. -/
theorem eq_singleton_of_takeWhile {p : Char → Bool} {text piece rest : List Char}
    (htext : text = piece ++ rest) (hpiece : ∀ c ∈ piece, p c = true) (hne : piece ≠ [])
    (hone : text.takeWhile p = [c]) : piece = [c] := by
  rw [htext, List.takeWhile_append_of_pos hpiece] at hone
  rcases List.append_eq_singleton_iff.mp hone with ⟨hnil, -⟩ | ⟨hpiece, -⟩
  · exact absurd hnil hne
  · exact hpiece

/-- A comparison is taken for a declaration, and it is none: all that can stand for the type is an
angle bracket. -/
theorem not_declares_size :
    SignatureMatcher.default "i < size()".toList = some "size" ∧
    ¬ Declares "i < size()".toList "size" := by
  refine ⟨by decide +kernel, ?_⟩
  rintro ⟨before, type, gap, space, after, hshape, -, -, c, hc, hword⟩
  have heq : "i < size".toList ++ '(' :: [')'] =
      (before ++ type ++ gap ++ "size".toList ++ space) ++ '(' :: after := hshape.eq
  obtain ⟨hfront, -, -⟩ := (List.append_cons_inj_of_notMem (by decide) (by decide)).mp heq
  -- read from the right, a piece ends where a character of another kind stands
  have hreverse : "ezis < i".toList =
      space.reverse ++ ("ezis".toList ++ (gap.reverse ++ (type.reverse ++ before.reverse))) := by
    simpa using congrArg List.reverse hfront
  have hspace : space.reverse = [] := by
    have htake := congrArg (List.takeWhile isAsciiBlank) hreverse
    rw [List.takeWhile_append_of_pos (by simpa using hshape.space_chars)] at htake
    exact (List.append_eq_nil_iff.mp htake.symm).1
  rw [hspace, List.nil_append] at hreverse
  have hgapped : " < i".toList = gap.reverse ++ (type.reverse ++ before.reverse) :=
    List.append_cancel_left (show "ezis".toList ++ _ = _ from hreverse)
  have hgap : gap.reverse = [' '] := by
    apply eq_singleton_of_takeWhile hgapped
    · simpa using hshape.gap_chars
    · simpa using hshape.gap_ne
    · decide
  rw [hgap] at hgapped
  have htyped : "< i".toList = type.reverse ++ before.reverse :=
    List.append_cancel_left (show [' '] ++ _ = _ from hgapped)
  have htype : type.reverse = ['<'] := by
    apply eq_singleton_of_takeWhile htyped
    · simpa using hshape.type_chars
    · simpa using hshape.type_ne
    · decide
  rw [← List.mem_reverse, htype, List.mem_singleton] at hc
  rw [hc] at hword
  exact absurd hword (by decide)

end Patch

end TestImpact
