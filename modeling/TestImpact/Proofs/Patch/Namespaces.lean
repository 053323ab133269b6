import Mathlib.Data.List.Infix
import TestImpact.Proofs.Text.Affix
import TestImpact.Proofs.Text.Lines
import TestImpact.QualifiedName

/-!
# The namespace of a path

A path is a list of components, and there are many ways to write it: with slashes or backslashes,
with steps to the directory itself in front, and with blanks around the whole (`Spelling`). Before a
root is taken off, every spelling has become the same text, the components with slashes between them
(`dropHere_slashed_trim`). What is then taken off is told by two relations, `WithoutRoot` and
`WithoutExtension`, each of which the code meets exactly. So the namespace depends on the components
only (`ofPath_spelling`).
-/

namespace TestImpact.QualifiedName

open Text

/-! ## Spellings -/

/-- The characters that separate the components of a path. -/
def IsSeparator (c : Char) : Prop := c = '/' ∨ c = '\\'

instance : DecidablePred IsSeparator := fun c =>
  inferInstanceAs (Decidable (c = '/' ∨ c = '\\'))

theorem isBlank_of_isSeparator {c : Char} (h : IsSeparator c) : isBlank c = false := by
  rcases h with rfl | rfl <;> decide

/-- The components of a path. None of them is empty, the first one is no step to the directory
itself, and no blank stands at either end of the whole. -/
structure IsPath (components : List (List Char)) : Prop where
  nonempty : ∀ c ∈ components, c ≠ []
  unseparated : ∀ c ∈ components, ∀ x ∈ c, ¬ IsSeparator x
  noStep : components.head? ≠ some ['.']
  first : ∀ c ∈ components.head?, ∀ x ∈ c.head?, isBlank x = false
  last : ∀ c ∈ components.getLast?, ∀ x ∈ c.getLast?, isBlank x = false

/-- Components with a separator between any two, the one behind component `n` being
`separator n`. -/
def joinWith (separator : Nat → Char) : List (List Char) → List Char
  | [] => []
  | [c] => c
  | c :: cs => c ++ separator 0 :: joinWith (fun n => separator (n + 1)) cs

/-- A way to write paths. -/
structure Spelling where
  /-- The blanks in front. -/
  before : List Char
  /-- The separators of the steps to the directory itself that the path begins with. -/
  steps : List Char
  /-- The separators of the components. -/
  separator : Nat → Char
  /-- The blanks at the end. -/
  after : List Char
  before_blank : ∀ c ∈ before, isBlank c = true
  steps_separate : ∀ c ∈ steps, IsSeparator c
  separator_separates : ∀ n, IsSeparator (separator n)
  after_blank : ∀ c ∈ after, isBlank c = true

namespace Spelling

/-- What is written between the blanks. -/
def core (p : Spelling) (components : List (List Char)) : List Char :=
  p.steps.flatMap (['.', ·]) ++ joinWith p.separator components

/-- The path as it is written. -/
def write (p : Spelling) (components : List (List Char)) : String :=
  String.ofList (p.before ++ p.core components ++ p.after)

end Spelling

section Joined

variable {separator : Nat → Char} {c last : List Char} {cs components : List (List Char)}

/-- A path begins with its first component. -/
theorem prefix_joinWith (separator : Nat → Char) (c : List Char) (cs : List (List Char)) :
    c <+: joinWith separator (c :: cs) := by
  cases cs with
  | nil => exact List.prefix_rfl
  | cons c' cs => exact List.prefix_append _ _

/-- A path ends with its last component. -/
theorem suffix_joinWith (h : components.getLast? = some last) :
    last <:+ joinWith separator components := by
  induction components generalizing separator with
  | nil => cases h
  | cons c cs ih =>
    cases cs with
    | nil =>
      obtain rfl : c = last := by simpa using h
      exact List.suffix_rfl
    | cons c' cs =>
      rw [List.getLast?_cons_cons] at h
      rw [joinWith]
      · exact ((ih h).trans (List.suffix_cons _ _)).trans (List.suffix_append _ _)
      · simp

/-- A path has no blanks at its ends, whatever the separators are. -/
theorem IsPath.tight_joinWith (h : IsPath components) : Tight (joinWith separator components) := by
  constructor
  · cases components with
    | nil => simp [joinWith]
    | cons c cs =>
      obtain ⟨rest, hrest⟩ := prefix_joinWith separator c cs
      rw [← hrest, List.head?_append_of_ne_nil _ (h.nonempty c (by simp))]
      exact h.first c rfl
  · cases hlast : components.getLast? with
    | none =>
      rw [List.getLast?_eq_none_iff.mp hlast]
      simp [joinWith]
    | some last =>
      obtain ⟨front, hfront⟩ : last <:+ joinWith separator _ := suffix_joinWith hlast
      rw [← hfront, List.getLast?_append_of_ne_nil _ (h.nonempty _ (List.mem_of_getLast? hlast))]
      exact h.last last hlast

/-! ### One text for all spellings -/

theorem slashed_append (s t : List Char) : slashed (s ++ t) = slashed s ++ slashed t :=
  List.map_append

theorem slashed_of_isSeparator {x : Char} (hx : IsSeparator x) (s : List Char) :
    slashed (x :: s) = '/' :: slashed s := by
  rcases hx with rfl | rfl <;> rfl

theorem slashed_of_not_isSeparator (h : ∀ x ∈ c, ¬ IsSeparator x) : slashed c = c := by
  have hkept : ∀ x ∈ c, (if x = '\\' then '/' else x) = x := by
    intro x hx
    exact if_neg fun hback => h x hx (.inr hback)
  exact (List.map_congr_left hkept).trans c.map_id

/-- Separators become slashes. -/
theorem slashed_joinWith (hseparator : ∀ n, IsSeparator (separator n))
    (h : ∀ c ∈ components, ∀ x ∈ c, ¬ IsSeparator x) :
    slashed (joinWith separator components) = ['/'].intercalate components := by
  induction components generalizing separator with
  | nil => rfl
  | cons c cs ih =>
    have hc : slashed c = c := slashed_of_not_isSeparator (h c (by simp))
    cases cs with
    | nil => rw [List.intercalate_singleton, joinWith, hc]
    | cons c' cs =>
      have hrest := ih (fun n => hseparator (n + 1)) fun c hc => h c (List.mem_cons_of_mem _ hc)
      rw [joinWith, slashed_append, hc, slashed_of_isSeparator (hseparator 0), hrest,
        List.intercalate_cons_cons, List.append_assoc, List.singleton_append]
      simp

theorem dropHere_of_not_prefix {path : List Char} (h : ¬ ['.', '/'] <+: path) :
    dropHere path = path := by
  rw [dropHere]
  rintro rest rfl
  exact h ⟨rest, rfl⟩

/-- Leading steps are taken off, with any separators. -/
theorem dropHere_steps {steps : List Char} (h : ∀ c ∈ steps, IsSeparator c) (path : List Char) :
    dropHere (slashed (steps.flatMap (['.', ·]) ++ path)) = dropHere (slashed path) := by
  induction steps with
  | nil => rfl
  | cons sep steps ih =>
    have hstep : slashed ((sep :: steps).flatMap (['.', ·]) ++ path) =
        '.' :: '/' :: slashed (steps.flatMap (['.', ·]) ++ path) := by
      rw [← slashed_of_isSeparator (h sep (by simp))]
      rfl
    rw [hstep, dropHere, ih fun c hc => h c (by simp [hc])]

/-- The components themselves begin with no step. -/
theorem IsPath.not_prefix (h : IsPath components) :
    ¬ ['.', '/'] <+: ['/'].intercalate components := by
  cases components with
  | nil => decide
  | cons c cs =>
    obtain ⟨rest, hrest⟩ : ∃ rest, ['/'].intercalate (c :: cs) = c ++ rest := by
      cases cs with
      | nil => exact ⟨[], by simp⟩
      | cons c' cs => exact ⟨_, by rw [List.intercalate_cons_cons, List.append_assoc]⟩
    rw [hrest]
    obtain ⟨x, c, rfl⟩ := List.exists_cons_of_ne_nil (h.nonempty c (by simp))
    intro hprefix
    cases c with
    | nil =>
      obtain rfl : '.' = x := (List.cons_prefix_cons.mp hprefix).1
      exact h.noStep rfl
    | cons y c =>
      obtain rfl : '/' = y := (List.cons_prefix_cons.mp (List.cons_prefix_cons.mp hprefix).2).1
      exact h.unseparated (x :: '/' :: c) (by simp) '/' (by simp) (.inl rfl)

/-- However a path is spelled, the same text is left. -/
theorem dropHere_slashed_trim (h : IsPath components) (p : Spelling) :
    dropHere (slashed (trim (p.write components).toList)) = ['/'].intercalate components := by
  have hsteps : Unbroken (p.steps.flatMap (['.', ·])) := by
    intro c hc
    obtain ⟨sep, hsep, hc⟩ := List.mem_flatMap.mp hc
    rcases List.mem_pair.mp hc with rfl | rfl
    · decide
    · exact isBlank_of_isSeparator (p.steps_separate c hsep)
  have htight : Tight (p.core components) := tight_append hsteps.tight h.tight_joinWith
  rw [Spelling.write, String.toList_ofList, trim_surrounded p.before_blank p.after_blank,
    htight.trim_eq, Spelling.core, dropHere_steps p.steps_separate,
    slashed_joinWith p.separator_separates h.unseparated, dropHere_of_not_prefix h.not_prefix]

end Joined

/-! ## Roots and extensions -/

/-- What is left of a path without the first of some roots that it begins with, if there is one. -/
inductive WithoutRoot (roots : List (List Char)) : List Char → List Char → Prop
  | root {before root after rest} : roots = before ++ root :: after →
      (∀ r ∈ before, ¬ r <+: root ++ rest) → WithoutRoot roots (root ++ rest) rest
  | noRoot {path} : (∀ r ∈ roots, ¬ r <+: path) → WithoutRoot roots path path

/-- What is left of a path without an extension, if the path ends with it. -/
inductive WithoutExtension (extension : List Char) : List Char → List Char → Prop
  | extension {rest} : extension ≠ [] → WithoutExtension extension (rest ++ extension) rest
  | noExtension {path} : extension = [] ∨ ¬ extension <:+ path →
      WithoutExtension extension path path

/-- The root that is taken off is the first one that the path begins with. -/
theorem dropRoot_eq_iff {roots : List (List Char)} {path rest : List Char} :
    dropRoot roots path = rest ↔ WithoutRoot roots path rest := by
  constructor
  · rintro rfl
    rw [dropRoot]
    cases hfound : roots.findSome? (List.isPrefixOf? · path) with
    | none =>
      apply WithoutRoot.noRoot
      intro r hr
      exact isPrefixOf?_eq_none_iff.mp (List.findSome?_eq_none_iff.mp hfound r hr)
    | some rest =>
      obtain ⟨before, root, after, hroots, hroot, hbefore⟩ := List.findSome?_eq_some_iff.mp hfound
      rw [isPrefixOf?_eq_some_iff] at hroot
      subst hroot
      exact .root hroots fun r hr => isPrefixOf?_eq_none_iff.mp (hbefore r hr)
  · rintro (⟨hroots, hbefore⟩ | hnone)
    · have hfound : roots.findSome? (List.isPrefixOf? · _) = some rest :=
        List.findSome?_eq_some_iff.mpr ⟨_, _, _, hroots, isPrefixOf?_append _ _,
          fun r hr => isPrefixOf?_eq_none_iff.mpr (hbefore r hr)⟩
      rw [dropRoot, hfound, Option.getD_some]
    · have hfound : roots.findSome? (List.isPrefixOf? · path) = none :=
        List.findSome?_eq_none_iff.mpr fun r hr => isPrefixOf?_eq_none_iff.mpr (hnone r hr)
      rw [dropRoot, hfound, Option.getD_none]

/-- The extension is taken off where the path ends with it. -/
theorem dropExtension_eq_iff {extension path rest : List Char} :
    dropExtension extension path = rest ↔ WithoutExtension extension path rest := by
  constructor
  · rintro rfl
    rw [dropExtension]
    cases hfound : extension.isSuffixOf? path with
    | none => exact .noExtension (.inr (isSuffixOf?_eq_none_iff.mp hfound))
    | some rest =>
      rw [isSuffixOf?_eq_some_iff] at hfound
      subst hfound
      by_cases hempty : extension = []
      · subst hempty
        rw [List.append_nil]
        exact .noExtension (.inl rfl)
      · exact .extension hempty
  · rintro (hne | hempty | hnot)
    · rw [dropExtension, isSuffixOf?_eq_some_iff.mpr rfl, Option.getD_some]
    · subst hempty
      rw [dropExtension, isSuffixOf?_eq_some_iff.mpr path.append_nil.symm, Option.getD_some]
    · rw [dropExtension, isSuffixOf?_eq_none_iff.mpr hnot, Option.getD_none]

/-! ## Namespaces -/

/-- The namespace of the file at a path that has slashes only: what is left without a root and
without the extension, with periods for slashes. -/
def IsNamespace (roots : List String) (extension : String) (path : List Char) (name : String) :
    Prop :=
  ∃ inside stem, WithoutRoot (roots.map String.toList) path inside ∧
    WithoutExtension extension.toList inside stem ∧
    name = String.ofList (stem.map fun c => if c = '/' then '.' else c)

theorem isNamespace_iff {roots : List String} {extension : String} {path : List Char}
    {name : String} : IsNamespace roots extension path name ↔
      name = String.ofList ((dropExtension extension.toList
        (dropRoot (roots.map String.toList) path)).map fun c => if c = '/' then '.' else c) := by
  simp [IsNamespace, ← dropRoot_eq_iff, ← dropExtension_eq_iff]

theorem IsPath.not_mem_intercalate {components : List (List Char)} (h : IsPath components) :
    '\\' ∉ ['/'].intercalate components := by
  have hslashed : slashed (joinWith (fun _ => '/') components) = ['/'].intercalate components :=
    slashed_joinWith (fun _ => .inl rfl) h.unseparated
  rw [← hslashed, slashed, List.mem_map]
  rintro ⟨c, -, hc⟩
  split at hc
  · cases hc
  · next hne => exact hne hc

/-- Roots and extensions are taken off, and nothing is put in their place. -/
theorem IsNamespace.not_mem {roots : List String} {extension : String} {path : List Char}
    {name : String} (h : IsNamespace roots extension path name) (hpath : '\\' ∉ path) :
    '/' ∉ name.toList ∧ '\\' ∉ name.toList := by
  obtain ⟨inside, stem, hroot, hextension, rfl⟩ := h
  have hinside : '\\' ∉ inside := by
    rcases hroot with ⟨-, -⟩ | -
    · exact fun hc => hpath (List.mem_append_right _ hc)
    · exact hpath
  have hstem : '\\' ∉ stem := by
    rcases hextension with - | -
    · exact fun hc => hinside (List.mem_append_left _ hc)
    · exact hinside
  simp only [String.toList_ofList, List.mem_map, not_exists, not_and]
  constructor
  · intro c hc
    split
    · decide
    · assumption
  · intro c hc
    split
    · decide
    · rintro rfl
      exact hstem hc

/-- **The namespace does not depend on how a path is spelled.** All spellings of a path lead to one
text, which is the namespace of the path with slashes, and it has neither slashes nor
backslashes. -/
theorem ofPath_spelling {components : List (List Char)} (h : IsPath components)
    (roots : List String) (extension : String) :
    ∃ name, (∀ p : Spelling, ofPath roots extension (p.write components) = name) ∧
      (∀ other, IsNamespace roots extension (['/'].intercalate components) other ↔ other = name) ∧
      '/' ∉ name.toList ∧ '\\' ∉ name.toList := by
  have hname : ∀ other, IsNamespace roots extension (['/'].intercalate components) other ↔
      other = _ := fun _ => isNamespace_iff
  refine ⟨_, ?_, hname, ((hname _).mpr rfl).not_mem h.not_mem_intercalate⟩
  intro p
  rw [ofPath, dropHere_slashed_trim h p]

/-- A source file below two of the usual roots. -/
def widget : List (List Char) :=
  ["src".toList, "main".toList, "java".toList, "acme".toList, "Widget.java".toList]

/-- A spelling with both separators, two steps and blanks. -/
def mixedSpelling : Spelling where
  before := [' ']
  steps := ['\\', '/']
  separator n := if n % 2 = 0 then '\\' else '/'
  after := ['\t', '\n']
  before_blank := List.forall_mem_singleton.mpr (by decide)
  steps_separate := List.forall_mem_cons.mpr ⟨.inr rfl, List.forall_mem_singleton.mpr (.inl rfl)⟩
  separator_separates := by
    intro n
    split
    · exact .inr rfl
    · exact .inl rfl
  after_blank := List.forall_mem_cons.mpr ⟨by decide, List.forall_mem_singleton.mpr (by decide)⟩

/-- A path with leading steps, mixed separators and blanks around it. -/
theorem ofPath_spelling_widget :
    IsPath widget ∧
    mixedSpelling.write widget = " .\\./src\\main/java\\acme/Widget.java\t\n" ∧
    ∀ p : Spelling,
      ofPath ["src/main/java/", "src/"] ".java" (p.write widget) = "acme.Widget" := by
  have hpath : IsPath widget :=
    ⟨by decide +kernel, by simp [widget, IsSeparator], by decide +kernel, by simp [widget, isBlank],
      by simp [widget, isBlank]⟩
  obtain ⟨name, hsame, hname, -⟩ := ofPath_spelling hpath ["src/main/java/", "src/"] ".java"
  have hwidget : "acme.Widget" = name := (hname _).mp (isNamespace_iff.mpr (by decide +kernel))
  refine ⟨hpath, by decide +kernel, ?_⟩
  intro p
  rw [hsame p, hwidget]

end TestImpact.QualifiedName
