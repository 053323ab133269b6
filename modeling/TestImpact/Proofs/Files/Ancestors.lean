import Mathlib.Data.List.Infix
import Mathlib.Data.List.Nodup
import TestImpact.Files.Path
import TestImpact.Proofs.Text.Lines

/-!
# The directories above a path

A path is a text, and two texts may be the same path: repeated slashes and steps to the directory
itself count for nothing. What counts is the list of its parts, and whether it begins at the root
(`Same`). The directory above a path has all of its parts but the last (`parent?_cases`). So a path
and the paths above it are the initial pieces of its parts, from the longest to the empty one, each
of them once (`upwards_ancestors`).
-/

namespace TestImpact.Files.Path

/-! ## Parts -/

/-- Whether a piece of a path counts where it does not come first. -/
def counts (piece : List Char) : Bool := piece ≠ [] ∧ piece ≠ ['.']

/-- The pieces that count behind the first one. -/
def stepsOf (s : List Char) : List (List Char) := (Text.splitOn ['/'] s).filter counts

/-- The pieces that count. Of the first one only an empty text does not: a path may begin with a
step to the directory itself. -/
def partsOf (s : List Char) : List (List Char) :=
  match Text.splitOn ['/'] s with
  | [] => []
  | first :: rest => (if first = [] then [] else [first]) ++ rest.filter counts

/-- The parts of a path. -/
def parts (path : String) : List (List Char) := partsOf path.toList

/-- Two texts are the same path. -/
structure Same (path other : String) : Prop where
  absolute : isAbsolute path = isAbsolute other
  parts : parts path = Path.parts other

theorem partsOf_append_cons (s t : List Char) :
    partsOf (s ++ '/' :: t) = partsOf s ++ stepsOf t := by
  rw [partsOf, partsOf, Text.splitOn_append_cons]
  cases hs : Text.splitOn ['/'] s with
  | nil => exact absurd hs (Text.splitOn_ne_nil '/' s)
  | cons first rest => simp [stepsOf]

theorem partsOf_slash (s : List Char) : partsOf (s ++ ['/']) = partsOf s := by
  rw [partsOf_append_cons]
  exact List.append_nil _

theorem partsOf_here (s : List Char) : partsOf (s ++ ['/', '.']) = partsOf s := by
  rw [partsOf_append_cons]
  exact List.append_nil _

theorem partsOf_of_notMem {name : List Char} (hne : name ≠ []) (h : '/' ∉ name) :
    partsOf name = [name] := by
  rw [partsOf, Text.splitOn_of_notMem h]
  simp [hne]

theorem stepsOf_of_notMem {name : List Char} (hcounts : counts name = true) (h : '/' ∉ name) :
    stepsOf name = [name] := by
  rw [stepsOf, Text.splitOn_of_notMem h]
  simp [hcounts]

/-! ## What does not count at the end of a path -/

theorem trimEnd_slash {r : List Char} (h : r ≠ []) : trimEnd ('/' :: r) = trimEnd r := by
  rw [trimEnd]
  exact h

/-- What is taken off the end of a path does not count. -/
theorem partsOf_trimEnd (r : List Char) : partsOf (trimEnd r).reverse = partsOf r.reverse := by
  fun_induction trimEnd r with
  | case1 => rfl
  | case2 => rfl
  | case3 rest _ ih => rw [ih, List.reverse_cons, partsOf_slash]
  | case4 rest _ ih =>
    have hpair : ('.' :: '/' :: rest).reverse = rest.reverse ++ ['/', '.'] := by simp
    rw [ih, List.reverse_cons, partsOf_slash, hpair, partsOf_here]
  | case5 => rfl

/-- A path that begins at the root still does. -/
theorem getLast?_trimEnd (r : List Char) : (trimEnd r).getLast? = r.getLast? := by
  fun_induction trimEnd r with
  | case1 => rfl
  | case2 => rfl
  | case3 rest hne ih =>
    cases rest with
    | nil => exact absurd rfl hne
    | cons c rest => rw [ih, List.getLast?_cons_cons]
  | case4 rest _ ih => rw [ih, List.getLast?_cons_cons]
  | case5 => rfl

theorem length_trimEnd_le (r : List Char) : (trimEnd r).length ≤ r.length := by
  fun_induction trimEnd r with
  | case1 => exact Nat.le_refl _
  | case2 => simp
  | case3 rest _ ih => exact ih.trans (by simp)
  | case4 rest _ ih => exact ih.trans (by simp)
  | case5 => exact Nat.le_refl _

/-- Nothing is left at the end that does not count, unless it is the slash of the root. -/
theorem trimEnd_tidy (r : List Char) :
    trimEnd r = ['/'] ∨ (trimEnd r).head? ≠ some '/' ∧ ¬ ['.', '/'] <+: trimEnd r := by
  fun_induction trimEnd r with
  | case1 => exact .inl rfl
  | case2 => exact .inl rfl
  | case3 rest _ ih => exact ih
  | case4 rest _ ih => exact ih
  | case5 path _ _ hslash hstep =>
    refine .inr ⟨?_, ?_⟩
    · intro hhead
      obtain ⟨rest, hrest⟩ := List.head?_eq_some_iff.mp hhead
      exact hslash rest hrest
    · rintro ⟨rest, hrest⟩
      exact hstep rest hrest.symm

theorem trimEnd_of_tidy {r : List Char} (hslash : r.head? ≠ some '/')
    (hstep : ¬ ['.', '/'] <+: r) : trimEnd r = r := by
  fun_cases trimEnd r with
  | case1 => rfl
  | case2 => exact absurd List.prefix_rfl hstep
  | case3 => simp at hslash
  | case4 rest => exact absurd ⟨rest, rfl⟩ hstep
  | case5 => rfl

/-- What is left, backwards, begins with the last part, and a slash if there are more, unless
nothing is left but the root. -/
theorem trimEnd_cases (r : List Char) :
    trimEnd r = [] ∨ trimEnd r = ['/'] ∨
      ∃ name rest, trimEnd r = name ++ rest ∧ name ≠ [] ∧ '/' ∉ name ∧
        (rest = [] ∨ ∃ more, rest = '/' :: more ∧ name ≠ ['.']) := by
  rcases trimEnd_tidy r with hroot | ⟨hslash, hstep⟩
  · exact .inr (.inl hroot)
  · by_cases hempty : trimEnd r = []
    · exact .inl hempty
    · refine .inr (.inr ?_)
      generalize trimEnd r = t at *
      -- the last part is what stands before the first slash, as the path is read backwards
      have hcut : t.takeWhile (· ≠ '/') ++ t.dropWhile (· ≠ '/') = t :=
        List.takeWhile_append_dropWhile
      refine ⟨_, _, hcut.symm, ?_, ?_, ?_⟩
      · obtain ⟨c, t, rfl⟩ := List.exists_cons_of_ne_nil hempty
        have hc : c ≠ '/' := by simpa using hslash
        simp [hc]
      · intro hmem
        simpa using List.mem_takeWhile_imp hmem
      · cases hrest : t.dropWhile (· ≠ '/') with
        | nil => exact .inl rfl
        | cons d more =>
          have hd := List.head?_dropWhile_not (· ≠ '/') t
          rw [hrest] at hd
          obtain rfl : d = '/' := by simpa using hd
          refine .inr ⟨more, rfl, ?_⟩
          intro hname
          rw [hname, hrest] at hcut
          exact hstep ⟨more, hcut⟩

/-- The path above, when the last part of a path is known. -/
theorem parent?_eq_some {path : String} {name rest : List Char}
    (htrimmed : trimEnd path.toList.reverse = name ++ rest) (hne : name ≠ []) (hname : '/' ∉ name)
    (hrest : rest = [] ∨ ∃ more, rest = '/' :: more) :
    parent? path = some (String.ofList (trimEnd rest).reverse) := by
  have hdrop : (name ++ rest).dropWhile (· ≠ '/') = rest := by
    rw [List.dropWhile_append_of_pos fun c hc => by simpa using fun h : c = '/' => hname (h ▸ hc)]
    rcases hrest with rfl | ⟨more, rfl⟩
    · rfl
    · simp
  unfold parent?
  split
  · next h =>
    rw [h] at htrimmed
    exact absurd (List.append_eq_nil_iff.mp htrimmed.symm).1 hne
  · next h =>
    rw [h] at htrimmed
    obtain ⟨c, name, rfl⟩ := List.exists_cons_of_ne_nil hne
    exact absurd (List.mem_cons.mpr (.inl (List.cons.inj htrimmed).1)) hname
  · rw [htrimmed, hdrop]

/-- **The directory above a path** has the parts of the path but the last one. A path without parts
has none above it. -/
theorem parent?_cases (path : String) :
    (parent? path = none ∧ parts path = []) ∨
    ∃ above last, parent? path = some above ∧ parts path = parts above ++ [last] ∧
      isAbsolute above = isAbsolute path ∧ above.length < path.length := by
  have hparts : parts path = partsOf (trimEnd path.toList.reverse).reverse := by
    rw [partsOf_trimEnd, List.reverse_reverse, parts]
  have hlength : (trimEnd path.toList.reverse).length ≤ path.length := by
    have hle := length_trimEnd_le path.toList.reverse
    rwa [List.length_reverse, String.length_toList] at hle
  have hroot : path.toList.head? = (trimEnd path.toList.reverse).getLast? := by
    rw [getLast?_trimEnd, List.getLast?_reverse]
  -- nothing is left, or the root, or a name behind what is above it
  rcases trimEnd_cases path.toList.reverse with
    hempty | hslash | ⟨name, rest, htrimmed, hne, hname, hmore⟩
  · refine .inl ⟨?_, ?_⟩
    · rw [parent?, hempty]
    · rw [hparts, hempty]
      rfl
  · refine .inl ⟨?_, ?_⟩
    · rw [parent?, hslash]
      rfl
    · rw [hparts, hslash]
      rfl
  · have hlast : name.reverse ≠ [] := by simpa using hne
    have hnoSlash : '/' ∉ name.reverse := by simpa using hname
    refine .inr ⟨String.ofList (trimEnd rest).reverse, name.reverse, ?_, ?_, ?_, ?_⟩
    · exact parent?_eq_some htrimmed hne hname (hmore.imp_right fun ⟨more, h, _⟩ => ⟨more, h⟩)
    · rw [hparts, htrimmed, parts, String.toList_ofList, partsOf_trimEnd, List.reverse_append]
      rcases hmore with rfl | ⟨more, rfl, hdot⟩
      · exact partsOf_of_notMem hlast hnoSlash
      · have hcounts : counts name.reverse = true := by
          simp [counts, hne, List.reverse_eq_iff, hdot]
        rw [List.reverse_cons, List.append_assoc, List.singleton_append, partsOf_append_cons,
          stepsOf_of_notMem hcounts hnoSlash, partsOf_slash]
    · rw [isAbsolute, isAbsolute, hroot, htrimmed, String.toList_ofList, List.head?_reverse,
        getLast?_trimEnd]
      rcases hmore with rfl | ⟨more, rfl, -⟩
      · have hnot : name.getLast? ≠ some '/' := fun h => hname (List.mem_of_getLast? h)
        simp [hnot]
      · rw [List.getLast?_append_cons]
    · have hrestLength := length_trimEnd_le rest
      have hpositive : 0 < name.length := List.length_pos_iff.mpr hne
      rw [htrimmed, List.length_append] at hlength
      rw [String.length_ofList, List.length_reverse]
      omega

/-! ## Names within a directory -/

/-- A path without what does not count at its end. -/
def tidy (path : String) : String := String.ofList (trimEnd path.toList.reverse).reverse

/-- A text that can be the name of a file. -/
structure IsName (name : String) : Prop where
  nonempty : name ≠ ""
  unseparated : '/' ∉ name.toList
  noStep : name ≠ "."

theorem isAbsolute_eq_getLast? (path : String) :
    isAbsolute path = decide (path.toList.reverse.getLast? = some '/') := by
  rw [List.getLast?_reverse, isAbsolute]

theorem same_tidy (path : String) : Same (tidy path) path where
  absolute := by
    rw [isAbsolute_eq_getLast?, isAbsolute_eq_getLast?, tidy, String.toList_ofList,
      List.reverse_reverse, getLast?_trimEnd]
  parts := by
    rw [parts, tidy, String.toList_ofList, partsOf_trimEnd, List.reverse_reverse, parts]

theorem IsName.isAbsolute_eq {name : String} (h : IsName name) : isAbsolute name = false := by
  rw [isAbsolute, decide_eq_false_iff_not]
  exact fun hhead => h.unseparated (List.mem_of_head? hhead)

theorem tidy_ne_empty {path : String} (h : path ≠ "") : tidy path ≠ "" := by
  intro hempty
  have hnone : trimEnd path.toList.reverse = [] := by
    simpa [tidy] using congrArg String.toList hempty
  have hlast := getLast?_trimEnd path.toList.reverse
  rw [hnone] at hlast
  have hnil : path.toList = [] := by simpa using hlast.symm
  exact h (String.toList_eq_nil_iff.mp hnil)

/-- A path within a directory, where a slash stands between the two. -/
theorem exists_join {directory path : String} (hdirectory : directory ≠ "")
    (hpath : isAbsolute path = false) :
    ∃ front, join directory path = String.ofList (front ++ '/' :: path.toList) ∧
      (directory.toList = front ∧ front ≠ [] ∨ directory.toList = front ++ ['/']) := by
  have hfull : directory.isEmpty = false := by simpa using hdirectory
  unfold join
  rw [hpath, hfull, Bool.false_or, if_neg Bool.false_ne_true]
  split
  · next hlast =>
    obtain ⟨front, hfront⟩ := List.getLast?_eq_some_iff.mp hlast
    refine ⟨front, ?_, .inr hfront⟩
    apply String.toList_injective
    simp [hfront]
  · refine ⟨directory.toList, ?_, .inl ⟨rfl, by simpa using hdirectory⟩⟩
    apply String.toList_injective
    simp

/-- A path within a directory has the parts of the directory first. -/
theorem parts_join {directory path : String} (hdirectory : directory ≠ "")
    (hpath : isAbsolute path = false) :
    parts (join directory path) = parts directory ++ stepsOf path.toList := by
  obtain ⟨front, hjoin, hfront⟩ := exists_join hdirectory hpath
  have hparts : partsOf front = parts directory := by
    rcases hfront with ⟨hsame, -⟩ | hslash
    · rw [parts, hsame]
    · rw [parts, hslash, partsOf_slash]
  rw [hjoin, parts, String.toList_ofList, partsOf_append_cons, hparts]

/-- A relative path joined to a directory is as absolute as the directory. -/
theorem isAbsolute_join {directory path : String} (hdirectory : directory ≠ "")
    (hpath : isAbsolute path = false) :
    isAbsolute (join directory path) = isAbsolute directory := by
  obtain ⟨front, hjoin, hfront⟩ := exists_join hdirectory hpath
  have hhead : (front ++ '/' :: path.toList).head? = directory.toList.head? := by
    rcases hfront with ⟨hsame, hne⟩ | hslash
    · obtain ⟨c, front, rfl⟩ := List.exists_cons_of_ne_nil hne
      simp [hsame]
    · rw [hslash, List.head?_append, List.head?_append]
      rfl
  rw [hjoin, isAbsolute, String.toList_ofList, hhead, isAbsolute]

/-- A name is the last part of a path, whatever stands before it. -/
theorem parent?_name {name : String} (h : IsName name) {front : List Char}
    (hfront : front.reverse = [] ∨ ∃ more, front.reverse = '/' :: more) :
    parent? (String.ofList (front ++ name.toList)) =
      some (String.ofList (trimEnd front.reverse).reverse) := by
  have hne : name.toList.reverse ≠ [] := by simpa using h.nonempty
  have hname : '/' ∉ name.toList.reverse := by simpa using h.unseparated
  refine parent?_eq_some ?_ hne hname hfront
  rw [String.toList_ofList, List.reverse_append]
  obtain ⟨c, rest, hrest⟩ := List.exists_cons_of_ne_nil hne
  rw [hrest] at hname ⊢
  -- nothing is taken off the end of a name: it begins with no slash, and it is no step
  apply trimEnd_of_tidy
  · rintro ⟨⟩
    simp at hname
  · intro hstep
    rw [List.cons_append, List.cons_prefix_cons] at hstep
    obtain ⟨rfl, hstep⟩ := hstep
    cases rest with
    | nil => exact h.noStep (String.toList_injective (by simpa using congrArg List.reverse hrest))
    | cons d rest =>
      rw [List.cons_append, List.cons_prefix_cons] at hstep
      exact hname (by simp [← hstep.1])

/-- The directory in which a name is put is the one above it. -/
theorem parent?_join {name : String} (h : IsName name) (directory : String) :
    parent? (join directory name) = some (tidy directory) := by
  by_cases hempty : directory = ""
  · subst hempty
    have hjoin : join "" name = String.ofList ([] ++ name.toList) := by simp [join]
    rw [hjoin, parent?_name h (.inl rfl)]
    rfl
  · obtain ⟨front, hjoin, hfront⟩ := exists_join hempty h.isAbsolute_eq
    have hslash : front ++ '/' :: name.toList = (front ++ ['/']) ++ name.toList := by simp
    rw [hjoin, hslash, parent?_name h (.inr ⟨front.reverse, by simp⟩), tidy]
    rcases hfront with ⟨hsame, hne⟩ | hslash
    · rw [hsame, List.reverse_concat, trimEnd_slash (by simpa using hne)]
    · rw [hslash]

/-- What is taken relative to a directory does not depend on how the directory is written. -/
theorem same_join_tidy (directory path : String) :
    Same (join (tidy directory) path) (join directory path) := by
  cases hpath : isAbsolute path with
  | true =>
    simp only [join, hpath, Bool.true_or, if_true]
    exact ⟨rfl, rfl⟩
  | false =>
    by_cases hempty : directory = ""
    · subst hempty
      exact ⟨rfl, rfl⟩
    · have htidy : tidy directory ≠ "" := tidy_ne_empty hempty
      constructor
      · rw [isAbsolute_join htidy hpath, isAbsolute_join hempty hpath,
          (same_tidy directory).absolute]
      · rw [parts_join htidy hpath, parts_join hempty hpath, (same_tidy directory).parts]

/-! ## All directories above a path -/

/-- A path without parts is empty or the root. -/
theorem eq_empty_or_isAbsolute {path : String} (h : parts path = []) :
    path = "" ∨ isAbsolute path = true := by
  rw [parts] at h
  by_cases hslash : '/' ∈ path.toList
  · obtain ⟨front, rest, hcut, hfront⟩ := List.eq_append_cons_of_mem hslash
    rw [hcut, partsOf_append_cons] at h
    obtain rfl : front = [] := by
      by_contra hne
      rw [partsOf_of_notMem hne hfront] at h
      cases h
    exact .inr (by simp [isAbsolute, hcut])
  · refine .inl (String.toList_eq_nil_iff.mp ?_)
    by_contra hne
    rw [partsOf_of_notMem hne hslash] at h
    cases h

/-- Directories that lead from a path upwards: the path itself, then each time the path without its
last part, up to the empty path or the root. None comes twice, not even in another spelling. -/
structure Upwards (path : String) (directories : List String) : Prop where
  first : directories.head? = some path
  parts : directories.map parts = (Path.parts path).inits.reverse
  absolute : ∀ d ∈ directories, isAbsolute d = isAbsolute path
  last : ∀ top ∈ directories.getLast?, top = "" ∨ isAbsolute top = true ∧ Path.parts top = []
  once : (directories.map Path.parts).Nodup

/-- The ancestors of a path are the initial pieces of its parts, the longest first, all as absolute
as the path. -/
theorem ancestorsFrom_spec {path : String} {bound : Nat} (h : path.length ≤ bound) :
    (ancestorsFrom path bound).map parts = (parts path).inits.reverse ∧
      ∀ d ∈ ancestorsFrom path bound, isAbsolute d = isAbsolute path := by
  induction bound generalizing path with
  | zero =>
    obtain rfl : path = "" := String.length_eq_zero_iff.mp (Nat.le_zero.mp h)
    exact ⟨rfl, by simp [ancestorsFrom]⟩
  | succ bound ih =>
    rw [ancestorsFrom]
    rcases parent?_cases path with ⟨hnone, hparts⟩ | ⟨above, last, hsome, hparts, hroot, hlength⟩
    · rw [hnone, hparts]
      exact ⟨by simp [hparts], by simp⟩
    · -- the path above is shorter, so one step less is enough for it
      obtain ⟨hmap, hsame⟩ := ih (by omega : above.length ≤ bound)
      rw [hsome]
      refine ⟨?_, ?_⟩
      · rw [List.map_cons, hmap, hparts, List.inits_append]
        simp
      · intro d hd
        rcases List.mem_cons.mp hd with rfl | hd
        · rfl
        · exact (hsame d hd).trans hroot

theorem head?_ancestors (path : String) : (ancestors path).head? = some path := by
  rw [ancestors]
  cases path.length with
  | zero => rfl
  | succ bound =>
    rw [ancestorsFrom]
    cases parent? path <;> rfl

theorem nodup_inits {α : Type} (xs : List α) : xs.inits.Nodup := by
  induction xs with
  | nil => simp
  | cons x xs ih =>
    rw [List.inits_cons, List.nodup_cons]
    exact ⟨by simp, ih.map List.cons_injective⟩

/-- **A path and all the paths above it**, from the innermost outwards. -/
theorem upwards_ancestors (path : String) : Upwards path (ancestors path) := by
  obtain ⟨hparts, habsolute⟩ := ancestorsFrom_spec (Nat.le_refl path.length)
  refine ⟨head?_ancestors path, hparts, habsolute, ?_, ?_⟩
  · intro top htop
    have hlast : ((ancestors path).map parts).getLast? = some (parts top) := by
      rw [List.getLast?_map, Option.mem_def.mp htop, Option.map_some]
    have hnone : parts top = [] := by
      rw [ancestors, hparts, List.getLast?_reverse] at hlast
      have hfirst : (parts path).inits.head? = some [] := by
        cases parts path <;> simp
      rw [hfirst] at hlast
      exact (Option.some.inj hlast).symm
    exact (eq_empty_or_isAbsolute hnone).imp_right fun hroot => ⟨hroot, hnone⟩
  · rw [ancestors, hparts]
    exact List.nodup_reverse.mpr (nodup_inits _)

end TestImpact.Files.Path
