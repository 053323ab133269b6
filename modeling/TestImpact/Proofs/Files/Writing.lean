import TestImpact.Files.Tree

/-!
# What writing does to a tree of files

Neither writing a text nor making directories takes a directory away, so a path that can be followed
leads to the same place afterwards (`Keeps.follow`). A text that is written to a path can be read
there, and nothing else changes (`writeText_eq_ok_iff`, `Holds.readText`). Making directories puts
them where nothing stood, at the places of the paths given (`made_makeDirectories`). Together they
rewrite the tree at a path and make missing directories above it (`rewritten_of_writeText`).
-/

namespace TestImpact.Files.Tree

variable {t t' t'' : Tree} {place other : List String} {node : Node} {path text : String}

/-! ## What stands at a place -/

theorem lookup_filter_ne (h : other ≠ place) (nodes : List (List String × Node)) :
    (nodes.filter (·.1 ≠ place)).lookup other = nodes.lookup other := by
  induction nodes with
  | nil => rfl
  | cons entry nodes ih =>
    obtain ⟨key, node⟩ := entry
    rw [List.filter_cons]
    by_cases hkey : key = place
    · have hne : (other == key) = false := by
        rw [hkey]
        exact beq_false_of_ne h
      simp only [hkey, ne_eq, not_true_eq_false, decide_false, Bool.false_eq_true, if_false, ih]
      rw [← hkey, List.lookup_cons, hne]
    · simp only [hkey, ne_eq, not_false_eq_true, decide_true, if_true, List.lookup_cons, ih]

theorem node?_put_self (h : place ≠ []) : (t.put place node).node? place = some node := by
  simp [node?, put, h]

theorem node?_put_of_ne (h : other ≠ place) : (t.put place node).node? other = t.node? other := by
  unfold node? put
  have hne : (other == place) = false := beq_false_of_ne h
  rw [List.lookup_cons, hne, lookup_filter_ne h]

/-- The root is a directory. -/
theorem ne_nil_of_node? (h : t.node? place ≠ some .directory) : place ≠ [] := by
  rintro rfl
  exact h rfl

/-! ## Changes that keep directories -/

/-- Every directory is still there, and the current directory is the same. -/
structure Keeps (t t' : Tree) : Prop where
  current : t'.current = t.current
  directory : ∀ place, t.node? place = some .directory → t'.node? place = some .directory

namespace Keeps

theorem refl (t : Tree) : t.Keeps t := ⟨rfl, fun _ h => h⟩

theorem trans (h : t.Keeps t') (h' : t'.Keeps t'') : t.Keeps t'' where
  current := h'.current.trans h.current
  directory place hplace := h'.directory place (h.directory place hplace)

/-- Something new takes the place of no directory. -/
theorem put (h : t.node? place ≠ some .directory) (node : Node) : t.Keeps (t.put place node) where
  current := rfl
  directory := by
    intro other hother
    rw [node?_put_of_ne]
    · exact hother
    · rintro rfl
      exact h hother

/-- All that a path goes through is a directory, so the path leads to the same place. -/
theorem follow (h : t.Keeps t') {start : List String} {components : List String}
    (hfollow : t.follow start components = .ok place) :
    t'.follow start components = .ok place := by
  induction components generalizing start with
  | nil => exact hfollow
  | cons c components ih =>
    unfold Tree.follow at hfollow ⊢
    cases hnode : t.node? start with
    | none =>
      rw [hnode] at hfollow
      cases hfollow
    | some node =>
      rw [hnode] at hfollow
      cases node with
      | file text => cases hfollow
      | directory =>
        rw [h.directory start hnode]
        exact ih hfollow

end Keeps

/-- A path leads to a place when it is not empty, its steps lead there and no file stands there
where it ends like that of a directory. -/
theorem place_eq_ok_iff :
    t.place path = .ok place ↔ path.isEmpty = false ∧
      t.follow (if Path.isAbsolute path then [] else t.current) (Path.components path) = .ok place ∧
      (endsInDirectory path = true → ∀ text, t.node? place ≠ some (.file text)) := by
  unfold Tree.place
  cases hempty : path.isEmpty with
  | true => simp
  | false =>
    cases hfollow : t.follow (if Path.isAbsolute path then [] else t.current)
        (Path.components path) with
    | error e => simp [bind, Except.bind]
    | ok reached =>
      cases hend : endsInDirectory path with
      | false => simp [bind, Except.bind, pure, Except.pure]
      | true =>
        -- nothing stands there, or a directory, or a file
        rcases hnode : t.node? reached with _ | _ | content
        · simp only [Bool.false_eq_true, ↓reduceIte, bind, Except.bind, hnode, pure, Except.pure,
            Except.ok.injEq, forall_const, true_and, iff_self_and]
          rintro rfl
          simp [hnode]
        · simp only [Bool.false_eq_true, ↓reduceIte, bind, Except.bind, hnode, pure, Except.pure,
            Except.ok.injEq, forall_const, true_and, iff_self_and]
          rintro rfl
          simp [hnode]
        · simp only [Bool.false_eq_true, ↓reduceIte, bind, Except.bind, hnode, reduceCtorEq,
            Except.ok.injEq, forall_const, true_and, false_iff, not_and]
          rintro rfl hfree
          exact hfree content hnode

/-- A path leads to the same place after a change, unless it has to be that of a directory and the
change has put a file there. -/
theorem Keeps.place_eq (h : t.Keeps t') (hplace : t.place path = .ok place)
    (hfile : endsInDirectory path = true → ∀ text, t'.node? place ≠ some (.file text)) :
    t'.place path = .ok place := by
  obtain ⟨hempty, hfollow, -⟩ := place_eq_ok_iff.mp hplace
  apply place_eq_ok_iff.mpr
  refine ⟨hempty, ?_, hfile⟩
  rw [h.current]
  exact h.follow hfollow

/-- The way to a directory stays the same where directories are kept. -/
theorem Keeps.place_eq_of_directory (h : t.Keeps t') (hplace : t.place path = .ok place)
    (hnode : t'.node? place = some .directory) : t'.place path = .ok place := by
  apply h.place_eq hplace
  intro _ text
  rw [hnode]
  simp

/-- The way to a file stays the same where directories are kept. -/
theorem Keeps.place_eq_of_not_ends (h : t.Keeps t') (hplace : t.place path = .ok place)
    (hend : endsInDirectory path = false) : t'.place path = .ok place := by
  apply h.place_eq hplace
  intro hends
  rw [hend] at hends
  cases hends

/-! ## Texts -/

/-- A path leads to a place where a file holds a text. -/
structure Holds (t : Tree) (path : String) (place : List String) (text : String) : Prop where
  place_eq : t.place path = .ok place
  node_eq : t.node? place = some (.file (some text))

theorem Holds.readText (h : t.Holds path place text) : t.readText path = .ok text := by
  unfold Tree.readText
  rw [h.place_eq]
  simp [bind, Except.bind, pure, Except.pure, h.node_eq]

theorem endsInDirectory_of_file (hplace : t.place path = .ok place) {content : Option String}
    (hnode : t.node? place = some (.file content)) : endsInDirectory path = false := by
  obtain ⟨-, -, hfile⟩ := place_eq_ok_iff.mp hplace
  cases hend : endsInDirectory path with
  | false => rfl
  | true => exact absurd hnode (hfile hend content)

/-- A text that stands at a path is still there if directories are kept and its place is left
alone. -/
theorem Holds.of_keeps (h : t.Holds path place text) (hkeeps : t.Keeps t')
    (hnode : t'.node? place = t.node? place) : t'.Holds path place text := by
  have hend := endsInDirectory_of_file h.place_eq h.node_eq
  exact ⟨hkeeps.place_eq_of_not_ends h.place_eq hend, hnode.trans h.node_eq⟩

/-- A text is written to a path if it leads to a place where no directory stands and does not have
to be the path of one. -/
theorem writeText_eq_ok_iff :
    t.writeText path text = .ok t' ↔ ∃ place, t.place path = .ok place ∧
      t.node? place ≠ some .directory ∧ endsInDirectory path = false ∧
      t' = t.put place (.file (some text)) := by
  unfold writeText
  cases hplace : t.place path with
  | error e => simp
  | ok place =>
    cases hnode : t.node? place with
    | none => cases hend : endsInDirectory path <;> simp [hnode, eq_comm]
    | some node =>
      cases node with
      | directory => simp [hnode]
      | file content => simp [hnode, endsInDirectory_of_file hplace hnode, eq_comm]

/-- What stands at a path after a text has been written to it. -/
theorem holds_of_writeText (h : t.writeText path text = .ok t') :
    ∃ place, t'.Holds path place text ∧ t.Keeps t' ∧
      ∀ other, other ≠ place → t'.node? other = t.node? other := by
  obtain ⟨place, hplace, hnode, hend, rfl⟩ := writeText_eq_ok_iff.mp h
  have hkeeps := Keeps.put hnode (.file (some text))
  have hself : (t.put place (.file (some text))).node? place = some (.file (some text)) :=
    node?_put_self (ne_nil_of_node? hnode)
  refine ⟨place, ⟨hkeeps.place_eq_of_not_ends hplace hend, hself⟩, hkeeps, ?_⟩
  intro other hother
  exact node?_put_of_ne hother

/-! ## Directories -/

/-- Directories have been made where nothing stood, at the places of some paths. -/
structure Made (paths : List String) (t t' : Tree) : Prop where
  keeps : t.Keeps t'
  change : ∀ place, t'.node? place = t.node? place ∨
    (t.node? place = none ∧ t'.node? place = some .directory ∧
      ∃ path ∈ paths, t'.place path = .ok place)

namespace Made

variable {paths more : List String}

theorem refl (paths : List String) (t : Tree) : Made paths t t :=
  ⟨.refl t, fun _ => .inl rfl⟩

theorem mono (h : Made paths t t') (hsub : paths ⊆ more) : Made more t t' where
  keeps := h.keeps
  change := by
    intro place
    rcases h.change place with hsame | ⟨hnone, hmade, path, hpath, hplace⟩
    · exact .inl hsame
    · exact .inr ⟨hnone, hmade, path, hsub hpath, hplace⟩

theorem trans (h : Made paths t t') (h' : Made paths t' t'') : Made paths t t'' where
  keeps := h.keeps.trans h'.keeps
  change := by
    intro place
    rcases h.change place with hsame | ⟨hnone, hmade, path, hpath, hplace⟩
    · rw [← hsame]
      exact h'.change place
    · -- what has been made first is still there, and its path still leads to it
      have hstill := h'.keeps.directory place hmade
      exact .inr ⟨hnone, hstill, path, hpath, h'.keeps.place_eq_of_directory hplace hstill⟩

end Made

/-- Making a directory makes at most that one. -/
theorem made_makeDirectory (h : t.makeDirectory path = .ok t') : Made [path] t t' := by
  unfold makeDirectory at h
  cases hplace : t.place path with
  | error e =>
    rw [hplace] at h
    cases h
  | ok place =>
    rw [hplace] at h
    cases hnode : t.node? place with
    | some node =>
      simp [bind, Except.bind, hnode] at h
    | none =>
      simp only [bind, Except.bind, pure, Except.pure, hnode, Except.ok.injEq] at h
      subst h
      have hfree : t.node? place ≠ some .directory := by simp [hnode]
      have hself : (t.put place .directory).node? place = some .directory :=
        node?_put_self (ne_nil_of_node? hfree)
      have hkeeps := Keeps.put hfree .directory
      refine ⟨hkeeps, ?_⟩
      intro other
      by_cases hother : other = place
      · subst hother
        exact .inr ⟨hnode, hself, path, List.mem_singleton_self path,
          hkeeps.place_eq_of_directory hplace hself⟩
      · exact .inl (node?_put_of_ne hother)

/-- Whether all directories could be made or not, nothing else has been done. -/
theorem made_makeDirectories (t : Tree) (paths : List String) :
    Made paths t (t.makeDirectories paths).1 := by
  -- from the directory that is asked for upwards, as long as the one above is missing
  induction paths generalizing t with
  | nil => exact .refl _ t
  | cons path above ih =>
    have hhead : [path] ⊆ path :: above := by simp
    have htail : above ⊆ path :: above := List.subset_cons_self path above
    unfold makeDirectories
    split
    · exact .refl _ t
    · split
      · next made hmade => exact (made_makeDirectory hmade).mono hhead
      · -- the directory above is made first
        have habove := (ih t).mono htail
        split
        · next later e hlater =>
          rw [hlater] at habove
          exact habove
        · next later hlater =>
          rw [hlater] at habove
          split
          · next made hmade => exact habove.trans ((made_makeDirectory hmade).mono hhead)
          · split
            · exact habove
            · exact habove
      · split
        · exact .refl _ t
        · exact .refl _ t

/-! ## Files and the directories above them -/

/-- The paths of the directories above a path, from the innermost outwards. -/
def above (path : String) : List String :=
  ((Path.parent? path).filter (!·.isEmpty)).elim [] Path.ancestors

/-- Two paths lead to the same place. -/
def SameFile (t : Tree) (path other : String) : Prop :=
  ∃ place, t.place path = .ok place ∧ t.place other = .ok place

/-- Nothing has changed but what stands at some paths, where there are files now, and directories
above them that did not exist. -/
structure Rewritten (paths : List String) (t t' : Tree) : Prop where
  keeps : t.Keeps t'
  change : ∀ place, t'.node? place = t.node? place ∨
    (∃ path ∈ paths, ∃ text, t'.Holds path place text) ∨
    (t.node? place = none ∧ t'.node? place = some .directory ∧
      ∃ path ∈ paths, ∃ directory ∈ above path, t'.place directory = .ok place)

namespace Rewritten

variable {paths : List String}

theorem refl (paths : List String) (t : Tree) : Rewritten paths t t :=
  ⟨.refl t, fun _ => .inl rfl⟩

/-- What stands somewhere else than at the paths is still there. -/
theorem node?_eq (h : Rewritten paths t t') (hnode : t.node? place ≠ none)
    (hplace : ∀ path ∈ paths, t'.place path ≠ .ok place) : t'.node? place = t.node? place := by
  rcases h.change place with hsame | ⟨path, hpath, text, hholds⟩ | ⟨hnone, -⟩
  · exact hsame
  · exact absurd hholds.place_eq (hplace path hpath)
  · exact absurd hnone hnode

/-- A file at none of the paths is still there. -/
theorem holds (h : Rewritten paths t t') (hholds : t.Holds path place text)
    (hpaths : ∀ other ∈ paths, ¬ t'.SameFile path other) : t'.Holds path place text := by
  have hend := endsInDirectory_of_file hholds.place_eq hholds.node_eq
  have hplace := h.keeps.place_eq_of_not_ends hholds.place_eq hend
  have hnode : t.node? place ≠ none := by
    rw [hholds.node_eq]
    simp
  refine ⟨hplace, (h.node?_eq hnode ?_).trans hholds.node_eq⟩
  intro other hother hsame
  exact hpaths other hother ⟨place, hplace, hsame⟩

theorem trans {more : List String} (h : Rewritten paths t t') (h' : Rewritten more t' t'') :
    Rewritten (paths ++ more) t t'' where
  keeps := h.keeps.trans h'.keeps
  change := by
    intro place
    rcases h'.change place with hsame | ⟨path, hpath, hholds⟩ |
      ⟨hnone, hmade, path, hpath, habove⟩
    · rw [hsame]
      rcases h.change place with hfirst | ⟨path, hpath, text, hholds⟩ |
        ⟨hnone, hmade, path, hpath, directory, hdirectory, hplace⟩
      · exact .inl hfirst
      · exact .inr (.inl ⟨path, List.mem_append_left _ hpath, text,
          hholds.of_keeps h'.keeps hsame⟩)
      · exact .inr (.inr ⟨hnone, hmade, path, List.mem_append_left _ hpath, directory, hdirectory,
          h'.keeps.place_eq_of_directory hplace (hsame.trans hmade)⟩)
    · exact .inr (.inl ⟨path, List.mem_append_right _ hpath, hholds⟩)
    · -- where a directory is new at last, there was nothing at first either
      rcases h.change place with hfirst | ⟨_, _, _, hholds⟩ | ⟨-, hdirectory, -⟩
      · exact .inr (.inr ⟨hfirst ▸ hnone, hmade, path, List.mem_append_right _ hpath, habove⟩)
      · rw [hholds.node_eq] at hnone
        cases hnone
      · rw [hdirectory] at hnone
        cases hnone

end Rewritten

/-- A text is written when directories above its path have been made. -/
theorem rewritten_of_writeText (hmade : Made (above path) t t')
    (h : t'.writeText path text = .ok t'') :
    ∃ place, t''.Holds path place text ∧ Rewritten [path] t t'' := by
  obtain ⟨place, hholds, hkeeps, hother⟩ := holds_of_writeText h
  refine ⟨place, hholds, hmade.keeps.trans hkeeps, ?_⟩
  intro other
  by_cases heq : other = place
  · subst heq
    exact .inr (.inl ⟨path, List.mem_singleton_self path, text, hholds⟩)
  · rw [hother other heq]
    rcases hmade.change other with hsame | ⟨hnone, hnew, directory, hdirectory, hplace⟩
    · exact .inl hsame
    · have hstill := (hother other heq).trans hnew
      exact .inr (.inr ⟨hnone, hnew, path, List.mem_singleton_self path, directory, hdirectory,
        hkeeps.place_eq_of_directory hplace hstill⟩)

end TestImpact.Files.Tree
