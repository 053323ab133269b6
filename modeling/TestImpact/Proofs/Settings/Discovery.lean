import TestImpact.CommandLine.Session
import TestImpact.Proofs.Files.Ancestors
import TestImpact.Proofs.Settings.Validity

/-!
# Finding the settings file

The search for a settings file goes through a directory and all those above it, and it ends at the
first one whose file can be used. To tell what the search looks at, it is run over files that are
given as a function, with a list of the paths that have been read (`ReadingM`). What one directory
comes to is told by `run_load` and `loaded_join_eq_ok_iff`; a search goes on exactly while there is
nothing to be had (`Search`, `search_discoverIn`).
-/

namespace TestImpact

namespace Files

/-- What there is to read at every path. -/
abbrev Contents := String → Except FileError String

/-- Runs over files that stay as they are, with the paths that have been read so far. -/
abbrev ReadingM := ReaderT Contents (StateM (List String))

instance : FileAccess ReadingM where
  readText path := do
    modify (· ++ [path])
    return (← read) path
  writeText _ _ := return .error (.other "read only")
  makeDirectories _ := return .error (.other "read only")

end Files

namespace Settings

open Files

/-! ## What a directory holds -/

/-- The file at a path is there, it is a table of settings, and their values are all valid. -/
def Holds (files : Contents) (path : String) (s : Settings) : Prop :=
  ∃ text fields, files path = .ok text ∧ Toml.parse? text.toList = some fields ∧
    ofToml? (.table fields) = some s ∧ s.Checked

/-- A path of the settings, before and after it has been taken relative to a directory. An absolute
path stays. How the directory is written at its end makes no difference. -/
structure MovedOnto (directory path moved : String) : Prop where
  text : moved = Path.join (Path.tidy directory) path
  absolute : Path.isAbsolute path = true → moved = path
  same : Path.Same moved (Path.join directory path)

/-- Settings before and after the paths of their tables have been taken relative to a directory. -/
structure RebasedOnto (directory : String) (s moved : Settings) : Prop where
  methods : Option.Rel (MovedOnto directory) s.tables.methods moved.tables.methods
  tests : Option.Rel (MovedOnto directory) s.tables.tests moved.tables.tests
  coverage : Option.Rel (MovedOnto directory) s.tables.coverage moved.tables.coverage
  delimiter : moved.tables.delimiter = s.tables.delimiter
  separator : moved.tables.separator = s.tables.separator
  detector : moved.detector = s.detector
  paths : moved.paths = s.paths
  hosting : moved.hosting = s.hosting

/-- A directory has a settings file that can be used, and this is what it says there. -/
def Loads (files : Contents) (directory : String) (s : Settings) : Prop :=
  ∃ raw, Holds files (Path.join directory fileName) raw ∧ RebasedOnto directory raw s

/-- Joining a path to a directory takes it relative to the directory. -/
theorem movedOnto_join (directory path : String) :
    MovedOnto directory path (Path.join (Path.tidy directory) path) where
  text := rfl
  absolute := by
    intro h
    simp [Path.join, h]
  same := Path.same_join_tidy directory path

theorem rel_map {α β : Type} {r : α → β → Prop} {f : α → β} (h : ∀ a, r a (f a)) (x? : Option α) :
    Option.Rel r x? (x?.map f) := by
  cases x? with
  | none => exact .none
  | some a => exact .some (h a)

/-- Rebasing settings takes the paths of their tables relative to the directory. -/
theorem rebasedOnto_rebase (directory : String) (s : Settings) :
    RebasedOnto directory s (s.rebase (Path.tidy directory)) where
  methods := rel_map (movedOnto_join directory) _
  tests := rel_map (movedOnto_join directory) _
  coverage := rel_map (movedOnto_join directory) _
  delimiter := rfl
  separator := rfl
  detector := rfl
  paths := rfl
  hosting := rfl

theorem eq_map_of_rel {directory : String} {path? moved? : Option String}
    (h : Option.Rel (MovedOnto directory) path? moved?) :
    moved? = path?.map (Path.join (Path.tidy directory)) := by
  cases h with
  | none => rfl
  | some hmoved => rw [hmoved.text, Option.map_some]

/-- There is only one way to move settings. -/
theorem rebasedOnto_iff {directory : String} {s moved : Settings} :
    RebasedOnto directory s moved ↔ moved = s.rebase (Path.tidy directory) := by
  constructor
  · intro h
    have htables : moved.tables = (s.rebase (Path.tidy directory)).tables := by
      rw [TableSection.mk.injEq]
      exact ⟨eq_map_of_rel h.methods, eq_map_of_rel h.tests, eq_map_of_rel h.coverage, h.delimiter,
        h.separator⟩
    rw [Settings.mk.injEq]
    exact ⟨h.detector, htables, h.paths, h.hosting⟩
  · rintro rfl
    exact rebasedOnto_rebase directory s

/-! ## One directory -/

/-- What comes of the file at a path. -/
def loaded (files : Contents) (path : String) : Except SettingsError Settings :=
  match files path with
  | .ok text => ofFile path text.toList
  | .error cause => .error (.unreadable cause)

/-- The file is read once, and nothing else is. -/
theorem run_load (files : Contents) (path : String) (log : List String) :
    ((load path : ReadingM _).run files).run log = (loaded files path, log ++ [path]) := by
  show StateT.run (ReaderT.run (match files path with | .ok text => _ | .error cause => _) files)
    (log ++ [path]) = _
  unfold loaded
  cases files path <;> rfl

theorem isName_fileName : Path.IsName fileName where
  nonempty := by decide
  unseparated := by decide
  noStep := by decide

/-- Loading the file of a directory gives what the directory says. -/
theorem loaded_join_eq_ok_iff {files : Contents} {directory : String} {s : Settings} :
    loaded files (Path.join directory fileName) = .ok s ↔ Loads files directory s := by
  simp only [Loads, Holds, rebasedOnto_iff]
  unfold loaded
  cases hread : files (Path.join directory fileName) with
  | error cause => simp
  | ok text =>
    simp only [ofFile, Path.parent?_join isName_fileName, map_eq_ok_iff, parse_eq_ok_iff]
    constructor
    · rintro ⟨raw, ⟨fields, hfields, hraw, hchecked⟩, rfl⟩
      exact ⟨raw, ⟨text, fields, rfl, hfields, hraw, hchecked⟩, rfl⟩
    · rintro ⟨raw, ⟨_, fields, ⟨⟩, hfields, hraw, hchecked⟩, rfl⟩
      exact ⟨raw, ⟨fields, hfields, hraw, hchecked⟩, rfl⟩

/-! ## The search -/

/-- A search through directories: those that it visits, and what it finds. It goes on as long as
there is nothing to be had. -/
inductive Search (files : Contents) :
    List String → List String → Option (String × Settings) → Prop
  | nowhere : Search files [] [] none
  | here {d s rest} : Loads files d s →
      Search files (d :: rest) [d] (some (Path.join d fileName, s))
  | further {d rest visited found} : (∀ s, ¬ Loads files d s) → Search files rest visited found →
      Search files (d :: rest) (d :: visited) found

/-- The files that are read in some directories. -/
def filesIn (directories : List String) : List String :=
  directories.map (Path.join · fileName)

theorem run_bind {α β : Type} (x : ReadingM α) (f : α → ReadingM β) (files : Contents)
    (log : List String) :
    ((x >>= f).run files).run log =
      ((f ((x.run files).run log).1).run files).run ((x.run files).run log).2 := rfl

/-- The file of the first directory is read. The rest is looked at only if it cannot be used. -/
theorem run_discoverIn_cons (files : Contents) (d : String) (rest log : List String) :
    ((discoverIn (d :: rest) : ReadingM _).run files).run log =
      match loaded files (Path.join d fileName) with
      | .ok s => (some (Path.join d fileName, s), log ++ filesIn [d])
      | .error _ => ((discoverIn rest : ReadingM _).run files).run (log ++ filesIn [d]) := by
  rw [discoverIn, run_bind, run_load]
  cases loaded files (Path.join d fileName) <;> rfl

/-- What a run does is a search. -/
theorem search_discoverIn (files : Contents) (directories log : List String) :
    ∃ visited found, ((discoverIn directories : ReadingM _).run files).run log =
      (found, log ++ filesIn visited) ∧ Search files directories visited found := by
  induction directories generalizing log with
  | nil => exact ⟨[], none, by simp [discoverIn, filesIn]; rfl, .nowhere⟩
  | cons d rest ih =>
    rw [run_discoverIn_cons]
    cases hload : loaded files (Path.join d fileName) with
    | ok s => exact ⟨[d], _, rfl, .here (loaded_join_eq_ok_iff.mp hload)⟩
    | error cause =>
      have hnothing : ∀ s, ¬ Loads files d s := by
        intro s hs
        rw [loaded_join_eq_ok_iff.mpr hs] at hload
        cases hload
      -- the rest is searched with the file of the first directory already read
      obtain ⟨visited, found, hrun, hsearch⟩ := ih (log ++ filesIn [d])
      refine ⟨d :: visited, found, ?_, .further hnothing hsearch⟩
      rw [hrun]
      simp [filesIn]

namespace Search

variable {files : Contents} {directories visited : List String} {found : Option (String × Settings)}

/-- The search visits the first of the directories. -/
theorem isPrefix (h : Search files directories visited found) : visited <+: directories := by
  induction h with
  | nowhere => exact List.prefix_rfl
  | here _ => exact List.cons_prefix_cons.mpr ⟨rfl, List.nil_prefix⟩
  | further _ _ ih => exact List.cons_prefix_cons.mpr ⟨rfl, ih⟩

/-- What is found is in the directory visited last, and there is nothing in those before. -/
theorem eq_concat {path : String} {s : Settings}
    (h : Search files directories visited (some (path, s))) :
    ∃ before d, visited = before ++ [d] ∧ path = Path.join d fileName ∧ Loads files d s ∧
      ∀ b ∈ before, ∀ s', ¬ Loads files b s' := by
  generalize hfound : some (path, s) = found at h
  induction h with
  | nowhere => cases hfound
  | @here d _ _ hloads =>
    cases hfound
    exact ⟨[], d, rfl, rfl, hloads, by simp⟩
  | @further b _ _ _ hnothing _ ih =>
    obtain ⟨before, d, rfl, hpath, hloads, hbefore⟩ := ih hfound
    exact ⟨b :: before, d, rfl, hpath, hloads, by simpa using ⟨hnothing, hbefore⟩⟩

/-- If nothing is found, there is nothing in any of the directories. -/
theorem eq_directories (h : Search files directories visited none) :
    visited = directories ∧ ∀ d ∈ directories, ∀ s, ¬ Loads files d s := by
  generalize hfound : none = found at h
  induction h with
  | nowhere => exact ⟨rfl, by simp⟩
  | here _ => cases hfound
  | further hnothing _ ih =>
    obtain ⟨rfl, hrest⟩ := ih hfound
    exact ⟨rfl, by simpa using ⟨hnothing, hrest⟩⟩

end Search

/-- What a search through directories has to come to. The first one with a file that can be used is
found, whatever the files before it are. -/
structure Nearest (files : Contents) (directories visited : List String)
    (found : Option (String × Settings)) : Prop where
  isPrefix : visited <+: directories
  found_iff : ∀ path s, found = some (path, s) ↔
    ∃ before d, visited = before ++ [d] ∧ path = Path.join d fileName ∧ Loads files d s ∧
      ∀ b ∈ before, ∀ s', ¬ Loads files b s'
  none_iff : found = none ↔ ∀ d ∈ visited, ∀ s, ¬ Loads files d s
  complete : found = none → visited = directories

theorem Loads.unique {files : Contents} {d : String} {s s' : Settings} (h : Loads files d s)
    (h' : Loads files d s') : s = s' := by
  rw [← loaded_join_eq_ok_iff] at h h'
  exact Except.ok.inj (h.symm.trans h')

/-- A search comes to what is nearest. -/
theorem Search.nearest {files : Contents} {directories visited : List String}
    {found : Option (String × Settings)} (h : Search files directories visited found) :
    Nearest files directories visited found := by
  cases found with
  | none =>
    obtain ⟨rfl, hnothing⟩ := h.eq_directories
    refine ⟨h.isPrefix, ?_, by simpa using hnothing, fun _ => rfl⟩
    intro path s
    constructor
    · rintro ⟨⟩
    · rintro ⟨before, d, rfl, -, hloads, -⟩
      exact absurd hloads (hnothing d (by simp) s)
  | some result =>
    obtain ⟨path, s⟩ := result
    obtain ⟨before, d, rfl, rfl, hloads, hbefore⟩ := h.eq_concat
    refine ⟨h.isPrefix, ?_, ?_, by simp⟩
    · intro path' s'
      constructor
      · rintro ⟨⟩
        exact ⟨before, d, rfl, rfl, hloads, hbefore⟩
      · -- the directory visited last is known, and so is what it says
        rintro ⟨before', d', hvisited, rfl, hloads', -⟩
        obtain ⟨-, hd⟩ := List.append_inj' hvisited rfl
        obtain rfl : d = d' := List.head_eq_of_cons_eq hd
        rw [hloads.unique hloads']
    · constructor
      · rintro ⟨⟩
      · intro hnothing
        exact absurd hloads (hnothing d (by simp) s)

/-! ## The search from a directory upwards -/

section Sessions

variable (session : CommandLine.Session)

theorem run_load_session (path : String) :
    (load path : CommandLine.SessionM _).run session =
      (loaded session.files.readText path, session) := by
  show StateT.run (match session.files.readText path with | .ok text => _ | .error cause => _)
    session = _
  unfold loaded
  cases session.files.readText path <;> rfl

theorem run_session_bind {α β : Type} (x : CommandLine.SessionM α)
    (f : α → CommandLine.SessionM β) :
    (x >>= f).run session = (f (x.run session).1).run (x.run session).2 := rfl

/-- A session answers from its files, and the search leaves it as it is. -/
theorem run_discoverIn_session (directories log : List String) :
    (discoverIn directories : CommandLine.SessionM _).run session =
      ((((discoverIn directories : ReadingM _).run session.files.readText).run log).1,
        session) := by
  induction directories generalizing log with
  | nil => rfl
  | cons d rest ih =>
    rw [discoverIn, run_session_bind, run_load_session, run_discoverIn_cons]
    cases loaded session.files.readText (Path.join d fileName) with
    | ok s => rfl
    | error cause => exact ih _

end Sessions

/-- What is found from a directory upwards over some files, and the files that are read for it. -/
def discoverOver (files : Contents) (start : String) :
    Option (String × Settings) × List String :=
  ((discover start : ReadingM _).run files).run []

/-- **The nearest settings file that can be used is found.** The search reads the files of a
directory and of those above it, in this order, and it ends. What it finds is the first file that is
there and is a table of valid settings, with the paths of the tables taken relative to its
directory. A run of the program searches in the same way. -/
theorem discover_nearest (files : Contents) (start : String) :
    Path.Upwards start (Path.ancestors start) ∧
    (∃ visited found, discoverOver files start = (found, filesIn visited) ∧
      Nearest files (Path.ancestors start) visited found) ∧
    ∀ session : CommandLine.Session,
      (discover start : CommandLine.SessionM _).run session =
        ((discoverOver session.files.readText start).1, session) := by
  refine ⟨Path.upwards_ancestors start, ?_, ?_⟩
  · obtain ⟨visited, found, hrun, hsearch⟩ :=
      search_discoverIn files (Path.ancestors start) []
    exact ⟨visited, found, hrun, hsearch.nearest⟩
  · intro session
    exact run_discoverIn_session session _ []

/-- The file of `p/q` is no table, and that of `p` is one. -/
def twoFiles : Contents := fun path =>
  if path = "p/q/methodtrace.toml" then .ok "["
  else if path = "p/methodtrace.toml" then .ok "[tables]\nmethods = \"m.csv\"\n"
  else .error .notFound

example : discoverOver twoFiles "p/q" =
    (some ("p/methodtrace.toml", { tables := { methods := some "p/m.csv" } }),
      ["p/q/methodtrace.toml", "p/methodtrace.toml"]) := by
  decide +kernel

end Settings

end TestImpact
