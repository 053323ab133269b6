import Mathlib.Data.List.Basic
import Mathlib.Data.List.TakeWhile
import TestImpact.Proofs.Lists
import TestImpact.Proofs.Text.Pieces

/-!
# Addresses

An address has a scheme that a colon ends, an authority behind two slashes, a path, a query behind a
question mark and a fragment behind a number sign. All but the path may be missing, and every text
can be cut in this way (`Address.read`). A path that is written behind an address without a query
and a fragment goes on with its path (`Address.read_append`).
-/

namespace TestImpact.Hosting

/-! ## Up to a character -/

/-- The start of a text up to the first of some characters. -/
def upTo (stops s : List Char) : List Char := s.takeWhile (· ∉ stops)

/-- The rest of a text from the first of some characters on. -/
def fromFirst (stops s : List Char) : List Char := s.dropWhile (· ∉ stops)

section UpTo

variable {stops s t : List Char}

theorem upTo_append_fromFirst (stops s : List Char) : upTo stops s ++ fromFirst stops s = s :=
  List.takeWhile_append_dropWhile

theorem notMem_of_mem_upTo {c : Char} (h : c ∈ upTo stops s) : c ∉ stops := by
  simpa using List.mem_takeWhile_imp h

/-- A text without such a character is followed by the start of the next one. -/
theorem upTo_append_of_forall (h : ∀ c ∈ s, c ∉ stops) : upTo stops (s ++ t) = s ++ upTo stops t :=
  List.takeWhile_append_of_pos (by simpa using h)

theorem upTo_of_forall (h : ∀ c ∈ s, c ∉ stops) : upTo stops s = s := by
  simpa [upTo] using upTo_append_of_forall (t := []) h

theorem fromFirst_append_of_forall (h : ∀ c ∈ s, c ∉ stops) :
    fromFirst stops (s ++ t) = fromFirst stops t :=
  List.dropWhile_append_of_pos (by simpa using h)

/-- A text ends where such a character stands in it or at once behind it. -/
theorem cut_append_of_stop (stops : List Char)
    (h : (∃ c ∈ s, c ∈ stops) ∨ ∀ c ∈ t.head?, c ∈ stops) :
    upTo stops (s ++ t) = upTo stops s ∧ fromFirst stops (s ++ t) = fromFirst stops s ++ t := by
  induction s with
  | nil =>
    cases t with
    | nil => exact ⟨rfl, rfl⟩
    | cons c t =>
      have hc : c ∈ stops := by simpa using h
      simp [upTo, fromFirst, hc]
  | cons c s ih =>
    by_cases hc : c ∈ stops
    · simp [upTo, fromFirst, hc]
    · have ih := ih (by simpa [hc] using h)
      simpa [upTo, fromFirst, hc] using ih

end UpTo

/-! ## The parts of an address -/

/-- The parts of an address. -/
structure Address where
  scheme : Option (List Char)
  authority : Option (List Char)
  path : List Char
  query : Option (List Char)
  fragment : Option (List Char)
  deriving DecidableEq, Repr

namespace Address

/-- The scheme of an address, if it has one, and what follows it. -/
def readScheme (s : List Char) : Option (List Char) × List Char :=
  match fromFirst [':', '/', '?', '#'] s with
  | ':' :: rest =>
    let scheme := upTo [':', '/', '?', '#'] s
    if scheme.isEmpty then (none, s) else (some scheme, rest)
  | _ => (none, s)

/-- The authority behind two slashes, and what follows it. -/
def readAuthority (s : List Char) : Option (List Char) × List Char :=
  match s with
  | '/' :: '/' :: rest => (some (upTo ['/', '?', '#'] rest), fromFirst ['/', '?', '#'] rest)
  | _ => (none, s)

/-- The query behind a question mark, and what follows it. -/
def readQuery (s : List Char) : Option (List Char) × List Char :=
  match s with
  | '?' :: rest => (some (upTo ['#'] rest), fromFirst ['#'] rest)
  | _ => (none, s)

/-- The fragment behind a number sign. -/
def readFragment (s : List Char) : Option (List Char) :=
  match s with
  | '#' :: rest => some rest
  | _ => none

/-- An address from its path on. -/
def fromPath (s : List Char) : List Char := (readAuthority (readScheme s).2).2

/-- The parts of an address. -/
def read (s : List Char) : Address where
  scheme := (readScheme s).1
  authority := (readAuthority (readScheme s).2).1
  path := upTo ['?', '#'] (fromPath s)
  query := (readQuery (fromFirst ['?', '#'] (fromPath s))).1
  fragment := readFragment (readQuery (fromFirst ['?', '#'] (fromPath s))).2

/-- Neither a query nor a fragment begins in a text. -/
def Unmarked (s : List Char) : Prop := ∀ c ∈ s, c ∉ ['?', '#']

-- decided along the text and not for every character there is
instance : DecidablePred Unmarked := fun s =>
  List.decidableBAll (· ∉ ['?', '#']) s

theorem unmarked_nil : Unmarked [] := List.forall_mem_nil _

theorem unmarked_append {s t : List Char} : Unmarked (s ++ t) ↔ Unmarked s ∧ Unmarked t :=
  List.forall_mem_append

theorem not_unmarked_iff {s : List Char} : ¬ Unmarked s ↔ ∃ c ∈ s, c ∈ ['?', '#'] := by
  simp only [Unmarked, not_forall, not_not, exists_prop]

theorem unmarked_upTo {stops s : List Char} (h : ∀ c ∈ ['?', '#'], c ∈ stops) :
    Unmarked (upTo stops s) :=
  fun c hc hmark => notMem_of_mem_upTo hc (h c hmark)

theorem exists_readScheme (s : List Char) :
    ∃ front, Unmarked front ∧ s = front ++ (readScheme s).2 := by
  unfold readScheme
  split
  · next rest hrest =>
    dsimp only
    split
    · exact ⟨[], unmarked_nil, rfl⟩
    · refine ⟨upTo [':', '/', '?', '#'] s ++ [':'], ?_, ?_⟩
      · intro c hc
        rcases List.mem_append.mp hc with hc | hc
        · exact unmarked_upTo (by simp) c hc
        · simp [List.mem_singleton.mp hc]
      · rw [List.append_assoc, List.singleton_append, ← hrest, upTo_append_fromFirst]
  · exact ⟨[], unmarked_nil, rfl⟩

theorem exists_readAuthority (s : List Char) :
    ∃ front, Unmarked front ∧ s = front ++ (readAuthority s).2 := by
  unfold readAuthority
  split
  · next rest =>
    refine ⟨'/' :: '/' :: upTo ['/', '?', '#'] rest, ?_, ?_⟩
    · intro c hc
      rcases List.mem_cons.mp hc with rfl | hc
      · simp
      rcases List.mem_cons.mp hc with rfl | hc
      · simp
      · exact unmarked_upTo (by simp) c hc
    · simp [upTo_append_fromFirst]
  · exact ⟨[], unmarked_nil, rfl⟩

/-- The path begins before the first question mark and the first number sign. -/
theorem exists_fromPath (s : List Char) :
    ∃ front, Unmarked front ∧ s = front ++ fromPath s := by
  obtain ⟨front, hfront, hs⟩ := exists_readScheme s
  obtain ⟨front', hfront', hs'⟩ := exists_readAuthority (readScheme s).2
  refine ⟨front ++ front', unmarked_append.mpr ⟨hfront, hfront'⟩, ?_⟩
  rw [List.append_assoc, fromPath, ← hs', ← hs]

/-- The scheme does not depend on what follows the next slash. -/
theorem readScheme_append (s t : List Char) :
    readScheme (s ++ '/' :: t) = ((readScheme s).1, (readScheme s).2 ++ '/' :: t) := by
  have hstop : ∀ c ∈ ('/' :: t).head?, c ∈ [':', '/', '?', '#'] := by simp
  obtain ⟨hupTo, hfrom⟩ := cut_append_of_stop [':', '/', '?', '#'] (s := s) (.inr hstop)
  unfold readScheme
  rw [hupTo, hfrom]
  cases fromFirst [':', '/', '?', '#'] s with
  | nil => simp
  | cons c rest =>
    by_cases hc : c = ':'
    · subst hc
      simp only [List.cons_append]
      split <;> rfl
    · simp [hc]

/-- A slash behind an address does not change its authority, unless two slashes come together. -/
theorem readAuthority_append {s t : List Char} (hlast : s.getLast? ≠ some '/')
    (h : s = [] → t.head? ≠ some '/') :
    readAuthority (s ++ '/' :: t) = ((readAuthority s).1, (readAuthority s).2 ++ '/' :: t) := by
  have hstop : ∀ c ∈ ('/' :: t).head?, c ∈ ['/', '?', '#'] := by simp
  -- an authority begins with two slashes: neither may be missing from `s` and stand behind it
  match s, hlast, h with
  | [], _, h =>
    cases t with
    | nil => rfl
    | cons c t =>
      have hc : c ≠ '/' := by simpa using h rfl
      simp [readAuthority, hc]
  | [c], hlast, _ =>
    have hc : c ≠ '/' := by simpa using hlast
    simp [readAuthority, hc]
  | c :: c' :: rest, _, _ =>
    -- `s` decides by itself, and an authority in it ends before the next slash
    obtain ⟨hupTo, hfrom⟩ := cut_append_of_stop ['/', '?', '#'] (s := rest) (.inr hstop)
    by_cases hslashes : c = '/' ∧ c' = '/'
    · obtain ⟨rfl, rfl⟩ := hslashes
      simp only [List.cons_append, readAuthority, hupTo, hfrom]
    · have hnone : ∀ r, readAuthority (c :: c' :: r) = (none, c :: c' :: r) := by
        intro r
        unfold readAuthority
        split
        · next heq =>
          simp only [List.cons.injEq] at heq
          exact absurd ⟨heq.1, heq.2.1⟩ hslashes
        · rfl
      rw [List.cons_append, List.cons_append, hnone, hnone]
      rfl

theorem getLast?_readScheme {s : List Char} (hlast : s.getLast? ≠ some '/') :
    (readScheme s).2.getLast? ≠ some '/' := by
  obtain ⟨front, -, hs⟩ := exists_readScheme s
  intro hslash
  apply hlast
  rw [hs, List.getLast?_append, hslash]
  rfl

/-- What is written behind an address goes on with its path, unless it makes an authority of it. -/
theorem fromPath_append {s t : List Char} (hlast : s.getLast? ≠ some '/')
    (h : (readScheme s).2 = [] → t.head? ≠ some '/') :
    fromPath (s ++ '/' :: t) = fromPath s ++ '/' :: t := by
  rw [fromPath, readScheme_append, readAuthority_append (getLast?_readScheme hlast) h, fromPath]

/-- A text that begins with one slash begins with its path. -/
theorem readScheme_slash (t : List Char) : readScheme ('/' :: t) = (none, '/' :: t) :=
  readScheme_append [] t

theorem readAuthority_slash {t : List Char} (ht : t.head? ≠ some '/') :
    readAuthority ('/' :: t) = (none, '/' :: t) :=
  readAuthority_append (s := []) (by simp) fun _ => ht

theorem fromPath_slash {t : List Char} (ht : t.head? ≠ some '/') :
    fromPath ('/' :: t) = '/' :: t := by
  rw [fromPath, readScheme_slash, readAuthority_slash ht]

/-- The marks of an address stand in its path or behind it. -/
theorem unmarked_fromPath_iff {s : List Char} : Unmarked (fromPath s) ↔ Unmarked s := by
  obtain ⟨front, hfront, hs⟩ := exists_fromPath s
  have happend : Unmarked s ↔ Unmarked (front ++ fromPath s) := by rw [← hs]
  rw [happend, unmarked_append]
  exact (and_iff_right hfront).symm

/-- A path that is written behind an address without query and fragment goes on with its path, and
the query and the fragment behind it are those of the whole. -/
theorem read_append {s t : List Char} (hs : Unmarked s) (hlast : s.getLast? ≠ some '/')
    (ht : t.head? ≠ some '/') :
    read (s ++ '/' :: t) = { read ('/' :: t) with
      scheme := (read s).scheme
      authority := (read s).authority
      path := (read s).path ++ (read ('/' :: t)).path } := by
  have hpath : ∀ c ∈ fromPath s, c ∉ ['?', '#'] := unmarked_fromPath_iff.mpr hs
  have hauthority := readAuthority_append (getLast?_readScheme hlast) fun _ => ht
  simp only [read, readScheme_append, hauthority, fromPath_append hlast fun _ => ht,
    fromPath_slash ht, upTo_append_of_forall hpath, fromFirst_append_of_forall hpath,
    upTo_of_forall hpath]

/-- Behind a query or a fragment it does not go on with the path. -/
theorem path_read_append {s t : List Char} (hlast : s.getLast? ≠ some '/')
    (ht : (readScheme s).2 = [] → t.head? ≠ some '/') :
    (read (s ++ '/' :: t)).path =
      if Unmarked s then (read s).path ++ '/' :: upTo ['?', '#'] t else (read s).path := by
  simp only [read, fromPath_append hlast ht]
  split
  · next hs =>
    have hpath : ∀ c ∈ fromPath s, c ∉ ['?', '#'] := unmarked_fromPath_iff.mpr hs
    rw [upTo_append_of_forall hpath, upTo_of_forall hpath]
    rfl
  · next hs =>
    -- the mark that ends the path stands in `s` already
    have hmark : ∃ c ∈ fromPath s, c ∈ ['?', '#'] :=
      not_unmarked_iff.mp (mt unmarked_fromPath_iff.mp hs)
    exact (cut_append_of_stop _ (.inl hmark)).1

theorem path_read_slash {t : List Char} (ht : t.head? ≠ some '/') :
    (read ('/' :: t)).path = '/' :: upTo ['?', '#'] t := by
  simp only [read, fromPath_slash ht]
  rfl

/-- A path and a query behind it are read as such. -/
theorem read_path_query {t query : List Char} (ht : t.head? ≠ some '/')
    (hpath : Unmarked ('/' :: t)) (hquery : '#' ∉ query) :
    read ('/' :: t ++ '?' :: query) = ⟨none, none, '/' :: t, some query, none⟩ := by
  have hhead : (t ++ '?' :: query).head? ≠ some '/' := by
    cases t with
    | nil => simp
    | cons c t => simpa using ht
  have hfrom : fromPath ('/' :: t ++ '?' :: query) = '/' :: t ++ '?' :: query :=
    fromPath_slash hhead
  have hquery : ∀ c ∈ query, c ∉ ['#'] := fun c hc heq => hquery (List.mem_singleton.mp heq ▸ hc)
  have hend : fromFirst ['#'] query = [] := by
    rw [← List.append_nil query, fromFirst_append_of_forall hquery]
    rfl
  have hmark : readQuery (fromFirst ['?', '#'] ('?' :: query)) = (some query, []) := by
    show (some (upTo ['#'] query), fromFirst ['#'] query) = (some query, [])
    rw [upTo_of_forall hquery, hend]
  have hpathEnd : '/' :: t ++ upTo ['?', '#'] ('?' :: query) = '/' :: t := List.append_nil _
  simp only [read, hfrom, upTo_append_of_forall hpath, fromFirst_append_of_forall hpath, hmark,
    hpathEnd]
  simp only [List.cons_append, readScheme_slash, readAuthority_slash hhead]
  rfl

/-! ## Segments and parameters -/

/-- The segments of a path, which slashes separate. -/
def segments (path : List Char) : List (List Char) := Text.splitOn ['/'] path

/-- The parameters of a query, which ampersands separate: the name of each and its value behind an
equals sign. -/
def parameters (query : List Char) : List (List Char × List Char) :=
  (Text.splitOn ['&'] query).map fun p => (upTo ['='] p, (fromFirst ['='] p).drop 1)

/-- An address without scheme, authority and fragment that has certain segments and parameters. -/
structure AsksFor (s : List Char) (steps : List String) (values : List (String × String)) :
    Prop where
  scheme_eq : (read s).scheme = none
  authority_eq : (read s).authority = none
  segments_eq : segments (read s).path = steps.map String.toList
  parameters_eq : (read s).query.map parameters =
    some (values.map fun (name, value) => (name.toList, value.toList))
  fragment_eq : (read s).fragment = none

/-- An address tells what it asks for. -/
theorem AsksFor.unique {s : List Char} {steps steps' : List String}
    {values values' : List (String × String)} (h : AsksFor s steps values)
    (h' : AsksFor s steps' values') : steps = steps' ∧ values = values' := by
  have hsteps : steps.map String.toList = steps'.map String.toList :=
    h.segments_eq.symm.trans h'.segments_eq
  have hvalues := h.parameters_eq.symm.trans h'.parameters_eq
  refine ⟨List.map_injective_iff.mpr (fun _ _ => String.toList_inj.mp) hsteps, ?_⟩
  refine List.map_injective_iff.mpr ?_ (Option.some.inj hvalues)
  rintro ⟨name, value⟩ ⟨name', value'⟩ heq
  obtain ⟨hname, hvalue⟩ := Prod.mk.inj heq
  rw [String.toList_inj.mp hname, String.toList_inj.mp hvalue]

/-- A text that separates nothing in an address. -/
def Unreserved (s : List Char) : Prop := ∀ c ∈ s, c ∉ ['/', '?', '#', '&', '=']

instance : DecidablePred Unreserved := fun s =>
  List.decidableBAll (· ∉ ['/', '?', '#', '&', '=']) s

theorem Unreserved.unmarked {s : List Char} (h : Unreserved s) : Unmarked s :=
  fun c hc hmark => h c hc ((by decide : ['?', '#'] ⊆ ['/', '?', '#', '&', '=']) hmark)

/-- How a path with some segments is written. -/
def writePath (steps : List String) : List Char := ['/'].intercalate (steps.map String.toList)

/-- How a query with some parameters is written. -/
def writeQuery (values : List (String × String)) : List Char :=
  ['&'].intercalate (values.map fun (name, value) => name.toList ++ '=' :: value.toList)

theorem segments_writePath {steps : List String} (hne : steps ≠ [])
    (h : ∀ step ∈ steps, Unreserved step.toList) :
    segments (writePath steps) = steps.map String.toList := by
  refine Text.splitOn_intercalate (by simpa using hne) fun s hs => ?_
  obtain ⟨step, hstep, rfl⟩ := List.mem_map.mp hs
  exact fun hslash => h step hstep '/' hslash (by simp)

/-- A written query is read as its names and values. -/
theorem parameters_writeQuery {values : List (String × String)} (hne : values ≠ [])
    (h : ∀ v ∈ values, Unreserved v.1.toList ∧ Unreserved v.2.toList) :
    parameters (writeQuery values) =
      values.map fun (name, value) => (name.toList, value.toList) := by
  -- first the ampersands, then the first equals sign of each piece
  have hpieces : ∀ p ∈ values.map fun (name, value) => name.toList ++ '=' :: value.toList,
      '&' ∉ p := by
    intro p hp hmem
    obtain ⟨⟨name, value⟩, hv, rfl⟩ := List.mem_map.mp hp
    obtain ⟨hname, hvalue⟩ := h _ hv
    rcases List.mem_append.mp hmem with hmem | hmem
    · exact hname '&' hmem (by simp)
    · exact hvalue '&' (by simpa using hmem) (by simp)
  rw [parameters, writeQuery, Text.splitOn_intercalate (by simpa using hne) hpieces, List.map_map]
  apply List.map_congr_left
  rintro ⟨name, value⟩ hv
  have hname : ∀ c ∈ name.toList, c ∉ ['='] := by
    intro c hc heq
    rw [List.mem_singleton.mp heq] at hc
    exact (h _ hv).1 '=' hc (by simp)
  have hstart : upTo ['='] (name.toList ++ '=' :: value.toList) = name.toList ++ [] :=
    upTo_append_of_forall hname
  have hend : fromFirst ['='] (name.toList ++ '=' :: value.toList) = '=' :: value.toList :=
    fromFirst_append_of_forall hname
  simp only [Function.comp_apply, hstart, hend, List.append_nil, List.drop_succ_cons,
    List.drop_zero]

theorem head?_writePath {first : String} (hfirst : first ≠ "") (steps : List String) :
    (writePath (first :: steps)).head? = first.toList.head? := by
  have hne : first.toList ≠ [] := fun h => hfirst (String.toList_inj.mp h)
  cases steps with
  | nil => rw [writePath, List.map_singleton, List.intercalate_singleton]
  | cons step steps =>
    rw [writePath, List.map_cons, List.map_cons, List.intercalate_cons_cons, List.append_assoc,
      List.head?_append_of_ne_nil _ hne]

section Write

variable {first : String} {steps : List String} {values : List (String × String)}
  (hfirst : first ≠ "") (hsteps : ∀ step ∈ "" :: first :: steps, Unreserved step.toList)
  (hvalues : ∀ v ∈ values, Unreserved v.1.toList ∧ Unreserved v.2.toList)

include hfirst hsteps hvalues

/-- What is written with some segments and parameters is read as a path and a query. -/
theorem read_write : read (writePath ("" :: first :: steps) ++ '?' :: writeQuery values) =
    ⟨none, none, writePath ("" :: first :: steps), some (writeQuery values), none⟩ := by
  have hhead : (writePath (first :: steps)).head? ≠ some '/' := by
    rw [head?_writePath hfirst]
    intro hslash
    exact hsteps first (by simp) '/' (List.mem_of_head? hslash) (by simp)
  have hpath : Unmarked ('/' :: writePath (first :: steps)) := by
    refine List.forall_mem_cons.mpr ⟨by simp, forall_mem_intercalate (by simp) fun s hs => ?_⟩
    obtain ⟨step, hstep, rfl⟩ := List.mem_map.mp hs
    exact (hsteps step (List.mem_cons_of_mem _ hstep)).unmarked
  have hquery : ∀ c ∈ writeQuery values, c ≠ '#' := by
    refine forall_mem_intercalate (by simp) fun p hp c hc heq => ?_
    obtain ⟨⟨name, value⟩, hv, rfl⟩ := List.mem_map.mp hp
    rcases List.mem_append.mp hc with hc | hc
    · exact (hvalues _ hv).1 c hc (by simp [heq])
    rcases List.mem_cons.mp hc with rfl | hc
    · cases heq
    · exact (hvalues _ hv).2 c hc (by simp [heq])
  exact read_path_query hhead hpath fun hmem => hquery '#' hmem rfl

/-- A written path and query ask for their segments and parameters. -/
theorem asksFor_write (hne : values ≠ []) :
    AsksFor (writePath ("" :: first :: steps) ++ '?' :: writeQuery values)
      ("" :: first :: steps) values := by
  have hread := read_write hfirst hsteps hvalues
  refine ⟨?_, ?_, ?_, ?_, ?_⟩
  all_goals rw [hread]
  · exact segments_writePath (List.cons_ne_nil _ _) hsteps
  · rw [Option.map_some, parameters_writeQuery hne hvalues]

end Write

end Address

end TestImpact.Hosting
