import TestImpact.Proofs.Hosting.FilesUrl

/-!
# Dot segments

In a path the segment `.` stands for the place itself and the segment `..` for the place above it.
Clients remove both before they send a request (`removeDots`), which changes exactly the paths that
have such segments (`removeDots_eq_self_iff`). Full stops are allowed in the name of a repository
and in that of its owner, and either may be such a segment: then the request goes elsewhere
(`filesPath_undiverted_iff`).
-/

namespace TestImpact.Hosting

namespace Address

/-- Whether a segment stands for the place itself or for the one above it. -/
def isDots (segment : List Char) : Bool := segment = ['.'] || segment = ['.', '.']

/-- Whether a path has such a segment. -/
def hasDots (path : List Char) : Bool := (segments path).any isDots

/-- A path without its last segment and the slash before it. -/
def dropSegment (path : List Char) : List Char :=
  ((path.reverse.dropWhile (· ≠ '/')).drop 1).reverse

/-- What is kept before a dot segment: `..` takes the last segment with it. -/
def keptBefore (segment output : List Char) : List Char :=
  if segment = ['.', '.'] then dropSegment output else output

/-- What follows a dot segment, or the slash before it where nothing does. -/
def orSlash (rest : List Char) : List Char := if rest = [] then ['/'] else rest

theorem length_upTo_add (stops s : List Char) :
    (upTo stops s).length + (fromFirst stops s).length = s.length := by
  rw [← List.length_append, upTo_append_fromFirst]

theorem length_fromFirst_le (stops s : List Char) : (fromFirst stops s).length ≤ s.length := by
  have hlength := length_upTo_add stops s
  omega

theorem length_pos_of_isDots {segment : List Char} (h : isDots segment = true) :
    0 < segment.length := by
  cases segment with
  | nil => cases h
  | cons c segment => exact Nat.succ_pos _

theorem length_orSlash_le {path : List Char} (h : isDots (upTo ['/'] path) = true) :
    (orSlash (fromFirst ['/'] path)).length ≤ path.length := by
  have hlength := length_upTo_add ['/'] path
  have hpos := length_pos_of_isDots h
  rw [orSlash]
  split
  · rw [List.length_singleton]
    omega
  · omega

/-- Remove the dot segments of a path, `output` being what has been kept of it already. The first
segment of the rest decides. A dot segment with a slash before it is dropped, and `..` takes the
last kept segment with it; a dot segment without a slash before it is dropped with the slash behind
it. Every other segment is kept. -/
def removeDotsFrom (output : List Char) : List Char → List Char
  | [] => output
  | '/' :: path =>
    if isDots (upTo ['/'] path) then
      removeDotsFrom (keptBefore (upTo ['/'] path) output) (orSlash (fromFirst ['/'] path))
    else removeDotsFrom (output ++ '/' :: upTo ['/'] path) (fromFirst ['/'] path)
  | c :: path =>
    if isDots (c :: upTo ['/'] path) then removeDotsFrom output ((fromFirst ['/'] path).drop 1)
    else removeDotsFrom (output ++ c :: upTo ['/'] path) (fromFirst ['/'] path)
  termination_by path => path.length
  decreasing_by
    · next h => exact Nat.lt_succ_of_le (length_orSlash_le h)
    · exact Nat.lt_succ_of_le (length_fromFirst_le _ _)
    · rw [List.length_drop]
      exact Nat.lt_succ_of_le ((Nat.sub_le _ _).trans (length_fromFirst_le _ _))
    · exact Nat.lt_succ_of_le (length_fromFirst_le _ _)

/-- A path without its dot segments. -/
def removeDots (path : List Char) : List Char := removeDotsFrom [] path

/-! ## Paths with dot segments -/

theorem hasDots_of_notMem {s : List Char} (h : '/' ∉ s) : hasDots s = isDots s := by
  rw [hasDots, segments, Text.splitOn_of_notMem h, List.any_cons, List.any_nil, Bool.or_false]

theorem hasDots_append_slash (s t : List Char) :
    hasDots (s ++ '/' :: t) = (hasDots s || hasDots t) := by
  rw [hasDots, segments, Text.splitOn_append_cons, List.any_append]
  rfl

theorem hasDots_slash (path : List Char) : hasDots ('/' :: path) = hasDots path :=
  hasDots_append_slash [] path

theorem hasDots_append_path (s : List Char) {path : List Char} (h : path.head? = some '/') :
    hasDots (s ++ path) = (hasDots s || hasDots path) := by
  obtain ⟨rest, rfl⟩ := List.head?_eq_some_iff.mp h
  rw [hasDots_append_slash, hasDots_slash]

/-- The first segment is a dot segment, or there is one behind it. -/
theorem hasDots_eq (path : List Char) :
    hasDots path = (isDots (upTo ['/'] path) || hasDots (fromFirst ['/'] path)) := by
  have hpath := upTo_append_fromFirst ['/'] path
  have hfirst : '/' ∉ upTo ['/'] path := fun h => notMem_of_mem_upTo h (by simp)
  rw [← hasDots_of_notMem hfirst]
  cases hrest : fromFirst ['/'] path with
  | nil =>
    rw [hrest, List.append_nil] at hpath
    rw [hpath]
    exact (Bool.or_false _).symm
  | cons c rest =>
    obtain rfl : c = '/' := by
      have hstop := List.head?_dropWhile_not (· ∉ ['/']) path
      rw [show path.dropWhile (· ∉ ['/']) = c :: rest from hrest] at hstop
      simpa using hstop
    rw [hrest] at hpath
    rw [hasDots_slash, ← hasDots_append_slash, hpath]

theorem hasDots_cons {c : Char} (hc : c ≠ '/') (path : List Char) :
    hasDots (c :: path) = (isDots (c :: upTo ['/'] path) || hasDots (fromFirst ['/'] path)) := by
  rw [hasDots_eq, upTo, fromFirst, List.takeWhile_cons_of_pos (by simpa using hc),
    List.dropWhile_cons_of_pos (by simpa using hc)]
  rfl

/-! ## Which paths are changed -/

theorem length_keptBefore_le (segment output : List Char) :
    (keptBefore segment output).length ≤ output.length := by
  rw [keptBefore]
  split
  · have hle := (List.dropWhile_suffix (l := output.reverse) (· ≠ '/')).length_le
    rw [List.length_reverse] at hle
    rw [dropSegment, List.length_reverse, List.length_drop]
    omega
  · exact Nat.le_refl _

/-- A path with dot segments becomes shorter, and no path becomes longer. -/
theorem length_removeDotsFrom_add_le (output path : List Char) :
    (removeDotsFrom output path).length + (hasDots path).toNat ≤ output.length + path.length := by
  fun_induction removeDotsFrom output path with
  | case1 output => exact Nat.le_refl _
  | case2 output path hdots ih =>
    -- the dropped segment has a character at least, which pays for all dot segments behind it
    have hkept := length_keptBefore_le (upTo ['/'] path) output
    have hrest := length_orSlash_le hdots
    have hone := Bool.toNat_le (hasDots ('/' :: path))
    rw [List.length_cons]
    omega
  | case3 output path hdots ih =>
    have hlength := length_upTo_add ['/'] path
    rw [List.length_append, List.length_cons] at ih
    rw [hasDots_slash, hasDots_eq, Bool.eq_false_iff.mpr hdots, Bool.false_or, List.length_cons]
    omega
  | case4 output c path hc hdots ih =>
    have hlength := length_fromFirst_le ['/'] path
    have hone := Bool.toNat_le (hasDots (c :: path))
    rw [List.length_drop] at ih
    rw [List.length_cons]
    omega
  | case5 output c path hc hdots ih =>
    have hlength := length_upTo_add ['/'] path
    rw [List.length_append, List.length_cons] at ih
    rw [hasDots_cons hc, Bool.eq_false_iff.mpr hdots, Bool.false_or, List.length_cons]
    omega

/-- A path without dot segments is kept as it is. -/
theorem removeDotsFrom_of_not_hasDots (output path : List Char) (h : hasDots path = false) :
    removeDotsFrom output path = output ++ path := by
  fun_induction removeDotsFrom output path with
  | case1 output => exact (List.append_nil output).symm
  | case2 output path hdots ih =>
    rw [hasDots_slash, hasDots_eq, hdots] at h
    cases h
  | case3 output path hdots ih =>
    rw [hasDots_slash, hasDots_eq, Bool.or_eq_false_iff] at h
    rw [ih h.2, List.append_assoc, List.cons_append, upTo_append_fromFirst]
  | case4 output c path hc hdots ih =>
    rw [hasDots_cons hc, hdots] at h
    cases h
  | case5 output c path hc hdots ih =>
    rw [hasDots_cons hc, Bool.or_eq_false_iff] at h
    rw [ih h.2, List.append_assoc, List.cons_append, upTo_append_fromFirst]

/-- Removing the dot segments changes a path if and only if it has one. -/
theorem removeDots_eq_self_iff {path : List Char} :
    removeDots path = path ↔ hasDots path = false := by
  constructor
  · intro h
    -- with a dot segment it would have become shorter
    have hlength := length_removeDotsFrom_add_le [] path
    rw [← removeDots, h, List.length_nil] at hlength
    cases hdots : hasDots path with
    | false => rfl
    | true =>
      rw [hdots, Bool.toNat_true] at hlength
      omega
  · exact removeDotsFrom_of_not_hasDots [] path

example : removeDots "/a/b/c/./../../g".toList = "/a/g".toList := by decide +kernel

end Address

/-! ## Where a request for a page goes -/

open Address (Unmarked hasDots isDots removeDots writePath)

/-- The path of the address of a page. -/
def Client.filesPath (client : Client) (number page : Nat) : List Char :=
  (Address.read (client.filesUrl number page).toList).path

/-- Slashes at the end of an address make no dot segments. -/
theorem WithoutEndSlashes.hasDots_path {address base : String} (h : WithoutEndSlashes address base)
    (hdots : hasDots (Address.read address.toList).path = false) :
    hasDots (Address.read base.toList).path = false := by
  obtain ⟨k, hk⟩ := h.exists_slashes
  rw [hk] at hdots
  cases k with
  | zero => rwa [List.replicate_zero, List.append_nil] at hdots
  | succ k =>
    by_cases hrest : (Address.readScheme base.toList).2 = []
    · -- nothing is left of the path, though two slashes behind a scheme begin an authority
      have hpath : (Address.read base.toList).path = [] := by
        simp [Address.read, Address.fromPath, hrest, Address.readAuthority, upTo]
      rw [hpath]
      rfl
    · rw [List.replicate_succ, Address.path_read_append h.getLast?_ne (absurd · hrest)] at hdots
      split at hdots
      · rw [Address.hasDots_append_slash, Bool.or_eq_false_iff] at hdots
        exact hdots.1
      · exact hdots

theorem isDots_toString (n : Nat) : isDots (toString n).toList = false := by
  rw [Bool.eq_false_iff]
  intro hdots
  have hstop : '.' ∈ (toString n).toList := by
    simp only [isDots, Bool.or_eq_true, decide_eq_true_eq] at hdots
    rcases hdots with h | h <;> rw [h] <;> decide
  rw [toList_toString] at hstop
  exact absurd (Nat.isDigit_of_mem_toDigits (by decide) (by decide) hstop) (by decide)

section Accepted

variable {owner name : String} (howner : isNamePart owner.toList = true)
  (hname : isNamePart name.toList = true)

include howner hname

theorem hasDots_repository :
    hasDots (owner ++ "/" ++ name).toList = (isDots owner.toList || isDots name.toList) := by
  have htext : (owner ++ "/" ++ name).toList = owner.toList ++ '/' :: name.toList := by simp
  rw [htext, Address.hasDots_append_slash, Address.hasDots_of_notMem (notMem_of_isNamePart howner),
    Address.hasDots_of_notMem (notMem_of_isNamePart hname)]

/-- The path of a listing has the dot segments of the repository and no others. -/
theorem hasDots_listingSteps (number : Nat) :
    hasDots (writePath (listingSteps owner name number)) =
      hasDots (owner ++ "/" ++ name).toList := by
  have hsegments : Address.segments (writePath (listingSteps owner name number)) =
      (listingSteps owner name number).map String.toList :=
    Address.segments_writePath (List.cons_ne_nil _ _) (unreserved_listingSteps howner hname number)
  have hfixed : isDots "".toList = false ∧ isDots "repos".toList = false ∧
      isDots "pulls".toList = false ∧ isDots "files".toList = false := by decide
  rw [hasDots_repository howner hname, hasDots, hsegments]
  simp only [listingSteps, List.map_cons, List.map_nil, List.any_cons, List.any_nil, hfixed,
    isDots_toString, Bool.false_or, Bool.or_false]

/-- The path of the address of a page. -/
theorem filesPath_eq {client : Client} (hrepo : client.repository = owner ++ "/" ++ name)
    (number page : Nat) :
    client.filesPath number page =
      if Unmarked client.apiUrl.toList then
        (Address.read client.base.toList).path ++ writePath (listingSteps owner name number)
      else (Address.read client.base.toList).path := by
  have hbase := withoutEndSlashes_base client
  have hread := read_listingPage howner hname number client.perPage page
  obtain ⟨t, ht, hhead⟩ := listingPage_eq_cons owner name number client.perPage page
  have hpath : writePath (listingSteps owner name number) = '/' :: upTo ['?', '#'] t := by
    rw [ht] at hread
    rw [← Address.path_read_slash hhead, hread]
  rw [Client.filesPath, toList_filesUrl hrepo, ht,
    Address.path_read_append hbase.getLast?_ne fun _ => hhead, hpath]
  simp only [hbase.unmarked_iff]

end Accepted

/-- **When a request goes where it should.** Take a service whose address has no dot segments and a
repository that is accepted. Unless the address of the service has a query or a fragment, the path
of a page is that of the service with the listing of the repository behind it. Removing the dot
segments from it changes nothing if and only if neither the owner nor the name is `.` or `..`, or
the repository is not in the path at all. -/
theorem filesPath_undiverted_iff {client : Client}
    (hrepository : checkRepository client.repository = .ok ())
    (hdots : hasDots (Address.read client.apiUrl.toList).path = false) (number page : Nat) :
    (removeDots (client.filesPath number page) = client.filesPath number page ↔
      (Unmarked client.apiUrl.toList → hasDots client.repository.toList = false)) ∧
    (Unmarked client.apiUrl.toList → client.filesPath number page =
      (Address.read client.base.toList).path ++
        ("/repos/" ++ client.repository ++ "/pulls/" ++ toString number ++ "/files").toList) := by
  obtain ⟨owner, name, hrepo, howner, hname⟩ := checkRepository_eq_ok_iff.mp hrepository
  have hbase := (withoutEndSlashes_base client).hasDots_path hdots
  rw [Address.removeDots_eq_self_iff, filesPath_eq howner hname hrepo]
  constructor
  · split
    · next hunmarked =>
      have hslash : (writePath (listingSteps owner name number)).head? = some '/' := rfl
      rw [Address.hasDots_append_path _ hslash, hbase, Bool.false_or,
        hasDots_listingSteps howner hname, ← hrepo]
      exact ⟨fun h _ => h, fun h => h hunmarked⟩
    · -- the repository is in the query or in the fragment
      next hmarked => exact iff_of_true hbase fun h => absurd h hmarked
  · intro hunmarked
    rw [if_pos hunmarked, hrepo]
    simp [writePath, listingSteps]

/-- Every request for a page of an accepted repository goes where its address says. -/
def RequestsGoStraight : Prop :=
  ∀ client : Client, checkRepository client.repository = .ok () →
    hasDots (Address.read client.apiUrl.toList).path = false →
      ∀ number page, removeDots (client.filesPath number page) = client.filesPath number page

/-- A client for a repository whose name begins with a full stop. -/
def profile : Client where
  token := "t"
  repository := "acme/.github"

/-- A repository whose name begins with a dot: its path is requested as it stands. -/
theorem filesPath_undiverted_iff_profile :
    checkRepository profile.repository = .ok () ∧
    hasDots (Address.read profile.apiUrl.toList).path = false ∧
    Unmarked profile.apiUrl.toList ∧
    removeDots (profile.filesPath 7 1) = profile.filesPath 7 1 ∧
    profile.filesPath 7 1 = (Address.read profile.base.toList).path ++
      ("/repos/" ++ profile.repository ++ "/pulls/" ++ toString 7 ++ "/files").toList := by
  have hrepository : checkRepository profile.repository = .ok () := by decide
  have hdots : hasDots (Address.read profile.apiUrl.toList).path = false := by decide
  have hunmarked : Unmarked profile.apiUrl.toList := by decide
  obtain ⟨hiff, hpath⟩ := filesPath_undiverted_iff hrepository hdots 7 1
  exact ⟨hrepository, hdots, hunmarked, hiff.mpr fun _ => by decide, hpath hunmarked⟩

/-- A client for a repository whose name stands for the place above it. -/
def upwards : Client where
  token := "t"
  repository := "acme/.."

/-- The request for a page of the one repository goes to another one. -/
theorem not_requestsGoStraight :
    removeDots (upwards.filesPath 7 1) = "/repos/pulls/7/files".toList ∧ ¬ RequestsGoStraight := by
  have hsent : removeDots (upwards.filesPath 7 1) = "/repos/pulls/7/files".toList := by
    decide +kernel
  have hmeant : upwards.filesPath 7 1 = "/repos/acme/../pulls/7/files".toList := by decide +kernel
  refine ⟨hsent, fun hall => ?_⟩
  have hkept := hall upwards (by decide) (by decide) 7 1
  rw [hsent, hmeant] at hkept
  exact absurd hkept (by decide)

end TestImpact.Hosting
