import TestImpact.Hosting.Client
import TestImpact.Proofs.Hosting.Address

/-!
# Addresses of listings

The address of a page of a listing is put together from texts, of which the repository is the only
one that a user chooses freely. An accepted repository has one slash and no other character that
separates parts of an address (`checkRepository_eq_ok_iff`), and numbers have none at all. So the
address is that of the service with the segments and the parameters of the listing behind it and
nothing else, and it tells all of them (`filesUrl_unambiguous`).
-/

namespace TestImpact.Hosting

open Address (Unmarked Unreserved AsksFor writePath writeQuery)

/-! ## Repositories and numbers -/

/-- The owner and the name of a repository need no escape. -/
theorem unreserved_of_isNamePart {part : List Char} (h : isNamePart part = true) :
    Unreserved part := by
  intro c hc hreserved
  simp only [isNamePart, Bool.and_eq_true, List.all_eq_true] at h
  have hkind := h.2 c hc
  simp only [List.mem_cons, List.not_mem_nil, or_false] at hreserved
  rcases hreserved with rfl | rfl | rfl | rfl | rfl <;> exact absurd hkind (by decide)

theorem notMem_of_isNamePart {part : List Char} (h : isNamePart part = true) : '/' ∉ part :=
  fun hslash => unreserved_of_isNamePart h '/' hslash (by simp)

/-- What is accepted as a repository: an owner and a name with a slash between them. -/
theorem checkRepository_eq_ok_iff {repository : String} :
    checkRepository repository = .ok () ↔
      ∃ owner name : String, repository = owner ++ "/" ++ name ∧
        isNamePart owner.toList = true ∧ isNamePart name.toList = true := by
  have hcheck : checkRepository repository = .ok () ↔ isRepository repository = true := by
    rw [checkRepository]
    split <;> simp [*]
  rw [hcheck, isRepository]
  constructor
  · intro h
    split at h
    · next name hname =>
      obtain ⟨howner, hnamePart⟩ := Bool.and_eq_true_iff.mp h
      refine ⟨String.ofList (repository.toList.takeWhile (· ≠ '/')), String.ofList name, ?_, ?_, ?_⟩
      · have hcut : repository.toList =
            repository.toList.takeWhile (· ≠ '/') ++ repository.toList.dropWhile (· ≠ '/') :=
          List.takeWhile_append_dropWhile.symm
        rw [hname] at hcut
        rw [← String.toList_inj]
        simpa using hcut
      · rwa [String.toList_ofList]
      · rwa [String.toList_ofList]
    · cases h
  · rintro ⟨owner, name, rfl, howner, hname⟩
    have hplain : ∀ c ∈ owner.toList, decide (c ≠ '/') = true := by
      intro c hc
      simpa using ne_of_mem_of_not_mem hc (notMem_of_isNamePart howner)
    have htext : (owner ++ "/" ++ name).toList = owner.toList ++ '/' :: name.toList := by
      simp
    rw [htext, List.takeWhile_append_of_pos hplain, List.dropWhile_append_of_pos hplain]
    simp [howner, hname]

theorem toList_toString (n : Nat) : (toString n).toList = Nat.toDigits 10 n := by
  simp

theorem unreserved_toString (n : Nat) : Unreserved (toString n).toList := by
  intro c hc hreserved
  rw [toList_toString] at hc
  have hdigit := Nat.isDigit_of_mem_toDigits (by decide) (by decide) hc
  simp only [List.mem_cons, List.not_mem_nil, or_false] at hreserved
  rcases hreserved with rfl | rfl | rfl | rfl | rfl <;> exact absurd hdigit (by decide)

theorem toString_inj {n n' : Nat} (h : toString n = toString n') : n = n' := by
  have hdigits : Nat.toDigits 10 n = Nat.toDigits 10 n' := by
    rw [← toList_toString, h, toList_toString]
  exact Option.some.inj (by rw [← Decimal.digits?_toDigits, hdigits, Decimal.digits?_toDigits])

/-! ## The address of the service -/

/-- `base` is an address without the slashes at its end. -/
structure WithoutEndSlashes (address base : String) : Prop where
  exists_slashes : ∃ k, address.toList = base.toList ++ List.replicate k '/'
  getLast?_ne : base.toList.getLast? ≠ some '/'

/-- The requests go to the address of the service without the slashes at its end. -/
theorem withoutEndSlashes_base (client : Client) :
    WithoutEndSlashes client.apiUrl client.base where
  exists_slashes := by
    have hslashes : ∀ c ∈ client.apiUrl.toList.reverse.takeWhile (· = '/'), c = '/' := by
      intro c hc
      simpa using List.mem_takeWhile_imp hc
    refine ⟨(client.apiUrl.toList.reverse.takeWhile (· = '/')).length, ?_⟩
    rw [Client.base, String.toList_ofList, ← List.reverse_replicate,
      ← List.eq_replicate_of_mem hslashes, ← List.reverse_append, List.takeWhile_append_dropWhile,
      List.reverse_reverse]
  getLast?_ne := by
    rw [Client.base, String.toList_ofList, List.getLast?_reverse]
    intro hslash
    have hstop := List.head?_dropWhile_not (· = '/') client.apiUrl.toList.reverse
    rw [hslash] at hstop
    simp at hstop

/-- The slashes at the end of an address are no marks. -/
theorem WithoutEndSlashes.unmarked_iff {address base : String}
    (h : WithoutEndSlashes address base) :
    Unmarked base.toList ↔ Unmarked address.toList := by
  obtain ⟨k, hk⟩ := h.exists_slashes
  rw [hk, Address.unmarked_append]
  refine (and_iff_left fun c hc => ?_).symm
  rw [List.eq_of_mem_replicate hc]
  decide

/-! ## Behind the address of the service -/

/-- The segments of the path of a listing. -/
def listingSteps (owner name : String) (number : Nat) : List String :=
  ["", "repos", owner, name, "pulls", toString number, "files"]

/-- The parameters of a page of a listing. -/
def listingValues (perPage page : Nat) : List (String × String) :=
  [("per_page", toString perPage), ("page", toString page)]

/-- What stands behind the address of the service in the address of a page. -/
def listingPage (owner name : String) (number perPage page : Nat) : List Char :=
  writePath (listingSteps owner name number) ++ '?' :: writeQuery (listingValues perPage page)

theorem toList_filesUrl {client : Client} {owner name : String}
    (h : client.repository = owner ++ "/" ++ name) (number page : Nat) :
    (client.filesUrl number page).toList =
      client.base.toList ++ listingPage owner name number client.perPage page := by
  simp [Client.filesUrl, h, listingPage, listingSteps, listingValues, writePath, writeQuery]

/-- A page of a listing begins with one slash, so it goes on with the path. -/
theorem listingPage_eq_cons (owner name : String) (number perPage page : Nat) :
    ∃ t, listingPage owner name number perPage page = '/' :: t ∧ t.head? ≠ some '/' := by
  refine ⟨writePath ["repos", owner, name, "pulls", toString number, "files"] ++
    '?' :: writeQuery (listingValues perPage page), rfl, ?_⟩
  have hhead := Address.head?_writePath (by decide : "repos" ≠ "")
    [owner, name, "pulls", toString number, "files"]
  rw [List.head?_append, hhead]
  simp

theorem unreserved_listingValues (perPage page : Nat) :
    ∀ v ∈ listingValues perPage page, Unreserved v.1.toList ∧ Unreserved v.2.toList := by
  simp only [listingValues, List.forall_mem_cons]
  exact ⟨⟨by decide, unreserved_toString perPage⟩, ⟨by decide, unreserved_toString page⟩,
    List.forall_mem_nil _⟩

section Accepted

variable {owner name : String} (howner : isNamePart owner.toList = true)
  (hname : isNamePart name.toList = true)

include howner hname

theorem unreserved_listingSteps (number : Nat) :
    ∀ step ∈ listingSteps owner name number, Unreserved step.toList := by
  simp only [listingSteps, List.forall_mem_cons]
  exact ⟨by decide, by decide, unreserved_of_isNamePart howner, unreserved_of_isNamePart hname,
    by decide, unreserved_toString number, by decide, List.forall_mem_nil _⟩

/-- A page is a path and a query, with no scheme, authority or fragment. -/
theorem read_listingPage (number perPage page : Nat) :
    Address.read (listingPage owner name number perPage page) =
      ⟨none, none, writePath (listingSteps owner name number),
        some (writeQuery (listingValues perPage page)), none⟩ :=
  Address.read_write (by decide) (unreserved_listingSteps howner hname number)
    (unreserved_listingValues perPage page)

/-- A page of a listing asks for the page and for nothing else. -/
theorem asksFor_listingPage (number perPage page : Nat) :
    AsksFor (listingPage owner name number perPage page) (listingSteps owner name number)
      (listingValues perPage page) :=
  Address.asksFor_write (by decide) (unreserved_listingSteps howner hname number)
    (unreserved_listingValues perPage page) (List.cons_ne_nil _ _)

end Accepted

/-- Pages of different listings, sizes or numbers are written differently. -/
theorem listingPage_inj {owner owner' name name' : String}
    (howner : isNamePart owner.toList = true) (hname : isNamePart name.toList = true)
    (howner' : isNamePart owner'.toList = true) (hname' : isNamePart name'.toList = true)
    {number number' perPage perPage' page page' : Nat}
    (h : listingPage owner name number perPage page =
      listingPage owner' name' number' perPage' page') :
    owner = owner' ∧ name = name' ∧ number = number' ∧ perPage = perPage' ∧ page = page' := by
  -- one text asks for both pages, so they are one page
  have hasks := asksFor_listingPage howner hname number perPage page
  rw [h] at hasks
  obtain ⟨hsteps, hvalues⟩ :=
    hasks.unique (asksFor_listingPage howner' hname' number' perPage' page')
  simp only [listingSteps, listingValues, List.cons.injEq, Prod.mk.injEq, true_and, and_true]
    at hsteps hvalues
  exact ⟨hsteps.1, hsteps.2.1, toString_inj hsteps.2.2, toString_inj hvalues.1,
    toString_inj hvalues.2⟩

/-- **Addresses of listings are unambiguous.** The address of a page is that of the service, without
slashes at its end, with the segments `repos`, owner, name, `pulls`, number and `files` and the
parameters `per_page` and `page` behind it. If the address of the service has no query and no
fragment of its own, these segments end the path of the whole and the parameters are its query. So
at one service every request has an address of its own. -/
theorem filesUrl_unambiguous {client : Client}
    (hrepository : checkRepository client.repository = .ok ()) (number page : Nat) :
    WithoutEndSlashes client.apiUrl client.base ∧
    (∃ owner name rest, client.repository = owner ++ "/" ++ name ∧
      client.filesUrl number page = client.base ++ rest ∧
      AsksFor rest.toList ["", "repos", owner, name, "pulls", toString number, "files"]
        [("per_page", toString client.perPage), ("page", toString page)] ∧
      (Unmarked client.apiUrl.toList →
        Address.read (client.filesUrl number page).toList = { Address.read rest.toList with
          scheme := (Address.read client.base.toList).scheme
          authority := (Address.read client.base.toList).authority
          path := (Address.read client.base.toList).path ++ (Address.read rest.toList).path })) ∧
    ∀ (client' : Client) (number' page' : Nat), client'.apiUrl = client.apiUrl →
      checkRepository client'.repository = .ok () →
        client'.filesUrl number' page' = client.filesUrl number page →
          client'.repository = client.repository ∧ client'.perPage = client.perPage ∧
            number' = number ∧ page' = page := by
  have hbase := withoutEndSlashes_base client
  obtain ⟨owner, name, hrepo, howner, hname⟩ := checkRepository_eq_ok_iff.mp hrepository
  have hurl := toList_filesUrl hrepo number page
  refine ⟨hbase, ⟨owner, name, String.ofList (listingPage owner name number client.perPage page),
    hrepo, ?_, ?_, ?_⟩, ?_⟩
  · rw [← String.toList_inj, hurl, String.toList_append, String.toList_ofList]
  · rw [String.toList_ofList]
    exact asksFor_listingPage howner hname number client.perPage page
  · intro hunmarked
    obtain ⟨t, ht, hhead⟩ := listingPage_eq_cons owner name number client.perPage page
    rw [hurl, String.toList_ofList, ht]
    exact Address.read_append (hbase.unmarked_iff.mpr hunmarked) hbase.getLast?_ne hhead
  · intro client' number' page' hapi hrepository' heq
    obtain ⟨owner', name', hrepo', howner', hname'⟩ := checkRepository_eq_ok_iff.mp hrepository'
    have hsame : client'.base = client.base := by rw [Client.base, hapi, Client.base]
    -- the two begin with the same address, so the pages behind it are the same
    have hlisting := congrArg String.toList heq
    rw [hurl, toList_filesUrl hrepo', hsame, List.append_cancel_left_eq] at hlisting
    obtain ⟨rfl, rfl, hnumber, hperPage, hpage⟩ :=
      listingPage_inj howner' hname' howner hname hlisting
    exact ⟨hrepo'.trans hrepo.symm, hperPage, hnumber, hpage⟩

/-- A client of a service whose address ends with slashes. -/
def enterprise : Client where
  token := "t"
  repository := "acme/my.repo_2"
  apiUrl := "https://ghe.example.com/api/v3//"
  perPage := 30

/-- A service below a path, with slashes at its end: what is asked for on the second page. -/
theorem filesUrl_unambiguous_enterprise :
    checkRepository enterprise.repository = .ok () ∧ Unmarked enterprise.apiUrl.toList ∧
    WithoutEndSlashes enterprise.apiUrl enterprise.base ∧
    (∃ owner name rest, enterprise.repository = owner ++ "/" ++ name ∧
      enterprise.filesUrl 7 2 = enterprise.base ++ rest ∧
      AsksFor rest.toList ["", "repos", owner, name, "pulls", toString 7, "files"]
        [("per_page", toString 30), ("page", toString 2)] ∧
      (Address.read (enterprise.filesUrl 7 2).toList).path =
        (Address.read enterprise.base.toList).path ++ (Address.read rest.toList).path) ∧
    checkRepository "acme/billing" = .ok () ∧
    ∀ number page, { enterprise with repository := "acme/billing" }.filesUrl number page ≠
      enterprise.filesUrl 7 2 := by
  have haccepted : checkRepository enterprise.repository = .ok () := by decide
  have hother : checkRepository "acme/billing" = .ok () := by decide
  have hunmarked : Unmarked enterprise.apiUrl.toList := by decide
  obtain ⟨hbase, ⟨owner, name, rest, hrepo, hrest, hasks, hwhole⟩, hdiffer⟩ :=
    filesUrl_unambiguous haccepted 7 2
  refine ⟨haccepted, hunmarked, hbase,
    ⟨owner, name, rest, hrepo, hrest, hasks, by rw [hwhole hunmarked]⟩, hother, ?_⟩
  intro number page heq
  obtain ⟨hsame, -⟩ := hdiffer { enterprise with repository := "acme/billing" } number page rfl
    hother heq
  exact absurd hsame (by decide)

end TestImpact.Hosting
