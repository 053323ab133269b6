import TestImpact.Pattern.Search

/-!
# What a search finds

A pattern reads a piece of a text if the piece is one that it describes (`Pattern.Reads`). A search
finds nothing else: what it comes to by its plan is what the pattern reads (`finds_follow`,
`Pattern.reads_of_leads`), and every match in a text is read at its place (`mem_allMatches`).
-/

namespace TestImpact

variable {t u : Trail} {c : Char} {rest : List Char}

/-! ## Ways through a text -/

/-- The cursor comes to another one by a piece of the text. -/
structure Cursor.Passes (cursor : Cursor) (piece : List Char) (after : Cursor) : Prop where
  rest : cursor.rest = piece ++ after.rest
  position : after.position = cursor.position + piece.length
  before : after.before = piece.getLast?.or cursor.before

namespace Cursor.Passes

variable {cursor mid after : Cursor} {piece more : List Char}

theorem refl (cursor : Cursor) : cursor.Passes [] cursor := ⟨rfl, rfl, rfl⟩

theorem trans (h : cursor.Passes piece mid) (h' : mid.Passes more after) :
    cursor.Passes (piece ++ more) after where
  rest := by rw [h.rest, h'.rest, List.append_assoc]
  position := by rw [h'.position, h.position, List.length_append, Nat.add_assoc]
  before := by rw [h'.before, h.before, List.getLast?_append, Option.or_assoc]

/-- The way on after the first character. -/
theorem tail {c : Char} (h : cursor.Passes (c :: piece) after) :
    Cursor.Passes ⟨cursor.position + 1, some c, piece ++ after.rest⟩ piece after where
  rest := rfl
  position := by rw [h.position, List.length_cons, Nat.add_assoc, Nat.add_comm 1]
  before := by
    rw [h.before, List.getLast?_cons]
    cases piece.getLast? <;> rfl

/-- The piece of the whole text between two cursors. -/
theorem take_drop {s skipped : List Char} (hskipped : (Cursor.start s).Passes skipped cursor)
    (h : cursor.Passes piece after) :
    (s.drop cursor.position).take (after.position - cursor.position) = piece := by
  have hs : s = skipped ++ (piece ++ after.rest) := by
    rw [← h.rest]
    exact hskipped.rest
  have hposition : cursor.position = skipped.length := by
    rw [hskipped.position]
    exact Nat.zero_add _
  rw [h.position, Nat.add_sub_cancel_left, hposition, hs, List.drop_left, List.take_left]

end Cursor.Passes

/-- The trail after a character. -/
def Trail.step (t : Trail) (c : Char) (rest : List Char) : Trail :=
  { t with cursor := ⟨t.cursor.position + 1, some c, rest⟩ }

theorem Trail.passes_step (h : t.cursor.rest = c :: rest) :
    t.cursor.Passes [c] (t.step c rest).cursor :=
  ⟨h, rfl, rfl⟩

/-- The trail when a group that began at `start` has ended. -/
def Trail.remember (t : Trail) (index start : Nat) : Trail :=
  { t with captures := ⟨index, start, t.cursor.position⟩ :: t.captures }

/-- A number of steps one after another. -/
def Rounds (step : Trail → Trail → Prop) : Nat → Trail → Trail → Prop
  | 0, t, u => u = t
  | n + 1, t, u => ∃ mid, step t mid ∧ Rounds step n mid u

namespace Rounds

variable {step other : Trail → Trail → Prop} {n k : Nat} {mid : Trail}

theorem append (h : Rounds step n t mid) (h' : Rounds step k mid u) :
    Rounds step (n + k) t u := by
  induction n generalizing t with
  | zero =>
    cases h
    rw [Nat.zero_add]
    exact h'
  | succ n ih =>
    obtain ⟨next, hstep, hrest⟩ := h
    rw [Nat.add_right_comm]
    exact ⟨next, hstep, ih hrest⟩

theorem mono (hsub : ∀ t u, step t u → other t u) (h : Rounds step n t u) :
    Rounds other n t u := by
  induction n generalizing t with
  | zero => exact h
  | succ n ih =>
    obtain ⟨next, hstep, hrest⟩ := h
    exact ⟨next, hsub _ _ hstep, ih hrest⟩

end Rounds

/-- The pattern reads what lies between two trails. -/
def Pattern.Reads : Pattern → Trail → Trail → Prop
  | .empty, t, u => u = t
  | .one set, t, u =>
    ∃ c rest, t.cursor.rest = c :: rest ∧ set.contains c = true ∧ u = t.step c rest
  | .check a, t, u => a.holds t.cursor.before t.cursor.rest.head? = true ∧ u = t
  | .seq p q, t, u => ∃ mid, p.Reads t mid ∧ q.Reads mid u
  | .alt p q, t, u => p.Reads t u ∨ q.Reads t u
  | .group index p, t, u => ∃ done, p.Reads t done ∧ u = done.remember index t.cursor.position
  | .repeated p least most _, t, u =>
    ∃ n, least ≤ n ∧ (∀ k ∈ most, n ≤ max least k) ∧ Rounds p.Reads n t u

/-- The plan leads from one trail to another. -/
def Plan.Leads : Plan → Trail → Trail → Prop
  | .empty, t, u => u = t
  | .one set, t, u =>
    ∃ c rest, t.cursor.rest = c :: rest ∧ set.contains c = true ∧ u = t.step c rest
  | .check a, t, u => a.holds t.cursor.before t.cursor.rest.head? = true ∧ u = t
  | .seq first second, t, u => ∃ mid, first.Leads t mid ∧ second.Leads mid u
  | .fork _ first second, t, u => first.Leads t u ∨ second.Leads t u
  | .star _ _ body, t, u => ∃ n, Rounds body.Leads n t u
  | .group index body, t, u =>
    ∃ done, body.Leads t done ∧ u = done.remember index t.cursor.position

/-! ## Following a plan -/

namespace Search

variable {search first second : Search} {mark position : Nat}

/-- The search comes to a trail, whatever forks it may pass by. -/
def Finds (search : Search) (u : Trail) : Prop := ∃ visited, (search visited).1 = some u

theorem not_finds_fail (u : Trail) : ¬ fail.Finds u := by
  rintro ⟨visited, h⟩
  cases h

/-- What is found with an alternative is found in one of the two ways. -/
theorem finds_of_orElse (h : (first.orElse second).Finds u) : first.Finds u ∨ second.Finds u := by
  obtain ⟨visited, h⟩ := h
  unfold orElse at h
  split at h
  · next trail after hfirst =>
    left
    exact ⟨visited, by rw [hfirst]; exact h⟩
  · next after hfirst =>
    right
    exact ⟨after, h⟩

theorem finds_of_once (h : (once mark position search).Finds u) : search.Finds u := by
  obtain ⟨visited, h⟩ := h
  unfold once at h
  split at h
  · cases h
  · exact ⟨_, h⟩

/-- What is found behind a repetition is found behind some rounds of its body. -/
theorem finds_of_rounds {greedy : Bool} {body : (Trail → Search) → Trail → Search}
    {step : Trail → Trail → Prop} {next : Trail → Search} {bound : Nat}
    (hbody : ∀ next t u, (body next t).Finds u → ∃ mid, step t mid ∧ (next mid).Finds u)
    (h : (rounds mark greedy body next bound t).Finds u) :
    ∃ n mid, Rounds step n t mid ∧ (next mid).Finds u := by
  induction bound generalizing t with
  | zero => exact absurd h (not_finds_fail u)
  | succ bound ih =>
    have hcases : (body (rounds mark greedy body next bound) t).Finds u ∨ (next t).Finds u := by
      have honce := finds_of_once h
      cases greedy with
      | true => exact finds_of_orElse honce
      | false => exact (finds_of_orElse honce).symm
    rcases hcases with hagain | hdone
    · obtain ⟨mid, hstep, hrest⟩ := hbody _ _ _ hagain
      obtain ⟨n, last, hrounds, hnext⟩ := ih hrest
      exact ⟨n + 1, last, ⟨mid, hstep, hrounds⟩, hnext⟩
    · exact ⟨0, t, rfl, hdone⟩

end Search

/-- What is found by following a plan is found from where the plan leads to. -/
theorem Plan.finds_follow (plan : Plan) {next : Trail → Search}
    (h : (plan.follow next t).Finds u) : ∃ mid, plan.Leads t mid ∧ (next mid).Finds u := by
  induction plan generalizing next t u with
  | empty => exact ⟨t, rfl, h⟩
  | one set =>
    unfold Plan.follow at h
    split at h
    · exact absurd h (Search.not_finds_fail u)
    · next c rest hrest =>
      split at h
      · next hset => exact ⟨t.step c rest, ⟨c, rest, hrest, hset, rfl⟩, h⟩
      · exact absurd h (Search.not_finds_fail u)
  | check a =>
    unfold Plan.follow at h
    split at h
    · next hholds => exact ⟨t, ⟨hholds, rfl⟩, h⟩
    · exact absurd h (Search.not_finds_fail u)
  | seq first second ihFirst ihSecond =>
    obtain ⟨mid, hfirst, hrest⟩ := ihFirst h
    obtain ⟨last, hsecond, hnext⟩ := ihSecond hrest
    exact ⟨last, ⟨mid, hfirst, hsecond⟩, hnext⟩
  | fork mark first second ihFirst ihSecond =>
    -- where the fork has been come to before, nothing is found at all
    rcases Search.finds_of_orElse (Search.finds_of_once h) with hfound | hfound
    · obtain ⟨mid, hleads, hnext⟩ := ihFirst hfound
      exact ⟨mid, .inl hleads, hnext⟩
    · obtain ⟨mid, hleads, hnext⟩ := ihSecond hfound
      exact ⟨mid, .inr hleads, hnext⟩
  | star mark greedy body ih =>
    have hbody : ∀ next t u, (body.follow next t).Finds u →
        ∃ mid, body.Leads t mid ∧ (next mid).Finds u := fun _ _ _ => ih
    obtain ⟨n, mid, hrounds, hnext⟩ := Search.finds_of_rounds hbody h
    exact ⟨mid, ⟨n, hrounds⟩, hnext⟩
  | group index body ih =>
    obtain ⟨done, hbody, hnext⟩ := ih h
    exact ⟨done.remember index t.cursor.position, ⟨done, hbody, rfl⟩, hnext⟩

theorem Plan.leads_of_matchAt {plan : Plan} {cursor : Cursor} {visited : Visited}
    (h : (plan.matchAt cursor visited).1 = some u) : plan.Leads ⟨cursor, []⟩ u := by
  obtain ⟨mid, hleads, after, hmid⟩ := plan.finds_follow ⟨visited, h⟩
  cases hmid
  exact hleads

/-! ## The plan of a pattern -/

section Plans

variable {plan : Nat → Plan × Nat} {reads : Trail → Trail → Prop}

theorem Plan.leads_optional {mark : Nat} {greedy : Bool} {way : Plan}
    (h : (Plan.optional mark greedy way).Leads t u) : way.Leads t u ∨ u = t := by
  cases greedy with
  | true => exact h
  | false => exact h.symm

/-- Copies of a plan are rounds of it. -/
theorem Plan.rounds_of_copies (hplan : ∀ mark t u, (plan mark).1.Leads t u → reads t u)
    {n mark : Nat} (h : (Plan.copies plan n mark).1.Leads t u) : Rounds reads n t u := by
  induction n generalizing mark t with
  | zero => exact h
  | succ n ih =>
    obtain ⟨mid, hfirst, hrest⟩ := h
    exact ⟨mid, hplan _ _ _ hfirst, ih hrest⟩

/-- Optional copies of a plan are some rounds of it. -/
theorem Plan.rounds_of_optionals (hplan : ∀ mark t u, (plan mark).1.Leads t u → reads t u)
    {greedy : Bool} {n mark : Nat} (h : (Plan.optionals plan greedy n mark).1.Leads t u) :
    ∃ k, k ≤ n ∧ Rounds reads k t u := by
  induction n generalizing mark t with
  | zero => exact ⟨0, Nat.le_refl 0, h⟩
  | succ n ih =>
    rcases Plan.leads_optional h with ⟨mid, hfirst, hrest⟩ | hnone
    · obtain ⟨k, hk, hrounds⟩ := ih hrest
      exact ⟨k + 1, Nat.succ_le_succ hk, mid, hplan _ _ _ hfirst, hrounds⟩
    · exact ⟨0, Nat.zero_le _, hnone⟩

/-- At least one round, and then any number of them. -/
theorem Plan.rounds_of_rounds {mark : Nat} {greedy : Bool} {body : Plan}
    (hbody : ∀ t u, body.Leads t u → reads t u) (h : (Plan.rounds mark greedy body).Leads t u) :
    ∃ n, Rounds reads (n + 1) t u := by
  obtain ⟨mid, hfirst, n, hrest⟩ := h
  exact ⟨n, mid, hbody _ _ hfirst, hrest.mono hbody⟩

end Plans

/-- The plan of a pattern leads where the pattern reads. -/
theorem Pattern.reads_of_leads (p : Pattern) {mark : Nat} (h : (p.plan mark).1.Leads t u) :
    p.Reads t u := by
  induction p generalizing mark t u with
  | empty => exact h
  | one set => exact h
  | check a => exact h
  | seq p q ihp ihq =>
    obtain ⟨mid, hfirst, hsecond⟩ := h
    exact ⟨mid, ihp hfirst, ihq hsecond⟩
  | alt p q ihp ihq =>
    rcases h with hfirst | hsecond
    · exact .inl (ihp hfirst)
    · exact .inr (ihq hsecond)
  | group index p ih =>
    obtain ⟨done, hbody, rfl⟩ := h
    exact ⟨done, ih hbody, rfl⟩
  | repeated p least most greedy ih =>
    have hreads : ∀ mark t u, (p.plan mark).1.Leads t u → p.Reads t u := fun _ _ _ => ih
    cases most with
    | some most =>
      rw [Pattern.plan] at h
      obtain ⟨mid, hstart, hrest⟩ := h
      have hcopies := Plan.rounds_of_copies hreads hstart
      obtain ⟨k, hk, hrounds⟩ := Plan.rounds_of_optionals hreads hrest
      refine ⟨least + k, Nat.le_add_right _ _, ?_, hcopies.append hrounds⟩
      rintro bound ⟨⟩
      omega
    | none =>
      have hmost : ∀ n, ∀ k ∈ (none : Option Nat), n ≤ max least k := by
        rintro n k ⟨⟩
      cases least with
      | zero =>
        unfold Pattern.plan at h
        split at h
        · rcases Plan.leads_optional h with hrounds | hnone
          · obtain ⟨n, hrounds⟩ := Plan.rounds_of_rounds (hreads _) hrounds
            exact ⟨n + 1, Nat.zero_le _, hmost _, hrounds⟩
          · exact ⟨0, Nat.zero_le _, hmost _, hnone⟩
        · obtain ⟨n, hrounds⟩ := h
          exact ⟨n, Nat.zero_le _, hmost _, hrounds.mono (hreads _)⟩
      | succ least =>
        unfold Pattern.plan at h
        obtain ⟨mid, hstart, hrest⟩ := h
        have hcopies := Plan.rounds_of_copies hreads hstart
        obtain ⟨n, hrounds⟩ := Plan.rounds_of_rounds (hreads _) hrest
        exact ⟨least + (n + 1), by omega, hmost _, hcopies.append hrounds⟩

/-! ## What a reading changes -/

namespace Pattern

/-- The sets of the characters that a pattern reads. -/
def sets : Pattern → List CharSet
  | .empty | .check _ => []
  | .one set => [set]
  | .seq p q | .alt p q => p.sets ++ q.sets
  | .group _ p | .repeated p .. => p.sets

/-- The numbers of the groups. -/
def groups : Pattern → List Nat
  | .empty | .check _ | .one _ => []
  | .seq p q | .alt p q => p.groups ++ q.groups
  | .group index p => index :: p.groups
  | .repeated p .. => p.groups

/-- What holds between two trails if it holds for every character and every group that ends, and is
kept from one to the next. -/
theorem Reads.along {R : Trail → Trail → Prop} (hrefl : ∀ t, R t t)
    (htrans : ∀ {t mid u}, R t mid → R mid u → R t u) {p : Pattern}
    (hone : ∀ set ∈ p.sets, ∀ t c rest, t.cursor.rest = c :: rest → set.contains c = true →
      R t (t.step c rest))
    (hgroup : ∀ index ∈ p.groups, ∀ t start, R t (t.remember index start))
    (h : p.Reads t u) : R t u := by
  induction p generalizing t u with
  | empty =>
    cases h
    exact hrefl t
  | one set =>
    obtain ⟨c, rest, hrest, hset, rfl⟩ := h
    exact hone set (List.mem_singleton_self set) t c rest hrest hset
  | check a =>
    obtain ⟨-, rfl⟩ := h
    exact hrefl _
  | seq p q ihp ihq =>
    obtain ⟨honep, honeq⟩ := List.forall_mem_append.mp hone
    obtain ⟨hgroupp, hgroupq⟩ := List.forall_mem_append.mp hgroup
    obtain ⟨mid, hfirst, hsecond⟩ := h
    exact htrans (ihp honep hgroupp hfirst) (ihq honeq hgroupq hsecond)
  | alt p q ihp ihq =>
    obtain ⟨honep, honeq⟩ := List.forall_mem_append.mp hone
    obtain ⟨hgroupp, hgroupq⟩ := List.forall_mem_append.mp hgroup
    rcases h with hfirst | hsecond
    · exact ihp honep hgroupp hfirst
    · exact ihq honeq hgroupq hsecond
  | group index p ih =>
    obtain ⟨hindex, hinner⟩ := List.forall_mem_cons.mp hgroup
    obtain ⟨done, hbody, rfl⟩ := h
    exact htrans (ih hone hinner hbody) (hindex done _)
  | repeated p least most greedy ih =>
    obtain ⟨n, -, -, hrounds⟩ := h
    -- the rounds are read one after the other, so they compose
    induction n generalizing t with
    | zero =>
      cases hrounds
      exact hrefl _
    | succ n ihn =>
      obtain ⟨mid, hfirst, hrest⟩ := hrounds
      exact htrans (ih hone hgroup hfirst) (ihn hrest)

variable {p : Pattern} {set : CharSet}

/-- A pattern reads a piece of the text, and every character of it is in one of its sets. -/
theorem Reads.passes (h : p.Reads t u) :
    ∃ piece, t.cursor.Passes piece u.cursor ∧
      ∀ c ∈ piece, ∃ set ∈ p.sets, set.contains c = true := by
  apply Reads.along (R := fun t u => ∃ piece, t.cursor.Passes piece u.cursor ∧
    ∀ c ∈ piece, ∃ set ∈ p.sets, set.contains c = true) _ _ _ _ h
  · intro t
    exact ⟨[], .refl _, by simp⟩
  · rintro t mid u ⟨piece, hpasses, hpiece⟩ ⟨more, hpasses', hmore⟩
    exact ⟨piece ++ more, hpasses.trans hpasses', List.forall_mem_append.mpr ⟨hpiece, hmore⟩⟩
  · intro set hset t c rest hrest hcontains
    refine ⟨[c], t.passes_step hrest, ?_⟩
    intro d hd
    rw [List.mem_singleton.mp hd]
    exact ⟨set, hset, hcontains⟩
  · intro index _ t start
    exact ⟨[], .refl _, by simp⟩

theorem Reads.position_le (h : p.Reads t u) : t.cursor.position ≤ u.cursor.position := by
  obtain ⟨piece, hpasses, -⟩ := h.passes
  rw [hpasses.position]
  exact Nat.le_add_right _ _

/-- A pattern that cannot match the empty piece gets ahead. -/
theorem Reads.position_lt (h : p.Reads t u) (hp : p.nullable = false) :
    t.cursor.position < u.cursor.position := by
  induction p generalizing t u with
  | empty => cases hp
  | one set =>
    obtain ⟨c, rest, -, -, rfl⟩ := h
    exact Nat.lt_succ_self _
  | check a => cases hp
  | seq p q ihp ihq =>
    obtain ⟨mid, hfirst, hsecond⟩ := h
    rcases Bool.and_eq_false_iff.mp hp with hp | hq
    · exact Nat.lt_of_lt_of_le (ihp hfirst hp) hsecond.position_le
    · exact Nat.lt_of_le_of_lt hfirst.position_le (ihq hsecond hq)
  | alt p q ihp ihq =>
    obtain ⟨hp, hq⟩ := Bool.or_eq_false_iff.mp hp
    rcases h with hfirst | hsecond
    · exact ihp hfirst hp
    · exact ihq hsecond hq
  | group index p ih =>
    obtain ⟨done, hbody, rfl⟩ := h
    have hdone := ih hbody hp
    exact hdone
  | repeated p least most greedy ih =>
    obtain ⟨hleast, hp⟩ := Bool.or_eq_false_iff.mp hp
    obtain ⟨n, hn, -, hrounds⟩ := h
    cases n with
    | zero =>
      cases Nat.le_zero.mp hn
      cases hleast
    | succ n =>
      obtain ⟨mid, hfirst, hrest⟩ := hrounds
      -- one round gets ahead, and those after it do not go back
      have hreads : (many p).Reads mid u := ⟨n, Nat.zero_le n, by simp, hrest⟩
      exact Nat.lt_of_lt_of_le (ih hfirst hp) hreads.position_le

/-- A pattern that cannot match the empty piece leaves less of the text. -/
theorem Reads.shorter (h : p.Reads t u) (hp : p.nullable = false) :
    u.cursor.rest.length < t.cursor.rest.length := by
  have hadvance := h.position_lt hp
  obtain ⟨piece, hpasses, -⟩ := h.passes
  rw [hpasses.position] at hadvance
  rw [hpasses.rest, List.length_append]
  omega

/-- A pattern without groups remembers nothing. -/
theorem Reads.captures_eq (h : p.Reads t u) (hgroups : p.groups = []) :
    u.captures = t.captures := by
  apply Reads.along (R := fun t u => u.captures = t.captures) _ _ _ _ h
  · intro t
    rfl
  · intro t mid u hfirst hsecond
    exact hsecond.trans hfirst
  · intro set _ t c rest _ _
    rfl
  · intro index hindex
    rw [hgroups] at hindex
    cases hindex

/-- Characters of a set one after the other. -/
theorem Reads.passes_many (h : (many (.one set)).Reads t u) :
    ∃ piece, t.cursor.Passes piece u.cursor ∧ ∀ c ∈ piece, set.contains c = true := by
  obtain ⟨piece, hpasses, hpiece⟩ := h.passes
  refine ⟨piece, hpasses, ?_⟩
  intro c hc
  obtain ⟨other, hother, hcontains⟩ := hpiece c hc
  rw [← List.mem_singleton.mp hother]
  exact hcontains

/-- Characters of a set one after the other, at least one of them. -/
theorem Reads.passes_many1 (h : (many1 (.one set)).Reads t u) :
    ∃ piece, piece ≠ [] ∧ t.cursor.Passes piece u.cursor ∧ ∀ c ∈ piece, set.contains c = true := by
  obtain ⟨n, hn, -, hrounds⟩ := h
  cases n with
  | zero => cases hn
  | succ n =>
    obtain ⟨mid, ⟨c, rest, hrest, hset, rfl⟩, hmore⟩ := hrounds
    have hreads : (many (.one set)).Reads (t.step c rest) u :=
      ⟨n, Nat.zero_le n, by simp, hmore⟩
    obtain ⟨piece, hpasses, hpiece⟩ := hreads.passes_many
    refine ⟨[c] ++ piece, by simp, (t.passes_step hrest).trans hpasses, ?_⟩
    exact List.forall_mem_cons.mpr ⟨hset, hpiece⟩

end Pattern

/-! ## Matches in a text -/

/-- A search for the first match reads it at some place. -/
theorem Plan.leads_of_firstFrom? {plan : Plan} {cursor : Cursor} {visited : Visited} {start : Nat}
    (h : plan.firstFrom? visited cursor.position cursor.before cursor.rest = some (start, u)) :
    ∃ skipped found, cursor.Passes skipped found ∧ found.position = start ∧
      plan.Leads ⟨found, []⟩ u := by
  obtain ⟨position, before, text⟩ := cursor
  induction text generalizing position before visited with
  | nil =>
    obtain ⟨trail, htrail, hpair⟩ := Option.map_eq_some_iff.mp h
    cases hpair
    exact ⟨[], _, .refl _, rfl, Plan.leads_of_matchAt htrail⟩
  | cons c rest ih =>
    unfold Plan.firstFrom? at h
    split at h
    · next trail after hmatch =>
      cases h
      exact ⟨[], _, .refl _, rfl, Plan.leads_of_matchAt (congrArg Prod.fst hmatch)⟩
    · next after hmatch =>
      obtain ⟨skipped, found, hpasses, hposition, hleads⟩ := ih _ _ h
      have hone : (⟨position, before, c :: rest⟩ : Cursor).Passes [c]
          ⟨position + 1, some c, rest⟩ := ⟨rfl, rfl, rfl⟩
      exact ⟨[c] ++ skipped, found, hone.trans hpasses, hposition, hleads⟩

variable {e : Expression} {s : List Char} {m : Match}

/-- A match is read at a place of a text. -/
def Match.ReadBy (p : Pattern) (s : List Char) (m : Match) : Prop :=
  ∃ skipped found u, (Cursor.start s).Passes skipped found ∧ p.Reads ⟨found, []⟩ u ∧
    m = ⟨found.position, u.cursor.position, u.captures⟩

/-- Each match of the search is read by the pattern. -/
theorem Plan.readBy_of_matchesFrom {plan : Plan} {p : Pattern}
    (hplan : ∀ t u, plan.Leads t u → p.Reads t u) {bound : Nat} {last : Option Nat}
    {cursor : Cursor} {passed : List Char} (hcursor : (Cursor.start s).Passes passed cursor)
    (h : m ∈ plan.matchesFrom bound last cursor) : m.ReadBy p s := by
  induction bound generalizing last cursor passed with
  | zero => cases h
  | succ bound ih =>
    unfold Plan.matchesFrom at h
    split at h
    · cases h
    · next start u hfirst =>
      obtain ⟨skipped, found, hpasses, rfl, hleads⟩ := Plan.leads_of_firstFrom? hfirst
      have hreads := hplan _ _ hleads
      have hfound := hcursor.trans hpasses
      dsimp only at h
      split at h
      · -- an empty match where the last one ended does not count
        split at h
        · cases h
        · next c rest hrest =>
          have hone : cursor.Passes [c] ⟨cursor.position + 1, some c, rest⟩ := ⟨hrest, rfl, rfl⟩
          exact ih (hcursor.trans hone) h
      · rcases List.mem_cons.mp h with rfl | hlater
        · exact ⟨_, found, u, hfound, hreads, rfl⟩
        · obtain ⟨piece, hpiece, -⟩ := hreads.passes
          exact ih (hfound.trans hpiece) hlater

/-- Every match of an expression is read at its place. -/
theorem Expression.readBy_of_mem_allMatches (hplan : e.plan = (e.body.plan 0).1)
    (h : m ∈ e.allMatches s) : m.ReadBy e.body s := by
  apply Plan.readBy_of_matchesFrom _ (.refl _) h
  intro t u hleads
  rw [hplan] at hleads
  exact e.body.reads_of_leads hleads

end TestImpact
