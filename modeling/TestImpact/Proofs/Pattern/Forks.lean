import Mathlib.Data.Set.Insert
import Mathlib.Order.Interval.Set.Basic
import TestImpact.Proofs.Pattern.Reading

/-!
# Forks of a search

A search goes the preferred way at each fork unless that way fails or the fork has been come to
before. A plan prefers the way to a trail if the search goes on from that trail first, as long as
the forks on the way are new (`Plan.Prefers`), and it refuses a trail if the search never goes on
from any (`Plan.Refuses`). So a proof that a way is preferred has to say which forks it comes to:
those with certain marks, at certain places of the text (`forksIn`).
-/

namespace TestImpact

variable {t mid u : Trail} {mark lo hi : Nat} {places : Set Nat}

/-! ## Forks come to -/

/-- The forks whose marks lie from `lo` on and below `hi`, at the given places of the text. -/
def forksIn (lo hi : Nat) (places : Set Nat) : Set (Nat × Nat) :=
  {f | lo ≤ f.1 ∧ f.1 < hi ∧ f.2 ∈ places}

theorem forksIn_mono {lo' hi' : Nat} {places' : Set Nat} (hlo : lo' ≤ lo) (hhi : hi ≤ hi')
    (hplaces : places ⊆ places') : forksIn lo hi places ⊆ forksIn lo' hi' places' := by
  intro f hf
  exact ⟨hlo.trans hf.1, hf.2.1.trans_le hhi, hplaces hf.2.2⟩

theorem forksIn_widen {lo' hi' : Nat} (hlo : lo' ≤ lo) (hhi : hi ≤ hi') :
    forksIn lo hi places ⊆ forksIn lo' hi' places :=
  forksIn_mono hlo hhi (Set.Subset.refl places)

namespace Visited

variable {visited after last : Visited} {forks others : Set (Nat × Nat)}

/-- None of the given forks has been come to. -/
def Lacks (visited : Visited) (forks : Set (Nat × Nat)) : Prop := ∀ f ∈ visited, f ∉ forks

/-- The forks that have been come to since are among the given ones. -/
def Grows (visited : Visited) (forks : Set (Nat × Nat)) (after : Visited) : Prop :=
  ∀ f ∈ after, f ∈ visited ∨ f ∈ forks

theorem lacks_empty : Lacks {} forks := by
  intro f hf
  exact absurd hf Std.TreeSet.not_mem_emptyc

theorem Lacks.mono (h : visited.Lacks forks) (hsub : others ⊆ forks) : visited.Lacks others :=
  fun f hf hfork => h f hf (hsub hfork)

theorem Grows.refl : visited.Grows forks visited := fun _ => .inl

theorem Grows.mono (h : visited.Grows others after) (hsub : others ⊆ forks) :
    visited.Grows forks after :=
  fun f hf => (h f hf).imp_right (@hsub f)

theorem Grows.trans (h : visited.Grows forks after) (h' : after.Grows forks last) :
    visited.Grows forks last := by
  intro f hf
  rcases h' f hf with hafter | hfork
  · exact h f hafter
  · exact .inr hfork

/-- Forks besides those that a search comes to stay as if it had not been. -/
theorem Grows.lacks (h : visited.Grows forks after) (hlacks : visited.Lacks others)
    (hdisjoint : ∀ f ∈ forks, f ∉ others) : after.Lacks others := by
  intro f hf
  rcases h f hf with hvisited | hfork
  · exact hlacks f hvisited
  · exact hdisjoint f hfork

theorem Grows.widen {lo' hi' : Nat} (h : visited.Grows (forksIn lo hi places) after)
    (hlo : lo' ≤ lo) (hhi : hi ≤ hi') : visited.Grows (forksIn lo' hi' places) after :=
  h.mono (forksIn_widen hlo hhi)

theorem grows_insert (visited : Visited) {f : Nat × Nat} (hf : f ∈ forks) :
    visited.Grows forks (visited.insert f) := by
  intro g hg
  rcases Std.TreeSet.mem_insert.mp hg with heq | hvisited
  · rw [← Std.LawfulEqCmp.eq_of_compare heq]
    exact .inr hf
  · exact .inl hvisited

/-- A fork that is new, and the marks behind it. -/
theorem Lacks.insert {position : Nat} (h : visited.Lacks (forksIn mark hi places))
    (hlo : mark < lo) :
    Lacks (visited.insert (mark, position)) (forksIn lo hi places) := by
  have hgrows := visited.grows_insert (Set.mem_singleton (mark, position))
  apply hgrows.lacks (h.mono (forksIn_widen hlo.le (le_refl hi)))
  rintro f rfl hf
  exact absurd hf.1 (Nat.not_le_of_lt hlo)

end Visited

namespace Search

variable {search first second : Search} {visited after : Visited} {position : Nat}

/-- At a fork that has not been come to, the search goes on. -/
theorem once_of_lacks {forks : Set (Nat × Nat)} (hlacks : visited.Lacks forks)
    (hfork : (mark, position) ∈ forks) :
    once mark position search visited = search (visited.insert (mark, position)) := by
  have hnew : (mark, position) ∉ visited := fun hf => hlacks _ hf hfork
  simp [once, hnew]

theorem orElse_of_some (h : (first visited).1 = some u) :
    (first.orElse second visited).1 = some u := by
  unfold orElse
  split
  · next trail after hfirst =>
    rw [hfirst] at h
    exact h
  · next after hfirst =>
    rw [hfirst] at h
    cases h

theorem orElse_of_none (h : first visited = (none, after)) :
    first.orElse second visited = second after := by
  simp [orElse, h]

end Search

/-! ## Plans -/

namespace Plan

variable {plan first second body : Plan} {forks others : Set (Nat × Nat)}

/-- From `t` the search goes on to `u` first: what is found from there is found, unless one of the
forks has been come to before. -/
def Prefers (plan : Plan) (forks : Set (Nat × Nat)) (t u : Trail) : Prop :=
  ∀ (next : Trail → Search) (visited : Visited) (w : Trail), visited.Lacks forks →
    (∀ after, visited.Grows forks after → (next u after).1 = some w) →
    (plan.follow next t visited).1 = some w

/-- From `t` the search goes on to nothing, and comes to some of the forks at most. -/
def Refuses (plan : Plan) (forks : Set (Nat × Nat)) (t : Trail) : Prop :=
  ∀ (next : Trail → Search) (visited : Visited),
    ∃ after, plan.follow next t visited = (none, after) ∧ visited.Grows forks after

theorem Prefers.mono (h : plan.Prefers others t u) (hsub : others ⊆ forks) :
    plan.Prefers forks t u := by
  intro next visited w hlacks hnext
  apply h next visited w (hlacks.mono hsub)
  intro after hgrows
  exact hnext after (hgrows.mono hsub)

/-- The search for a match finds what the plan prefers. -/
theorem Prefers.matchAt {cursor : Cursor} {visited : Visited}
    (h : plan.Prefers forks ⟨cursor, []⟩ u) (hlacks : visited.Lacks forks) :
    (plan.matchAt cursor visited).1 = some u :=
  h _ visited u hlacks fun _ _ => rfl

theorem Prefers.leads (h : plan.Prefers forks t u) : plan.Leads t u := by
  have hfound : (plan.follow (fun trail visited => (some trail, visited)) t {}).1 = some u :=
    h _ _ u Visited.lacks_empty fun _ _ => rfl
  obtain ⟨mid, hleads, after, hmid⟩ := plan.finds_follow ⟨_, hfound⟩
  cases hmid
  exact hleads

/-- What comes first in a sequence is what comes first in its parts, if their forks are apart. -/
theorem Prefers.seq {firstForks : Set (Nat × Nat)} (hfirst : first.Prefers firstForks t mid)
    (hsecond : second.Prefers others mid u) (hdisjoint : ∀ f ∈ firstForks, f ∉ others)
    (hsubFirst : firstForks ⊆ forks) (hsubSecond : others ⊆ forks) :
    (seq first second).Prefers forks t u := by
  intro next visited w hlacks hnext
  apply hfirst _ visited w (hlacks.mono hsubFirst)
  intro after hgrows
  apply hsecond _ after w (hgrows.lacks (hlacks.mono hsubSecond) hdisjoint)
  intro last hlast
  exact hnext last ((hgrows.mono hsubFirst).trans (hlast.mono hsubSecond))

theorem follow_one {set : CharSet} {next : Trail → Search} {c : Char} {rest : List Char}
    (hrest : t.cursor.rest = c :: rest) (hset : set.contains c = true) :
    (one set).follow next t = next (t.step c rest) := by
  simp only [follow, hrest, hset, if_true]
  rfl

theorem follow_one_fail {set : CharSet} {next : Trail → Search}
    (h : ∀ c ∈ t.cursor.rest.head?, set.contains c = false) :
    (one set).follow next t = Search.fail := by
  unfold follow
  split
  · rfl
  · next c rest hrest =>
    rw [hrest] at h
    rw [h c rfl]
    rfl

theorem prefers_group {index : Nat} (h : body.Prefers forks t u) :
    (group index body).Prefers forks t (u.remember index t.cursor.position) := by
  intro next visited w hlacks hnext
  exact h _ visited w hlacks hnext

section Forks

variable {m : Nat} (hmark : mark < lo) (hlo : lo ≤ m) (hhi : m ≤ hi)
  (hplace : t.cursor.position ∈ places)

include hmark hlo hhi hplace

theorem mem_forksIn : (mark, t.cursor.position) ∈ forksIn mark hi places :=
  ⟨le_refl mark, by omega, hplace⟩

/-- The first way of a fork is preferred. -/
theorem prefers_fork_first (h : first.Prefers (forksIn lo m places) t u) :
    (fork mark first second).Prefers (forksIn mark hi places) t u := by
  have hfork : (mark, t.cursor.position) ∈ forksIn mark hi places :=
    mem_forksIn hmark hlo hhi hplace
  intro next visited w hlacks hnext
  unfold follow
  rw [Search.once_of_lacks hlacks hfork]
  apply Search.orElse_of_some
  apply h
  · exact (hlacks.insert hmark).mono (forksIn_widen (le_refl lo) hhi)
  · intro after hgrows
    exact hnext after ((visited.grows_insert hfork).trans (hgrows.widen hmark.le hhi))

/-- The second way of a fork is taken where the first one fails. -/
theorem prefers_fork_second (hrefuses : first.Refuses (forksIn lo m places) t)
    (h : second.Prefers (forksIn m hi places) t u) :
    (fork mark first second).Prefers (forksIn mark hi places) t u := by
  have hfork : (mark, t.cursor.position) ∈ forksIn mark hi places :=
    mem_forksIn hmark hlo hhi hplace
  intro next visited w hlacks hnext
  obtain ⟨failed, hfollow, hfailed⟩ := hrefuses next (visited.insert (mark, t.cursor.position))
  have hgrown := (visited.grows_insert hfork).trans (hfailed.widen hmark.le hhi)
  unfold follow
  rw [Search.once_of_lacks hlacks hfork, Search.orElse_of_none hfollow]
  apply h
  · apply hfailed.lacks (hlacks.insert (hmark.trans_le hlo))
    intro f hf hf'
    exact absurd hf'.1 (Nat.not_le_of_lt hf.2.1)
  · intro after hgrows
    exact hnext after (hgrown.trans (hgrows.widen (hmark.le.trans hlo) (le_refl hi)))

/-- A fork leads nowhere when neither way does. -/
theorem refuses_fork (hfirst : first.Refuses (forksIn lo m places) t)
    (hsecond : second.Refuses (forksIn m hi places) t) :
    (fork mark first second).Refuses (forksIn mark hi places) t := by
  have hfork : (mark, t.cursor.position) ∈ forksIn mark hi places :=
    mem_forksIn hmark hlo hhi hplace
  intro next visited
  unfold follow Search.once
  split
  · exact ⟨visited, rfl, .refl⟩
  · obtain ⟨failed, hfollow, hfailed⟩ := hfirst next (visited.insert (mark, t.cursor.position))
    obtain ⟨after, hfollow', hafter⟩ := hsecond next failed
    have hgrown := (visited.grows_insert hfork).trans (hfailed.widen hmark.le hhi)
    rw [Search.orElse_of_none hfollow]
    exact ⟨after, hfollow', hgrown.trans (hafter.widen (hmark.le.trans hlo) (le_refl hi))⟩

end Forks

/-! ### Greedy repetitions -/

/-- A round that the search prefers, which comes to its forks at its start only. -/
def Round (body : Plan) (lo hi : Nat) (t u : Trail) : Prop :=
  body.Prefers (forksIn lo hi {t.cursor.position}) t u ∧ t.cursor.position < u.cursor.position

theorem start_mem_forksIn (hmark : mark < hi) (t : Trail) :
    (mark, t.cursor.position) ∈ forksIn mark hi {t.cursor.position} :=
  ⟨le_refl mark, hmark, rfl⟩

theorem forksIn_start_subset (hmark : mark ≤ lo) (t : Trail) :
    forksIn lo hi {t.cursor.position} ⊆ forksIn mark hi (Set.Ici t.cursor.position) :=
  forksIn_mono hmark (le_refl hi) (Set.singleton_subset_iff.mpr (Set.mem_Ici.mpr (le_refl _)))

/-- As many rounds as there can be are preferred. -/
theorem first_rounds {n bound : Nat} {next : Trail → Search} {visited : Visited} {w : Trail}
    (hrounds : Rounds (body.Round lo hi) n t u)
    (hend : body.Refuses (forksIn lo hi {u.cursor.position}) u)
    (hmark : mark < lo) (hhi : lo ≤ hi) (hbound : n < bound)
    (hlacks : visited.Lacks (forksIn mark hi (Set.Ici t.cursor.position)))
    (hnext : ∀ after, visited.Grows (forksIn mark hi (Set.Ici t.cursor.position)) after →
      (next u after).1 = some w) :
    (Search.rounds mark true body.follow next bound t visited).1 = some w := by
  induction n generalizing t bound visited with
  | zero =>
    cases hrounds
    obtain ⟨bound, rfl⟩ := Nat.exists_eq_succ_of_ne_zero (Nat.ne_of_gt hbound)
    have hfork := forksIn_start_subset (le_refl mark) u (start_mem_forksIn (hmark.trans_le hhi) u)
    obtain ⟨after, hfollow, hafter⟩ := hend
      (Search.rounds mark true body.follow next bound) (visited.insert (mark, u.cursor.position))
    unfold Search.rounds
    rw [Search.once_of_lacks hlacks hfork, if_pos rfl, Search.orElse_of_none hfollow]
    apply hnext
    exact (visited.grows_insert hfork).trans (hafter.mono (forksIn_start_subset hmark.le u))
  | succ n ih =>
    obtain ⟨mid, ⟨hround, hadvance⟩, hrest⟩ := hrounds
    obtain ⟨bound, rfl⟩ := Nat.exists_eq_succ_of_ne_zero (Nat.ne_of_gt (Nat.zero_lt_of_lt hbound))
    have hhere := start_mem_forksIn (hmark.trans_le hhi) t
    have hlater : forksIn mark hi (Set.Ici mid.cursor.position) ⊆
        forksIn mark hi (Set.Ici t.cursor.position) :=
      forksIn_mono (le_refl mark) (le_refl hi) (Set.Ici_subset_Ici.mpr hadvance.le)
    unfold Search.rounds
    rw [Search.once_of_lacks hlacks (forksIn_start_subset (le_refl mark) t hhere), if_pos rfl]
    apply Search.orElse_of_some
    apply hround
    · apply (hlacks.insert hmark).mono
      exact forksIn_start_subset (le_refl lo) t
    · intro after hgrows
      -- what this round comes to stands before the later rounds
      have hround' : visited.Grows (forksIn mark hi {t.cursor.position}) after :=
        (visited.grows_insert hhere).trans (hgrows.widen hmark.le (le_refl hi))
      apply ih hrest (Nat.lt_of_succ_lt_succ hbound)
      · apply hround'.lacks (hlacks.mono hlater)
        intro f hf hf'
        have hplace : f.2 = t.cursor.position := hf.2.2
        have hplace' : mid.cursor.position ≤ f.2 := hf'.2.2
        omega
      · intro last hlast
        have hwhole := hround'.mono (forksIn_start_subset (le_refl mark) t)
        exact hnext last (hwhole.trans (hlast.mono hlater))

/-- A greedy repetition goes on for as many rounds as there are. -/
theorem prefers_star {n : Nat} (hrounds : Rounds (body.Round lo hi) n t u)
    (hend : body.Refuses (forksIn lo hi {u.cursor.position}) u) (hmark : mark < lo) (hhi : lo ≤ hi)
    (hlength : n ≤ t.cursor.rest.length) :
    (star mark true body).Prefers (forksIn mark hi (Set.Ici t.cursor.position)) t u := by
  intro next visited w hlacks hnext
  exact first_rounds hrounds hend hmark hhi (Nat.lt_succ_of_le hlength) hlacks hnext

/-! ### Marks -/

theorem le_copies {plan : Nat → Plan × Nat} (hplan : ∀ mark, mark ≤ (plan mark).2) (n mark : Nat) :
    mark ≤ (copies plan n mark).2 := by
  induction n generalizing mark with
  | zero => exact le_refl mark
  | succ n ih => exact (hplan mark).trans (ih _)

theorem le_optionals {plan : Nat → Plan × Nat} (hplan : ∀ mark, mark ≤ (plan mark).2)
    (greedy : Bool) (n mark : Nat) : mark ≤ (optionals plan greedy n mark).2 := by
  induction n generalizing mark with
  | zero => exact le_refl mark
  | succ n ih => exact (Nat.le_succ mark).trans ((hplan _).trans (ih _))

end Plan

end TestImpact
