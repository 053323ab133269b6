import TestImpact.Proofs.Pattern.Characters
import TestImpact.Proofs.Pattern.Forks

/-!
# What a search prefers

What a pattern prefers follows from what its parts prefer and refuse: there is a rule for each kind
of pattern. A greedy repetition prefers as many rounds as there can be (`Pattern.prefers_many`),
and the first match of a text is the preferred one at the first place where there is any
(`Expression.allMatches_of_firstFrom?`).
-/

namespace TestImpact

variable {t mid u : Trail} {mark : Nat} {places : Set Nat}

/-! ## Pieces of text -/

/-- The trail after a piece of the text, `rest` being what follows it. -/
def Trail.pass (t : Trail) (piece rest : List Char) : Trail :=
  { t with cursor := ⟨t.cursor.position + piece.length, piece.getLast?.or t.cursor.before, rest⟩ }

namespace Trail

variable {piece rest : List Char}

theorem passes_pass (h : t.cursor.rest = piece ++ rest) :
    t.cursor.Passes piece (t.pass piece rest).cursor :=
  ⟨h, rfl, rfl⟩

theorem pass_nil (h : t.cursor.rest = rest) : t.pass [] rest = t := by
  rw [← h]
  rfl

theorem step_pass (t : Trail) (c : Char) (piece rest : List Char) :
    (t.step c (piece ++ rest)).pass piece rest = t.pass (c :: piece) rest := by
  have hposition : t.cursor.position + 1 + piece.length =
      t.cursor.position + (c :: piece).length := by
    rw [List.length_cons]
    omega
  have hbefore : piece.getLast?.or (some c) = (c :: piece).getLast?.or t.cursor.before := by
    rw [List.getLast?_cons]
    cases piece.getLast? <;> rfl
  simp only [pass, step, hposition, hbefore]

theorem pass_pass (t : Trail) (piece more between rest : List Char) :
    (t.pass piece between).pass more rest = t.pass (piece ++ more) rest := by
  simp only [pass, List.length_append, List.getLast?_append, Option.or_assoc, Nat.add_assoc]

end Trail

namespace Pattern

variable {p q : Pattern} {ps qs : List Pattern} {set : CharSet}

/-- The marks of a plan are counted on. -/
theorem le_plan (p : Pattern) (mark : Nat) : mark ≤ (p.plan mark).2 := by
  induction p generalizing mark with
  | empty => exact le_refl mark
  | one set => exact le_refl mark
  | check a => exact le_refl mark
  | seq p q ihp ihq => exact (ihp mark).trans (ihq _)
  | alt p q ihp ihq => exact (Nat.le_succ mark).trans ((ihp _).trans (ihq _))
  | group index p ih => exact ih mark
  | repeated p least most greedy ih =>
    cases most with
    | some most =>
      rw [plan]
      exact (Plan.le_copies ih least mark).trans (Plan.le_optionals ih greedy _ _)
    | none =>
      cases least with
      | zero =>
        unfold plan
        split
        · exact (Nat.le_add_right mark 2).trans (ih _)
        · exact (Nat.le_succ mark).trans (ih _)
      | succ least => exact (Plan.le_copies ih least mark).trans ((Nat.le_succ _).trans (ih _))

/-! ## Patterns -/

/-- From `t` the pattern leads to `u` first, by forks at the given places. -/
def Prefers (p : Pattern) (places : Set Nat) (t u : Trail) : Prop :=
  ∀ mark, (p.plan mark).1.Prefers (forksIn mark (p.plan mark).2 places) t u

/-- From `t` the pattern leads nowhere, by forks at the given places. -/
def Refuses (p : Pattern) (places : Set Nat) (t : Trail) : Prop :=
  ∀ mark, (p.plan mark).1.Refuses (forksIn mark (p.plan mark).2 places) t

theorem Prefers.mono {places' : Set Nat} (h : p.Prefers places t u) (hsub : places ⊆ places') :
    p.Prefers places' t u :=
  fun mark => (h mark).mono (forksIn_mono (le_refl _) (le_refl _) hsub)

theorem Prefers.reads (h : p.Prefers places t u) : p.Reads t u :=
  p.reads_of_leads (h 0).leads

theorem prefers_empty : empty.Prefers places t t :=
  fun _ _ visited _ _ hnext => hnext visited .refl

theorem prefers_check {a : Assertion} (h : a.holds t.cursor.before t.cursor.rest.head? = true) :
    (check a).Prefers places t t := by
  intro mark next visited w _ hnext
  show ((if _ then next t else Search.fail) visited).1 = some w
  rw [if_pos h]
  exact hnext visited .refl

theorem prefers_one {c : Char} {rest : List Char} (hrest : t.cursor.rest = c :: rest)
    (hset : set.contains c = true) : (one set).Prefers places t (t.step c rest) := by
  intro mark next visited w _ hnext
  show ((Plan.one set).follow next t visited).1 = some w
  rw [Plan.follow_one hrest hset]
  exact hnext visited .refl

theorem refuses_one (h : ∀ c ∈ t.cursor.rest.head?, set.contains c = false) :
    (one set).Refuses places t := by
  intro mark next visited
  show ∃ after, (Plan.one set).follow next t visited = (none, after) ∧ _
  rw [Plan.follow_one_fail h]
  exact ⟨visited, rfl, .refl⟩

/-- A sequence prefers what its parts prefer in turn. -/
theorem prefers_seq (hp : p.Prefers places t mid) (hq : q.Prefers places mid u) :
    (seq p q).Prefers places t u := by
  intro mark
  apply (hp mark).seq (hq _)
  · intro f hf hf'
    exact absurd hf'.1 (Nat.not_le_of_lt hf.2.1)
  · exact forksIn_widen (le_refl mark) (q.le_plan _)
  · exact forksIn_widen (p.le_plan mark) (le_refl _)

/-- A character and what has to follow it, which does not. -/
theorem refuses_one_seq (h : ∀ c rest, t.cursor.rest = c :: rest → set.contains c = true →
    q.Refuses places (t.step c rest)) : (seq (one set) q).Refuses places t := by
  intro mark next visited
  show ∃ after, (Plan.one set).follow ((q.plan mark).1.follow next) t visited = (none, after) ∧ _
  cases hrest : t.cursor.rest with
  | nil =>
    rw [Plan.follow_one_fail (by simp [hrest])]
    exact ⟨visited, rfl, .refl⟩
  | cons c rest =>
    cases hset : set.contains c with
    | true =>
      rw [Plan.follow_one hrest hset]
      exact h c rest hrest hset mark next visited
    | false =>
      rw [Plan.follow_one_fail (by simpa [hrest] using hset)]
      exact ⟨visited, rfl, .refl⟩

theorem prefers_group {index : Nat} (h : p.Prefers places t u) :
    (group index p).Prefers places t (u.remember index t.cursor.position) :=
  fun mark => Plan.prefers_group (h mark)

/-- An alternative prefers what its first branch prefers. -/
theorem prefers_alt_first (h : p.Prefers {t.cursor.position} t u) :
    (alt p q).Prefers {t.cursor.position} t u :=
  fun mark => Plan.prefers_fork_first (Nat.lt_succ_self mark) (p.le_plan _) (q.le_plan _) rfl (h _)

/-- An alternative prefers its second branch where the first leads nowhere. -/
theorem prefers_alt_second (hp : p.Refuses {t.cursor.position} t)
    (hq : q.Prefers {t.cursor.position} t u) : (alt p q).Prefers {t.cursor.position} t u :=
  fun mark => Plan.prefers_fork_second (Nat.lt_succ_self mark) (p.le_plan _) (q.le_plan _) rfl
    (hp _) (hq _)

theorem refuses_alt (hp : p.Refuses {t.cursor.position} t)
    (hq : q.Refuses {t.cursor.position} t) : (alt p q).Refuses {t.cursor.position} t :=
  fun mark => Plan.refuses_fork (Nat.lt_succ_self mark) (p.le_plan _) (q.le_plan _) rfl
    (hp _) (hq _)

/-! ### Parts one after another and alternatives -/

theorem prefers_seqs_cons (hp : p.Prefers places t mid) (hps : (seqs ps).Prefers places mid u) :
    (seqs (p :: ps)).Prefers places t u := by
  cases ps with
  | nil =>
    have hmid : u = mid := hps.reads
    rw [hmid]
    exact hp
  | cons q qs => exact prefers_seq hp hps

/-- The first alternative that leads anywhere is taken. -/
theorem prefers_alts (hrefuses : ∀ q ∈ ps, q.Refuses {t.cursor.position} t)
    (hp : p.Prefers {t.cursor.position} t u) :
    (alts (ps ++ p :: qs)).Prefers {t.cursor.position} t u := by
  induction ps with
  | nil =>
    cases qs with
    | nil => exact hp
    | cons q qs => exact prefers_alt_first hp
  | cons q ps ih =>
    obtain ⟨hq, hps⟩ := List.forall_mem_cons.mp hrefuses
    have hrest := prefers_alt_second hq (ih hps)
    cases ps with
    | nil => exact hrest
    | cons r ps => exact hrest

theorem refuses_alts (hne : ps ≠ []) (h : ∀ q ∈ ps, q.Refuses {t.cursor.position} t) :
    (alts ps).Refuses {t.cursor.position} t := by
  induction ps with
  | nil => exact absurd rfl hne
  | cons q ps ih =>
    obtain ⟨hq, hps⟩ := List.forall_mem_cons.mp h
    cases ps with
    | nil => exact hq
    | cons r ps => exact refuses_alt hq (ih (List.cons_ne_nil r ps) hps)

/-! ### Pieces of text -/

theorem prefers_literal {s : String} {rest : List Char}
    (hrest : t.cursor.rest = s.toList ++ rest) :
    (literal s).Prefers places t (t.pass s.toList rest) := by
  unfold literal
  generalize s.toList = piece at hrest
  induction piece generalizing t with
  | nil =>
    have hnil : t.pass [] rest = t := Trail.pass_nil hrest
    rw [hnil]
    exact prefers_empty
  | cons c piece ih =>
    rw [← Trail.step_pass]
    exact prefers_seqs_cons (prefers_one hrest (CharSet.contains_single.mpr rfl)) (ih rfl)

theorem refuses_literal {s : String} (h : ¬ s.toList <+: t.cursor.rest) :
    (literal s).Refuses places t := by
  unfold literal
  generalize s.toList = piece at h
  induction piece generalizing t with
  | nil => exact absurd List.nil_prefix h
  | cons c piece ih =>
    have hrest : ∀ d rest, t.cursor.rest = d :: rest → (CharSet.single c).contains d = true →
        ¬ piece <+: rest := by
      intro d rest hrest hset hpiece
      rw [hrest, CharSet.contains_single.mp hset, List.cons_prefix_cons] at h
      exact h ⟨rfl, hpiece⟩
    cases piece with
    | nil =>
      apply refuses_one
      intro d hd
      obtain ⟨rest, hd⟩ := List.head?_eq_some_iff.mp hd
      exact Bool.eq_false_iff.mpr fun hset => hrest d rest hd hset List.nil_prefix
    | cons b piece => exact refuses_one_seq fun d rest hd hset => ih (hrest d rest hd hset)

/-! ### Greedy repetitions -/

/-- What stands after rounds that all get ahead. -/
theorem rounds_bound {n : Nat} (hp : p.nullable = false) (h : Rounds p.Reads n t u) :
    n + u.cursor.rest.length ≤ t.cursor.rest.length := by
  induction n generalizing t with
  | zero =>
    cases h
    omega
  | succ n ih =>
    obtain ⟨mid, hreads, hrest⟩ := h
    have hlater := ih hrest
    have hshorter := hreads.shorter hp
    omega

/-- The rounds of a repetition that are preferred one by one. -/
abbrev PreferredRounds (p : Pattern) (n : Nat) (t u : Trail) : Prop :=
  Rounds (fun t u => p.Prefers {t.cursor.position} t u) n t u

theorem PreferredRounds.reads {n : Nat} (h : p.PreferredRounds n t u) : Rounds p.Reads n t u :=
  Rounds.mono (fun _ _ hround => hround.reads) h

theorem PreferredRounds.plan {n : Nat} (hp : p.nullable = false) (h : p.PreferredRounds n t u)
    (mark : Nat) : Rounds ((p.plan mark).1.Round mark (p.plan mark).2) n t u := by
  apply Rounds.mono _ h
  intro t u hround
  exact ⟨hround mark, hround.reads.position_lt hp⟩

/-- As many rounds as there can be are preferred. -/
theorem prefers_many {n : Nat} (hp : p.nullable = false) (hrounds : p.PreferredRounds n t u)
    (hend : p.Refuses {u.cursor.position} u) :
    (many p).Prefers (Set.Ici t.cursor.position) t u := by
  have hlength := rounds_bound hp hrounds.reads
  intro mark
  unfold many Pattern.plan
  rw [if_neg (by simp [hp])]
  exact Plan.prefers_star (hrounds.plan hp _) (hend _) (Nat.lt_succ_self mark) (p.le_plan _)
    (by omega)

/-- As many rounds as there can be are preferred, one of them at least. -/
theorem prefers_many1 {n : Nat} (hp : p.nullable = false) (hrounds : p.PreferredRounds (n + 1) t u)
    (hend : p.Refuses {u.cursor.position} u) :
    (many1 p).Prefers (Set.Ici t.cursor.position) t u := by
  obtain ⟨mid, hfirst, hrest⟩ := hrounds
  have hlength := rounds_bound hp (PreferredRounds.reads hrest)
  have hadvance := hfirst.reads.position_lt hp
  intro mark
  have hstar := Plan.prefers_star (PreferredRounds.plan hp hrest _) (hend _)
    (Nat.lt_succ_self mark) (p.le_plan _) (by omega)
  show (Plan.rounds mark true (p.plan (mark + 1)).1).Prefers
    (forksIn mark (p.plan (mark + 1)).2 _) t u
  apply (hfirst (mark + 1)).seq hstar
  · -- the first round stands before the others
    intro f hf hf'
    have hplace : f.2 = t.cursor.position := hf.2.2
    have hplace' : mid.cursor.position ≤ f.2 := hf'.2.2
    omega
  · exact Plan.forksIn_start_subset (Nat.le_succ mark) t
  · exact forksIn_mono (le_refl _) (le_refl _) (Set.Ici_subset_Ici.mpr hadvance.le)

/-! ### Characters of a kind -/

section Runs

variable {piece rest : List Char} {kind : Char → Bool} (hrest : t.cursor.rest = piece ++ rest)

include hrest

/-- Rounds that each prefer a character. -/
theorem preferredRounds_chars
    (hround : ∀ t c rest, t.cursor.rest = c :: rest → kind c = true →
      p.Prefers {t.cursor.position} t (t.step c rest))
    (hpiece : ∀ c ∈ piece, kind c = true) :
    p.PreferredRounds piece.length t (t.pass piece rest) := by
  induction piece generalizing t with
  | nil =>
    have hnil : t.pass [] rest = t := Trail.pass_nil hrest
    rw [hnil]
    rfl
  | cons c piece ih =>
    obtain ⟨hc, hpiece⟩ := List.forall_mem_cons.mp hpiece
    rw [← Trail.step_pass]
    exact ⟨_, hround t c _ hrest hc, ih rfl hpiece⟩

variable (hset : ∀ {c}, set.contains c = kind c)

include hset

theorem preferredRounds_one (hpiece : ∀ c ∈ piece, kind c = true) :
    (one set).PreferredRounds piece.length t (t.pass piece rest) := by
  apply preferredRounds_chars hrest _ hpiece
  intro t c rest hrest hc
  exact prefers_one hrest (hset.trans hc)

variable (hpiece : ∀ c ∈ piece, kind c = true) (hend : ∀ c ∈ rest.head?, kind c = false)

include hpiece hend

/-- All characters of the kind are taken. -/
theorem prefers_many_one : (many (.one set)).Prefers .univ t (t.pass piece rest) := by
  have hmany := prefers_many rfl (preferredRounds_one hrest hset hpiece)
    (refuses_one fun c hc => hset.trans (hend c hc))
  exact hmany.mono (Set.subset_univ _)

theorem prefers_many1_one (hne : piece ≠ []) :
    (many1 (.one set)).Prefers .univ t (t.pass piece rest) := by
  obtain ⟨c, front, rfl⟩ := List.exists_cons_of_ne_nil hne
  have hmany := prefers_many1 rfl (preferredRounds_one hrest hset hpiece)
    (refuses_one fun c hc => hset.trans (hend c hc))
  exact hmany.mono (Set.subset_univ _)

end Runs

end Pattern

/-! ## The first match of a text -/

variable {plan : Plan} {visited : Visited}

theorem Plan.firstFrom?_of_matchAt {cursor : Cursor}
    (h : (plan.matchAt cursor visited).1 = some u) :
    plan.firstFrom? visited cursor.position cursor.before cursor.rest =
      some (cursor.position, u) := by
  obtain ⟨position, before, rest⟩ := cursor
  cases rest with
  | nil =>
    unfold firstFrom?
    rw [h]
    rfl
  | cons c rest =>
    unfold firstFrom?
    split
    · next trail after hmatch =>
      rw [hmatch] at h
      cases h
      rfl
    · next after hmatch =>
      rw [hmatch] at h
      cases h

/-- A place where the search fails before it comes to a fork is passed over. -/
theorem Plan.firstFrom?_skip {position : Nat} {before : Option Char} {c : Char} {rest : List Char}
    (h : plan.matchAt ⟨position, before, c :: rest⟩ visited = (none, visited)) :
    plan.firstFrom? visited position before (c :: rest) =
      plan.firstFrom? visited (position + 1) (some c) rest := by
  rw [firstFrom?, h]

/-- The first place where a match begins, and the preferred match there, are the first match. -/
theorem Expression.allMatches_of_firstFrom? {e : Expression} {s : List Char} {start : Nat}
    (h : e.plan.firstFrom? {} 0 none s = some (start, u)) :
    ∃ later, e.allMatches s = ⟨start, u.cursor.position, u.captures⟩ :: later := by
  refine ⟨e.plan.matchesFrom (2 * s.length + 2) (some u.cursor.position) u.cursor, ?_⟩
  have hfirst : e.plan.firstFrom? {} (Cursor.start s).position (Cursor.start s).before
      (Cursor.start s).rest = some (start, u) := h
  unfold allMatches
  rw [Plan.matchesFrom, hfirst]
  simp

end TestImpact
