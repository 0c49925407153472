import Tenancy.Proofs.Acceptance
import Tenancy.Proofs.Relocation
import Tenancy.Proofs.Transactions

namespace Tenancy

/-!
# Moves in turn

A move keeps the rows within the subtree, but for parent edges into the tenant, and adds what the
new place gives.  Where the tenant was before plays no part in it.  So it makes no difference
whether the subtree was detached before it goes to its new place, or was already put there, however
damaged the table is.

* `Closure.keptDepth?`, `Closure.newDepth?` — what stays within the subtree, and what comes.
* `Closure.depth?_moved_into_new`, `Closure.depth?_moved_within` — a move, by where the ends of a
  row lie.
* `Closure.moved_moved` — a move after another one of the same tenant.
* `Store.detach_and_move` — detaching first makes no difference.
* `Hierarchy.move_again` — a move that is repeated does nothing.
-/

namespace Closure

variable {t : Closure} {tenant parent place a d n : Int} {k : Nat} {o p : Option Nat} {m : Kin}

/-! ### What stays and what comes -/

/-- The depth of a row within the subtree, unless it is that of a parent edge into the tenant. -/
def keptDepth? (tenant d : Int) (o : Option Nat) : Option Nat :=
  if d = tenant then o.filter (· != 1) else o

/-- The depth at which `a` gets to be above `d` if the subtree of `tenant` is put under `parent`.
    The id 0 is no parent, and gives none. -/
def newDepth? (t : Closure) (tenant parent a d : Int) : Option Nat :=
  if parent = 0 then none else t.placeDepth? tenant parent a d

/-- A cut keeps a depth unless it is that of a parent edge to the tenant. -/
theorem keptDepth?_eq_some_iff :
    keptDepth? tenant d o = some k ↔ o = some k ∧ ¬(d = tenant ∧ k = 1) := by
  unfold keptDepth?
  split
  · rename_i hd
    simp [Option.filter_eq_some_iff, hd]
  · rename_i hd
    simp [hd]

theorem keptDepth?_of_ne (hd : d ≠ tenant) : keptDepth? tenant d o = o := if_neg hd

/-- Cutting twice is cutting once. -/
theorem keptDepth?_keptDepth? :
    keptDepth? tenant d (keptDepth? tenant d o) = keptDepth? tenant d o := by
  refine Option.ext fun k => ?_
  rw [keptDepth?_eq_some_iff]
  exact and_iff_left_of_imp fun hk => (keptDepth?_eq_some_iff.1 hk).2

/-- What comes a second time is there already.  It is dropped in between at most at depth 1, and
    then it is the depth that comes again, since none that stayed is as small. -/
theorem keptDepth?_merge : (keptDepth? tenant d ((keptDepth? tenant d o).merge min p)).merge min p
    = (keptDepth? tenant d o).merge min p := by
  by_cases hd : d = tenant
  · unfold keptDepth?
    rw [if_pos hd, if_pos hd]
    cases p with
    | none => simp
    | some l =>
      cases hk : o.filter (· != 1) with
      | none =>
        rw [Option.merge_none_left, Option.filter_some]
        split <;> simp
      | some k =>
        have hne : k ≠ 1 := by simpa using (Option.filter_eq_some_iff.1 hk).2
        have hmerge : (some k).merge min (some l) = some (min k l) := rfl
        rw [hmerge, Option.filter_some]
        -- the second cut takes away the merged depth only if it is 1, and then the new way of
        -- length 1 brings it back
        by_cases hmin : min k l = 1
        · have hl : l = 1 := by omega
          rw [hmin, if_neg (by decide), Option.merge_none_left, hl]
        · have hle : min (min k l) l = min k l := by omega
          rw [if_pos (by simpa using hmin)]
          exact congrArg some hle
  · rw [keptDepth?_of_ne hd, keptDepth?_of_ne hd]
    cases o <;> cases p <;> simp

/-! ### A move, by what stays and what comes -/

/-- No subtree holds the id 0, if no row ends there. -/
theorem not_inSubtree_zero (hroot : ∀ b, t.depth? b 0 = none) (hz : tenant ≠ 0) :
    ¬t.InSubtree tenant 0 := by
  rintro (he | hj)
  · exact hz he.symm
  · obtain ⟨k, hk⟩ := joins_iff.1 hj
    rw [hroot] at hk
    cases hk

/-- Within the subtree, a move deletes just the parent edges into the tenant. -/
theorem depth?_cut_within (ha : t.InSubtree tenant a) (hout : ¬t.InSubtree tenant parent) :
    (t.cut tenant parent).depth? a d = keptDepth? tenant d (t.depth? a d) := by
  refine Option.ext fun k => ?_
  rw [depth?_cut_eq_some_iff, keptDepth?_eq_some_iff]
  refine and_congr_right fun _ => not_congr ⟨?_, ?_⟩
  · rintro (⟨-, hno, -⟩ | ⟨hd, hone, -⟩)
    · exact absurd ha hno
    · exact ⟨hd, hone⟩
  · rintro ⟨hd, hone⟩
    exact .inr ⟨hd, hone, fun he => hout (he ▸ ha)⟩

section

variable (hroot : ∀ b, t.depth? b 0 = none) (hout : ¬t.InSubtree tenant parent)

include hout

/-- From inside the subtree: what the cut keeps, or the new way if that is shorter. -/
theorem depth?_moved_within (ha : t.InSubtree tenant a) : (t.moved tenant parent).depth? a d
    = (keptDepth? tenant d (t.depth? a d)).merge min (t.newDepth? tenant parent a d) := by
  unfold newDepth?
  by_cases hz : parent = 0
  · subst hz
    rw [moved_zero, depth?_cut_within ha hout, if_pos rfl, Option.merge_none_right]
  · rw [depth?_moved hz hout, depth?_cut_within ha hout, if_neg hz]

include hroot

/-- From outside into the subtree only the new ways are left. -/
theorem depth?_moved_into_new (hd : t.InSubtree tenant d) (ha : ¬t.InSubtree tenant a) :
    (t.moved tenant parent).depth? a d = t.newDepth? tenant parent a d := by
  unfold newDepth?
  by_cases hz : parent = 0
  · subst hz
    rw [depth?_moved_into_zero hroot hd ha, if_pos rfl]
  · rw [depth?_moved_into hz hout hd ha, if_neg hz]

end

/-! ### A move after another one -/

section

variable (hplace : ¬t.InSubtree tenant place)

include hplace

/-- A place outside the subtree has nothing of it above it that leads to the tenant. -/
theorem newDepth?_tenant : t.newDepth? tenant place tenant d = none := by
  unfold newDepth?
  split
  · rfl
  · refine placeDepth?_eq_none_of_not_above ?_
    rintro (he | hj)
    · exact hplace (.inl he.symm)
    · exact hplace (.inr hj)

/-- A move keeps the rows from the tenant, but for a self row that looks like a parent edge. -/
theorem depth?_moved_tenant :
    (t.moved tenant place).depth? tenant d = keptDepth? tenant d (t.depth? tenant d) := by
  rw [depth?_moved_within hplace (.inl rfl), newDepth?_tenant hplace, Option.merge_none_right]

/-- A move leaves the depths in the subtree that it moves. -/
theorem subDepth?_moved : (t.moved tenant place).subDepth? tenant d = t.subDepth? tenant d := by
  unfold subDepth?
  by_cases hd : d = tenant
  · rw [if_pos hd, if_pos hd]
  · rw [if_neg hd, if_neg hd, depth?_moved_tenant hplace, keptDepth?_of_ne hd]

theorem inSubtree_moved : (t.moved tenant place).InSubtree tenant d ↔ t.InSubtree tenant d := by
  rw [inSubtree_iff_exists, inSubtree_iff_exists, subDepth?_moved hplace]

/-- The new ways of a second move are the same before and after the first. -/
theorem newDepth?_moved (hout : ¬t.InSubtree tenant parent) :
    (t.moved tenant place).newDepth? tenant parent a d = t.newDepth? tenant parent a d := by
  have hsup : (t.moved tenant place).supDepth? parent a = t.supDepth? parent a := by
    unfold supDepth?
    rw [depth?_moved_outside (.inr hplace) hout]
  unfold newDepth? placeDepth?
  rw [hsup, subDepth?_moved hplace]

/-- **A move after another one** of the same tenant does what it would have done without it, if the
    first one went nowhere, or to the same place. -/
theorem moved_moved (hroot : ∀ b, t.depth? b 0 = none) (htenant : tenant ≠ 0)
    (hout : ¬t.InSubtree tenant parent) (hsame : place = 0 ∨ place = parent) :
    (t.moved tenant place).moved tenant parent = t.moved tenant parent := by
  have hroot' : ∀ b, (t.moved tenant place).depth? b 0 = none := fun b => by
    rw [depth?_moved_outside (.inr hplace) (not_inSubtree_zero hroot htenant), hroot]
  have hout' : ¬(t.moved tenant place).InSubtree tenant parent := by
    rwa [inSubtree_moved hplace]
  refine ext fun a d => ?_
  by_cases hd : t.InSubtree tenant d
  · have hd' := (inSubtree_moved hplace).2 hd
    by_cases ha : t.InSubtree tenant a
    · have ha' := (inSubtree_moved hplace).2 ha
      rw [depth?_moved_within hout' ha', depth?_moved_within hplace ha, depth?_moved_within hout ha,
        newDepth?_moved hplace hout]
      -- what the first move has added is nothing, or what the second one adds
      rcases hsame with rfl | rfl
      · have hnone : t.newDepth? tenant 0 a d = none := if_pos rfl
        rw [hnone, Option.merge_none_right, keptDepth?_keptDepth?]
      · exact keptDepth?_merge
    · have ha' : ¬(t.moved tenant place).InSubtree tenant a := by rwa [inSubtree_moved hplace]
      rw [depth?_moved_into_new hroot' hout' hd' ha', depth?_moved_into_new hroot hout hd ha,
        newDepth?_moved hplace hout]
  · have hd' : ¬(t.moved tenant place).InSubtree tenant d := by rwa [inSubtree_moved hplace]
    rw [depth?_moved_outside (.inr hout') hd', depth?_moved_outside (.inr hplace) hd,
      depth?_moved_outside (.inr hout) hd]

end

/-! ### What a move that is repeated has to do -/

/-- Where no row is cut, the statements that delete rows do nothing. -/
theorem detach_eq_self (h : ∀ a d k, t.depth? a d = some k → ¬t.Cuts tenant parent ⟨a, d, k⟩) :
    t.detach tenant parent = ⟨t, 0⟩ := by
  have hsame : (t.detach tenant parent).closure = t := by
    refine ext fun a d => Option.ext fun k => ?_
    refine depth?_detach_eq_some_iff.trans (and_iff_left_of_imp fun hk hd ha => ?_)
    by_contra hlink
    exact h a d k hk (.inl ⟨hd, ha, hlink⟩)
  unfold detach at hsame ⊢
  exact remove_eq_self hsame

/-- Where there is no other parent edge, none is dropped. -/
theorem dropOtherParents_eq_self
    (h : ∀ a d k, t.depth? a d = some k → ¬t.Cuts tenant parent ⟨a, d, k⟩) :
    t.dropOtherParents tenant parent = ⟨t, 0⟩ := by
  refine remove_eq_self (ext fun a d => Option.ext fun k => ?_)
  refine depth?_dropOtherParents_eq_some_iff.trans (and_iff_left_of_imp fun hk hedge => ?_)
  exact h a d k hk (.inr hedge)

/-- Where every pair is as close already as the place makes it, attaching does nothing. -/
theorem attach_eq_self
    (h : ∀ a d k, t.placeDepth? tenant parent a d = some k → ∃ j ≤ k, t.depth? a d = some j) :
    t.attach tenant parent = ⟨t, 0⟩ := by
  refine shorten_eq_self fun r hr => ?_
  -- the place gives the depth of the shortest link
  obtain ⟨l, hle, hl⟩ := exists_isLeast
    (S := {k | (⟨r.ancestor, r.descendant, k⟩ : Row) ∈ links (t.supertree parent)
      (t.subtree tenant)})
    hr
  obtain ⟨j, hj, hk⟩ := h _ _ l (isLeast_links_iff.1 hl)
  exact ⟨j, Nat.le_trans hj hle, hk⟩

section

variable (hroot : ∀ b, t.depth? b 0 = none) (hout : ¬t.InSubtree tenant parent)

include hout

/-- After a move under a parent, no pair is further apart than its place makes it. -/
theorem exists_le_place (hz : parent ≠ 0) (hk : t.placeDepth? tenant parent a d = some k) :
    ∃ j ≤ k, (t.moved tenant parent).depth? a d = some j := by
  rw [depth?_moved hz hout, hk]
  cases (t.cut tenant parent).depth? a d with
  | none => exact ⟨k, Nat.le_refl k, Option.merge_none_left⟩
  | some i => exact ⟨min i k, Nat.min_le_right i k, rfl⟩

include hroot

/-- **After a move**, there is nothing to delete for the same move, unless a row between different
    ids has depth 0. -/
theorem not_cuts_moved (hpos : ∀ a d, t.depth? a d = some 0 → a = d)
    (hk : (t.moved tenant parent).depth? a d = some k) :
    ¬(t.moved tenant parent).Cuts tenant parent ⟨a, d, k⟩ := by
  rintro (⟨hd, ha, hlink⟩ | ⟨hd, hone, hne⟩)
  · -- a row that leads in has just the depth of a link
    rw [inSubtree_moved hout] at hd ha
    rw [depth?_moved_into_new hroot hout hd ha, ← newDepth?_moved hout hout, newDepth?] at hk
    split at hk
    · cases hk
    · rename_i hz
      rw [ancestry, if_neg hz] at hlink
      exact hlink (isLeast_links_iff.2 hk).1
  · -- a parent edge from another id would come from one at no distance from the parent
    dsimp only at hd hone hne
    subst hd hone
    obtain ⟨-, hzero⟩ := (eq_parent_or_of_edge (.inr hout) hk).resolve_left hne
    exact hne (hpos a parent hzero)

end

/-- A self row at depth 0 keeps its id in the table. -/
theorem mem_ids_moved_of_self (h : t.depth? n n = some 0) : n ∈ (t.moved tenant parent).ids :=
  (mem_ids_of_joins (joins_moved_of_not_cuts h not_cuts_self)).1

/-! ### The plan of the second move -/

/-- A move leaves the list of the subtree as it was, but for the tenant at the distance of a
    parent. -/
theorem mem_subtree_moved (hplace : ¬t.InSubtree tenant place) :
    m ∈ (t.moved tenant place).subtree tenant ↔ m ∈ t.subtree tenant ∧ m ≠ ⟨tenant, 1⟩ := by
  obtain ⟨n, k⟩ := m
  rw [mem_subtree, mem_subtree, depth?_moved_tenant hplace, keptDepth?_eq_some_iff]
  simp only [ne_eq, Kin.mk.injEq]
  constructor
  · rintro (⟨rfl, rfl⟩ | ⟨hk, hone⟩)
    · exact ⟨.inl ⟨rfl, rfl⟩, fun he => absurd he.2 Nat.zero_ne_one⟩
    · exact ⟨.inr hk, hone⟩
  · rintro ⟨hself | hk, hone⟩
    · exact .inl hself
    · exact .inr ⟨hk, hone⟩

/-- What lies above a place outside the subtree lies there after a move as well. -/
theorem mem_supertree_moved (hplace : ¬t.InSubtree tenant place)
    (hout : ¬t.InSubtree tenant parent) :
    m ∈ (t.moved tenant place).supertree parent ↔ m ∈ t.supertree parent := by
  rw [mem_supertree, mem_supertree, depth?_moved_outside (.inr hplace) hout]

end Closure

variable {s s' : Scope} {t : Closure} {tenant parent : TenantId} {verbose again : Bool}
    {place : Int}

/-- The plan of a move can be told after another move of the same tenant if it could be before. -/
theorem Closure.tellable_moved_iff (hplace : ¬t.InSubtree tenant.cell place)
    (hout : parent = .root ∨ ¬t.InSubtree tenant.cell parent.cell) :
    (t.moved tenant.cell place).Tellable tenant parent ↔ t.Tellable tenant parent := by
  constructor
  · rintro ⟨hsub, hsup⟩
    refine ⟨fun m hm => ?_, fun hz m hm => ?_⟩
    · by_cases hone : m = ⟨tenant.cell, 1⟩
      · -- the tenant itself is listed in any case
        obtain ⟨hid, -⟩ := hsub ⟨tenant.cell, 0⟩ (mem_subtree.2 (.inl rfl))
        rw [hone]
        exact ⟨hid, (by decide : 1 < UInt32.size)⟩
      · exact hsub m ((mem_subtree_moved hplace).2 ⟨hm, hone⟩)
    · exact hsup hz m ((mem_supertree_moved hplace (hout.resolve_left hz)).2 hm)
  · rintro ⟨hsub, hsup⟩
    exact ⟨fun m hm => hsub m ((mem_subtree_moved hplace).1 hm).1,
      fun hz m hm => hsup hz m ((mem_supertree_moved hplace (hout.resolve_left hz)).1 hm)⟩

namespace Hierarchy

/-- A move after another one of the same tenant is refused just if it was before, provided that both
    its ends are still there. -/
theorem moveFault?_moved (hplace : ¬t.InSubtree tenant.cell place)
    (htenant : tenant.cell ∈ t.ids ∧ tenant.cell ∈ (t.moved tenant.cell place).ids)
    (hparent : parent = .root ∨ parent.cell ∈ t.ids ∧
      parent.cell ∈ (t.moved tenant.cell place).ids) :
    moveFault? (t.moved tenant.cell place) tenant parent = none ↔
      moveFault? t tenant parent = none := by
  rw [moveFault?_eq_none_iff, moveFault?_eq_none_iff, Closure.inSubtree_moved hplace]
  rcases hparent with hz | hparent
  · simp only [htenant.1, htenant.2, hz, true_or]
  · simp only [htenant.1, htenant.2, hparent.1, hparent.2, or_true]

/-- What is told of a move that has nothing to do. -/
theorem moveApplied_moved (hroot : ∀ b, t.depth? b 0 = none)
    (hout : ¬t.InSubtree tenant.cell parent.cell) (hpos : ∀ a d, t.depth? a d = some 0 → a = d) :
    moveApplied (t.moved tenant.cell parent.cell) tenant parent
      = .moveApplied tenant parent 0 0 := by
  have hcuts : ∀ a d k, (t.moved tenant.cell parent.cell).depth? a d = some k →
      ¬(t.moved tenant.cell parent.cell).Cuts tenant.cell parent.cell ⟨a, d, k⟩ :=
    fun a d k => Closure.not_cuts_moved hroot hout hpos
  unfold moveApplied
  simp only [Closure.detach_eq_self hcuts, Closure.dropOtherParents_eq_self hcuts]
  split
  · rfl
  · rename_i hz
    have hz' : parent.cell ≠ 0 := mt cell_eq_zero_iff.1 hz
    rw [Closure.attach_eq_self fun a d k hk => ?_]
    have hplace := Closure.newDepth?_moved (a := a) (d := d) hout hout
    rw [Closure.newDepth?, Closure.newDepth?, if_neg hz', if_neg hz'] at hplace
    exact Closure.exists_le_place hout hz' (hplace ▸ hk)

/-! ### Moves that are repeated -/

/-- A parent that is not below the tenant lies outside of its subtree, as does the id 0. -/
theorem not_inSubtree_of_moveFault? (hroot : ∀ b, t.depth? b 0 = none)
    (h : moveFault? t tenant parent = none) : ¬t.InSubtree tenant.cell parent.cell := by
  obtain ⟨⟨htenant, -⟩, -, hguard, -, -⟩ := moveFault?_eq_none_iff.1 h
  rcases hguard with rfl | hout
  · exact Closure.not_inSubtree_zero hroot (mt cell_eq_zero_iff.1 htenant)
  · exact hout

/-- A move that was not refused is not refused when it is repeated. -/
theorem moveFault?_again (hroot : ∀ b, t.depth? b 0 = none)
    (hself : parent ≠ .root ∨ t.depth? tenant.cell tenant.cell = some 0)
    (h : moveFault? t tenant parent = none) :
    moveFault? (t.moved tenant.cell parent.cell) tenant parent = none := by
  have hout := not_inSubtree_of_moveFault? hroot h
  obtain ⟨-, -, -, htenant, hparent⟩ := moveFault?_eq_none_iff.1 h
  by_cases hz : parent = .root
  · -- without a parent, it is its self row that keeps the tenant in the table
    have hkept : tenant.cell ∈ (t.moved tenant.cell parent.cell).ids :=
      Closure.mem_ids_moved_of_self (hself.resolve_left (not_not.2 hz))
    exact (moveFault?_moved hout ⟨htenant, hkept⟩ (.inl hz)).2 h
  · have hedge : (t.moved tenant.cell parent.cell).joins parent.cell tenant.cell = true :=
      Closure.joins_moved_edge (mt cell_eq_zero_iff.1 hz)
    obtain ⟨hparent', htenant'⟩ := Closure.mem_ids_of_joins hedge
    exact (moveFault?_moved hout ⟨htenant, htenant'⟩ (.inr ⟨hparent.resolve_left hz, hparent'⟩)).2 h

/-- **A repeated move is a no-op.**  When a move has succeeded, so does the same move on any
    database that holds the table it has left, and all that it does is to tell of itself.  If no row
    between different ids had depth 0, it tells that nothing was deleted, and nothing written.  A
    move without a parent can leave nothing of a tenant that has no self row, so that this is asked
    for; and the second move may tell its plan if the first one did. -/
theorem move_again (h : s.Holds t) (hroot : (0 : Int) ∉ t.ids)
    (hself : parent ≠ .root ∨ t.depth? tenant.cell tenant.cell = some 0)
    (hquiet : again = true → verbose = true)
    (hok : (move tenant parent verbose).on s = (.ok (), s')) :
    ∃ u, s'.Holds u ∧ ∀ r : Scope, r.Holds u → ∃ plan i j,
      forewarning u tenant parent again = .ok plan ∧
      (move tenant parent again).on r
        = (.ok (), { r with trail := r.trail ++
          (plan ++ [.told (.moveApplied tenant parent i j)]) }) ∧
      ((∀ a d, t.depth? a d = some 0 → a = d) → i = 0 ∧ j = 0) := by
  obtain ⟨hfault, plan, hplan, rfl⟩ := (move_eq_ok_iff h).1 hok
  have hzero : ∀ b, t.depth? b 0 = none := fun b => (Closure.depth?_eq_none_of_notMem hroot).2
  have hout := not_inSubtree_of_moveFault? hzero hfault
  obtain ⟨⟨htz, -⟩, -, hguard, -, -⟩ := moveFault?_eq_none_iff.1 hfault
  obtain ⟨plan', hplan'⟩ : ∃ es, forewarning (t.moved tenant.cell parent.cell) tenant parent again
      = .ok es := exists_forewarning_iff.2 fun hv =>
    (Closure.tellable_moved_iff hout hguard).2 (exists_forewarning_iff.1 ⟨plan, hplan⟩ (hquiet hv))
  obtain ⟨i, j, hcounts⟩ : ∃ i j, moveApplied (t.moved tenant.cell parent.cell) tenant parent
      = .moveApplied tenant parent i j := ⟨_, _, rfl⟩
  refine ⟨_, h.after, fun r hr => ⟨plan', i, j, hplan', (move_eq_ok_iff hr).2 ?_, fun hpos => ?_⟩⟩
  · refine ⟨moveFault?_again hzero hself hfault, plan', hplan', ?_⟩
    -- the second move leaves the table as it found it
    rw [Closure.moved_moved hout hzero (mt cell_eq_zero_iff.1 htz) hout (.inr rfl), hr.after_same,
      hcounts]
  · rw [moveApplied_moved hzero hout hpos] at hcounts
    injection hcounts with _ _ hi hj
    exact ⟨hi.symm, hj.symm⟩

/-- On the ragged table, tenant 2 is put under 4 twice. -/
theorem move_again_ragged :
    let s : Scope := { database := { table := some { closure := ragged } } }
    let s' := ((move (.ofNat 2) (.ofNat 4) false).on s).2
    (move (.ofNat 2) (.ofNat 4) false).on s' = (.ok (), { s' with
      trail := s'.trail ++ [.told (.moveApplied (.ofNat 2) (.ofNat 4) 0 0)] }) := by
  intro s s'
  have h : s.Holds ragged := ⟨rfl, rfl⟩
  have hfault : moveFault? ragged (.ofNat 2) (.ofNat 4) = none := by decide +kernel
  have hok : ((move (.ofNat 2) (.ofNat 4) false).on s).1 = .ok () := by
    rw [move_on h, hfault]
    rfl
  have hpos : ∀ a d, ragged.depth? a d = some 0 → a = d :=
    Closure.pos_iff_rows.2 (by decide +kernel)
  have hfirst : (move (.ofNat 2) (.ofNat 4) false).on s = (.ok (), s') := Prod.ext hok rfl
  have hroot : (0 : Int) ∉ ragged.ids := by decide +kernel
  have hquiet : false = true → false = true := id
  obtain ⟨u, hu, hagain⟩ := move_again h hroot (.inl (by decide)) hquiet hfirst
  obtain ⟨plan, i, j, hplan, hrun, hcounts⟩ := hagain s' hu
  obtain ⟨rfl, rfl⟩ := hcounts hpos
  cases hplan
  exact hrun

/-! ### Detaching first -/

section

variable (h : s.Holds t) (hroot : (0 : Int) ∉ t.ids)
  (htenant : t.depth? tenant.cell tenant.cell = some 0)
  (hparent : t.depth? parent.cell parent.cell = some 0)

include h hroot htenant hparent

/-- A move after the subtree was detached is refused just if it would have been refused before, and
    leaves the same table; both moves tell their plans. -/
theorem detach_move_eq_ok_iff :
    (do move tenant .root verbose; move tenant parent verbose : Work Unit).on s = (.ok (), s') ↔
      moveFault? t tenant parent = none ∧ ∃ plan plan',
        forewarning t tenant .root verbose = .ok plan ∧
        forewarning (t.moved tenant.cell 0) tenant parent verbose = .ok plan' ∧
        s' = s.after (t.moved tenant.cell parent.cell)
          ((plan ++ [.told (moveApplied t tenant .root)]) ++
            (plan' ++ [.told (moveApplied (t.moved tenant.cell 0) tenant parent)])) := by
  have hzero : ∀ b, t.depth? b 0 = none := fun b => (Closure.depth?_eq_none_of_notMem hroot).2
  have hmem : tenant.cell ∈ t.ids ∧ tenant.cell ∈ (t.moved tenant.cell 0).ids :=
    ⟨(Closure.mem_ids_of_joins (Closure.joins_of_depth? htenant)).1,
      Closure.mem_ids_moved_of_self htenant⟩
  have hmem' : parent.cell ∈ t.ids ∧ parent.cell ∈ (t.moved tenant.cell 0).ids :=
    ⟨(Closure.mem_ids_of_joins (Closure.joins_of_depth? hparent)).1,
      Closure.mem_ids_moved_of_self hparent⟩
  -- what is known of the tenant as soon as one of the moves is not refused
  have hplace : tenant ≠ .root → ¬t.InSubtree tenant.cell 0 := fun hne =>
    Closure.not_inSubtree_zero hzero (mt cell_eq_zero_iff.1 hne)
  have hsame : moveFault? t tenant parent = none →
      (t.moved tenant.cell 0).moved tenant.cell parent.cell = t.moved tenant.cell parent.cell := by
    intro hfault
    have hne := (moveFault?_eq_none_iff.1 hfault).1.1
    exact Closure.moved_moved (hplace hne) hzero (mt cell_eq_zero_iff.1 hne)
      (not_inSubtree_of_moveFault? hzero hfault) (.inl rfl)
  rw [Work.bind_eq_ok_iff]
  constructor
  · rintro ⟨_, s₁, hfirst, hthen⟩
    obtain ⟨hfault₀, plan, hplan, rfl⟩ := (move_eq_ok_iff h).1 hfirst
    obtain ⟨hfault', plan', hplan', rfl⟩ := (move_eq_ok_iff h.after).1 hthen
    have hne := (moveFault?_eq_none_iff.1 hfault₀).1.1
    have hfault := (moveFault?_moved (hplace hne) hmem (.inr hmem')).1 hfault'
    refine ⟨hfault, plan, plan', hplan, hplan', ?_⟩
    rw [Scope.after_after]
    exact congrArg (s.after · _) (hsame hfault)
  · rintro ⟨hfault, plan, plan', hplan, hplan', rfl⟩
    obtain ⟨htok, -, -, -, -⟩ := moveFault?_eq_none_iff.1 hfault
    have hfault₀ : moveFault? t tenant .root = none :=
      moveFault?_eq_none_iff.2 ⟨htok, by decide, .inl rfl, hmem.1, .inl rfl⟩
    have hfault' := (moveFault?_moved (hplace htok.1) hmem (.inr hmem')).2 hfault
    refine ⟨(), _, (move_eq_ok_iff h).2 ⟨hfault₀, plan, hplan, rfl⟩,
      (move_eq_ok_iff h.after).2 ⟨hfault', plan', hplan', ?_⟩⟩
    rw [Scope.after_after]
    exact congrArg (s.after · _) (hsame hfault).symm

/-- A detach before a move makes no difference to whether the move is refused. -/
theorem detach_move_succeeds_iff :
    ((do move tenant .root verbose; move tenant parent verbose : Work Unit).on s).1 = .ok () ↔
      ((move tenant parent verbose).on s).1 = .ok () := by
  have hzero : ∀ b, t.depth? b 0 = none := fun b => (Closure.depth?_eq_none_of_notMem hroot).2
  -- the second plan can be told if the first one can
  have htellable : moveFault? t tenant parent = none →
      ((t.moved tenant.cell 0).Tellable tenant parent ↔ t.Tellable tenant parent) := by
    intro hfault
    have hne := (moveFault?_eq_none_iff.1 hfault).1.1
    exact Closure.tellable_moved_iff (Closure.not_inSubtree_zero hzero (mt cell_eq_zero_iff.1 hne))
      (.inr (not_inSubtree_of_moveFault? hzero hfault))
  rw [move_succeeds_iff h]
  constructor
  · intro hok
    obtain ⟨hfault, -, plan', -, hplan', -⟩ :=
      (detach_move_eq_ok_iff h hroot htenant hparent).1 (Prod.ext hok rfl)
    exact ⟨hfault, fun hv => (htellable hfault).1 (exists_forewarning_iff.1 ⟨plan', hplan'⟩ hv)⟩
  · rintro ⟨hfault, htell⟩
    obtain ⟨plan, hplan⟩ : ∃ es, forewarning t tenant .root verbose = .ok es :=
      exists_forewarning_iff.2 fun hv => ⟨(htell hv).subtree, fun hr => absurd rfl hr⟩
    obtain ⟨plan', hplan'⟩ :
      ∃ es, forewarning (t.moved tenant.cell 0) tenant parent verbose = .ok es :=
      exists_forewarning_iff.2 fun hv => (htellable hfault).2 (htell hv)
    have hrun := (detach_move_eq_ok_iff h hroot htenant hparent).2
      ⟨hfault, plan, plan', hplan, hplan', rfl⟩
    exact congrArg Prod.fst hrun

end

end Hierarchy

open Hierarchy

/-- **Detaching before a move makes no difference.**  The rows within the subtree, and those that
    have the right depth already, are kept when a subtree is moved; deleting them first leads to the
    same table. -/
theorem Store.detach_and_move {s : Store} (h : s.scope.Holds t) (hroot : (0 : Int) ∉ t.ids)
    (htenant : t.depth? tenant.cell tenant.cell = some 0)
    (hparent : t.depth? parent.cell parent.cell = some 0) :
    let detour := transact (do move tenant .root verbose; move tenant parent verbose : Work Unit)
    let direct := transact (move tenant parent verbose)
    ((detour.on s).1 = .ok () ↔ (direct.on s).1 = .ok ()) ∧
      (detour.on s).2.database = (direct.on s).2.database := by
  refine transact_congr (detach_move_succeeds_iff h hroot htenant hparent) fun hok => ?_
  obtain ⟨-, _, _, -, -, hdetour⟩ :=
    (detach_move_eq_ok_iff h hroot htenant hparent).1 (Prod.ext hok rfl)
  have hok' := (detach_move_succeeds_iff h hroot htenant hparent).1 hok
  obtain ⟨-, _, -, hdirect⟩ := (move_eq_ok_iff h).1 (Prod.ext hok' rfl)
  exact (congrArg Scope.database hdetour).trans (congrArg Scope.database hdirect).symm

/-- A table in which 2 and 3 are above each other, 1 has no self row, and 3 has the parents 2 and 4
    at a wrong depth. -/
def frayed : Closure := (Closure.empty.fill [⟨1, 2, 1⟩, ⟨2, 2, 0⟩, ⟨2, 3, 1⟩, ⟨3, 2, 1⟩, ⟨5, 4, 2⟩,
  ⟨4, 4, 0⟩, ⟨4, 2, 1⟩, ⟨4, 3, 9⟩]).closure

/-- Moving 2 under 4, where it is already, keeps the row from 4 to 2; detaching it first does
    not. -/
theorem Store.detach_and_move_frayed :
    let s : Store := { path := memoryPath, database := { table := some { closure := frayed } } }
    let detour := transact (do
      move (.ofNat 2) .root false; move (.ofNat 2) (.ofNat 4) false : Work Unit)
    let direct := transact (move (.ofNat 2) (.ofNat 4) false)
    (detour.on s).1 = .ok () ∧ (detour.on s).2.database = (direct.on s).2.database := by
  intro s detour direct
  have h : s.scope.Holds frayed := ⟨rfl, rfl⟩
  have hfault : moveFault? frayed (.ofNat 2) (.ofNat 4) = none := by decide +kernel
  have hok : (direct.on s).1 = .ok () := by
    refine transact_eq_ok_iff.2 ⟨rfl, rfl, (move_succeeds_iff h).2 ⟨hfault, fun hv => ?_⟩⟩
    cases hv
  obtain ⟨hsucceeds, hsame⟩ := detach_and_move h (by decide +kernel)
    (by decide +kernel : frayed.depth? (TenantId.ofNat 2).cell (TenantId.ofNat 2).cell = some 0)
    (by decide +kernel : frayed.depth? (TenantId.ofNat 4).cell (TenantId.ofNat 4).cell = some 0)
  exact ⟨hsucceeds.2 hok, hsame⟩

end Tenancy
