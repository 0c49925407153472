import Tenancy.Proofs.Refinement

namespace Tenancy

/-!
# Two ways to a new parent

A subtree can be moved in one step, or be detached, given its new parent edge, and be left to a
repair of the whole table.  On the closure of a forest both lead to the same table: what the repair
of one parent edge leaves out, the completion of the table finds again, and at the same depths.

* `Forest.closure_repaired_adopt` — a repair completes a subtree that was given a new parent edge.
* `Forest.graft_graft` — detaching before a move makes no difference.
* `Hierarchy.detach_repairPair_repairAll` — the two ways agree.
-/

open Hierarchy
open TenantId (maxCell)

namespace Forest

variable {f g : Forest} {tenant p a d m n : Int} {i j k : Nat}

/-! ### A subtree with a new parent edge -/

/-- A forest with more parents has more ancestors. -/
theorem up_mono (h : ∀ n m, f.parent n = some m → g.parent n = some m) (hk : f.up k n = some a) :
    g.up k n = some a := by
  induction k generalizing n with
  | zero => exact hk
  | succ k ih =>
    obtain ⟨m, hm, ha⟩ := Option.bind_eq_some_iff.1 (up_succ ▸ hk)
    rw [up_succ, h n m hm]
    exact ih ha

/-- After a move to a parent, that is the parent. -/
theorem parent_graft_self (h : f.Graftable tenant p) (hp : p ≠ 0) :
    (f.graft tenant p h).parent tenant = some p := by
  show Function.update f.parent tenant (link p) tenant = _
  rw [Function.update_self, link, if_neg hp]

/-- After a detach there is no parent. -/
theorem parent_graft_root (h : f.Graftable tenant 0) :
    (f.graft tenant 0 h).parent tenant = none := by
  show Function.update f.parent tenant (link 0) tenant = _
  rw [Function.update_self]
  rfl

theorem parent_graft_of_ne (h : f.Graftable tenant p) (hn : n ≠ tenant) :
    (f.graft tenant p h).parent n = f.parent n := Function.update_of_ne hn _ _

/-- A root that gets a parent loses nobody. -/
theorem up_graft_of_root (h : f.Graftable tenant p) (hroot : f.parent tenant = none)
    (hk : f.up k n = some a) : (f.graft tenant p h).up k n = some a := by
  refine up_mono (fun n m hm => ?_) hk
  have hne : n ≠ tenant := by
    rintro rfl
    rw [hroot] at hm
    cases hm
  rw [parent_graft_of_ne h hne, hm]

/-- The rows that adopting a root leaves: those of the forest, and for the root itself those of its
    new parent, one deeper. -/
theorem depth?_adopt_closure (hcard : f.nodes.card ≤ maxCell) (h : f.Graftable tenant p)
    (hp : p ≠ 0)
    (hroot : f.parent tenant = none) :
    (f.closure.adopt p tenant).depth? a d
      = if d = tenant ∧ a ≠ tenant then (f.closure.depth? a p).map (· + 1)
        else f.closure.depth? a d := by
  have hpar : p ∈ f.nodes := h.parent_mem.resolve_left hp
  have hne : p ≠ tenant := fun he => h.apart 0 (congrArg some he)
  have hnone : ∀ b, b ≠ tenant → f.closure.depth? b tenant = none := by
    intro b hb
    refine Option.eq_none_iff_forall_ne_some.2 fun k hk => ?_
    obtain ⟨-, hup⟩ := depth?_closure_eq_some_iff.1 hk
    cases k with
    | zero => exact hb (Option.some.inj hup).symm
    | succ k =>
      rw [up_succ, hroot] at hup
      cases hup
  have hself : f.closure.depth? p p = some 0 := ordered_closure.self p (mem_ids_closure.2 hpar)
  rw [Closure.depth?_adopt hne]
  by_cases hd : d = tenant
  · subst hd
    by_cases ha : a = p
    · subst ha
      simp [hne, hnone a hne, hself]
    · by_cases had : a = d
      · subst had
        simp [ha]
      · simp [ha, had, hnone a had, (fits_closure hcard).map_sum_one]
  · simp [hd]

/-- Each row that adopting a root leaves is one of the forest in which the root has its parent. -/
theorem up_of_depth?_adopt (hcard : f.nodes.card ≤ maxCell) (h : f.Graftable tenant p) (hp : p ≠ 0)
    (hroot : f.parent tenant = none)
    (hk : (f.closure.adopt p tenant).depth? a d = some k) :
    d ∈ f.nodes ∧ (f.graft tenant p h).up k d = some a := by
  rw [depth?_adopt_closure hcard h hp hroot] at hk
  split at hk
  · rename_i hd
    obtain ⟨i, hi, rfl⟩ := Option.map_eq_some_iff.1 hk
    obtain ⟨-, hup⟩ := depth?_closure_eq_some_iff.1 hi
    refine ⟨hd.1 ▸ h.tenant_mem, ?_⟩
    rw [up_succ, hd.1, parent_graft_self h hp]
    exact up_graft_of_root h hroot hup
  · obtain ⟨hd, hup⟩ := depth?_closure_eq_some_iff.1 hk
    exact ⟨hd, up_graft_of_root h hroot hup⟩

/-- Each parent edge of the forest in which the root has its parent is a row that adopting the root
    leaves. -/
theorem depth?_adopt_of_parent (hcard : f.nodes.card ≤ maxCell) (h : f.Graftable tenant p)
    (hp : p ≠ 0) (hroot : f.parent tenant = none) (hm : (f.graft tenant p h).parent d = some m) :
    (f.closure.adopt p tenant).depth? m d = some 1 := by
  rw [depth?_adopt_closure hcard h hp hroot]
  by_cases hd : d = tenant
  · rw [hd, parent_graft_self h hp, Option.some.injEq] at hm
    subst hm
    have hne : p ≠ tenant := fun he => h.apart 0 (congrArg some he)
    have hself := ordered_closure.self p (mem_ids_closure.2 (h.parent_mem.resolve_left hp))
    rw [if_pos ⟨hd, hne⟩, hself]
    rfl
  · rw [parent_graft_of_ne h hd] at hm
    rw [if_neg fun he => hd he.1, depth?_closure_eq_some_iff]
    refine ⟨(f.mem_of_parent d m hm).1, ?_⟩
    rw [up_succ, hm]
    rfl

/-- Distances in a forest add up, so that completing the table cannot lead to any other depth. -/
theorem up_of_depth?_repaired (hcard : f.nodes.card ≤ maxCell) (h : f.Graftable tenant p)
    (hp : p ≠ 0) (hroot : f.parent tenant = none) :
    ∀ a d k, (f.closure.adopt p tenant).repaired.depth? a d = some k →
      d ∈ f.nodes ∧ (f.graft tenant p h).up k d = some a := by
  refine Closure.repaired_induction ?_ ?_ fun a d k _ => up_of_depth?_adopt hcard h hp hroot
  · rintro a b c i j - - - ⟨-, hi⟩ ⟨hc, hj⟩
    have hup : (f.graft tenant p h).up (j + i) c = some a := up_trans hj hi
    -- there are no more levels than ids, so that the sum is exact
    have hlt : j + i < f.nodes.card := lt_card_of_up (f := f.graft tenant p h) hc hup
    rw [Cell.sum_eq (by omega), Nat.add_comm]
    exact ⟨hc, hup⟩
  · intro n hn
    refine ⟨?_, rfl⟩
    obtain ⟨m, hm | hm⟩ := Closure.mem_ids_iff_joins.1 hn
    · obtain ⟨k, hk⟩ := Closure.joins_iff.1 hm
      obtain ⟨hmem, hup⟩ := up_of_depth?_adopt hcard h hp hroot hk
      have hnode : n ∈ (f.graft tenant p h).nodes := mem_of_up hmem hup
      exact hnode
    · obtain ⟨k, hk⟩ := Closure.joins_iff.1 hm
      exact (up_of_depth?_adopt hcard h hp hroot hk).1

/-- The way up from `d`, edge by edge, is in the completed table. -/
theorem joins_repaired_of_up (hcard : f.nodes.card ≤ maxCell) (h : f.Graftable tenant p)
    (hp : p ≠ 0)
    (hroot : f.parent tenant = none) (hd : d ∈ f.nodes)
      (ha : (f.graft tenant p h).up k d = some a) :
    (f.closure.adopt p tenant).repaired.joins a d = true := by
  induction k generalizing d with
  | zero =>
    obtain rfl := Option.some.inj ha
    have hself : (f.closure.adopt p tenant).depth? d d = some 0 := by
      rw [depth?_adopt_closure hcard h hp hroot, if_neg fun he => he.2 he.1]
      exact ordered_closure.self d (mem_ids_closure.2 hd)
    exact Closure.joins_repaired (Closure.joins_of_depth? hself)
  | succ k ih =>
    rw [up_succ] at ha
    obtain ⟨m, hm, hma⟩ := Option.bind_eq_some_iff.1 ha
    have hmem : m ∈ f.nodes := ((f.graft tenant p h).mem_of_parent d m hm).2
    have hedge : (f.closure.adopt p tenant).repaired.joins m d = true :=
      Closure.joins_repaired (Closure.joins_of_depth? (depth?_adopt_of_parent hcard h hp hroot hm))
    have hpos : ∀ a d, (f.closure.adopt p tenant).depth? a d = some 0 → a = d :=
      fun a d hk => (Option.some.inj (up_of_depth?_adopt hcard h hp hroot hk).2).symm
    exact Closure.joins_trans_repaired hpos (ih hmem hma) hedge

/-- **Repairing what was adopted.** The repair of the whole table after a root was given a parent
    edge makes the closure of the forest in which it has that parent. -/
theorem closure_repaired_adopt (hcard : f.nodes.card ≤ maxCell) (h : f.Graftable tenant p)
    (hp : p ≠ 0) (hroot : f.parent tenant = none) :
    (f.closure.adopt p tenant).repaired = (f.graft tenant p h).closure := by
  refine eq_closure_iff.2 fun a d k => ⟨up_of_depth?_repaired hcard h hp hroot a d k, ?_⟩
  rintro ⟨hd, ha⟩
  obtain ⟨j, hj⟩ := Closure.joins_iff.1 (joins_repaired_of_up hcard h hp hroot hd ha)
  have hup : (f.graft tenant p h).up j d = some a :=
    (up_of_depth?_repaired hcard h hp hroot a d j hj).2
  rw [hj, up_inj hup ha]

/-! ### Detaching first -/

/-- A subtree can always be detached. -/
theorem Graftable.detach (h : f.Graftable tenant p) : f.Graftable tenant 0 :=
  ⟨h.tenant_mem, .inl rfl, fun k hk => not_below_root h.tenant_mem ⟨k, hk⟩⟩

/-- What can be moved can be detached first. -/
theorem Graftable.after_detach (h : f.Graftable tenant p) :
    (f.graft tenant 0 h.detach).Graftable tenant p := by
  refine ⟨h.tenant_mem, h.parent_mem, fun k => ?_⟩
  rw [up_graft_above h.detach h.apart]
  exact h.apart k

/-- Detaching a subtree before it is put elsewhere makes no difference. -/
theorem graft_graft (h : f.Graftable tenant p) :
    (f.graft tenant 0 h.detach).graft tenant p h.after_detach = f.graft tenant p h := by
  unfold graft
  simp only [Function.update_idem]

end Forest

namespace Hierarchy

variable {f : Forest} {s : Scope} {tenant parent : TenantId} {verbose : Bool}

/-! ### The operations -/

/-- A move on the closure of a forest that nothing speaks against. -/
theorem move_on_closure (h : s.Holds f.closure) (hcard : f.nodes.card < 2 ^ 32)
    (hnamed : verbose = true → f.Named) (ht : tenant.Storable) (hp : parent.Storable)
    (hm : f.Graftable tenant.cell parent.cell) :
    ∃ es, (move tenant parent verbose).on s
      = (.ok (), s.after (f.graft tenant.cell parent.cell hm).closure es) := by
  have hfault : moveFault? f.closure tenant parent = none := by
    rw [Forest.moveFault?_closure hcard, Forest.moveFault?_eq_none_iff]
    exact ⟨ht, hp, hm⟩
  obtain ⟨es, hes⟩ := Forest.exists_forewarning verbose hcard hnamed hm
  rw [move_on h, hfault, hes, Forest.closure_graft (Forest.card_le_maxCell hcard) hm]
  exact ⟨_, rfl⟩

/-- The repair of a parent edge gives a root its new parent. -/
theorem repairPair_on_closure (h : s.Holds f.closure) (ht : tenant.Storable) (hp : parent.Storable)
    (hm : f.Graftable tenant.cell parent.cell) (hz : parent ≠ .root)
    (hroot : f.parent tenant.cell = none) :
    ∃ r es, (repairPair tenant parent).on s
      = (.ok r, s.after (f.closure.adopt parent.cell tenant.cell) es) := by
  have hz' : parent.cell ≠ 0 := fun he => hz (cell_eq_zero_iff.1 he)
  have hpar : parent.cell ∈ f.nodes := hm.parent_mem.resolve_left hz'
  have htz : tenant ≠ .root := fun he => f.rootless (cell_eq_zero_iff.2 he ▸ hm.tenant_mem)
  have hne : tenant ≠ parent := fun he => hm.apart 0 (congrArg some (he ▸ rfl))
  have hnone : f.closure.depth? tenant.cell parent.cell = none :=
    Option.eq_none_iff_forall_ne_some.2 fun k hk =>
      hm.apart k (Forest.depth?_closure_eq_some_iff.1 hk).2
  have hfault : pairFault? f.closure tenant parent = none := by
    rw [pairFault?, tenantFault?_eq_none_iff.2 ⟨htz, ht⟩, tenantFault?_eq_none_iff.2 ⟨hz, hp⟩,
      if_neg hne, reachFault?_eq_none_iff.2 hnone]
    rfl
  have hself : ∀ n ∈ f.nodes, f.closure.depth? n n = some 0 :=
    fun n hn => Forest.ordered_closure.self n (Forest.mem_ids_closure.2 hn)
  have hrooted : rooted f.closure parent.cell tenant.cell = f.closure := by
    rw [rooted, Closure.plant_eq_self (hself _ hpar), Closure.plant_eq_self (hself _ hm.tenant_mem)]
  -- the root has no row from its new parent yet
  have hread : readDepth f.closure parent tenant = .ok none := by
    have hedge : f.closure.depth? parent.cell tenant.cell = none := by
      refine Option.eq_none_iff_forall_ne_some.2 fun k hk => ?_
      obtain ⟨-, hup⟩ := Forest.depth?_closure_eq_some_iff.1 hk
      cases k with
      | zero => exact hne (TenantId.cell_inj.1 (Option.some.inj hup))
      | succ k =>
        rw [Forest.up_succ, hroot] at hup
        cases hup
    exact readDepth_of_none hedge
  rw [repairPair_on h, hfault, hrooted, hread]
  exact ⟨_, _, rfl⟩

/-- A repair of the whole table completes the subtree of a root with a new parent edge. -/
theorem repairAll_on_adopt {x p : Int} (hcard : f.nodes.card ≤ maxCell)
    (h : s.Holds (f.closure.adopt p x)) (hm : f.Graftable x p) (hp : p ≠ 0)
    (hroot : f.parent x = none) :
    ∃ r es, repairAll.on s = (.ok r, s.after (f.graft x p hm).closure es) := by
  rw [repairAll_on h, Forest.closure_repaired_adopt hcard hm hp hroot]
  exact ⟨_, _, rfl⟩

/-- **Two ways to a new parent.** On the closure of a forest, moving a subtree under a parent that
    does not lie in it leads to the same database as detaching the subtree, repairing its parent
    edge, and repairing the whole table.  None of these steps fails. -/
theorem detach_repairPair_repairAll {v₁ v₂ : Bool} (h : s.Holds f.closure)
    (hcard : f.nodes.card < 2 ^ 32) (hnamed : v₁ = true ∨ v₂ = true → f.Named)
    (ht : tenant.Storable) (hp : parent.Storable) (htenant : tenant.cell ∈ f.nodes)
    (hparent : parent.cell ∈ f.nodes) (hap : ¬f.Below tenant.cell parent.cell) :
    ∃ report s₁ s₂,
      (do
        move tenant .root v₁
        let _ ← repairPair tenant parent
        repairAll : Work RepairReport).on s = (.ok report, s₁) ∧
      (move tenant parent v₂).on s = (.ok (), s₂) ∧ s₁.database = s₂.database := by
  have hz : parent ≠ .root := fun he => f.rootless (cell_eq_zero_iff.2 he ▸ hparent)
  have hz' : parent.cell ≠ 0 := fun he => hz (cell_eq_zero_iff.1 he)
  have hm : f.Graftable tenant.cell parent.cell :=
    ⟨htenant, .inr hparent, fun k hk => hap ⟨k, hk⟩⟩
  have hroot : TenantId.root.Storable := by decide
  -- the long way: the detached tenant is a root until it gets its parent edge
  obtain ⟨es₁, hdetach⟩ := move_on_closure h hcard (fun hv => hnamed (.inl hv)) ht hroot hm.detach
  have hdetached : (s.after (f.graft tenant.cell 0 hm.detach).closure es₁).Holds _ := h.after
  have hroot₀ := Forest.parent_graft_root hm.detach
  obtain ⟨r, es₂, hpair⟩ := repairPair_on_closure hdetached ht hp hm.after_detach hz hroot₀
  rw [Scope.after_after] at hpair
  have hadopted : (s.after ((f.graft tenant.cell 0 hm.detach).closure.adopt parent.cell tenant.cell)
      (es₁ ++ es₂)).Holds _ := h.after
  have hlevels : (f.graft tenant.cell 0 hm.detach).nodes.card ≤ maxCell :=
    Forest.card_le_maxCell hcard
  obtain ⟨report, es₃, hrepair⟩ := repairAll_on_adopt hlevels hadopted hm.after_detach hz' hroot₀
  rw [Forest.graft_graft hm, Scope.after_after] at hrepair
  -- the short way
  obtain ⟨es, hmove⟩ := move_on_closure h hcard (fun hv => hnamed (.inr hv)) ht hp hm
  exact ⟨report, _, _, (Work.on_bind_ok hdetach).trans ((Work.on_bind_ok hpair).trans hrepair),
    hmove, rfl⟩

/-- Tenant 2, with 3 below it, goes from 1 to 4. -/
theorem detach_repairPair_repairAll_of_four :
    let f := Forest.empty.afterAll [.insert (.ofNat 0) (.ofNat 1), .insert (.ofNat 1) (.ofNat 2),
      .insert (.ofNat 2) (.ofNat 3), .insert (.ofNat 0) (.ofNat 4)]
    let s : Scope := { database := { table := some { closure := f.closure } } }
    ∃ report s₁ s₂,
      (do
        move (.ofNat 2) .root false
        let _ ← repairPair (.ofNat 2) (.ofNat 4)
        repairAll : Work RepairReport).on s = (.ok report, s₁) ∧
      (move (.ofNat 2) (.ofNat 4) false).on s = (.ok (), s₂) ∧ s₁.database = s₂.database := by
  intro f s
  have hcard : f.nodes.card < 2 ^ 32 := by
    have hle := Forest.card_afterAll_le (f := .empty) [.insert (.ofNat 0) (.ofNat 1),
      .insert (.ofNat 1) (.ofNat 2), .insert (.ofNat 2) (.ofNat 3), .insert (.ofNat 0) (.ofNat 4)]
    exact Nat.lt_of_le_of_lt hle (by decide)
  have hquiet : false = true ∨ false = true → f.Named := fun hv => by simp at hv
  exact detach_repairPair_repairAll (f := f) (s := s) ⟨rfl, rfl⟩ hcard hquiet (by decide)
    (by decide)
    (by decide +kernel) (by decide +kernel) (by decide +kernel)

end Hierarchy

end Tenancy
