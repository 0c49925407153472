import Tenancy.Proofs.Soundness
import Tenancy.Proofs.Transactions

namespace Tenancy

/-!
# Three ways to add a leaf

A tenant that no row mentions yet can be added below its parent at once, or without a parent and be
moved there, or by the repair of its parent edge.  Each of the three has statements of its own for
the rows that the leaf inherits.  They come to the same on every table, however damaged it is.

* `Closure.subDepth?_plant`, `Closure.cut_plant` — a new leaf has nothing around it but itself.
* `Closure.moved_planted`, `Closure.adopt_rooted` — a move, and a repair, of a new leaf.
* `Hierarchy.insertFault?_root_moveFault?_iff`, `Hierarchy.tellable_planted_iff` — the second way is
  refused just if the first one is, unless the plan of the move cannot be told.
* `Store.leaf_ways` — the three ways, each in a transaction of its own.
-/

namespace Closure

variable {t : Closure} {parent leaf a d n : Int}

/-! ### The rows around a leaf -/

/-- Below a new leaf there is just the leaf. -/
theorem subDepth?_plant (hleaf : leaf ∉ t.ids) :
    (t.plant leaf).closure.subDepth? leaf d = if d = leaf then some 0 else none := by
  unfold subDepth?
  split
  · rfl
  · rename_i hd
    rw [depth?_plant_of_ne hd, (depth?_eq_none_of_notMem hleaf).1]

/-- The subtree of a fresh leaf is the leaf. -/
theorem inSubtree_plant (hleaf : leaf ∉ t.ids) :
    (t.plant leaf).closure.InSubtree leaf d ↔ d = leaf := by
  rw [inSubtree_iff_exists, subDepth?_plant hleaf]
  by_cases hd : d = leaf <;> simp [hd]

/-- A move of a new leaf has nothing to delete: the only row into it is its self row. -/
theorem cut_plant (hleaf : leaf ∉ t.ids) :
    (t.plant leaf).closure.cut leaf parent = (t.plant leaf).closure := by
  have hinto : ∀ a k, (t.plant leaf).closure.depth? a leaf = some k → a = leaf ∧ k = 0 := by
    intro a k hk
    rw [depth?_plant_leaf hleaf] at hk
    split at hk
    · exact ⟨‹_›, (Option.some.inj hk).symm⟩
    · cases hk
  refine cut_eq_self fun a d k hk => ?_
  rintro (⟨hd, ha, -⟩ | ⟨hd, hone, -⟩)
  · obtain rfl := (inSubtree_plant hleaf).1 hd
    exact ha (.inl (hinto a k hk).1)
  · subst hd
    exact Nat.zero_ne_one ((hinto a k hk).2.symm.trans hone)

/-- **Moving a new leaf** under a parent leaves the table that its insertion there leaves.  What is
    above the parent gets one level deeper, in two sums or in one. -/
theorem moved_planted (hstored : t.Stored) (hp : t.Plantable parent leaf) :
    (t.planted 0 leaf).moved leaf parent = t.planted parent leaf := by
  have hne := hp.parent_ne
  rw [planted_zero]
  by_cases hz : parent = 0
  · subst hz
    rw [moved_zero, cut_plant hp.leaf_notMem, planted_zero]
  · rw [moved_of_ne_zero hz, cut_plant hp.leaf_notMem]
    refine ext fun a d => ?_
    rw [depth?_attach, depth?_planted hp, placeDepth?, supDepth?_plant hne,
      subDepth?_plant hp.leaf_notMem]
    by_cases hd : d = leaf
    · subst hd
      rw [depth?_plant_leaf hp.leaf_notMem, if_pos rfl, if_pos rfl, if_neg hz]
      by_cases ha : a = d
      · -- the leaf is not among the ids above its parent
        have hnone : t.supDepth? parent d = none := by
          rw [supDepth?, if_neg hne.symm, (depth?_eq_none_of_notMem hp.leaf_notMem).1]
        simp [ha, hnone]
      · cases hsup : t.supDepth? parent a with
        | none => simp [ha]
        | some i => simp [ha, Cell.link_zero (hstored.holds_of_supDepth? hsup)]
    · rw [depth?_plant_of_ne hd, if_neg hd, if_neg hd]
      cases t.supDepth? parent a <;> simp

/-- **Repairing the parent edge** of a new leaf does the same, if the parent has a self row. -/
theorem adopt_rooted (hz : parent ≠ 0) (hself : t.joins parent parent = true) :
    (Hierarchy.rooted t parent leaf).adopt parent leaf = t.planted parent leaf := by
  obtain ⟨k, hk⟩ := joins_iff.1 hself
  unfold Hierarchy.rooted planted
  rw [plant_eq_self hk, if_neg hz]

/-- The subtree of a fresh leaf is listed as the leaf at depth 0. -/
theorem mem_subtree_plant {m : Kin} (hleaf : leaf ∉ t.ids) :
    m ∈ (t.plant leaf).closure.subtree leaf ↔ m = ⟨leaf, 0⟩ := by
  have hself : (t.plant leaf).closure.depth? leaf leaf = some 0 := by
    rw [depth?_plant_leaf hleaf, if_pos rfl]
  rw [mem_subtree_of_self hself]
  obtain ⟨n, k⟩ := m
  rw [Kin.mk.injEq]
  by_cases hn : n = leaf
  · subst hn
    rw [hself, Option.some.injEq, eq_comm]
    exact (and_iff_right rfl).symm
  · rw [depth?_plant_of_ne hn, (depth?_eq_none_of_notMem hleaf).1]
    exact iff_of_false (Option.some_ne_none k).symm fun he => hn he.1

end Closure

variable {s s' : Scope} {t : Closure} {parent id : TenantId} {verbose : Bool}

namespace Hierarchy

/-! ### A leaf without a parent, and its move -/

/-- A leaf can be added without a parent, and then be moved, just if it could be added at once. -/
theorem insertFault?_root_moveFault?_iff :
    insertFault? t .root id = none ∧ moveFault? (t.planted 0 id.cell) id parent = none ↔
      insertFault? t parent id = none := by
  rw [Closure.planted_zero]
  simp only [insertFault?_eq_none_iff, moveFault?_eq_none_iff, Closure.mem_ids_plant,
    TenantId.cell_inj]
  constructor
  · rintro ⟨⟨hid, -, -, habsent, -⟩, -, hparent, hout, -, hmem⟩
    -- the guard of the move against cycles is all that keeps the leaf from being its own parent
    have hne : parent ≠ id := by
      rcases hout with rfl | hout
      · exact hid.1.symm
      · exact fun he => hout ((Closure.inSubtree_plant habsent).2 (congrArg _ he))
    exact ⟨hid, hparent, hne, habsent, hmem.imp_right fun hm => hm.resolve_left hne⟩
  · rintro ⟨hid, hparent, hne, habsent, hmem⟩
    have hout : ¬(t.plant id.cell).closure.InSubtree id.cell parent.cell :=
      fun hin => hne (TenantId.cell_inj.1 ((Closure.inSubtree_plant habsent).1 hin))
    exact ⟨⟨hid, by decide, hid.1.symm, habsent, .inl trivial⟩, hid, hparent, .inr hout,
      .inl trivial, hmem.imp_right .inr⟩

/-- The plan of the move lists the leaf, and what is above the parent. -/
theorem tellable_planted_iff (h : insertFault? t parent id = none) :
    (t.planted 0 id.cell).Tellable id parent ↔
      (parent ≠ .root → ∀ m ∈ t.supertree parent.cell, m.Readable) := by
  obtain ⟨⟨-, hid⟩, -, hne, habsent, -⟩ := insertFault?_eq_none_iff.1 h
  have hne' : parent.cell ≠ id.cell := mt TenantId.cell_inj.1 hne
  have hsup : ∀ m, m ∈ (t.plant id.cell).closure.supertree parent.cell ↔
      m ∈ t.supertree parent.cell := fun m => by
    rw [Closure.mem_supertree, Closure.mem_supertree, Closure.depth?_plant_of_ne hne']
  rw [Closure.planted_zero]
  constructor
  · exact fun htell hz m hm => htell.supertree hz m ((hsup m).2 hm)
  · refine fun habove => ⟨fun m hm => ?_, fun hz m hm => habove hz m ((hsup m).1 hm)⟩
    rw [(Closure.mem_subtree_plant habsent).1 hm]
    exact Kin.readable_anchor hid

/-- A leaf is added without a parent, and then is moved; a verbose move tells its plan. -/
theorem insert_move_eq_ok_iff (h : s.Holds t) :
    (do insert .root id; move id parent verbose : Work Unit).on s = (.ok (), s') ↔
      insertFault? t parent id = none ∧ ∃ plan,
        forewarning (t.planted 0 id.cell) id parent verbose = .ok plan ∧
        s' = s.after ((t.planted 0 id.cell).moved id.cell parent.cell) (insertEvents t .root id ++
          (plan ++ [.told (moveApplied (t.planted 0 id.cell) id parent)])) := by
  rw [Work.bind_eq_ok_iff]
  constructor
  · rintro ⟨_, s₁, hfirst, hthen⟩
    obtain ⟨hfault₀, rfl⟩ := (insert_eq_ok_iff h).1 hfirst
    obtain ⟨hfault', plan, hplan, rfl⟩ := (move_eq_ok_iff h.after).1 hthen
    have hfault := insertFault?_root_moveFault?_iff.1 ⟨hfault₀, hfault'⟩
    exact ⟨hfault, plan, hplan, Scope.after_after⟩
  · rintro ⟨hfault, plan, hplan, rfl⟩
    obtain ⟨hfault₀, hfault'⟩ := insertFault?_root_moveFault?_iff.2 hfault
    exact ⟨(), _, (insert_eq_ok_iff h).2 ⟨hfault₀, rfl⟩,
      (move_eq_ok_iff h.after).2 ⟨hfault', plan, hplan, Scope.after_after.symm⟩⟩

/-- Inserting at the root and moving is refused as inserting is, except for a plan that cannot be
    read. -/
theorem insert_move_succeeds_iff (h : s.Holds t) :
    ((do insert .root id; move id parent verbose : Work Unit).on s).1 = .ok () ↔
      insertFault? t parent id = none ∧
        (verbose = true → parent ≠ .root → ∀ m ∈ t.supertree parent.cell, m.Readable) := by
  constructor
  · intro hok
    obtain ⟨hfault, plan, hplan, -⟩ := (insert_move_eq_ok_iff h).1 (Prod.ext hok rfl)
    exact ⟨hfault, fun hv =>
      (tellable_planted_iff hfault).1 (exists_forewarning_iff.1 ⟨plan, hplan⟩ hv)⟩
  · rintro ⟨hfault, habove⟩
    obtain ⟨plan, hplan⟩ : ∃ es, forewarning (t.planted 0 id.cell) id parent verbose = .ok es :=
      exists_forewarning_iff.2 fun hv => (tellable_planted_iff hfault).2 (habove hv)
    exact congrArg Prod.fst ((insert_move_eq_ok_iff h).2 ⟨hfault, plan, hplan, rfl⟩)

/-- A new leaf can be given a parent edge by a repair where it could be added, if the parent has a
    self row. -/
theorem repairPair_on_leaf (h : s.Holds t) (hfault : insertFault? t parent id = none)
    (hz : parent ≠ .root) (hself : t.joins parent.cell parent.cell = true) :
    ∃ report es, (repairPair id parent).on s
      = (.ok report, s.after (t.planted parent.cell id.cell) es) := by
  obtain ⟨hid, hparent, hne, habsent, -⟩ := insertFault?_eq_none_iff.1 hfault
  have hpair : pairFault? t id parent = none :=
    pairFault?_eq_none_iff.2 ⟨hid, ⟨hz, hparent⟩, hne.symm,
      (Closure.depth?_eq_none_of_notMem habsent).1⟩
  obtain ⟨k, hk⟩ := Closure.joins_iff.1 hself
  -- the parent edge is not there yet
  have hedge : (rooted t parent.cell id.cell).depth? parent.cell id.cell = none := by
    rw [rooted, Closure.plant_eq_self hk, Closure.depth?_plant_leaf habsent,
      if_neg (mt TenantId.cell_inj.1 hne)]
  rw [repairPair_on h, hpair, readDepth_of_none hedge,
    Closure.adopt_rooted (mt cell_eq_zero_iff.1 hz) hself]
  exact ⟨_, _, rfl⟩

end Hierarchy

open Hierarchy

/-- **Three ways to add a leaf.**  A leaf can be added below its parent, or without a parent and
    then be moved there within the same transaction: one succeeds just if the other does, and then
    both leave the same database, if the depths before are such as cells hold.  A verbose move asks
    for more, since it first lists what is above the parent, and fails if callers cannot have it.
    Where the leaf can be added, and the parent has a self row of whatever depth, the repair of the
    parent edge succeeds as well, and leaves the same database. -/
theorem Store.leaf_ways (verbose : Bool) {s : Store} (h : s.scope.Holds t) :
    let direct := transact (Hierarchy.insert parent id)
    let twice := transact (do Hierarchy.insert .root id; move id parent verbose : Work Unit)
    let pair := transact (Hierarchy.repairPair id parent)
    (verbose = false → ((twice.on s).1 = .ok () ↔ (direct.on s).1 = .ok ())) ∧
    (verbose = true → ((twice.on s).1 = .ok () ↔ (direct.on s).1 = .ok () ∧
      (parent ≠ .root → ∀ m ∈ t.supertree parent.cell, m.Readable))) ∧
    (t.Stored → (twice.on s).1 = .ok () → (twice.on s).2.database = (direct.on s).2.database) ∧
    ((direct.on s).1 = .ok () → parent ≠ .root → t.joins parent.cell parent.cell = true →
      ∃ report, (pair.on s).1 = .ok report ∧
        (pair.on s).2.database = (direct.on s).2.database) := by
  intro direct twice pair
  have hdirect : (direct.on s).1 = .ok () ↔
      s.beginFault? = none ∧ s.commitFault? = none ∧ insertFault? t parent id = none := by
    rw [transact_eq_ok_iff, insert_succeeds_iff h]
  have htwice : (twice.on s).1 = .ok () ↔ (direct.on s).1 = .ok () ∧
      (verbose = true → parent ≠ .root → ∀ m ∈ t.supertree parent.cell, m.Readable) := by
    rw [transact_eq_ok_iff, insert_move_succeeds_iff h, hdirect, and_assoc, and_assoc]
  have hkept : (direct.on s).1 = .ok () → (direct.on s).2.database
      = s.database.setClosure (t.planted parent.cell id.cell) := by
    intro hok
    obtain ⟨-, hrun⟩ := (insert_eq_ok_iff h).1 (Prod.ext (transact_eq_ok_iff.1 hok).2.2 rfl)
    exact (database_transact hok).trans (congrArg Scope.database hrun)
  refine ⟨fun hv => ?_, fun hv => ?_, fun hstored hok => ?_, fun hok hz hself => ?_⟩
  · rw [htwice]
    exact and_iff_left fun hv' => absurd (hv.symm.trans hv') (by decide)
  · rw [htwice]
    exact and_congr_right fun _ => forall_prop_of_true hv
  · obtain ⟨hfault, plan, -, hrun⟩ :=
      (insert_move_eq_ok_iff h).1 (Prod.ext (transact_eq_ok_iff.1 hok).2.2 rfl)
    rw [Closure.moved_planted hstored (plantable_of_insertFault? hfault)] at hrun
    rw [hkept (htwice.1 hok).1]
    exact (database_transact hok).trans (congrArg Scope.database hrun)
  · obtain ⟨hbegin, hcommit, hfault⟩ := hdirect.1 hok
    obtain ⟨report, es, hrun⟩ := repairPair_on_leaf h hfault hz hself
    have hpair : (pair.on s).1 = .ok report :=
      transact_eq_ok_iff.2 ⟨hbegin, hcommit, congrArg Prod.fst hrun⟩
    refine ⟨report, hpair, ?_⟩
    rw [hkept hok]
    exact (database_transact hpair).trans (congrArg (·.2.database) hrun)

/-- A table in which 1 and 2 are above each other, the self row of 2 is too deep, and a row leads to
    2 from an id that no tenant can have. -/
def overgrown : Closure := (Closure.empty.fill
  [⟨1, 2, 1⟩, ⟨2, 1, 4⟩, ⟨2, 2, 3⟩, ⟨-1, 2, 5⟩]).closure

/-- A leaf can be added below 2 in all three ways, unless the plan of the move is to be told. -/
theorem Store.leaf_ways_overgrown :
    let s : Store := { path := memoryPath, database := { table := some { closure := overgrown } } }
    let direct := transact (Hierarchy.insert (.ofNat 2) (.ofNat 9))
    let twice (verbose : Bool) := transact (do
      Hierarchy.insert .root (.ofNat 9); move (.ofNat 9) (.ofNat 2) verbose : Work Unit)
    let pair := transact (Hierarchy.repairPair (.ofNat 9) (.ofNat 2))
    ((twice false).on s).1 = .ok () ∧ ((twice false).on s).2.database = (direct.on s).2.database ∧
      (∃ report, (pair.on s).1 = .ok report ∧ (pair.on s).2.database = (direct.on s).2.database) ∧
      ¬((twice true).on s).1 = .ok () := by
  intro s direct twice pair
  have h : s.scope.Holds overgrown := ⟨rfl, rfl⟩
  have hfault : insertFault? overgrown (.ofNat 2) (.ofNat 9) = none := by decide +kernel
  have hok : (direct.on s).1 = .ok () :=
    transact_eq_ok_iff.2 ⟨rfl, rfl, (insert_succeeds_iff h).2 hfault⟩
  have hz : TenantId.ofNat 2 ≠ .root := by decide
  have hself : overgrown.joins (TenantId.ofNat 2).cell (TenantId.ofNat 2).cell = true := by
    decide +kernel
  have hfit : overgrown.Fits := by decide +kernel
  have hstray : overgrown.depth? (-1) (TenantId.ofNat 2).cell = some 5 := by decide +kernel
  obtain ⟨hquiet, -, hsame, hpair⟩ := leaf_ways false h
  obtain ⟨-, hloud, -, -⟩ := leaf_ways true h
  refine ⟨(hquiet rfl).2 hok, hsame hfit.stored ((hquiet rfl).2 hok), hpair hok hz hself,
    fun hverbose => ?_⟩
  -- the plan would list the id -1
  have habove := ((hloud rfl).1 hverbose).2 hz
  obtain ⟨⟨id, -, hcell⟩, -⟩ := habove ⟨-1, 5⟩ (Closure.mem_supertree.2 (.inr hstray))
  have hnonneg : 0 ≤ id.cell := Int.natCast_nonneg _
  rw [hcell] at hnonneg
  exact absurd hnonneg (by decide)

end Tenancy
