import Tenancy.Proofs.Relocation

namespace Tenancy

/-!
# Plans of moves

A verbose move tells its plan before it writes.  The plan is read by statements of its own, yet it
lists what the statements that write work on, and reading it changes nothing.  An id is listed twice
where its self row does not have depth 0: the least depth is the one that counts.

* `Closure.Legible` — all that the rows hold can be read; `Closure.Legible.tellable`.
* `Closure.nodup_subtree`, `Closure.nodup_supertree` — nothing is listed twice at one depth.
* `Foretells` — what a plan has to do with the table before a move, and with the one after it.
* `Hierarchy.foretells_moved` — the plan that is told foretells the table after the move.
* `Hierarchy.move_plan` — a verbose move does what a quiet one does, and tells its plan beside.
-/

variable {s : Scope} {t u : Closure} {tenant parent : TenantId} {sub sup : List Relative} {n : Int}

namespace Closure

/-! ### Tables that can be read -/

/-- All ids and depths that the rows hold are such as callers can have. -/
structure Legible (t : Closure) : Prop where
  ids : ∀ n ∈ t.ids, 0 ≤ n ∧ n ≤ TenantId.maxCell
  depths : ∀ r ∈ t, r.depth < UInt32.size

/-- Whether a table can be read shows in its rows. -/
instance (t : Closure) : Decidable t.Legible :=
  decidable_of_iff ((∀ n ∈ t.ids.toList, 0 ≤ n ∧ n ≤ TenantId.maxCell) ∧
      ∀ r ∈ t.rows, r.depth < UInt32.size)
    ⟨fun h => ⟨fun n hn => h.1 n (Std.ExtTreeSet.mem_toList.2 hn), fun r hr =>
      h.2 r (mem_rows.2 hr)⟩,
      fun h => ⟨fun n hn => h.ids n (Std.ExtTreeSet.mem_toList.1 hn),
        fun r hr => h.depths r (mem_rows.1 hr)⟩⟩

namespace Legible

variable (h : t.Legible)

include h

/-- What a row says of the id at one of its ends can be read. -/
theorem readable {m : Kin} {r : Row} (hr : r ∈ t) (hid : m.id ∈ t.ids)
    (hdepth : m.depth = r.depth) :
    m.Readable :=
  ⟨TenantId.exists_cell (h.ids m.id hid), hdepth ▸ h.depths r hr⟩

/-- The plan of any move can be told. -/
theorem tellable (ht : tenant.Storable) (hp : parent.Storable) : t.Tellable tenant parent where
  subtree m hm := by
    rcases mem_subtree.1 hm with rfl | hrow
    · exact Kin.readable_anchor ht
    · have hends := mem_ids_of_joins (joins_of_depth? hrow)
      exact h.readable (r := ⟨tenant.cell, m.id, m.depth⟩) hrow hends.2 rfl
  supertree _ m hm := by
    rcases mem_supertree.1 hm with rfl | hrow
    · exact Kin.readable_anchor hp
    · have hends := mem_ids_of_joins (joins_of_depth? hrow)
      exact h.readable (r := ⟨m.id, parent.cell, m.depth⟩) hrow hends.1 rfl

/-- Depths that callers can have are not too deep to be put together. -/
theorem placeFits {x y : Int} : t.PlaceFits x y := by
  have hwithin : t.Within (UInt32.size - 1) :=
    fun a d k hk => Nat.le_pred_of_lt (h.depths ⟨a, d, k⟩ hk)
  exact hwithin.placeFits (by decide)

end Legible

/-! ### The lists of a plan -/

/-- Anchoring repeats nothing that was not repeated before. -/
theorem nodup_anchor {kin : List Kin} (h : kin.Nodup) : (anchor n kin).Nodup := by
  unfold anchor
  split
  · exact h
  · rename_i hnot
    refine List.nodup_cons.2 ⟨fun hmem => hnot ?_, h⟩
    simpa using hmem

/-- A subtree lists its anchor twice where the self row is wrong, but not at one depth. -/
theorem nodup_subtree : (t.subtree n).Nodup :=
  nodup_anchor (Kin.nodup_of_sorted (t.below_sorted n))

theorem nodup_supertree : (t.supertree n).Nodup :=
  nodup_anchor (Kin.nodup_of_sorted (t.above_sorted n))

theorem inSubtree_iff_mem {d : Int} : t.InSubtree n d ↔ d ∈ (t.subtree n).map Kin.id := by
  rw [inSubtree_iff_any, List.any_eq_true, List.mem_map]
  simp only [beq_iff_eq]

end Closure

/-- Nearer, or as near and with the lower id: so a list in this order has no entry twice. -/
def Relative.Before (r r' : Relative) : Prop :=
  r.depth < r'.depth ∨ r.depth = r'.depth ∧ r.id.toNat < r'.id.toNat

/-- Entries that are kept by distance are in order. -/
theorem Relative.pairwise_before {rs : List Relative} {found : List Kin} (hnodup : found.Nodup)
    (h : rs.map Relative.kin = Hierarchy.byDistance found) : rs.Pairwise Relative.Before := by
  have hsorted : (rs.map Relative.kin).Pairwise Kin.Before :=
    h ▸ Hierarchy.pairwise_byDistance_of_nodup hnodup
  refine (List.pairwise_map.1 hsorted).imp fun hbefore => ?_
  exact hbefore.imp_right fun hsame => ⟨UInt32.toNat_inj.1 hsame.1, Int.ofNat_lt.1 hsame.2⟩

/-- A plan with the lists `sub` and `sup` foretells how a move leads from `t` to `u`. -/
structure Foretells (t u : Closure) (tenant parent : TenantId) (sub sup : List Relative) :
    Prop where
  sub_ordered : sub.Pairwise Relative.Before
  sup_ordered : sup.Pairwise Relative.Before
  /-- The tenant is listed at depth 0, whatever its row says, and what its rows lead to. -/
  mem_sub : ∀ m, m ∈ sub.map Relative.kin ↔
    m = ⟨tenant.cell, 0⟩ ∨ t.depth? tenant.cell m.id = some m.depth
  /-- So is the new parent with what leads to it, if there is one. -/
  mem_sup : ∀ m, m ∈ sup.map Relative.kin ↔
    parent ≠ .root ∧ (m = ⟨parent.cell, 0⟩ ∨ t.depth? m.id parent.cell = some m.depth)
  /-- Into the subtree lead the rows from the supertree, as long as the least depths say. -/
  into : (0 : Int) ∉ t.ids → ∀ a d k, d ∈ (sub.map Relative.kin).map Kin.id →
    a ∉ (sub.map Relative.kin).map Kin.id →
    (u.depth? a d = some k ↔ ∃ i j, IsLeast {i | (⟨a, i⟩ : Kin) ∈ sup.map Relative.kin} i ∧
      IsLeast {j | (⟨d, j⟩ : Kin) ∈ sub.map Relative.kin} j ∧ k = i + j + 1)

namespace Hierarchy

/-! ### Verbose moves -/

/-- **The plan foretells the move**: it lists the ids that the statements of the move join, by the
    rows that these read.  The depths that they write are exact. -/
theorem foretells_moved (hfault : moveFault? t tenant parent = none)
    (hfit : t.PlaceFits tenant.cell parent.cell)
    (hsub : sub.map Relative.kin = byDistance (t.subtree tenant.cell))
    (hsup : sup.map Relative.kin
      = if parent = .root then [] else byDistance (t.supertree parent.cell)) :
    Foretells t (t.moved tenant.cell parent.cell) tenant parent sub sup := by
  -- the plan is read from the rows before the move, and what the move does is said of the same rows
  have hids : ∀ n, n ∈ (sub.map Relative.kin).map Kin.id ↔ t.InSubtree tenant.cell n := fun n => by
    rw [hsub, Closure.inSubtree_iff_mem, List.mem_map, List.mem_map]
    simp only [mem_byDistance]
  refine ⟨Relative.pairwise_before Closure.nodup_subtree hsub, ?_, fun m => ?_, fun m => ?_, ?_⟩
  · by_cases hz : parent = .root
    · rw [if_pos hz, List.map_eq_nil_iff] at hsup
      rw [hsup]
      exact .nil
    · rw [if_neg hz] at hsup
      exact Relative.pairwise_before Closure.nodup_supertree hsup
  · rw [hsub, mem_byDistance, Closure.mem_subtree]
  · rw [hsup]
    by_cases hz : parent = .root
    · simp [hz]
    · rw [if_neg hz, mem_byDistance, Closure.mem_supertree, and_iff_right hz]
  · intro hzero a d k hd ha
    rw [hids] at hd ha
    have hleast : ∀ j, IsLeast {j | (⟨d, j⟩ : Kin) ∈ sub.map Relative.kin} j ↔
        t.subDepth? tenant.cell d = some j := fun j => by
      simp only [hsub, mem_byDistance]
      exact Closure.isLeast_subtree_iff
    by_cases hz : parent = .root
    · -- nothing is above the root, so that nothing leads in from outside
      have hnone : ∀ b, t.depth? b 0 = none := fun b => by
        refine Option.eq_none_iff_forall_ne_some.2 fun j hj => hzero ?_
        exact (Closure.mem_ids_of_joins (Closure.joins_of_depth? hj)).2
      have hcell : parent.cell = 0 := cell_eq_zero_iff.2 hz
      rw [hcell, Closure.depth?_moved_into_zero hnone hd ha, hsup, if_pos hz]
      simp [IsLeast]
    · have hcell : parent.cell ≠ 0 := mt cell_eq_zero_iff.1 hz
      have hout : ¬t.InSubtree tenant.cell parent.cell :=
        ((moveFault?_eq_none_iff.1 hfault).2.2.1).resolve_left hz
      rw [Closure.depth?_moved_into hcell hout hd ha, hfit.placeDepth?_eq_some_iff, hsup, if_neg hz]
      simp only [mem_byDistance, Closure.isLeast_supertree_iff, hleast]

/-- **A verbose move is a quiet one that tells its plan.**  On a table of which all rows can be
    read, both come to the same and leave the same table.  If the move is refused nothing is told;
    if not, the plan is told before the move that both tell of, and it foretells the table after
    it. -/
theorem move_plan (h : s.Holds t) (ht : t.Legible) (tenant parent : TenantId) :
    ∃ r verbose quiet, (move tenant parent true).on s = (r, verbose) ∧
      (move tenant parent false).on s = (r, quiet) ∧ verbose.database = quiet.database ∧
      (∀ e, r = .error e → verbose.trail = s.trail ∧ quiet.trail = s.trail) ∧
      (r = .ok () → ∃ u sub sup detached upserted, verbose.Holds u ∧
        quiet.trail = s.trail ++ [.told (.moveApplied tenant parent detached upserted)] ∧
        verbose.trail = s.trail ++ [.told (.movePlanned tenant parent sub sup),
          .told (.moveApplied tenant parent detached upserted)] ∧
        Foretells t u tenant parent sub sup) := by
  rw [move_on h, move_on h]
  cases hfault : moveFault? t tenant parent with
  | some e => exact ⟨_, s, s, rfl, rfl, rfl, fun _ _ => ⟨rfl, rfl⟩, fun he => (nomatch he)⟩
  | none =>
    obtain ⟨⟨-, htenant⟩, hparent, -⟩ := moveFault?_eq_none_iff.1 hfault
    -- every depth of a legible table can be told, so announcing the plan does not make the move
    -- fail
    obtain ⟨es, hes⟩ := exists_forewarning_iff.2 fun _ : true = true => ht.tellable htenant hparent
    obtain ⟨sub, sup, rfl, hsub, hsup⟩ := planned_of_planEvents hes
    rw [hes]
    refine ⟨_, _, _, rfl, rfl, rfl, fun e he => (nomatch he), fun _ => ?_⟩
    exact ⟨_, sub, sup, _, _, h.after, rfl, rfl, foretells_moved hfault ht.placeFits hsub hsup⟩

/-- When 2 is put under 4, both are listed twice, since their self rows are wrong.  As 5 is listed
    at depth 2, and 3 at depth 1, the row from 5 to 3 has depth 4 afterwards. -/
theorem move_plan_ragged :
    let s : Scope := { database := { table := some { closure := ragged } } }
    ∃ verbose quiet u sub sup, (move (.ofNat 2) (.ofNat 4) true).on s = (.ok (), verbose) ∧
      (move (.ofNat 2) (.ofNat 4) false).on s = (.ok (), quiet) ∧
      verbose.database = quiet.database ∧ verbose.Holds u ∧
      .told (.movePlanned (.ofNat 2) (.ofNat 4) sub sup) ∈ verbose.trail ∧
      ⟨2, 0⟩ ∈ sub.map Relative.kin ∧ ⟨2, 3⟩ ∈ sub.map Relative.kin ∧
      ⟨4, 1⟩ ∈ sup.map Relative.kin ∧ u.depth? 5 3 = some 4 := by
  intro s
  have h : s.Holds ragged := ⟨rfl, rfl⟩
  have ht : ragged.Legible := by
    have hids : ∀ n ∈ ragged.ids.toList, 0 ≤ n ∧ n ≤ TenantId.maxCell := by decide +kernel
    have hdepths : ∀ r ∈ ragged.rows, r.depth < UInt32.size := by decide +kernel
    exact ⟨fun n hn => hids n (Std.ExtTreeSet.mem_toList.2 hn),
      fun r hr => hdepths r (Closure.mem_rows.2 hr)⟩
  have hfault : moveFault? ragged (.ofNat 2) (.ofNat 4) = none := by decide +kernel
  have hok : ((move (.ofNat 2) (.ofNat 4) false).on s).1 = .ok () :=
    (move_succeeds_iff h).2 ⟨hfault, fun hverbose => nomatch hverbose⟩
  obtain ⟨r, verbose, quiet, hverbose, hquiet, hdb, -, htold⟩ :=
    move_plan h ht (.ofNat 2) (.ofNat 4)
  obtain rfl : r = .ok () := by rw [← hok, hquiet]
  obtain ⟨u, sub, sup, detached, upserted, hu, -, htrail, hplan⟩ := htold rfl
  have hsub : ∀ m, m ∈ sub.map Relative.kin ↔ m = ⟨2, 0⟩ ∨ ragged.depth? 2 m.id = some m.depth :=
    hplan.mem_sub
  have hsup : ∀ m, m ∈ sup.map Relative.kin ↔
      TenantId.ofNat 4 ≠ .root ∧ (m = ⟨4, 0⟩ ∨ ragged.depth? m.id 4 = some m.depth) := hplan.mem_sup
  have hfive : IsLeast {i | (⟨5, i⟩ : Kin) ∈ sup.map Relative.kin} 2 := by
    have hrow : ragged.depth? 5 4 = some 2 := by decide +kernel
    simp only [hsup, hrow]
    exact ⟨by decide, by rintro i ⟨-, he | he⟩ <;> simp_all⟩
  have hthree : IsLeast {j | (⟨3, j⟩ : Kin) ∈ sub.map Relative.kin} 1 := by
    have hrow : ragged.depth? 2 3 = some 1 := by decide +kernel
    simp only [hsub, hrow]
    exact ⟨by decide, by rintro j (he | he) <;> simp_all⟩
  have hzero : (0 : Int) ∉ ragged.ids := by decide +kernel
  have hin : (3 : Int) ∈ (sub.map Relative.kin).map Kin.id :=
    List.mem_map.2 ⟨⟨3, 1⟩, hthree.1, rfl⟩
  have hout : (5 : Int) ∉ (sub.map Relative.kin).map Kin.id := by
    have hrow : ragged.depth? 2 5 = none := by decide +kernel
    intro hmem
    obtain ⟨⟨n, j⟩, hm, rfl⟩ := List.mem_map.1 hmem
    rcases (hsub _).1 hm with he | hk
    · have hanchor : (5 : Int) = 2 := congrArg Kin.id he
      exact absurd hanchor (by decide)
    · cases hrow.symm.trans hk
  refine ⟨verbose, quiet, u, sub, sup, hverbose, hquiet, hdb, hu, ?_, ?_, ?_, ?_, ?_⟩
  · rw [htrail]
    exact List.mem_append_right _ List.mem_cons_self
  · exact (hsub _).2 (.inl rfl)
  · exact (hsub _).2 (.inr (by decide +kernel))
  · exact (hsup _).2 (by decide +kernel)
  · exact (hplan.into hzero 5 3 4 hin hout).2 ⟨2, 1, hfive, hthree, rfl⟩

end Hierarchy

end Tenancy
