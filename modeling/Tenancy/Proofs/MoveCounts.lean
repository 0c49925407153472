import Tenancy.Proofs.Counts
import Tenancy.Proofs.Reading
import Tenancy.Proofs.Refinement
import Tenancy.Proofs.Soundness

namespace Tenancy

/-!
# The counts of a move

A move tells how many rows it has deleted and how many it has written, added up from three
statements.  Where the rows order the ids, no row is deleted that is written again, none is written
twice, and none that stays is counted: a row that the cut takes away does not have the depth of the
new place, and the new place offers each pair one depth only.

* `Closure.Ordered.mem_cut_iff` — the cut leaves just the rows that are there before and after.
* `Closure.count_cut`, `Closure.Ordered.count_attach` — what the three statements count.
* `Hierarchy.moveApplied_eq` — what a move tells of itself, on a table that orders its ids.
* `Forest.moved_closure_eq_self_iff` — which moves leave the closure of a forest as it is.
* `Hierarchy.move_counts` — the counts that a successful move tells.
-/

namespace Closure

variable {t : Closure} {tenant parent a d n : Int} {k : Nat} {r : Row}

/-! ### The lists of a move -/

/-- Where an id has its self row, its subtree lists just what the rows from it name. -/
theorem subtree_of_self (h : t.depth? n n = some 0) : t.subtree n = t.below n := by
  have hself : (⟨n, 0⟩ : Kin) ∈ t.below n := mem_below.2 h
  unfold subtree anchor
  rw [if_pos (List.contains_iff_mem.2 hself)]

/-- Where the self row is at depth 0, a supertree is listed as the rows are. -/
theorem supertree_of_self (h : t.depth? n n = some 0) : t.supertree n = t.above n := by
  have hself : (⟨n, 0⟩ : Kin) ∈ t.above n := mem_above.2 h
  unfold supertree anchor
  rw [if_pos (List.contains_iff_mem.2 hself)]

/-- Lists that hold no id twice have one link for each pair. -/
theorem pairwise_links {sup sub : List Kin} (hsup : sup.Pairwise fun m n => m.id < n.id)
    (hsub : sub.Pairwise fun m n => m.id < n.id) :
    (links sup sub).Pairwise fun r s => r.pair ≠ s.pair := by
  rw [links, List.pairwise_flatMap]
  refine ⟨fun m _ => ?_, ?_⟩
  · rw [List.pairwise_map]
    exact hsub.imp fun hlt he => Int.ne_of_lt hlt (congrArg Pair.descendant he)
  · refine hsup.imp fun hlt r hr s hs he => ?_
    obtain ⟨m, -, rfl⟩ := List.mem_map.1 hr
    obtain ⟨n, -, rfl⟩ := List.mem_map.1 hs
    exact Int.ne_of_lt hlt (congrArg Pair.ancestor he)

/-! ### What the statements count -/

theorem rowSet_cut_subset : (t.cut tenant parent).rowSet ⊆ t.rowSet :=
  fun _ hr => mem_rowSet.2 (depth?_cut_eq_some_iff.1 (mem_rowSet.1 hr)).1

/-- The two deletions of a move together count the rows that are gone. -/
theorem count_cut : (t.detach tenant parent).count
      + ((t.detach tenant parent).closure.dropOtherParents tenant parent).count
    = (t.rowSet \ (t.cut tenant parent).rowSet).card := by
  have hdetach : (t.detach tenant parent).closure.size + (t.detach tenant parent).count = t.size :=
    size_remove
  have hdrop : (t.cut tenant parent).size
      + ((t.detach tenant parent).closure.dropOtherParents tenant parent).count
      = (t.detach tenant parent).closure.size := size_remove
  have hsub : (t.cut tenant parent).rowSet ⊆ t.rowSet := rowSet_cut_subset
  have hcut := Finset.card_sdiff_add_card_eq_card hsub
  rw [card_rowSet, card_rowSet] at hcut
  omega

namespace Ordered

variable (h : t.Ordered) (hm : t.Movable tenant parent)

include h hm

/-- On an ordered table the new place has one depth for each pair, the one that the move looks at
    when it spares a row. -/
theorem mem_links_iff : (⟨a, d, k⟩ : Row) ∈ links (t.ancestry parent) (t.subtree tenant) ↔
    t.linkDepth? tenant parent a d = some k := by
  have hsup : ∀ i, (⟨a, i⟩ : Kin) ∈ t.ancestry parent ↔ t.depth? a parent = some i := by
    intro i
    unfold ancestry
    split
    · rename_i hz
      rw [mem_above, hz]
    · rename_i hz
      exact mem_supertree_of_self (h.self parent (hm.parent_mem.resolve_left hz))
  have hsub : ∀ j, (⟨d, j⟩ : Kin) ∈ t.subtree tenant ↔ t.depth? tenant d = some j :=
    fun j => mem_subtree_of_self (h.self tenant hm.tenant_mem)
  simp only [mem_links, hsup, hsub, Closure.linkDepth?_eq_some_iff]

/-- **The cut** leaves just the rows that a move leaves as they are: none of those that it deletes
    comes back. -/
theorem mem_cut_iff : r ∈ t.cut tenant parent ↔ r ∈ t ∧ r ∈ t.moved tenant parent := by
  obtain ⟨a, d, k⟩ := r
  have hsub : ∀ n, t.InSubtree tenant n ↔ t.joins tenant n = true :=
    fun n => h.inSubtree_iff hm.tenant_mem
  rw [mem_iff, depth?_cut_eq_some_iff, mem_iff, mem_iff]
  refine and_congr_right fun hk => ⟨fun hcut => ?_, fun hmoved => ?_⟩
  · rw [h.depth?_moved hm]
    split
    · -- what the cut spares of the rows into the subtree has the depth of the new place
      rename_i he
      by_contra hne
      refine hcut (.inl ⟨(hsub d).2 he.1, fun hin => he.2 ((hsub a).1 hin), fun hlink => ?_⟩)
      exact hne ((h.mem_links_iff hm).1 hlink)
    · exact hk
  · rintro (⟨hd, ha, hlink⟩ | ⟨rfl, rfl, hne⟩)
    · -- the row would have the depth of the new place, and be spared
      have he : t.Enters tenant a d := ⟨(hsub d).1 hd, fun hin => ha ((hsub a).2 hin)⟩
      rw [h.depth?_moved hm, if_pos he] at hmoved
      exact hlink ((h.mem_links_iff hm).2 hmoved)
    · -- no id but the parent itself is at no distance from it
      have hguard : parent = 0 ∨ ¬t.InSubtree d parent := .inr fun hin => hm.apart ((hsub _).1 hin)
      obtain ⟨-, hzero⟩ := (eq_parent_or_of_edge hguard hmoved).resolve_left hne
      exact hne (h.pos _ _ hzero)

/-- The rows that the cut takes away are the ones that are gone after the move. -/
theorem rowSet_sdiff_cut :
    t.rowSet \ (t.cut tenant parent).rowSet = t.rowSet \ (t.moved tenant parent).rowSet := by
  ext r
  rw [Finset.mem_sdiff, Finset.mem_sdiff, mem_rowSet, mem_rowSet, mem_rowSet, h.mem_cut_iff hm]
  exact and_congr_right fun hr => not_congr (and_iff_right hr)

/-- Attaching counts the rows that are there after the move and were not there before. -/
theorem count_attach (hz : parent ≠ 0) : ((t.cut tenant parent).attach tenant parent).count
    = ((t.moved tenant parent).rowSet \ t.rowSet).card := by
  -- the self rows survive the cut, so that the lists hold no id twice
  have hkeep : ∀ n ∈ t.ids, (t.cut tenant parent).depth? n n = some 0 := fun n hn =>
    depth?_cut_eq_some_iff.2 ⟨h.self n hn, not_cuts_self⟩
  have hpairs : (links ((t.cut tenant parent).supertree parent)
      ((t.cut tenant parent).subtree tenant)).Pairwise fun r s => r.pair ≠ s.pair := by
    rw [subtree_of_self (hkeep tenant hm.tenant_mem),
      supertree_of_self (hkeep parent (hm.parent_mem.resolve_left hz))]
    exact pairwise_links (above_sorted _ parent) (below_sorted _ tenant)
  have hnew : (t.moved tenant parent).rowSet \ (t.cut tenant parent).rowSet
      = (t.moved tenant parent).rowSet \ t.rowSet := by
    ext r
    rw [Finset.mem_sdiff, Finset.mem_sdiff, mem_rowSet, mem_rowSet, mem_rowSet, h.mem_cut_iff hm]
    exact and_congr_right fun hr => not_congr (and_iff_left hr)
  rw [← hnew, moved_of_ne_zero hz]
  exact count_shorten hpairs

end Ordered

end Closure

/-! ### What is told -/

namespace Hierarchy

variable {t : Closure} {tenant parent : TenantId}

/-- **The counts of a move** on a table that orders its ids: the rows that are gone, and the new
    ones. -/
theorem moveApplied_eq (h : t.Ordered) (hm : t.Movable tenant.cell parent.cell) :
    moveApplied t tenant parent = .moveApplied tenant parent
      (t.rowSet \ (t.moved tenant.cell parent.cell).rowSet).card
      ((t.moved tenant.cell parent.cell).rowSet \ t.rowSet).card := by
  have hcut : (t.detach tenant.cell parent.cell).count
      + ((t.detach tenant.cell parent.cell).closure.dropOtherParents tenant.cell parent.cell).count
      = (t.rowSet \ (t.moved tenant.cell parent.cell).rowSet).card := by
    rw [Closure.count_cut, h.rowSet_sdiff_cut hm]
  have hattach : (if parent = .root then 0
      else ((t.cut tenant.cell parent.cell).attach tenant.cell parent.cell).count)
      = ((t.moved tenant.cell parent.cell).rowSet \ t.rowSet).card := by
    split
    · rename_i hz
      subst hz
      have hsub : (t.cut tenant.cell 0).rowSet ⊆ t.rowSet := Closure.rowSet_cut_subset
      show 0 = ((t.moved tenant.cell 0).rowSet \ t.rowSet).card
      rw [Closure.moved_zero, Finset.sdiff_eq_empty_iff_subset.2 hsub, Finset.card_empty]
    · rename_i hz
      exact h.count_attach hm (mt cell_eq_zero_iff.1 hz)
  rw [← hcut, ← hattach]
  rfl

end Hierarchy

/-! ### Forests -/

namespace Forest

variable {f : Forest} {tenant p : Int}

/-- **Moves that change nothing.** A move leaves the closure of a forest as it is if and only if it
    puts the tenant where it is. -/
theorem moved_closure_eq_self_iff (hcard : f.nodes.card < 2 ^ 32) (h : f.Graftable tenant p) :
    f.closure.moved tenant p = f.closure ↔ f.parent tenant = link p := by
  have hnew : (f.graft tenant p h).parent tenant = link p := Function.update_self ..
  rw [← closure_graft (card_le_maxCell hcard) h]
  constructor
  · intro heq
    -- the parent edges are among the rows
    rw [← hnew]
    refine Option.ext fun q => ?_
    rw [parent_eq_some_iff, parent_eq_some_iff, ← depth?_closure_eq_some_iff,
      ← depth?_closure_eq_some_iff, heq]
  · intro hp
    have hparent : (f.graft tenant p h).parent = f.parent := by
      show Function.update f.parent tenant (link p) = f.parent
      rw [← hp, Function.update_eq_self]
    refine eq_closure_iff.2 fun a d k => ?_
    rw [depth?_closure_eq_some_iff, up, up, hparent]
    rfl

end Forest

namespace Hierarchy

variable {s s' : Scope} {f : Forest} {tenant parent : TenantId} {verbose : Bool}

/-- **The counts of a move are exact.**  When a move succeeds on the closure of a forest:

    * it tells once, at its end, of what it has done, with the number of rows that were there before
      and are gone, and the number of those that are there now and were not before;
    * both numbers are 0 if and only if the new parent is the one that the tenant has, or the tenant
      has none and is given none. -/
theorem move_counts (h : s.Holds f.closure) (hcard : f.nodes.card < 2 ^ 32)
    (hok : (move tenant parent verbose).on s = (.ok (), s')) :
    ∃ u plan, s'.Holds u ∧
      s'.trail = s.trail ++ (plan ++ [.told (.moveApplied tenant parent
        (f.closure.rowSet \ u.rowSet).card (u.rowSet \ f.closure.rowSet).card)]) ∧
      (∀ id p m n, .told (.moveApplied id p m n) ∉ plan) ∧
      ((f.closure.rowSet \ u.rowSet).card = 0 ∧ (u.rowSet \ f.closure.rowSet).card = 0 ↔
        f.parent tenant.cell = Forest.link parent.cell) := by
  obtain ⟨hfault, plan, hplan, rfl⟩ := (move_eq_ok_iff h).1 hok
  have hord := Forest.ordered_closure (f := f)
  have hm := movable_of_moveFault? hord.rootless hfault
  refine ⟨_, plan, h.after, ?_, fun id p m n hmem => ?_, ?_⟩
  · rw [moveApplied_eq hord hm]
    rfl
  · obtain ⟨sub, sup, he⟩ := eq_planned_of_mem hplan hmem
    cases he
  · rw [← Forest.moved_closure_eq_self_iff hcard (Forest.graftable_of_closure hm),
      ← Closure.rowSet_inj, Finset.card_eq_zero, Finset.card_eq_zero,
      Finset.sdiff_eq_empty_iff_subset, Finset.sdiff_eq_empty_iff_subset,
        ← Finset.Subset.antisymm_iff, eq_comm]

/-- Tenant 2, with 3 below it, goes from 1 to 4, which lies below 1 as well. -/
theorem move_counts_of_four :
    let f := Forest.empty.afterAll [.insert (.ofNat 0) (.ofNat 1), .insert (.ofNat 1) (.ofNat 2),
      .insert (.ofNat 2) (.ofNat 3), .insert (.ofNat 1) (.ofNat 4)]
    let s : Scope := { database := { table := some { closure := f.closure } } }
    let s' := ((move (.ofNat 2) (.ofNat 4) false).on s).2
    ∃ u lost gained, s'.Holds u ∧
      .told (.moveApplied (.ofNat 2) (.ofNat 4) lost gained) ∈ s'.trail ∧
      lost = (f.closure.rowSet \ u.rowSet).card ∧ gained = (u.rowSet \ f.closure.rowSet).card ∧
      ¬(lost = 0 ∧ gained = 0) := by
  intro f s s'
  have h : s.Holds f.closure := ⟨rfl, rfl⟩
  have hcard : f.nodes.card < 2 ^ 32 := by
    have hle := Forest.card_afterAll_le (f := .empty) [.insert (.ofNat 0) (.ofNat 1),
      .insert (.ofNat 1) (.ofNat 2), .insert (.ofNat 2) (.ofNat 3), .insert (.ofNat 1) (.ofNat 4)]
    exact Nat.lt_of_le_of_lt hle (by decide)
  have hok : ((move (.ofNat 2) (.ofNat 4) false).on s).1 = .ok () := by
    have hfault : f.moveFault? (.ofNat 2) (.ofNat 4) = none := by decide +kernel
    rw [move_on h, Forest.moveFault?_closure hcard, hfault]
    rfl
  have hrun : (move (.ofNat 2) (.ofNat 4) false).on s = (.ok (), s') := Prod.ext hok rfl
  obtain ⟨u, plan, hu, htrail, -, hzero⟩ := move_counts h hcard hrun
  have htold : .told (.moveApplied (.ofNat 2) (.ofNat 4) (f.closure.rowSet \ u.rowSet).card
      (u.rowSet \ f.closure.rowSet).card) ∈ s'.trail := by
    rw [htrail]
    simp
  -- the parent was 1
  exact ⟨u, _, _, hu, htold, rfl, rfl, mt hzero.1 (by decide +kernel)⟩

end Hierarchy

end Tenancy
