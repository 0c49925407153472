import Mathlib.Data.Finset.Card
import Tenancy.Proofs.Statements

namespace Tenancy.Closure

/-!
# What statements count

The count of a statement is a number that it has added up row by row; a row that it has written
twice, or deleted and written again, would be counted twice.  Here the counts are compared with the
table before and the table after.

* `rowSet` — the rows as a finite set, with as many members as the table has rows.
* `size_fill`, `size_lower`, `size_remove` — the counts, and the number of rows that is left.
* `count_remove`, `count_shorten` — the counts as the number of rows that are gone, or that are new.
-/

variable {t u : Closure} {rows : List Row} {gone : Row → Bool} {r : Row}

/-! ### The rows as a set -/

/-- No row is listed twice. -/
theorem nodup_rows : t.rows.Nodup :=
  t.rows_ordered.imp fun hlt he => by
    rw [he, Std.compare_self] at hlt
    cases hlt

/-- The rows of a table, without their order. -/
def rowSet (t : Closure) : Finset Row := t.rows.toFinset

@[simp] theorem mem_rowSet : r ∈ t.rowSet ↔ r ∈ t := by
  rw [rowSet, List.mem_toFinset, mem_rows]

/-- The size of a table is the number of its rows. -/
theorem card_rowSet : t.rowSet.card = t.size := by
  rw [rowSet, List.toFinset_card_of_nodup nodup_rows, rows, List.length_map,
    Std.ExtTreeMap.length_toList]
  rfl

/-- Tables with the same rows are equal. -/
theorem rowSet_inj : t.rowSet = u.rowSet ↔ t = u := by
  constructor
  · intro h
    refine ext fun a d => Option.ext fun k => ?_
    have hrow : (⟨a, d, k⟩ : Row) ∈ t.rowSet ↔ (⟨a, d, k⟩ : Row) ∈ u.rowSet := by rw [h]
    rwa [mem_rowSet, mem_rowSet] at hrow
  · rintro rfl
    rfl

/-! ### Numbers of rows -/

/-- A row for a new pair makes the table larger by one. -/
theorem size_put_of_lacks (h : t.lacks r = true) : (t.put r).size = t.size + 1 := by
  have hnew : t.depths[r.pair]? = none := lacks_iff.1 h
  unfold put size
  rw [Std.ExtTreeMap.size_insert, ← Std.ExtTreeMap.isSome_getElem?_eq_contains, hnew]
  rfl

/-- A row for a known pair leaves the size. -/
theorem size_put_of_exceeds (h : t.exceeds r = true) : (t.put r).size = t.size := by
  obtain ⟨k, hk, -⟩ := exceeds_iff.1 h
  have hold : t.depths[r.pair]? = some k := hk
  unfold put size
  rw [Std.ExtTreeMap.size_insert, ← Std.ExtTreeMap.isSome_getElem?_eq_contains, hold]
  rfl

/-- Filling counts the rows that it adds. -/
theorem size_fill : (t.fill rows).closure.size = t.size + (t.fill rows).count := by
  refine write_induction (fun w => w.closure.size = t.size + w.count) rfl fun w r _ hacc hw => ?_
  rw [size_put_of_lacks hacc, hw]
  rfl

/-- Lowering adds no row. -/
theorem size_lower : (t.lower rows).closure.size = t.size :=
  write_induction (fun w => w.closure.size = t.size) rfl fun _ _ _ hacc hw =>
    (size_put_of_exceeds hacc).trans hw

/-- Removing rows leaves the others. -/
theorem rowSet_remove :
    (t.remove gone).closure.rowSet = t.rowSet.filter fun r => gone r = false := by
  ext r
  rw [mem_rowSet, mem_iff, depth?_remove, Option.filter_eq_some_iff, Finset.mem_filter, mem_rowSet,
    Bool.not_eq_true']
  rfl

theorem rowSet_remove_subset : (t.remove gone).closure.rowSet ⊆ t.rowSet := by
  rw [rowSet_remove]
  exact Finset.filter_subset _ _

/-- A deletion counts the rows that are gone. -/
theorem count_remove :
    (t.remove gone).count = (t.rowSet \ (t.remove gone).closure.rowSet).card := by
  have hgone : t.rowSet \ (t.remove gone).closure.rowSet = (t.rows.filter gone).toFinset := by
    ext r
    rw [Finset.mem_sdiff, rowSet_remove, Finset.mem_filter, List.mem_toFinset, List.mem_filter,
      mem_rowSet, mem_rows]
    cases gone r <;> simp
  rw [hgone, List.toFinset_card_of_nodup (nodup_rows.filter gone), ← List.countP_eq_length_filter]
  rfl

theorem size_remove : (t.remove gone).closure.size + (t.remove gone).count = t.size := by
  rw [count_remove, ← card_rowSet, ← card_rowSet, Nat.add_comm]
  exact Finset.card_sdiff_add_card_eq_card rowSet_remove_subset

/-! ### Rows that are new -/

/-- A row that is accepted by a statement that shortens is not in the table, at least not at that
    depth. -/
theorem notMem_of_accepted (h : (t.lacks r || t.exceeds r) = true) : r ∉ t := by
  intro hr
  rw [Bool.or_eq_true, lacks_iff, exceeds_iff] at h
  rw [mem_iff] at hr
  rcases h with hnone | ⟨k, hk, hlt⟩
  · rw [hr] at hnone
    cases hnone
  · rw [hr, Option.some.injEq] at hk
    omega

/-- Writing a row that `t` does not have makes one more new row, where nothing else has been written
    for its pair. -/
theorem card_sdiff_put
    (hsame : u.depth? r.ancestor r.descendant = t.depth? r.ancestor r.descendant) (hr : r ∉ t) :
    ((u.put r).rowSet \ t.rowSet).card = (u.rowSet \ t.rowSet).card + 1 := by
  have hnew : (u.put r).rowSet \ t.rowSet = insert r (u.rowSet \ t.rowSet) := by
    ext s
    rw [Finset.mem_insert, Finset.mem_sdiff, Finset.mem_sdiff, mem_rowSet, mem_rowSet, mem_rowSet,
      mem_put]
    constructor
    · rintro ⟨rfl | ⟨-, hs⟩, hnot⟩
      · exact .inl rfl
      · exact .inr ⟨hs, hnot⟩
    · rintro (rfl | ⟨hs, hnot⟩)
      · exact ⟨.inl rfl, hr⟩
      · -- a row of the same pair that `u` has is one of `t` as well
        refine ⟨.inr ⟨fun hp => hnot ?_, hs⟩, hnot⟩
        obtain ⟨a, d, k⟩ := s
        obtain ⟨rfl, rfl⟩ := Pair.mk.inj hp
        exact hsame.symm.trans hs
  have hold : r ∉ u.rowSet \ t.rowSet := by
    rw [Finset.mem_sdiff, mem_rowSet, mem_iff, hsame]
    exact fun h => hr h.1
  rw [hnew, Finset.card_insert_of_notMem hold]

/-- **Shortening** counts the rows that are new, if it is offered one row at most for each pair. -/
theorem count_shorten (h : rows.Pairwise fun r s => r.pair ≠ s.pair) :
    (t.shorten rows).count = ((t.shorten rows).closure.rowSet \ t.rowSet).card := by
  have key : ∀ w : Written,
      (∀ r ∈ rows, w.closure.depth? r.ancestor r.descendant = t.depth? r.ancestor r.descendant) →
      w.count = (w.closure.rowSet \ t.rowSet).card →
      (rows.foldl (offer fun t r => t.lacks r || t.exceeds r) w).count
        = ((rows.foldl (offer fun t r => t.lacks r || t.exceeds r) w).closure.rowSet
          \ t.rowSet).card := by
    -- over the rows, for which the table so far has not been written to
    induction rows with
    | nil => exact fun w _ hw => hw
    | cons r rows ih =>
      intro w hsame hw
      obtain ⟨hr, hrows⟩ := List.pairwise_cons.1 h
      have hhead := hsame r List.mem_cons_self
      have htail := fun s hs => hsame s (List.mem_cons_of_mem r hs)
      rw [List.foldl_cons]
      refine ih hrows _ (fun s hs => ?_) ?_
      · rw [depth?_offer, if_neg, htail s hs]
        exact fun he => hr s hs (congrArg₂ Pair.mk he.2.1 he.2.2)
      · unfold offer
        split
        · rename_i hacc
          have hnot : r ∉ t := by
            rw [mem_iff, ← hhead]
            exact notMem_of_accepted hacc
          rw [card_sdiff_put hhead hnot, hw]
        · exact hw
  refine key ⟨t, 0⟩ (fun _ _ => rfl) ?_
  rw [Finset.sdiff_self, Finset.card_empty]

end Tenancy.Closure
