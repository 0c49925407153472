import Mathlib.Data.List.Cycle
import Tenancy.Proofs.Acyclicity
import Tenancy.Proofs.Reading

namespace Tenancy

/-!
# What a scan for cycles finds

The scan for circular references looks only at single rows: it lists the ids that have a row to
another id and a row back.  A repair of the whole table brings a row for every way along the rows.
So a scan after a repair lists just the ids on the cycles that the rows made before it, however long
these are.

* `Closure.Circuit`, `Closure.OnCycle` — cycles of the rows, over two ids or more.
* `Closure.exists_path` — a way between two ids visits no id twice, or can be cut short.
* `Closure.onCycle_iff` — being on a cycle is reaching another id, and being reached by it.
* `Closure.mem_mutualIds_repaired_iff` — what the scan finds after a repair.
* `Hierarchy.circularReferences_after_repairAll` — the repair and the scan together.
-/

open Relation

variable {t : Closure} {a d n : Int} {c : Cycle Int}

namespace Closure

/-! ### Cycles of the rows -/

/-- A cycle over two ids or more, each of them once, with a row from each to the next. -/
structure Circuit (t : Closure) (c : Cycle Int) : Prop where
  nodup : c.Nodup
  nontrivial : c.Nontrivial
  chain : c.Chain fun a d => t.joins a d = true

/-- The id lies on a cycle over two ids or more. -/
def OnCycle (t : Closure) (n : Int) : Prop := ∃ c, t.Circuit c ∧ n ∈ c

/-- A way from one id to another need not visit any id twice: where it comes back to an id, what
    lies between is left out. -/
theorem exists_path (h : t.Reaches a d) : ∃ l : List Int,
    (a :: l).Nodup ∧ (a :: l).IsChain t.Above ∧ (a :: l).getLast (List.cons_ne_nil a l) = d := by
  induction h using ReflTransGen.head_induction_on with
  | refl => exact ⟨[], List.nodup_singleton d, .singleton d, rfl⟩
  | @head a b hab _ ih =>
    obtain ⟨l, hnodup, hchain, hlast⟩ := ih
    by_cases ha : a ∈ b :: l
    · -- the way comes back to where it starts
      -- what lies before the return is cut off, and a suffix of a simple way is simple
      obtain ⟨before, after, hsplit⟩ := List.append_of_mem ha
      have hsuffix : a :: after <:+ b :: l := ⟨before, hsplit.symm⟩
      refine ⟨after, hnodup.sublist hsuffix.sublist, hchain.suffix hsuffix, ?_⟩
      rw [← hlast]
      exact hsuffix.getLast (List.cons_ne_nil a after)
    · refine ⟨b :: l, List.nodup_cons.2 ⟨ha, hnodup⟩, .cons_cons hab hchain, ?_⟩
      rw [List.getLast_cons_cons, hlast]

/-- The ids of a cycle reach each other. -/
theorem Circuit.reaches (h : t.Circuit c) (ha : a ∈ c) (hd : d ∈ c) : t.Reaches a d := by
  have htrans : IsTrans Int t.Reaches := ⟨fun _ _ _ => ReflTransGen.trans⟩
  exact Cycle.chain_iff_pairwise.1 (h.chain.imp fun _ _ => reaches_of_joins) a ha d hd

/-- An id is on a cycle if it reaches another id and is reached by it. -/
theorem onCycle_iff : t.OnCycle n ↔ ∃ m, m ≠ n ∧ t.Reaches n m ∧ t.Reaches m n := by
  constructor
  -- of two different ids on the circuit one is not this id
  · rintro ⟨c, hc, hn⟩
    obtain ⟨x, y, hxy, hx, hy⟩ := hc.nontrivial
    by_cases hxn : x = n
    · exact ⟨y, fun hyn => hxy (hxn.trans hyn.symm), hc.reaches hn hy, hc.reaches hy hn⟩
    · exact ⟨x, hxn, hc.reaches hn hx, hc.reaches hx hn⟩
  · rintro ⟨m, hne, hto, hback⟩
    rcases ReflTransGen.cases_head hto with he | ⟨b, hnb, hbm⟩
    · exact absurd he.symm hne
    · -- the first row on the way there, and a way back from its end, close a cycle
      obtain ⟨l, hnodup, hchain, hlast⟩ := exists_path (ReflTransGen.trans hbm hback)
      have hn : n ∈ b :: l := hlast ▸ List.getLast_mem _
      refine ⟨(b :: l : List Int), ⟨Cycle.nodup_coe_iff.2 hnodup, ?_, ?_⟩, hn⟩
      · exact ⟨n, b, hnb.1, hn, List.mem_cons_self⟩
      · rw [Cycle.chain_ne_nil _ (List.cons_ne_nil b l), hlast]
        exact .cons_cons hnb.2 (hchain.imp fun _ _ habove => habove.2)

/-! ### The scan -/

/-- The scan lists the ids that have another one both above and below them. -/
theorem mem_mutualIds :
    n ∈ t.mutualIds ↔ ∃ m, m ≠ n ∧ t.joins n m = true ∧ t.joins m n = true := by
  simp only [mutualIds, Std.ExtTreeSet.mem_toList, Std.ExtTreeSet.mem_ofList, List.contains_iff_mem,
    List.mem_map, List.mem_filter, mem_rows, Bool.and_eq_true, bne_iff_ne]
  constructor
  · rintro ⟨r, ⟨hr, hne, hback⟩, rfl⟩
    exact ⟨r.descendant, hne.symm, joins_of_depth? hr, hback⟩
  · rintro ⟨m, hne, hto, hback⟩
    obtain ⟨k, hk⟩ := joins_iff.1 hto
    exact ⟨⟨n, m, k⟩, ⟨hk, hne.symm, hback⟩, rfl⟩

theorem mutualIds_sorted : t.mutualIds.Pairwise (· < ·) :=
  Std.ExtTreeSet.ordered_toList.imp compare_lt_iff_lt.1

/-- After a repair, one row tells of all ways between two ids. -/
theorem joins_repaired_iff (hpos : ∀ a d, t.depth? a d = some 0 → a = d) (hne : a ≠ d) :
    t.repaired.joins a d = true ↔ t.Reaches a d := by
  constructor
  · intro hj
    obtain ⟨k, hk⟩ := joins_iff.1 hj
    exact (transGen_of_repaired a d k hk hne).to_reflTransGen
  · exact fun hr => (joins_repaired_of_reaches hpos hr).resolve_left hne

/-- **What the scan finds after a repair** is what lies on the cycles before it. -/
theorem mem_mutualIds_repaired_iff (hpos : ∀ a d, t.depth? a d = some 0 → a = d) :
    n ∈ t.repaired.mutualIds ↔ t.OnCycle n := by
  rw [mem_mutualIds, onCycle_iff]
  refine exists_congr fun m => and_congr_right fun hne => ?_
  rw [joins_repaired_iff hpos hne.symm, joins_repaired_iff hpos hne]

end Closure

namespace Hierarchy

/-- A scan can be read if all ids of the table can. -/
theorem exists_scanResult (hids : ∀ n ∈ t.ids, 0 ≤ n ∧ n ≤ TenantId.maxCell) :
    ∃ ids, scanResult t = .ok ids ∧ ids.map TenantId.cell = t.mutualIds := by
  obtain ⟨ids, hread⟩ : ∃ ids, t.mutualIds.mapM (Cell.id 0) = .ok ids := by
    refine exists_readIds fun n hn => TenantId.exists_cell ?_
    obtain ⟨m, -, hto, -⟩ := Closure.mem_mutualIds.1 hn
    exact hids n (Closure.mem_ids_of_joins hto).1
  refine ⟨ids, ?_, (readIds_eq_ok_iff.1 hread).1⟩
  rw [scanResult, hread]
  rfl

/-- The ids that a scan finds are listed in ascending order, each of them once. -/
theorem scanned_sorted {ids : List TenantId} (h : ids.map TenantId.cell = t.mutualIds) :
    ids.Pairwise fun a b => a.toNat < b.toNat := by
  have hsorted : (ids.map TenantId.cell).Pairwise (· < ·) := h ▸ Closure.mutualIds_sorted
  exact (List.pairwise_map.1 hsorted).imp Int.ofNat_lt.1

/-- **A scan after a repair is complete.**  On a table that holds no negative ids, and no row of
    depth 0 between different ids, the scan for circular references after a repair of the whole
    table lists just the ids that were on a cycle before it, in ascending order and each of them
    once.  So it finds nothing just if there was no cycle. -/
theorem circularReferences_after_repairAll {s : Scope} (h : s.Holds t)
    (hids : ∀ n ∈ t.ids, 0 ≤ n ∧ n ≤ TenantId.maxCell)
    (hpos : ∀ a d, t.depth? a d = some 0 → a = d) :
    ∃ report s' u ids, repairAll.on s = (.ok report, s') ∧ s'.Holds u ∧
      (∀ r : Scope, r.Holds u → circularReferences.on r = (.ok ids, r)) ∧
      ids.Pairwise (fun a b => a.toNat < b.toNat) ∧
      (∀ n, n ∈ ids.map TenantId.cell ↔ t.OnCycle n) ∧
      (ids = [] ↔ ¬∃ c, t.Circuit c) := by
  have hids' : ∀ n ∈ t.repaired.ids, 0 ≤ n ∧ n ≤ TenantId.maxCell :=
    fun n hn => hids n (Closure.ids_repaired (t := t) ▸ hn)
  -- the repaired table joins exactly what can be reached, so that mutual rows there are cycles here
  obtain ⟨ids, hscan, hcells⟩ := exists_scanResult hids'
  have hmem : ∀ n, n ∈ ids.map TenantId.cell ↔ t.OnCycle n := fun n => by
    rw [hcells, Closure.mem_mutualIds_repaired_iff hpos]
  refine ⟨_, _, t.repaired, ids, repairAll_on h, h.after, fun r hr => ?_, ?_, hmem, ?_⟩
  · rw [circularReferences_on hr.closure?, hscan]
  · exact scanned_sorted hcells
  · constructor
    · rintro rfl ⟨c, hc⟩
      obtain ⟨n, -, -, hn, -⟩ := hc.nontrivial
      exact absurd ((hmem n).2 ⟨c, hc, hn⟩) List.not_mem_nil
    · intro hnone
      cases ids with
      | nil => rfl
      | cons id ids =>
        obtain ⟨c, hc, -⟩ := (hmem id.cell).1 List.mem_cons_self
        exact absurd ⟨c, hc⟩ hnone

/-- A table with rows from 1 to 2, from 2 to 3, and from 3 to 1; 4 is below 3, and 5 below
    itself. -/
def roundabout : Closure := (Closure.empty.fill
  [⟨1, 2, 1⟩, ⟨2, 3, 1⟩, ⟨3, 1, 4⟩, ⟨3, 4, 1⟩, ⟨5, 5, 2⟩]).closure

/-- Of these, 1, 2 and 3 are found, though no two of them had rows both ways. -/
theorem circularReferences_after_repairAll_roundabout :
    let s : Scope := { database := { table := some { closure := roundabout } } }
    ∃ report s' ids, repairAll.on s = (.ok report, s') ∧ circularReferences.on s' = (.ok ids, s') ∧
      ids ≠ [] ∧ 2 ∈ ids.map TenantId.cell ∧ 4 ∉ ids.map TenantId.cell := by
  intro s
  have h : s.Holds roundabout := ⟨rfl, rfl⟩
  have hids : ∀ n ∈ roundabout.ids, 0 ≤ n ∧ n ≤ TenantId.maxCell := by
    have hall : ∀ n ∈ roundabout.ids.toList, 0 ≤ n ∧ n ≤ TenantId.maxCell := by decide +kernel
    exact fun n hn => hall n (Std.ExtTreeSet.mem_toList.2 hn)
  have hpos : ∀ a d, roundabout.depth? a d = some 0 → a = d :=
    Closure.pos_iff_rows.2 (by decide +kernel)
  have hcircuit : roundabout.Circuit ([1, 2, 3] : List Int) := by
    have hchain :
      List.IsChain (fun a d => roundabout.joins a d = true) [1, 2, 3, 1] := by decide +kernel
    exact ⟨by decide, ⟨1, 2, by decide, by decide, by decide⟩, hchain⟩
  obtain ⟨report, s', u, ids, hrepair, hu, hscan, -, hmem, hnone⟩ :=
    circularReferences_after_repairAll h hids hpos
  refine ⟨report, s', ids, hrepair, hscan s' hu, fun he => hnone.1 he ⟨_, hcircuit⟩, ?_, ?_⟩
  · exact (hmem 2).2 ⟨_, hcircuit, by decide⟩
  · -- no way leads on from 4
    intro hfour
    have hleaf : ∀ r ∈ roundabout.rows, r.ancestor ≠ 4 := by decide +kernel
    obtain ⟨m, hne, hto, -⟩ := Closure.onCycle_iff.1 ((hmem 4).1 hfour)
    rcases ReflTransGen.cases_head hto with he | ⟨b, hb, -⟩
    · exact hne he.symm
    · obtain ⟨k, hk⟩ := Closure.joins_iff.1 hb.2
      exact hleaf ⟨4, b, k⟩ (Closure.mem_rows.2 hk) rfl

end Hierarchy

end Tenancy
