import Tenancy.Proofs.Effect

namespace Tenancy

/-!
# Passes of a repair

A repair of the whole table gives each id its self row and then goes on pass after pass, until one
counts nothing.  On any table this happens after finitely many passes: a pass that counts something
leaves fewer pairs without a row, or as many and smaller depths.  No self row is too deep, and no
two rows that meet are shorter than the row that they stand for, from then on; so the next repair
finds nothing to do.

* `Closure.exists_saturate_eq` — the passes of a completion, one by one, up to the first that is
  idle.
* `Closure.repaired_repaired` — a repair leaves what a repair has left.
* `Closure.repaired_eq_iterate` — so the table that a repair leaves can be computed pass by pass.
* `Hierarchy.repairAll_settles` — a repair comes to an end, at a table on which a repair is idle.
-/

variable {s : Scope} {t : Closure}

namespace Closure

/-- The numbers of rows that a pass adds and lowers. -/
def tally (t : Closure) : Pass := ⟨t.complete.count, t.complete.closure.minimize.count⟩

theorem idle_iff_tally : t.Idle ↔ t.tally = ⟨0, 0⟩ := by
  rw [tally, Pass.mk.injEq, Idle]

/-- **The passes end.** There are finitely many of them: the last one is idle, and all before it
    count something. -/
theorem exists_saturate_eq (t : Closure) : ∃ n,
    t.saturate = (pass^[n] t, (List.range (n + 1)).map fun m => (pass^[m] t).tally) ∧
      (pass^[n] t).Idle ∧ ∀ m < n, ¬(pass^[m] t).Idle := by
  induction t using passes_induction with
  | done t h =>
    refine ⟨0, ?_, h, fun m hm => absurd hm (Nat.not_lt_zero m)⟩
    rw [h.saturate, ← idle_iff_tally.1 h]
    rfl
  | more t h ih =>
    -- the first pass comes before those that are made on the table that it leaves
    obtain ⟨n, hrest, hidle, hbusy⟩ := ih
    refine ⟨n + 1, ?_, hidle, fun m hm => ?_⟩
    · rw [saturate_of_not_idle h, hrest, List.range_succ_eq_map (n := n + 1), List.map_cons,
        List.map_map]
      rfl
    · cases m with
      | zero => exact h
      | succ m => exact hbusy m (Nat.lt_of_succ_lt_succ hm)

instance : Decidable t.Idle := inferInstanceAs (Decidable (_ ∧ _))

/-- Any number of passes may come first. -/
theorem saturate_iterate (n : Nat) : (pass^[n] t).saturate.1 = t.saturate.1 := by
  induction n with
  | zero => rfl
  | succ n ih => rw [Function.iterate_succ_apply', saturate_pass, ih]

/-- Once a pass is idle, as many as came before it make the table that a repair leaves. -/
theorem repaired_eq_iterate {n : Nat} (h : (pass^[n] t.selved).Idle) :
    t.repaired = pass^[n] t.selved := by
  rw [repaired, ← saturate_iterate n, h.saturate]

/-- **A second repair changes nothing.** -/
theorem repaired_repaired : t.repaired.repaired = t.repaired := by
  refine repaired_eq_self_iff.2 ⟨fun n hn => ?_, closed_repaired⟩
  rw [ids_repaired] at hn
  exact depth?_repaired_self hn

end Closure

namespace Hierarchy

/-- **A repair settles.** On any table, with any ids, rows missing or too deep, and cycles, a repair
    of the whole table comes to an end: its last pass is the first that is idle.  Each id then has
    its self row, rows that meet are no shorter than the row that they stand for, if the sums that
    are left are exact, and another repair changes nothing, counts nothing and takes one pass. -/
theorem repairAll_settles (h : s.Holds t) :
    ∃ report u s', repairAll.on s = (.ok report, s') ∧ s'.Holds u ∧
      (∃ n, report.passes = n + 1 ∧ u = Closure.pass^[n] t.selved ∧ u.Idle ∧
        ∀ m < n, ¬(Closure.pass^[m] t.selved).Idle) ∧
      u.ids = t.ids ∧ (∀ n ∈ u.ids, u.depth? n n = some 0) ∧
      (u.Fits → ∀ a b c i j, 0 < i → 0 < j → a ≠ c → u.depth? a b = some i →
        u.depth? b c = some j → ∃ k ≤ i + j, u.depth? a c = some k) ∧
      ∃ again s'', repairAll.on s' = (.ok again, s'') ∧ s''.Holds u ∧ again.isNoop = true ∧
        again.passes = 1 := by
  obtain ⟨n, hpasses, hidle, hbusy⟩ := t.selved.exists_saturate_eq
  have hu : t.repaired = Closure.pass^[n] t.selved := congrArg Prod.fst hpasses
  have hcount : (repairReport t).passes = n + 1 := by
    show t.selved.saturate.2.length = n + 1
    rw [hpasses, List.length_map, List.length_range]
  have hagain : (s.after t.repaired (repairEvents t)).Holds t.repaired := h.after
  refine ⟨_, t.repaired, _, repairAll_on h, hagain, ⟨n, hcount, hu, hu ▸ hidle, hbusy⟩,
    Closure.ids_repaired, fun m hm => ?_, fun hfit a b c i j hi hj hne hab hbc => ?_, ?_⟩
  · rw [Closure.ids_repaired] at hm
    exact Closure.depth?_repaired_self hm
  -- a depth that fits lies below the saturated sum only if it lies below the exact one
  · obtain ⟨k, hle, hk⟩ := Closure.closed_iff.1 Closure.closed_repaired a b c i j hi hj hne hab hbc
    exact ⟨k, (Cell.le_sum_iff (Nat.le_succ_of_le (hfit a c k hk))).1 hle, hk⟩
  · -- the table is one that a repair leaves alone
    have hsame : t.repaired.repaired = t.repaired := Closure.repaired_repaired
    refine ⟨_, _, repairAll_on hagain, ?_, ?_, ?_⟩
    · rw [hsame]
      exact hagain.after
    · rw [repairReport_of_repaired_eq hsame]
      rfl
    · rw [repairReport_of_repaired_eq hsame]

/-- Ids that no tenant has, on a cycle with a row at depth 0, and a self row that is too deep. -/
def tangle : Closure := (Closure.empty.fill
  [⟨0, -1, 0⟩, ⟨-1, 2, 3⟩, ⟨2, 0, 1⟩, ⟨5, 5, 2⟩]).closure

/-- A repair of it ends, with four self rows, and a second one finds nothing to do. -/
theorem repairAll_settles_tangle :
    let s : Scope := { database := { table := some { closure := tangle } } }
    ∃ report u s', repairAll.on s = (.ok report, s') ∧ s'.Holds u ∧
      (∀ n ∈ [0, -1, 2, 5], u.depth? n n = some 0) ∧
      ∃ again s'', repairAll.on s' = (.ok again, s'') ∧ s''.Holds u ∧ again.isNoop = true := by
  intro s
  have h : s.Holds tangle := ⟨rfl, rfl⟩
  obtain ⟨report, u, s', hrun, hu, -, hids, hself, -, again, s'', hagain, hu', hnoop, -⟩ :=
    repairAll_settles h
  have hmem : ∀ n ∈ [0, -1, 2, 5], n ∈ tangle.ids := by decide +kernel
  exact ⟨report, u, s', hrun, hu, fun n hn => hself n (hids ▸ hmem n hn), again, s'', hagain, hu',
    hnoop⟩

end Hierarchy

end Tenancy
