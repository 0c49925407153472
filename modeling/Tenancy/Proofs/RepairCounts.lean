import Mathlib.Algebra.GroupWithZero.Nat
import Tenancy.Proofs.Acceptance
import Tenancy.Proofs.Counts

namespace Tenancy

/-!
# The reports of repairs

A repair is a row of statements, each of which adds rows or lowers depths.  What each of them counts
adds up over any number of passes, although the same row may be added in one pass and lowered in
many that follow: the rows that are added make up the difference in size, and a count is 0 only
where nothing was written, since nothing that is written is ever taken back.

* `Closure.Mends` — rows were added and depths lowered, as many as are counted.
* `Closure.Mends.trans` — counts add up; `Mends.fill`, `Mends.lower`, `Mends.direct` count right.
* `Closure.mends_repaired` — the repair of a whole table.
* `RepairReport.Accounts` — what a report says about the table; `Hierarchy.accounts_repaired`,
  `Hierarchy.accounts_adopt`.
* `Hierarchy.isCountable_of_repairPair` — what the log tells of the repair of a parent edge is no
  more than 64 bits can count.
* `Hierarchy.repairs_account` — the reports of both repairs account for every change.
-/

namespace Closure

/-- `u` has the rows of `t`, none of them deeper; it has `inserted` rows more, and is the same table
    if and only if nothing was counted. -/
structure Mends (t u : Closure) (inserted lowered : Nat) : Prop where
  keeps : ∀ a d k, t.depth? a d = some k → ∃ j ≤ k, u.depth? a d = some j
  size : u.size = t.size + inserted
  idle_iff : inserted + lowered = 0 ↔ u = t

variable {t u v : Closure} {a d : Int} {k m n m' n' : Nat}

namespace Mends

/-- Doing nothing mends nothing. -/
theorem refl (t : Closure) : t.Mends t 0 0 where
  keeps _ _ k hk := ⟨k, Nat.le_refl k, hk⟩
  size := rfl
  idle_iff := iff_of_true rfl rfl

/-- Depths only fall, so that one which is there at the end was there in between. -/
theorem depth?_between (h : t.Mends u m n) (h' : u.Mends t m' n') (hk : t.depth? a d = some k) :
    u.depth? a d = some k := by
  obtain ⟨j, hj, hu⟩ := h.keeps a d k hk
  obtain ⟨i, hi, ht⟩ := h'.keeps a d j hu
  obtain rfl : k = i := Option.some.inj (hk.symm.trans ht)
  rwa [Nat.le_antisymm hi hj]

/-- Tables that mend each other are the same. -/
theorem antisymm (h : t.Mends u m n) (h' : u.Mends t m' n') : u = t :=
  ext fun _ _ => Option.ext fun _ => ⟨h'.depth?_between h, h.depth?_between h'⟩

/-- **Counts add up.** -/
theorem trans (h : t.Mends u m n) (h' : u.Mends v m' n') : t.Mends v (m + m') (n + n') where
  keeps a d k hk := by
    obtain ⟨j, hj, hu⟩ := h.keeps a d k hk
    obtain ⟨i, hi, hv⟩ := h'.keeps a d j hu
    exact ⟨i, Nat.le_trans hi hj, hv⟩
  size := by rw [h'.size, h.size, Nat.add_assoc]
  idle_iff := by
    constructor
    · intro hzero
      have hu : u = t := h.idle_iff.1 (by omega)
      have hv : v = u := h'.idle_iff.1 (by omega)
      rw [hv, hu]
    · rintro rfl
      -- nothing that is written is taken back, so that the table was the same in between
      have hu : u = v := h.antisymm h'
      have hfirst : m + n = 0 := h.idle_iff.2 hu
      have hsecond : m' + n' = 0 := h'.idle_iff.2 hu.symm
      omega

/-- Filling adds as many rows as it counts, and lowers none. -/
theorem fill (t : Closure) (rows : List Row) :
    t.Mends (t.fill rows).closure (t.fill rows).count 0 where
  keeps a d k hk := ⟨k, Nat.le_refl k, fill_spec.1 a d k hk⟩
  size := size_fill
  idle_iff := by
    constructor
    · exact fun hzero => fill_spec.2.1 hzero
    · intro hsame
      have hsize : (t.fill rows).closure.size = t.size + (t.fill rows).count := size_fill
      rw [hsame] at hsize
      omega

/-- Lowering adds no row, and lowers as many as it counts. -/
theorem lower (t : Closure) (rows : List Row) :
    t.Mends (t.lower rows).closure 0 (t.lower rows).count where
  keeps _ _ _ hk := exists_le_lower hk
  size := size_lower
  idle_iff := by
    rw [Nat.zero_add]
    constructor
    · exact fun hzero => lower_spec.2.2.1 hzero
    · intro hsame
      by_contra hcount
      obtain ⟨r, -, hlt⟩ := lower_spec.2.2.2 hcount
      rw [hsame] at hlt
      exact absurd hlt (Nat.lt_irrefl _)

/-- The parent edge is counted as a row that is added if there was none, and as one that is lowered
    otherwise. -/
theorem direct (t : Closure) (parent child : Int) : t.Mends (t.direct parent child).closure
    (if t.joins parent child = true then 0 else (t.direct parent child).count)
    (if t.joins parent child = true then (t.direct parent child).count else 0) := by
  by_cases hj : t.joins parent child = true
  · obtain ⟨k, hk⟩ := joins_iff.1 hj
    rw [if_pos hj, if_pos hj, direct_of_some hk]
    exact lower t _
  · have hnone : t.depth? parent child = none := Option.not_isSome_iff_eq_none.1 hj
    rw [if_neg hj, if_neg hj, direct_of_none hnone]
    exact fill t _

end Mends

/-! ### The repair of a table -/

/-- All passes together mend the table, by the sums of what each of them counts. -/
theorem mends_saturate (t : Closure) : t.Mends t.saturate.1
    (t.saturate.2.map Pass.inserted).sum (t.saturate.2.map Pass.lowered).sum := by
  induction t using passes_induction with
  | done t h =>
    rw [h.saturate]
    exact Mends.refl t
  | more t h ih =>
    -- a pass adds in its first half and lowers in its second, so the counts of the two do not mix
    have hcomplete : t.Mends t.complete.closure t.complete.count 0 := .fill t _
    have hminimize : t.complete.closure.Mends t.pass 0 t.complete.closure.minimize.count :=
      .lower t.complete.closure _
    have hpass := hcomplete.trans hminimize
    rw [Nat.zero_add] at hpass
    simp only [saturate_of_not_idle h, List.map_cons, List.sum_cons]
    exact hpass.trans ih

/-- The repair of a whole table: the self rows, those that are lowered, and the passes. -/
theorem mends_repaired (t : Closure) :
    t.Mends t.repaired ((t.fill t.selfRows).count + (t.selved.saturate.2.map Pass.inserted).sum)
      (((t.fill t.selfRows).closure.lower (t.fill t.selfRows).closure.selfRows).count
        + (t.selved.saturate.2.map Pass.lowered).sum) := by
  have hselved := (Mends.fill t t.selfRows).trans
    (Mends.lower (t.fill t.selfRows).closure (t.fill t.selfRows).closure.selfRows)
  rw [Nat.zero_add] at hselved
  exact hselved.trans (mends_saturate t.selved)

end Closure

/-! ### Reports -/

/-- What is told of a repair that has made `u` from `t`: no row was taken away or raised, the rows
    that are told to be inserted are those that `u` has more, and it is told that nothing has
    changed if and only if this is so. -/
structure RepairReport.Accounts (report : RepairReport) (t u : Closure) : Prop where
  keeps : ∀ a d k, t.depth? a d = some k → ∃ j ≤ k, u.depth? a d = some j
  size : u.size = t.size + (report.selfEdgesInserted + report.transitiveEdgesInserted)
  isNoop_iff : report.isNoop = true ↔ u = t

variable {s s' : Scope} {t u : Closure} {tenant parent : TenantId} {report : RepairReport}

/-- A report with the counts of a mending accounts for it. -/
theorem Closure.Mends.accounts (h : t.Mends u
    (report.selfEdgesInserted + report.transitiveEdgesInserted) report.depthsLowered) :
    report.Accounts t u :=
  ⟨h.keeps, h.size, beq_iff_eq.trans h.idle_iff⟩

namespace Hierarchy

/-- The report of a repair of the whole table accounts for it. -/
theorem accounts_repaired (t : Closure) : (repairReport t).Accounts t t.repaired := by
  refine Closure.Mends.accounts ?_
  have hsum : ∀ (f : Pass → Nat) (ps : List Pass), ps.foldl (fun n p => n + f p) 0
    = (ps.map f).sum :=
    fun f ps => by rw [List.sum_eq_foldl, List.foldl_map]
  have h := t.mends_repaired
  rw [← hsum, ← hsum] at h
  exact h

/-- Self rows are written for the two ids of the repair of a parent edge, and no other. -/
theorem mem_ids_rooted {parent child n : Int} :
    n ∈ (rooted t parent child).ids ↔ n ∈ t.ids ∨ n = child ∨ n = parent := by
  rw [rooted, Closure.mem_ids_plant, Closure.mem_ids_plant]
  tauto

/-- The report of a repair of a parent edge accounts for it. -/
theorem accounts_adopt {existing : Option Depth}
    (h : readDepth (rooted t parent.cell tenant.cell) parent tenant = .ok existing) :
    (pairReport t tenant parent existing).Accounts t
      ((rooted t parent.cell tenant.cell).adopt parent.cell tenant.cell) := by
  have hparent : t.Mends (t.plant parent.cell).closure (t.plant parent.cell).count 0 := .fill t _
  have htenant : (t.plant parent.cell).closure.Mends (rooted t parent.cell tenant.cell)
      ((t.plant parent.cell).closure.plant tenant.cell).count 0 := .fill _ _
  have hedge := Closure.Mends.direct (rooted t parent.cell tenant.cell) parent.cell tenant.cell
  have hinherit : ∀ u : Closure, u.Mends (u.inherit parent.cell tenant.cell).closure
      (u.inherit parent.cell tenant.cell).count 0 := fun u => .fill u _
  have hall := (hparent.trans htenant).trans (hedge.trans (hinherit _))
  -- the look-up before the parent edge is written decides which of the counts it goes to
  rw [← isSome_of_readDepth h] at hall
  refine Closure.Mends.accounts ?_
  cases existing with
  | none => simpa [pairReport, Closure.adopt] using hall
  | some k => simpa [pairReport, Closure.adopt] using hall

/-- The repair of a parent edge lowers no depth but that of the edge. -/
theorem depthsLowered_pairReport_le {existing : Option Depth} :
    (pairReport t tenant parent existing).depthsLowered ≤ 1 := by
  have hcount : ∀ (u : Closure) (a d : Int), (u.direct a d).count ≤ 1 := by
    intro u a d
    simp only [Closure.direct, Closure.shorten, Closure.write, List.foldl_cons, List.foldl_nil,
      Closure.offer]
    split <;> simp
  unfold pairReport
  dsimp only
  split
  · exact hcount _ _ _
  · exact Nat.zero_le 1

/-- **The log can tell the count.** The repair of a parent edge adds up what it has changed with 64
    bits.  That is no more than the rows of the table afterwards and one. -/
theorem isCountable_of_repairPair (h : s.Holds t)
    (hok : (repairPair tenant parent).on s = (.ok report, s')) (hu : s'.Holds u)
    (hroom : u.size + 1 < UInt64.size) : report.isCountable = true := by
  obtain ⟨-, existing, hread, rfl, rfl⟩ := (repairPair_eq_ok_iff h).1 hok
  have hsame := Option.some.inj ((Scope.Holds.closure? h.after).symm.trans hu.closure?)
  have hsize := (accounts_adopt hread).size
  have hlowered : (pairReport t tenant parent existing).depthsLowered ≤ 1 :=
    depthsLowered_pairReport_le
  rw [hsame] at hsize
  rw [RepairReport.isCountable, decide_eq_true_iff, RepairReport.changed]
  omega

/-- **Reports account for every change.**  On any table, whatever is missing from it or wrong:

    * a repair of the whole table succeeds, and mentions no id that was not there;
    * so does a repair of a parent edge that succeeds, but for its own two ids;
    * and in both cases no row is taken away or gets deeper, the rows that are told to be inserted
      make up the difference in size, and the report is one of no change if and only if the table is
      the same as before. -/
theorem repairs_account (h : s.Holds t) :
    (∃ report u s', repairAll.on s = (.ok report, s') ∧ s'.Holds u ∧ report.Accounts t u ∧
      ∀ n ∈ u.ids, n ∈ t.ids) ∧
    ∀ tenant parent report s', (repairPair tenant parent).on s = (.ok report, s') →
      ∃ u, s'.Holds u ∧ report.Accounts t u ∧
        ∀ n ∈ u.ids, n ∈ t.ids ∨ n = tenant.cell ∨ n = parent.cell := by
  refine ⟨⟨_, _, _, repairAll_on h, h.after, accounts_repaired t, fun n hn => ?_⟩, ?_⟩
  · rwa [Closure.ids_repaired] at hn
  · intro tenant parent report s' hok
    obtain ⟨-, existing, hread, rfl, rfl⟩ := (repairPair_eq_ok_iff h).1 hok
    -- both ids have self rows by now, so that the adoption itself mentions nothing new
    have hparent : parent.cell ∈ (rooted t parent.cell tenant.cell).ids :=
      mem_ids_rooted.2 (.inr (.inr rfl))
    have htenant : tenant.cell ∈ (rooted t parent.cell tenant.cell).ids :=
      mem_ids_rooted.2 (.inr (.inl rfl))
    refine ⟨_, h.after, accounts_adopt hread, fun n hn => ?_⟩
    rw [Closure.ids_adopt hparent htenant] at hn
    exact mem_ids_rooted.1 hn

/-- A table with ids that no tenant has, a self row that is too deep, and a row from 3 to 5 that is
    too. -/
def patchy : Closure := (Closure.empty.fill
  [⟨1, 3, 1⟩, ⟨3, 5, 4⟩, ⟨5, 5, 2⟩, ⟨-1, 0, 1⟩, ⟨0, 1, 7⟩]).closure

/-- The reports of its repair, and of the repair of the parent edge from 3 to 5, account for it. -/
theorem repairs_account_patchy :
    let s : Scope := { database := { table := some { closure := patchy } } }
    (∃ report u s', repairAll.on s = (.ok report, s') ∧ s'.Holds u ∧ report.Accounts patchy u) ∧
      ∃ report u s', (repairPair (.ofNat 5) (.ofNat 3)).on s = (.ok report, s') ∧ s'.Holds u ∧
        report.Accounts patchy u ∧ report.depthsLowered = 1 := by
  intro s
  have h : s.Holds patchy := ⟨rfl, rfl⟩
  obtain ⟨⟨report, u, s', hall, hu, hacc, -⟩, hpair⟩ := repairs_account h
  refine ⟨⟨report, u, s', hall, hu, hacc⟩, ?_⟩
  have hfault : pairFault? patchy (.ofNat 5) (.ofNat 3) = none := by decide +kernel
  have hdepth : (rooted patchy 3 5).depth? 3 5 = some 4 := by decide +kernel
  have hread : readDepth (rooted patchy 3 5) (.ofNat 3) (.ofNat 5) = .ok (some (.ofNat 4)) :=
    readDepth_of_lt hdepth (by decide)
  have hrun := (repairPair_eq_ok_iff h).2 ⟨hfault, _, hread, rfl, rfl⟩
  obtain ⟨u, hu, hacc, -⟩ := hpair _ _ _ _ hrun
  exact ⟨_, u, _, hrun, hu, hacc, by decide +kernel⟩

end Hierarchy

end Tenancy
