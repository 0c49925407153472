import Tenancy.Proofs.RepairCounts
import Tenancy.Proofs.Moves

namespace Tenancy

/-!
# Repairing one parent edge

The repair of a parent edge writes the self rows of its two ids, the parent edge, and the rows that
the child lacks from the ancestors of the parent, each statement on what the one before has left.
Together they come to an exact change of the table, whatever it holds, and a second repair changes
nothing.

* `Closure.Adopts` — the change, pair by pair.
* `Closure.adopts_rooted` — the statements of the repair come to this change.
* `Closure.Adopts.adopt_eq` — on the changed table they change nothing any more.
* `Hierarchy.repairPair_effect` — the repair of a parent edge that succeeds.
-/

variable {s s' : Scope} {t u : Closure} {parent child a d : Int}

namespace Closure

/-! ### The change of the table -/

/-- `u` is the table `t` in which `child` has been put below `parent`: no row is there that is not
    said to be here. -/
structure Adopts (t u : Closure) (parent child : Int) : Prop where
  /-- Self rows are added where there are none; a self row of another depth stays. -/
  selves : ∀ n, n = parent ∨ n = child → u.depth? n n = some ((t.depth? n n).getD 0)
  /-- The parent edge has depth 1, unless it was there at depth 0. -/
  edge : u.depth? parent child = some (if t.depth? parent child = some 0 then 0 else 1)
  /-- Rows that lead to the child stay, and the ancestors of the parent are added one level deeper.
      For depths that fit this is `Adopts.inherited_of_fits`. -/
  inherited : ∀ a, a ≠ parent → a ≠ child →
    u.depth? a child = (t.depth? a child).or ((t.depth? a parent).map (Cell.sum · 1))
  others : ∀ a d, d ≠ child → ¬(a = parent ∧ d = parent) → u.depth? a d = t.depth? a d

/-- Self rows are added to the two ids where they have none. -/
theorem depth?_rooted : (Hierarchy.rooted t parent child).depth? a d
    = (t.depth? a d).or (if a = d ∧ (a = parent ∨ a = child) then some 0 else none) := by
  rw [Hierarchy.rooted, depth?_plant, depth?_plant, Option.or_assoc]
  congr 1
  by_cases hd : a = d
  · subst hd
    simp only [and_self, true_and]
    by_cases hp : a = parent
    · rw [if_pos hp, if_pos (Or.inl hp)]
      rfl
    · simp [hp]
  · have hnot : ∀ n, ¬(a = n ∧ d = n) := fun n h => hd (h.1.trans h.2.symm)
    rw [if_neg (hnot parent), if_neg (hnot child), if_neg fun h => hd h.1]
    rfl

/-- Rows that are not self rows are untouched by the first two statements. -/
theorem depth?_rooted_of_ne (h : a ≠ d) :
    (Hierarchy.rooted t parent child).depth? a d = t.depth? a d := by
  rw [depth?_rooted, if_neg fun hd => h hd.1, Option.or_none]

/-- **The statements of the repair** come to the change, one after the other.  The self row of the
    parent is not copied to the child, and no row is copied from one that has just been written. -/
theorem adopts_rooted (hne : parent ≠ child) (hback : t.depth? child parent = none) :
    t.Adopts ((Hierarchy.rooted t parent child).adopt parent child) parent child where
  -- a self row that was there keeps its depth, even a wrong one
  selves n hn := by
    have hself : (Hierarchy.rooted t parent child).depth? n n = some ((t.depth? n n).getD 0) := by
      rw [depth?_rooted, if_pos ⟨rfl, hn⟩]
      cases t.depth? n n <;> rfl
    rw [depth?_adopt hne]
    by_cases hc : n = child
    · subst hc
      rw [if_pos rfl, if_neg (Ne.symm hne), if_pos rfl, hself]
    · rw [if_neg hc, hself]
  edge := by
    rw [depth?_adopt hne, if_pos rfl, if_pos rfl, depth?_rooted_of_ne hne]
    -- an edge at depth 0 is not raised; a longer one is lowered to 1
    cases t.depth? parent child with
    | none => rfl
    | some k =>
      cases k with
      | zero => rfl
      | succ k => simp
  inherited a hp hc := by
    rw [depth?_adopt hne, if_pos rfl, if_neg hp, if_neg hc, depth?_rooted_of_ne hc,
      depth?_rooted_of_ne hp]
  others a d hd hp := by
    have hnot : ¬(a = d ∧ (a = parent ∨ a = child)) := by
      rintro ⟨rfl, ha⟩
      exact ha.elim (fun he => hp ⟨he, he⟩) hd
    rw [depth?_adopt hne, if_neg hd, depth?_rooted, if_neg hnot, Option.or_none]

namespace Adopts

variable (h : t.Adopts u parent child)

include h

/-- The parent and its ancestors are ancestors of the child. -/
theorem joins_of_inSupertree (hne : parent ≠ child) (hback : t.depth? child parent = none)
    (ha : u.InSupertree parent a) : u.joins a child = true := by
  have hedge : u.joins parent child = true := joins_of_depth? h.edge
  rcases ha with rfl | hj
  · exact hedge
  · by_cases hp : a = parent
    · rwa [hp]
    -- above the parent nothing has changed, and what lies there was inherited or there before
    · have hrow : u.depth? a parent = t.depth? a parent := h.others a parent hne fun he => hp he.1
      have hc : a ≠ child := by
        rintro rfl
        rw [joins, hrow, hback] at hj
        cases hj
      obtain ⟨k, hk⟩ := joins_iff.1 hj
      rw [joins, h.inherited a hp hc, ← hrow, hk]
      cases t.depth? a child <;> rfl

/-- Depths that fit are exact a level deeper, the largest of them too. -/
theorem inherited_of_fits (hfit : t.Fits) (hp : a ≠ parent) (hc : a ≠ child) :
    u.depth? a child = (t.depth? a child).or ((t.depth? a parent).map (· + 1)) := by
  rw [h.inherited a hp hc, hfit.map_sum_one]

/-- Nothing is left to be done by the statements of the repair. -/
theorem rooted_eq : Hierarchy.rooted u parent child = u := by
  rw [Hierarchy.rooted, plant_eq_self (h.selves parent (.inl rfl)),
    plant_eq_self (h.selves child (.inr rfl))]

/-- A second adoption finds everything as the first has left it. -/
theorem adopt_eq (hne : parent ≠ child) :
    (Hierarchy.rooted u parent child).adopt parent child = u := by
  refine ext fun a d => ?_
  rw [h.rooted_eq, depth?_adopt hne]
  by_cases hd : d = child
  · subst hd
    rw [if_pos rfl]
    by_cases hp : a = parent
    · subst hp
      rw [if_pos rfl, h.edge]
      split <;> rfl
    · rw [if_neg hp]
      by_cases hc : a = d
      · rw [if_pos hc, hc]
      · -- what the ancestor of the parent offers was offered to the child before
        rw [if_neg hc, h.others a parent hne fun he => hp he.1, h.inherited a hp hc,
          Option.or_assoc, Option.or_self]
  · rw [if_neg hd]

end Adopts

end Closure

namespace Hierarchy

variable {tenant parent : TenantId} {report : RepairReport}

/-- What repairing a parent edge again comes to, once it has been repaired. -/
theorem repairPair_again (h : s.Holds u) (hadopts : t.Adopts u parent.cell tenant.cell)
    (hfault : pairFault? t tenant parent = none) :
    ∃ again s'', (repairPair tenant parent).on s = (.ok again, s'') ∧ s''.database = s.database ∧
      again.isNoop = true := by
  obtain ⟨htenant, hparent, hne, hback⟩ := pairFault?_eq_none_iff.1 hfault
  have hne' : parent.cell ≠ tenant.cell := fun he => hne (TenantId.cell_inj.1 he).symm
  have hback' : u.depth? tenant.cell parent.cell = none := by
    rw [hadopts.others _ _ hne' fun he => hne' he.1.symm, hback]
  have hagain : pairFault? u tenant parent = none :=
    pairFault?_eq_none_iff.2 ⟨htenant, hparent, hne, hback'⟩
  -- the edge is at depth 0 or 1 by now, so the second run can read it
  have hsmall : (if t.depth? parent.cell tenant.cell = some 0 then 0 else 1) < UInt32.size := by
    split <;> decide
  have hread :=
    readDepth_of_lt ((congrArg (·.depth? parent.cell tenant.cell) hadopts.rooted_eq).trans
    hadopts.edge) hsmall
  have hrun := (repairPair_eq_ok_iff h).2 ⟨hagain, _, hread, rfl, rfl⟩
  have hnoop := (accounts_adopt hread).isNoop_iff.2 (hadopts.adopt_eq hne')
  rw [hadopts.adopt_eq hne', h.after_same] at hrun
  exact ⟨_, _, hrun, rfl, hnoop⟩

/-- **The repair of a parent edge**, on any table that it succeeds on: self rows are added to the
    two ids where they have none; the parent edge gets depth 1, unless it was there at depth 0; the
    rows that the child lacks are added from the ancestors of the parent, just one level deeper if
    depths fit cells; and no other row is changed, added or taken away.  Then the parent and its
    ancestors are ancestors of the child, and repairing the same edge again succeeds, tells of no
    change and makes none. -/
theorem repairPair_effect (h : s.Holds t)
    (hok : (repairPair tenant parent).on s = (.ok report, s')) :
    ∃ u, s'.Holds u ∧ t.Adopts u parent.cell tenant.cell ∧
      (t.Fits → ∀ a, a ≠ parent.cell → a ≠ tenant.cell → u.depth? a tenant.cell
        = (t.depth? a tenant.cell).or ((t.depth? a parent.cell).map (· + 1))) ∧
      (∀ a, u.InSupertree parent.cell a → u.joins a tenant.cell = true) ∧
      ∃ again s'', (repairPair tenant parent).on s' = (.ok again, s'') ∧
        s''.database = s'.database ∧ again.isNoop = true := by
  obtain ⟨hfault, existing, hread, rfl, rfl⟩ := (repairPair_eq_ok_iff h).1 hok
  obtain ⟨-, -, hne, hback⟩ := pairFault?_eq_none_iff.1 hfault
  have hne' : parent.cell ≠ tenant.cell := fun he => hne (TenantId.cell_inj.1 he).symm
  have hadopts := Closure.adopts_rooted hne' hback
  exact ⟨_, h.after, hadopts, fun hfit _ => hadopts.inherited_of_fits hfit,
    fun a => hadopts.joins_of_inSupertree hne' hback, repairPair_again h.after hadopts hfault⟩

/-- A table in which 2 is recorded five levels below itself, and nine above 3, which has no self
    row; of the ids above 2, only 4 is above 3 as well, and −8 is none that a tenant has. -/
def neglected : Closure := (Closure.empty.fill
  [⟨2, 2, 5⟩, ⟨1, 2, 1⟩, ⟨4, 2, 7⟩, ⟨4, 3, 1⟩, ⟨2, 3, 9⟩, ⟨-8, 2, 0⟩]).closure

/-- When 3 is put under 2 again, it gets its self row and the two ancestors that it lacks. -/
theorem repairPair_effect_neglected :
    let s : Scope := { database := { table := some { closure := neglected } } }
    ∃ report s' u, (repairPair (.ofNat 3) (.ofNat 2)).on s = (.ok report, s') ∧ s'.Holds u ∧
      u.depth? 2 2 = some 5 ∧ u.depth? 3 3 = some 0 ∧ u.depth? 2 3 = some 1 ∧
      u.depth? 1 3 = some 2 ∧ u.depth? 4 3 = some 1 ∧ u.depth? (-8) 3 = some 1 ∧
        u.depth? 4 2 = some 7 := by
  intro s
  have h : s.Holds neglected := ⟨rfl, rfl⟩
  have hfault : pairFault? neglected (.ofNat 3) (.ofNat 2) = none := by decide +kernel
  have hdepth : (rooted neglected 2 3).depth? 2 3 = some 9 := by decide +kernel
  have hread : readDepth (rooted neglected 2 3) (.ofNat 2) (.ofNat 3) = .ok (some (.ofNat 9)) :=
    readDepth_of_lt hdepth (by decide)
  have hrun := (repairPair_eq_ok_iff h).2 ⟨hfault, _, hread, rfl, rfl⟩
  obtain ⟨u, hu, hadopts, hinherited, -⟩ := repairPair_effect h hrun
  have hfit : neglected.Fits := by decide +kernel
  refine ⟨_, _, u, hrun, hu, hadopts.selves 2 (.inl rfl), hadopts.selves 3 (.inr rfl), hadopts.edge,
    (hinherited hfit 1 ?_ ?_).trans ?_, (hinherited hfit 4 ?_ ?_).trans ?_,
    (hinherited hfit (-8) ?_ ?_).trans ?_, (hadopts.others 4 2 ?_ ?_).trans ?_⟩
  all_goals decide +kernel

end Hierarchy

end Tenancy
