import Tenancy.Proofs.Moves
import Tenancy.Proofs.Soundness

namespace Tenancy

/-!
# Moves of damaged tables

Nothing makes sure that a table is consistent: self rows can be missing or lie too deep, rows can be
stale, an id can have several parents, and two ids can each be above the other.  What a move does
can be said all the same, row by row, from the rows that were there when it began.

* `Hierarchy.holds_of_move` — a move that succeeds was allowed, and leaves `Closure.moved`.
* `Hierarchy.move_effect` — the rows outside the subtree, into it and within it afterwards.
-/

variable {s s' : Scope} {t : Closure} {tenant parent : TenantId} {verbose : Bool}

namespace Hierarchy

/-- A move that succeeds found no fault, and leaves the table of the moved subtree. -/
theorem holds_of_move (h : s.Holds t) (hok : (move tenant parent verbose).on s = (.ok (), s')) :
    moveFault? t tenant parent = none ∧ s'.Holds (t.moved tenant.cell parent.cell) := by
  obtain ⟨hfault, plan, -, rfl⟩ := (move_eq_ok_iff h).1 hok
  exact ⟨hfault, h.after⟩

/-- **What a move does to any table.**  The subtree is the tenant, at depth 0, with the ids that its
    rows name, at the depths that these rows hold; the supertree is likewise the new parent with the
    ids whose rows end there.  When a move succeeds:

    * the rows that end outside the subtree are the same as before;
    * from outside into the subtree lead just the rows from the supertree, each as deep as its two
      parts and the new parent edge together, provided that these sums are exact; without a new
      parent there are none, provided that no row ended at the id 0;
    * the rows within the subtree are the same as before, provided that the subtree and the
      supertree have no id in common, and that no id of the subtree was recorded as a parent of the
      tenant. -/
theorem move_effect (h : s.Holds t) (hok : (move tenant parent verbose).on s = (.ok (), s')) :
    ∃ u, s'.Holds u ∧
      (∀ a d, ¬t.InSubtree tenant.cell d → u.depth? a d = t.depth? a d) ∧
      (parent ≠ .root → t.PlaceFits tenant.cell parent.cell →
        ∀ a d, t.InSubtree tenant.cell d → ¬t.InSubtree tenant.cell a →
        ∀ k, u.depth? a d = some k ↔ ∃ i j, t.supDepth? parent.cell a = some i ∧
          t.subDepth? tenant.cell d = some j ∧ k = i + j + 1) ∧
      (parent = .root → (∀ b, t.depth? b 0 = none) →
        ∀ a d, t.InSubtree tenant.cell d → ¬t.InSubtree tenant.cell a → u.depth? a d = none) ∧
      ((parent ≠ .root → ∀ n, t.InSupertree parent.cell n → ¬t.InSubtree tenant.cell n) →
        (∀ x, t.InSubtree tenant.cell x → t.depth? x tenant.cell ≠ some 1) →
        ∀ a d, t.InSubtree tenant.cell a → t.InSubtree tenant.cell d →
          u.depth? a d = t.depth? a d) := by
  obtain ⟨hfault, hafter⟩ := holds_of_move h hok
  -- the guard is all that is known of a damaged table: the new parent lies outside the subtree
  have hguard := outside_of_cycleFault? (cycleFault?_of_moveFault? hfault)
  have hroot : parent ≠ .root → parent.cell ≠ 0 := fun hz he => hz (cell_eq_zero_iff.1 he)
  refine ⟨_, hafter, fun a d hd => Closure.depth?_moved_outside hguard hd, ?_, ?_, ?_⟩
  · intro hz hfit a d hd ha k
    have hout := hguard.resolve_left (hroot hz)
    rw [Closure.depth?_moved_into (hroot hz) hout hd ha, hfit.placeDepth?_eq_some_iff]
  · rintro rfl hzero a d hd ha
    exact Closure.depth?_moved_into_zero hzero hd ha
  · intro hapart hedge a d ha hd
    refine Closure.depth?_moved_inside hguard ha (fun hz hsup => ?_) fun _ => hedge a ha
    exact hapart (fun he => hz (cell_eq_zero_iff.2 he)) a hsup ha

/-- A table without the self rows of 1, 3 and 5: 2 is recorded at depth 3 below itself, 5 is two
    levels above 4, and a row from 4 to 3 is left over that is too deep. -/
def ragged : Closure := (Closure.empty.fill
  [⟨1, 2, 1⟩, ⟨2, 2, 3⟩, ⟨2, 3, 1⟩, ⟨5, 4, 2⟩, ⟨4, 4, 1⟩, ⟨4, 3, 9⟩]).closure

/-- When 2 is put under 4, 5 gets above 3, the row from 4 to 3 is rewritten, the one from 1 to 2
    goes, and those from 2 stay. -/
theorem move_effect_ragged :
    let s : Scope := { database := { table := some { closure := ragged } } }
    ∃ u, ((move (.ofNat 2) (.ofNat 4) false).on s).2.Holds u ∧ u.depth? 5 3 = some 4 ∧
      u.depth? 4 3 = some 2 ∧ u.depth? 1 2 = none ∧ u.depth? 5 4 = some 2 ∧ u.depth? 2 2 = some 3 ∧
      u.depth? 2 3 = some 1 := by
  intro s
  have h : s.Holds ragged := ⟨rfl, rfl⟩
  have hok : ((move (.ofNat 2) (.ofNat 4) false).on s).1 = .ok () := by
    have hfault : moveFault? ragged (.ofNat 2) (.ofNat 4) = none := by decide +kernel
    rw [move_on h, hfault]
    rfl
  have hrun : (move (.ofNat 2) (.ofNat 4) false).on s
      = (.ok (), ((move (.ofNat 2) (.ofNat 4) false).on s).2) := Prod.ext hok rfl
  obtain ⟨u, hu, hout, hinto, -, hinside⟩ := move_effect h hrun
  have hroot : TenantId.ofNat 4 ≠ .root := by decide
  have hwithin : ragged.Within 9 := by decide +kernel
  have hfit : ragged.PlaceFits 2 4 := hwithin.placeFits (by decide)
  have htwo : ragged.InSubtree 2 2 ∧ ragged.InSubtree 2 3 := by decide +kernel
  have hothers : ¬ragged.InSubtree 2 1 ∧ ¬ragged.InSubtree 2 4 ∧ ¬ragged.InSubtree 2 5 := by
    decide +kernel
  have hapart : ∀ n, ragged.InSupertree 4 n → ¬ragged.InSubtree 2 n := by
    have hrows : ∀ r ∈ ragged.rows, r.descendant = 4 → ¬ragged.InSubtree 2 r.ancestor := by
      decide +kernel
    rintro n (rfl | hj)
    · exact hothers.2.1
    · obtain ⟨k, hk⟩ := Closure.joins_iff.1 hj
      exact hrows ⟨n, 4, k⟩ (Closure.mem_rows.2 hk) rfl
  have hedge : ∀ x, ragged.InSubtree 2 x → ragged.depth? x 2 ≠ some 1 := by
    have hrows : ∀ r ∈ ragged.rows, r.descendant = 2 → r.depth = 1 →
        ¬ragged.InSubtree 2 r.ancestor := by decide +kernel
    exact fun x hx hk => hrows ⟨x, 2, 1⟩ (Closure.mem_rows.2 hk) rfl rfl hx
  have hsub : ragged.subDepth? 2 2 = some 0 ∧ ragged.subDepth? 2 3 = some 1 := by decide +kernel
  have hsup : ragged.supDepth? 4 5 = some 2 ∧ ragged.supDepth? 4 4 = some 0 ∧
      ragged.supDepth? 4 1 = none := by decide +kernel
  have hrows : ragged.depth? 5 4 = some 2 ∧ ragged.depth? 2 2 = some 3 ∧
      ragged.depth? 2 3 = some 1 := by decide +kernel
  refine ⟨u, hu, ?_, ?_, ?_, (hout 5 4 hothers.2.1).trans hrows.1, ?_, ?_⟩
  · exact (hinto hroot hfit 5 3 htwo.2 hothers.2.2 4).2 ⟨2, 1, hsup.1, hsub.2, rfl⟩
  · exact (hinto hroot hfit 4 3 htwo.2 hothers.2.1 2).2 ⟨0, 1, hsup.2.1, hsub.2, rfl⟩
  · refine Option.eq_none_iff_forall_ne_some.2 fun k hk => ?_
    obtain ⟨i, -, hi, -⟩ := (hinto hroot hfit 1 2 htwo.1 hothers.1 k).1 hk
    have hnone : ragged.supDepth? 4 1 = some i := hi
    rw [hsup.2.2] at hnone
    cases hnone
  · exact (hinside (fun _ => hapart) hedge 2 2 htwo.1 htwo.1).trans hrows.2.1
  · exact (hinside (fun _ => hapart) hedge 2 3 htwo.1 htwo.2).trans hrows.2.2

end Hierarchy

end Tenancy
