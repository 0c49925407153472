import Tenancy.Proofs.Relocation

namespace Tenancy.Hierarchy

/-!
# The parent edge after a move

A move under a new parent has written the parent edge as soon as the subtree is attached, whatever
rows were there before: a row from the new parent at another depth was deleted or is lowered, and
the new place gives depth 1 even where the self rows of both ends are missing or wrong.  So there is
never a parent edge to be restored.  The other parent edges into the tenant are gone, unless the new
parent has an ancestor at no distance, which comes along as a second parent.

* `moveOr_eq_move` — what would be done if the parent edge were missing makes no difference.
* `not_restored_of_move` — a move never tells that it has restored the parent edge.
* `move_edge` — the parent edges into the tenant after a move that succeeds.
-/

variable {s s' : Scope} {t : Closure} {tenant parent : TenantId} {verbose : Bool}

/-- **There is nothing to restore.** Whatever a move did should it find the parent edge missing
    after it has attached the subtree, its runs would be the same. -/
theorem moveOr_eq_move {otherwise : Nat → Work Nat} (h : s.Holds t) :
    (moveOr otherwise tenant parent verbose).on s = (move tenant parent verbose).on s := by
  rw [moveOr_on h, move_on h]

/-- A move that succeeds tells its plan, if any, and of what it did, but never of a parent edge that
    it has restored. -/
theorem not_restored_of_move (h : s.Holds t)
    (hok : (move tenant parent verbose).on s = (.ok (), s')) :
    ∃ es, s'.trail = s.trail ++ es ∧ ∀ id p, .told (.directEdgeRepaired id p) ∉ es := by
  obtain ⟨-, plan, hplan, rfl⟩ := (move_eq_ok_iff h).1 hok
  refine ⟨_, rfl, fun id p hmem => ?_⟩
  rcases List.mem_append.1 hmem with hmem | hmem
  · obtain ⟨sub, sup, he⟩ := eq_planned_of_mem hplan hmem
    cases he
  · cases List.mem_singleton.1 hmem

/-- **The parent edge after a move.**  On any table, when a move succeeds:

    * it would have ended in the same way whatever it did with a parent edge that it finds missing
      after the subtree is attached (see `move_eq_moveOr`), and it does not tell of such an edge;
    * under a parent, the last statement that writes is the one that attaches the subtree, and it
      leaves the parent edge at depth 1; if no other id was at depth 0 above the parent, then this
      is the only parent edge into the tenant, and the parent is told without a warning;
    * without a parent, no parent edge into the tenant is left, provided that no row mentioned the
      id 0. -/
theorem move_edge (h : s.Holds t) (hok : (move tenant parent verbose).on s = (.ok (), s')) :
    (∀ otherwise, (moveOr otherwise tenant parent verbose).on s = (.ok (), s')) ∧
    (∃ es, s'.trail = s.trail ++ es ∧ ∀ id p, .told (.directEdgeRepaired id p) ∉ es) ∧
    ∃ u, s'.Holds u ∧
      (parent ≠ .root →
        u = ((t.cut tenant.cell parent.cell).attach tenant.cell parent.cell).closure ∧
        u.depth? parent.cell tenant.cell = some 1 ∧
        ((∀ x, x ≠ parent.cell → t.depth? x parent.cell ≠ some 0) →
          (∀ x, u.depth? x tenant.cell = some 1 ↔ x = parent.cell) ∧
          (parentOf tenant).on s' = (.ok (some parent), s'))) ∧
      (parent = .root → (0 : Int) ∉ t.ids → ∀ x, u.depth? x tenant.cell ≠ some 1) := by
  refine ⟨fun otherwise => (moveOr_eq_move h).trans hok, not_restored_of_move h hok, ?_⟩
  obtain ⟨hfault, hafter⟩ := holds_of_move h hok
  obtain ⟨⟨-, htenant⟩, hparent, -⟩ := moveFault?_eq_none_iff.1 hfault
  have hguard := outside_of_cycleFault? (cycleFault?_of_moveFault? hfault)
  refine ⟨_, hafter, fun hne => ?_, ?_⟩
  · have hz : parent.cell ≠ 0 := mt cell_eq_zero_iff.1 hne
    have hedge := Closure.depth?_moved_edge hz (hguard.resolve_left hz)
    refine ⟨Closure.moved_of_ne_zero hz, hedge, fun hapart => ?_⟩
    have honly : ∀ x, (t.moved tenant.cell parent.cell).depth? x tenant.cell = some 1 ↔
        x = parent.cell := by
      intro x
      constructor
      · intro hx
        by_contra hxp
        obtain ⟨-, hzero⟩ := (Closure.eq_parent_or_of_edge hguard hx).resolve_left hxp
        exact hapart x hxp hzero
      · rintro rfl
        exact hedge
    refine ⟨honly, on_parentOf hafter htenant (fun p hp => ?_) fun x => ?_⟩
    · rwa [← Option.mem_some.1 hp]
    · rw [honly, Option.map_some, Option.some.injEq, eq_comm]
  · rintro rfl hroot x hx
    -- only the id 0 could still be recorded as a parent
    obtain rfl := (Closure.eq_parent_or_of_edge hguard hx).resolve_right fun hn => hn.1 rfl
    have hcut : (t.cut tenant.cell 0).depth? 0 tenant.cell = some 1 := by
      rw [← Closure.moved_zero]
      exact hx
    obtain ⟨hold, -⟩ := Closure.depth?_cut_eq_some_iff.1 hcut
    exact hroot (Closure.mem_ids_of_joins (Closure.joins_of_depth? hold)).1

/-- A table in which 2 has the parents 1 and 3, and a row of depth 9 from 4; its own row and that of
    4 are not at depth 0. -/
def crowded : Closure := (Closure.empty.fill
  [⟨1, 2, 1⟩, ⟨3, 2, 1⟩, ⟨2, 2, 1⟩, ⟨4, 4, 2⟩, ⟨4, 2, 9⟩]).closure

/-- When 2 is put under 4, then 4 is its only parent, and is told without a warning. -/
theorem move_edge_crowded :
    let s : Scope := { database := { table := some { closure := crowded } } }
    let s' := ((move (.ofNat 2) (.ofNat 4) false).on s).2
    ∃ u, s'.Holds u ∧ (∀ x, u.depth? x 2 = some 1 ↔ x = 4) ∧
      (parentOf (.ofNat 2)).on s' = (.ok (some (.ofNat 4)), s') := by
  intro s s'
  have h : s.Holds crowded := ⟨rfl, rfl⟩
  have hok : ((move (.ofNat 2) (.ofNat 4) false).on s).1 = .ok () := by
    have hfault : moveFault? crowded (.ofNat 2) (.ofNat 4) = none := by decide +kernel
    rw [move_on h, hfault]
    rfl
  have hrun : (move (.ofNat 2) (.ofNat 4) false).on s = (.ok (), s') := Prod.ext hok rfl
  have hapart : ∀ x, x ≠ 4 → crowded.depth? x 4 ≠ some 0 := by
    have hrows : ∀ r ∈ crowded.rows, r.descendant = 4 → r.depth ≠ 0 := by decide +kernel
    exact fun x _ hx => hrows ⟨x, 4, 0⟩ (Closure.mem_rows.2 hx) rfl rfl
  obtain ⟨-, -, u, hu, hedge, -⟩ := move_edge h hrun
  obtain ⟨-, -, honly⟩ := hedge (by decide)
  exact ⟨u, hu, honly hapart⟩

end Tenancy.Hierarchy
