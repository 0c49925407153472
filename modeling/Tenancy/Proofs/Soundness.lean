import Tenancy.Proofs.Acceptance

namespace Tenancy

/-!
# Changes keep tables sound

A sound table need not come from a forest: an id may have several parents, and rows may be deeper
than any way that the other rows lead.  Insertions and moves keep it sound all the same, as long as
the depths that a new parent gives are exact.

* `Closure.sound_iff_rows` — soundness, told from the rows one by one; so it can be decided.
* `Hierarchy.plantable_of_insertFault?`, `Hierarchy.movable_of_moveFault?` — what the checks before
  a change make sure of.
* `Hierarchy.sound_of_insert_or_move` — a change that succeeds leaves a sound table.
* `Hierarchy.not_sound_of_move_heavy` — a move whose depths are rounded need not.
-/

variable {t : Closure} {s s' : Scope} {tenant parent id : TenantId} {verbose : Bool}

/-! ### Soundness by rows -/

namespace Closure

instance : Decidable t.Closed :=
  inferInstanceAs
    (Decidable (∀ r ∈ t.hops, ∃ k ≤ r.depth, t.depth? r.ancestor r.descendant = some k))

/-- Soundness is a matter of each row, each id and each two rows that meet. -/
theorem sound_iff_rows : t.Sound ↔ (∀ n ∈ t.ids.toList, t.depth? n n = some 0) ∧ t.Closed ∧
    (∀ r ∈ t.rows, r.ancestor ≠ r.descendant →
      t.joins r.descendant r.ancestor = false ∧ r.depth ≠ 0) ∧ t.mentions 0 = false := by
  -- what is said of all pairs needs to be looked at for the rows only, and so can be decided
  constructor
  · intro h
    obtain ⟨hself, hclosed⟩ := repaired_eq_self_iff.1 h.repaired_eq
    refine ⟨fun n hn => hself n (Std.ExtTreeSet.mem_toList.1 hn), hclosed, ?_, h.rootless⟩
    intro r hr hne
    have hrow : t.depth? r.ancestor r.descendant = some r.depth := mem_rows.1 hr
    refine ⟨?_, fun hz => h.pos _ _ hne (hz ▸ hrow)⟩
    rw [← Bool.not_eq_true]
    exact fun hback => h.antisymm _ _ hne ⟨joins_of_depth? hrow, hback⟩
  · rintro ⟨hself, hclosed, hrows, hroot⟩
    have hrow : ∀ a d k, a ≠ d → t.depth? a d = some k → t.joins d a = false ∧ k ≠ 0 :=
      fun a d k hne hk => hrows ⟨a, d, k⟩ (mem_rows.2 hk) hne
    refine ⟨repaired_eq_self_iff.2 ⟨fun n hn => hself n (Std.ExtTreeSet.mem_toList.2 hn), hclosed⟩,
      ?_, fun a d hne hk => (hrow a d 0 hne hk).2 rfl, hroot⟩
    rintro a b hne ⟨hab, hba⟩
    obtain ⟨k, hk⟩ := joins_iff.1 hab
    rw [(hrow a b k hne hk).1] at hba
    cases hba

instance : Decidable t.Sound := decidable_of_iff _ sound_iff_rows.symm

end Closure

namespace Hierarchy

/-! ### What the checks make sure of -/

/-- What the checks of an insertion let pass can be planted. -/
theorem plantable_of_insertFault? (h : insertFault? t parent id = none) :
    t.Plantable parent.cell id.cell := by
  obtain ⟨⟨hid, -⟩, -, -, habsent, hparent⟩ := insertFault?_eq_none_iff.1 h
  exact ⟨mt cell_eq_zero_iff.1 hid, habsent, hparent.imp_left cell_eq_zero_iff.2⟩

/-- What the checks of a move let pass has passed the guard against cycles. -/
theorem cycleFault?_of_moveFault? (h : moveFault? t tenant parent = none) :
    cycleFault? t tenant parent = none :=
  cycleFault?_eq_none_iff.2 ((moveFault?_eq_none_iff.1 h).2.2.1.imp_right not_inSubtree_iff.1)

/-- No row leads to the id 0, so that the guard against cycles may leave it out. -/
theorem movable_of_moveFault? (hroot : (0 : Int) ∉ t.ids) (h : moveFault? t tenant parent = none) :
    t.Movable tenant.cell parent.cell := by
  obtain ⟨-, -, -, htenant, hparent⟩ := moveFault?_eq_none_iff.1 h
  refine ⟨htenant, hparent.imp_left cell_eq_zero_iff.2, fun hj => ?_⟩
  rcases outside_of_cycleFault? (cycleFault?_of_moveFault? h) with hzero | hout
  · exact hroot (hzero ▸ (Closure.mem_ids_of_joins hj).2)
  · exact hout (.inr hj)

/-! ### Changes of sound tables -/

/-- A new leaf keeps a sound table sound, as long as the depths of the table fit a cell. -/
theorem sound_planted (ht : t.Sound) (hfit : t.Fits) (h : insertFault? t parent id = none) :
    (t.planted parent.cell id.cell).Sound := by
  obtain ⟨hord, hshort⟩ := hfit.sound_iff.1 ht
  have hp := plantable_of_insertFault? h
  exact (Closure.sound_iff (hfit.planted hord hp)).2 ⟨hord.planted hp, hshort.planted hord hp hfit⟩

/-- A move keeps a sound table sound, as long as the new depths fit a cell. -/
theorem sound_moved (ht : t.Sound) (hfit : t.Fits)
    (hplace : parent ≠ .root → t.PlaceFits tenant.cell parent.cell)
    (h : moveFault? t tenant parent = none) : (t.moved tenant.cell parent.cell).Sound := by
  obtain ⟨hord, hshort⟩ := hfit.sound_iff.1 ht
  have hm := movable_of_moveFault? hord.rootless h
  have hplace' : parent.cell ≠ 0 → t.PlaceFits tenant.cell parent.cell :=
    fun hz => hplace fun he => hz (cell_eq_zero_iff.2 he)
  exact (hfit.moved hord hm hplace').sound_iff.2
    ⟨hord.moved hm, hshort.moved hord hm hplace'⟩

/-- **Changes keep a table sound.** Let all depths of a sound table be whole numbers that cells
    hold.  After an insertion that succeeds, with or without a parent, the table is sound again.  So
    it is after a move that succeeds, unless a depth that a new parent gives was too large to be
    exact. -/
theorem sound_of_insert_or_move (h : s.Holds t) (ht : t.Sound) (hfit : t.Fits) :
    (∀ parent id s', (insert parent id).on s = (.ok (), s') → ∃ u, s'.Holds u ∧ u.Sound) ∧
      ∀ tenant parent verbose s',
        (parent ≠ .root → t.PlaceFits tenant.cell parent.cell) →
        (move tenant parent verbose).on s = (.ok (), s') → ∃ u, s'.Holds u ∧ u.Sound := by
  constructor
  · intro parent id s' hok
    rw [insert_on h] at hok
    cases hfault : insertFault? t parent id with
    | some e =>
      rw [hfault] at hok
      cases hok
    | none =>
      rw [hfault] at hok
      cases hok
      exact ⟨_, h.after, sound_planted ht hfit hfault⟩
  · intro tenant parent verbose s' hplace hok
    rw [move_on h] at hok
    cases hfault : moveFault? t tenant parent with
    | some e =>
      rw [hfault] at hok
      cases hok
    | none =>
      rw [hfault] at hok
      cases hplan : forewarning t tenant parent verbose with
      | error e =>
        rw [hplan] at hok
        cases hok
      | ok es =>
        -- the plan is told before the first write and has no part in the rows
        rw [hplan] at hok
        cases hok
        exact ⟨_, h.after, sound_moved ht hfit hplace hfault⟩

/-- A table in which 3 has two parents, 1 and 2. -/
def twoParents : Closure := (Closure.empty.fill
  [⟨1, 1, 0⟩, ⟨2, 2, 0⟩, ⟨3, 3, 0⟩, ⟨1, 3, 1⟩, ⟨2, 3, 1⟩]).closure

/-- Putting 2 under 1 leaves 3 with a parent that is also its parent's parent. -/
theorem sound_of_insert_or_move_twoParents :
    let s : Scope := { database := { table := some { closure := twoParents } } }
    (∃ u, ((insert (.ofNat 3) (.ofNat 4)).on s).2.Holds u ∧ u.Sound) ∧
      ∃ u, ((move (.ofNat 2) (.ofNat 1) false).on s).2.Holds u ∧ u.Sound := by
  intro s
  have h : s.Holds twoParents := ⟨rfl, rfl⟩
  have hsound : twoParents.Sound := by decide +kernel
  have hwithin : twoParents.Within 1 := by decide +kernel
  have hfit : twoParents.Fits := hwithin.mono (by decide)
  have hinsert : ((insert (.ofNat 3) (.ofNat 4)).on s).1 = .ok () := by
    have hfault : insertFault? twoParents (.ofNat 3) (.ofNat 4) = none := by decide +kernel
    rw [insert_on h, hfault]
  have hmove : ((move (.ofNat 2) (.ofNat 1) false).on s).1 = .ok () := by
    have hfault : moveFault? twoParents (.ofNat 2) (.ofNat 1) = none := by decide +kernel
    rw [move_on h, hfault]
    rfl
  exact ⟨(sound_of_insert_or_move h hsound hfit).1 _ _ _ (Prod.ext hinsert rfl),
    (sound_of_insert_or_move h hsound hfit).2 _ _ _ _ (fun _ => hwithin.placeFits (by decide))
      (Prod.ext hmove rfl)⟩

/-- A table with a row as deep as a cell allows.  Below 3 there are two rows that stand for a
    third. -/
def heavy : Closure := (Closure.empty.fill
  [⟨1, 1, 0⟩, ⟨2, 2, 0⟩, ⟨3, 3, 0⟩, ⟨4, 4, 0⟩, ⟨5, 5, 0⟩, ⟨1, 2, TenantId.maxCell⟩, ⟨3, 4, 1024⟩,
    ⟨4, 5, 1⟩, ⟨3, 5, 1025⟩]).closure

/-- **Sums that are not exact.**  Putting 3 under 2 takes what is below it beyond what cells hold.
    The row from 1 to 4 is the first float, and the one from 1 to 5 is rounded up to the next: it is
    deeper than the two rows together that stand for it. -/
theorem not_sound_of_move_heavy :
    let s : Scope := { database := { table := some { closure := heavy } } }
    heavy.Sound ∧ heavy.Fits ∧
      ∃ s', (move (.ofNat 3) (.ofNat 2) false).on s = (.ok (), s') ∧
        ∃ u, s'.Holds u ∧ u.depth? 1 4 = some (TenantId.maxCell + 1) ∧ u.depth? 4 5 = some 1 ∧
          u.depth? 1 5 = some (TenantId.maxCell + 2049) ∧ ¬u.Sound := by
  intro s
  have h : s.Holds heavy := ⟨rfl, rfl⟩
  have hfault : moveFault? heavy (.ofNat 3) (.ofNat 2) = none := by decide +kernel
  have hrun : (move (.ofNat 3) (.ofNat 2) false).on s = _ := move_on h
  rw [hfault] at hrun
  have hrows : (heavy.moved 3 2).depth? 1 4 = some (TenantId.maxCell + 1) ∧
      (heavy.moved 3 2).depth? 4 5 = some 1 ∧
      (heavy.moved 3 2).depth? 1 5 = some (TenantId.maxCell + 2049) := by decide +kernel
  have hunsound : ¬(heavy.moved 3 2).Sound := by
    intro hsound
    obtain ⟨-, hclosed⟩ := Closure.repaired_eq_self_iff.1 hsound.repaired_eq
    obtain ⟨k, hle, hk⟩ := Closure.closed_iff.1 hclosed 1 4 5 _ _ (Nat.succ_pos _) Nat.one_pos
      (by decide) hrows.1 hrows.2.1
    -- one level more than the first float is the first float again
    have hsum : Cell.sum (TenantId.maxCell + 1) 1 < TenantId.maxCell + 2049 := by decide +kernel
    rw [hrows.2.2, Option.some.injEq] at hk
    exact Nat.not_lt.2 hle (hk ▸ hsum)
  exact ⟨by decide +kernel, by decide +kernel, _, hrun, heavy.moved 3 2, h.after, hrows.1,
    hrows.2.1, hrows.2.2, hunsound⟩

end Hierarchy

end Tenancy
