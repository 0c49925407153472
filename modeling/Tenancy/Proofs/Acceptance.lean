import Tenancy.Proofs.Reading

namespace Tenancy

/-!
# When changes are accepted

An insertion or a move is refused for a fault that the table shows.  A verbose move tells its plan
before it writes, so that it fails as well if the plan holds an id or a distance that callers cannot
have.  Nothing else keeps a change from being made.

* `Hierarchy.insertFault?_eq_none_iff`, `Hierarchy.moveFault?_eq_none_iff`,
  `Hierarchy.pairFault?_eq_none_iff` — what an insertion, a move and the repair of a parent edge ask
  of the table.
* `Closure.Tellable` — the plan of a move can be told; `Hierarchy.exists_forewarning_iff`.
* `Hierarchy.insert_succeeds_iff`, `Hierarchy.move_succeeds_iff` — when a change succeeds.
* `Hierarchy.insert_eq_ok_iff`, `Hierarchy.move_eq_ok_iff`, `Hierarchy.repairPair_eq_ok_iff` — a
  change that succeeds, and what it leaves.
-/

variable {s s' : Scope} {t : Closure} {tenant parent id : TenantId} {verbose : Bool}

/-- Callers can have the id and the distance. -/
def Kin.Readable (k : Kin) : Prop :=
  (∃ id : TenantId, id.Storable ∧ id.cell = k.id) ∧ k.depth < UInt32.size

/-- The anchor of a list can be read. -/
theorem Kin.readable_anchor (hid : id.Storable) : Kin.Readable ⟨id.cell, 0⟩ :=
  ⟨⟨id, hid, rfl⟩, (by decide : 0 < UInt32.size)⟩

/-- All that a verbose move tells before it writes can be read. -/
structure Closure.Tellable (t : Closure) (tenant parent : TenantId) : Prop where
  subtree : ∀ m ∈ t.subtree tenant.cell, m.Readable
  supertree : parent ≠ .root → ∀ m ∈ t.supertree parent.cell, m.Readable

namespace Hierarchy

/-! ### Faults -/

/-- What an insertion needs of its ids and of the table. -/
theorem insertFault?_eq_none_iff : insertFault? t parent id = none ↔
    (id ≠ .root ∧ id.Storable) ∧ parent.Storable ∧ parent ≠ id ∧ id.cell ∉ t.ids ∧
      (parent = .root ∨ parent.cell ∈ t.ids) := by
  unfold insertFault?
  simp only [orElse_eq_none_iff, tenantFault?_eq_none_iff, storableFault?_eq_none_iff,
    parentFault?_eq_none_iff, ← Closure.mentions_iff, ite_eq_right_iff, reduceCtorEq, imp_false,
      ne_eq]

/-- Outside a subtree lies what is neither its root nor has a row from it. -/
theorem not_inSubtree_iff : ¬t.InSubtree tenant.cell parent.cell ↔
    parent ≠ tenant ∧ t.depth? tenant.cell parent.cell = none := by
  rw [Closure.InSubtree, not_or, TenantId.cell_inj, Closure.joins, Option.not_isSome_iff_eq_none]

/-- What a move needs of its ids and of the table, before its plan is read. -/
theorem moveFault?_eq_none_iff : moveFault? t tenant parent = none ↔
    (tenant ≠ .root ∧ tenant.Storable) ∧ parent.Storable ∧
      (parent = .root ∨ ¬t.InSubtree tenant.cell parent.cell) ∧
      tenant.cell ∈ t.ids ∧ (parent = .root ∨ parent.cell ∈ t.ids) := by
  unfold moveFault?
  simp only [orElse_eq_none_iff, tenantFault?_eq_none_iff, storableFault?_eq_none_iff,
    cycleFault?_eq_none_iff, parentFault?_eq_none_iff, ← Closure.mentions_iff, ite_eq_right_iff,
    reduceCtorEq, imp_false, Bool.not_eq_false, not_inSubtree_iff]

/-- What the repair of a pair needs of its ids and of the table. -/
theorem pairFault?_eq_none_iff : pairFault? t tenant parent = none ↔
    (tenant ≠ .root ∧ tenant.Storable) ∧ (parent ≠ .root ∧ parent.Storable) ∧ tenant ≠ parent ∧
      t.depth? tenant.cell parent.cell = none := by
  unfold pairFault?
  simp only [orElse_eq_none_iff, tenantFault?_eq_none_iff, reachFault?_eq_none_iff,
    ite_eq_right_iff, reduceCtorEq, imp_false, ne_eq]

/-! ### Plans that can be told -/

/-- What succeeds in two parts has succeeded in the first. -/
theorem exists_of_bind_eq_ok {ε α β : Type} {x : Except ε α} {f : α → Except ε β} {b : β}
    (h : (x >>= f) = .ok b) : ∃ a, x = .ok a ∧ f a = .ok b := by
  cases x with
  | error e => cases h
  | ok a => exact ⟨a, rfl, h⟩

/-- A list can be read just if each of its entries can. -/
theorem exists_readKin_iff {found : List Kin} :
    (∃ rs, readKin found = .ok rs) ↔ ∀ k ∈ found, k.Readable := by
  constructor
  · rintro ⟨rs, hrs⟩ k hk
    obtain ⟨hmap, hstore⟩ := readKin_eq_ok_iff.1 hrs
    rw [← hmap] at hk
    obtain ⟨r, hr, rfl⟩ := List.mem_map.1 hk
    exact ⟨⟨r.id, hstore r hr, rfl⟩, r.depth.toNat_lt⟩
  · exact exists_readKin

/-- Relatives are read exactly as they are listed, and with ids that can be stored. -/
theorem readRelatives_eq_ok_iff {step : String} {kin : List Kin} {rs : List Relative} :
    readRelatives step kin = .ok rs ↔
      rs.map Relative.kin = kin ∧ ∀ r ∈ rs, r.id.Storable := by
  rw [← readKin_eq_ok_iff, readRelatives]
  cases readKin kin <;> simp [Except.mapError]

/-- A list of relatives can be read if each of its members can. -/
theorem exists_readRelatives_iff {step : String} {kin : List Kin} :
    (∃ rs, readRelatives step (byDistance kin) = .ok rs) ↔ ∀ k ∈ kin, k.Readable := by
  simp only [readRelatives_eq_ok_iff, ← readKin_eq_ok_iff]
  rw [exists_readKin_iff]
  exact forall_congr' fun k => imp_congr_left mem_byDistance

/-- A move that is not verbose tells nothing before it writes; a verbose one tells its plan. -/
theorem exists_forewarning_iff : (∃ es, forewarning t tenant parent verbose = .ok es) ↔
    (verbose = true → t.Tellable tenant parent) := by
  cases verbose with
  | false => simp [forewarning]
  | true =>
    have hsub : (∃ rs,
      readRelatives "compute subtree" (byDistance (t.subtree tenant.cell)) = .ok rs) ↔
        ∀ k ∈ t.subtree tenant.cell, k.Readable := exists_readRelatives_iff
    have hsup : (∃ rs, readRelatives "compute supertree" (byDistance (t.supertree parent.cell))
        = .ok rs) ↔ ∀ k ∈ t.supertree parent.cell, k.Readable := exists_readRelatives_iff
    -- the subtree is read first, and the supertree only if there is a parent
    simp only [forewarning, planEvents, if_true, true_imp_iff]
    constructor
    · rintro ⟨es, hes⟩
      obtain ⟨sub, hs, hes⟩ := exists_of_bind_eq_ok hes
      refine ⟨hsub.1 ⟨sub, hs⟩, fun hz => ?_⟩
      rw [if_neg hz] at hes
      obtain ⟨sup, hp, -⟩ := exists_of_bind_eq_ok hes
      exact hsup.1 ⟨sup, hp⟩
    · rintro ⟨hbelow, habove⟩
      obtain ⟨sub, hs⟩ := hsub.2 hbelow
      by_cases hz : parent = .root
      · simp only [hs, hz, if_true]
        exact ⟨_, rfl⟩
      · obtain ⟨sup, hp⟩ := hsup.2 (habove hz)
        simp only [hs, hz, if_false, hp]
        exact ⟨_, rfl⟩

/-- The lists of a plan that is told are the subtree and the supertree, nearest first. -/
theorem planned_of_planEvents {es : List Event} (h : planEvents t tenant parent = .ok es) :
    ∃ sub sup, es = [.told (.movePlanned tenant parent sub sup)] ∧
      sub.map Relative.kin = byDistance (t.subtree tenant.cell) ∧
      sup.map Relative.kin
        = if parent = .root then [] else byDistance (t.supertree parent.cell) := by
  obtain ⟨sub, hsub, h⟩ := exists_of_bind_eq_ok h
  have hbelow := (readRelatives_eq_ok_iff.1 hsub).1
  by_cases hz : parent = .root
  · rw [if_pos hz] at h ⊢
    cases h
    exact ⟨sub, [], rfl, hbelow, rfl⟩
  · rw [if_neg hz] at h ⊢
    obtain ⟨sup, hsup, h⟩ := exists_of_bind_eq_ok h
    cases h
    exact ⟨sub, sup, rfl, hbelow, (readRelatives_eq_ok_iff.1 hsup).1⟩

/-- Nothing but the plan is told before a move writes. -/
theorem eq_planned_of_mem {es : List Event} {e : Event}
    (h : forewarning t tenant parent verbose = .ok es) (he : e ∈ es) :
    ∃ sub sup, e = .told (.movePlanned tenant parent sub sup) := by
  cases verbose with
  | false =>
    cases h
    cases he
  | true =>
    obtain ⟨sub, sup, rfl, -, -⟩ := planned_of_planEvents h
    exact ⟨sub, sup, List.mem_singleton.1 he⟩

/-! ### Changes that succeed -/

/-- **Insertion.** It succeeds exactly without a fault, and then plants the leaf. -/
theorem insert_eq_ok_iff (h : s.Holds t) : (insert parent id).on s = (.ok (), s') ↔
    insertFault? t parent id = none ∧
      s' = s.after (t.planted parent.cell id.cell) (insertEvents t parent id) := by
  rw [insert_on h]
  cases insertFault? t parent id with
  | some e => simp
  | none => simp [eq_comm]

/-- Whether an insertion succeeds is decided by its faults. -/
theorem insert_succeeds_iff (h : s.Holds t) :
    ((insert parent id).on s).1 = .ok () ↔ insertFault? t parent id = none := by
  rw [insert_on h]
  cases insertFault? t parent id <;> simp

/-- **Moves.** A move succeeds exactly if it has no fault and its plan can be read. -/
theorem move_eq_ok_iff (h : s.Holds t) : (move tenant parent verbose).on s = (.ok (), s') ↔
    moveFault? t tenant parent = none ∧ ∃ plan, forewarning t tenant parent verbose = .ok plan ∧
      s' = s.after (t.moved tenant.cell parent.cell)
        (plan ++ [.told (moveApplied t tenant parent)]) := by
  rw [move_on h]
  cases moveFault? t tenant parent with
  | some e => simp
  | none =>
    cases forewarning t tenant parent verbose with
    | error e => simp
    | ok plan => simp [eq_comm]

/-- Whether a move succeeds is decided by its faults, and by its plan if it is verbose. -/
theorem move_succeeds_iff (h : s.Holds t) : ((move tenant parent verbose).on s).1 = .ok () ↔
    moveFault? t tenant parent = none ∧ (verbose = true → t.Tellable tenant parent) := by
  rw [← exists_forewarning_iff, move_on h]
  cases moveFault? t tenant parent with
  | some e => simp
  | none => cases forewarning t tenant parent verbose <;> simp

/-- **Repair of a pair.** It succeeds exactly without a fault, if the depth of the edge can be
    read. -/
theorem repairPair_eq_ok_iff {report : RepairReport} (h : s.Holds t) :
    (repairPair tenant parent).on s = (.ok report, s') ↔ pairFault? t tenant parent = none ∧
      ∃ existing, readDepth (rooted t parent.cell tenant.cell) parent tenant = .ok existing ∧
        report = pairReport t tenant parent existing ∧
        s' = s.after ((rooted t parent.cell tenant.cell).adopt parent.cell tenant.cell)
          (pairEvents tenant parent report) := by
  rw [repairPair_on h]
  cases pairFault? t tenant parent with
  | some e => simp
  | none =>
    -- the depth is looked for after the self rows are written, so a failure here is no fault of the
    -- request
    cases readDepth (rooted t parent.cell tenant.cell) parent tenant with
    | error e => simp
    | ok existing =>
      simp only [Prod.mk.injEq, Except.ok.injEq, true_and, exists_eq_left']
      constructor
      · rintro ⟨rfl, rfl⟩
        exact ⟨rfl, rfl⟩
      · rintro ⟨rfl, rfl⟩
        exact ⟨rfl, rfl⟩

end Hierarchy

end Tenancy
