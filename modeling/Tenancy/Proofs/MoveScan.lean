import Tenancy.Proofs.CycleScan
import Tenancy.Proofs.Presence
import Tenancy.Proofs.Transactions

namespace Tenancy

/-!
# The scan after a move

A store can look for circular references once a move is committed.  With or without this scan, the
move comes to the same and leaves the same database.  The scan tells of the table that the move has
left, and tells something just if two different ids in it have rows both ways.

* `Hierarchy.move_tells`, `Hierarchy.move_committed` — what a move tells, and what it leaves if it
  succeeds, whoever else may write.
* `Hierarchy.scanEvents_of_not_mutual`, `Hierarchy.scanEvents_of_mutual` — what the scan tells.
* `Store.scanning` — the store with the scan after a move switched on or off.
* `Store.moveTenant_eq`, `Store.scanAfterMove_eq` — a move in a store, and the scan that may follow
  it.
* `Store.moveTenant_scan` — moves with and without the scan.
-/

variable {scope scope' : Scope} {t u : Closure} {tenant parent : TenantId} {verbose : Bool}

/-- Two different ids have rows both ways. -/
def Closure.Mutual (t : Closure) (a d : Int) : Prop :=
  d ≠ a ∧ t.joins a d = true ∧ t.joins d a = true

instance {a d : Int} : Decidable (t.Mutual a d) := inferInstanceAs (Decidable (_ ∧ _ ∧ _))

namespace Hierarchy

/-! ### What a move tells and leaves -/

/-- A move that can write tells its plan, and that it has run. -/
theorem move_tells_of_holds (h : scope.Holds t) (tenant parent : TenantId) (verbose : Bool) :
    ∃ es, ((move tenant parent verbose).on scope).2.trail = scope.trail ++ es ∧
      ∀ ids, .told (.circularReference ids) ∉ es := by
  rw [move_on h]
  cases moveFault? t tenant parent with
  | some e => exact ⟨[], (List.append_nil _).symm, fun _ => List.not_mem_nil⟩
  | none =>
    cases hplan : forewarning t tenant parent verbose with
    | error e => exact ⟨[], (List.append_nil _).symm, fun _ => List.not_mem_nil⟩
    | ok plan =>
      refine ⟨_, rfl, fun ids hmem => ?_⟩
      -- the move itself tells its plan and its counts, and neither is a warning of cycles
      rcases List.mem_append.1 hmem with hmem | hmem
      · obtain ⟨sub, sup, he⟩ := eq_planned_of_mem hplan hmem
        cases he
      · cases List.mem_singleton.1 hmem

/-- **A move never tells of a circular reference**: where it cannot write, it tells no more than
    where it can. -/
theorem move_tells (h : scope.database.closure? = some t) (tenant parent : TenantId)
    (verbose : Bool) :
    ∃ es, ((move tenant parent verbose).on scope).2.trail = scope.trail ++ es ∧
      ∀ ids, .told (.circularReference ids) ∉ es := by
  have hsteps : (move tenant parent verbose).Stepwise True := stepwise_move
  have hfree : Scope.Holds { scope with access := .free } t := ⟨h, rfl⟩
  obtain ⟨es, hes⟩ := hsteps.plain.trail_extends (s := scope)
  obtain ⟨fs, hfs, hnone⟩ := move_tells_of_holds hfree tenant parent verbose
  have hbegins := hsteps.trail_extends_free (s := scope)
  rw [← hes, hfs, List.prefix_append_right_inj] at hbegins
  exact ⟨es, hes.symm, fun ids hmem => hnone ids (hbegins.subset hmem)⟩

/-- **A move that succeeds** leaves the moved table, and tells in the end that it has run. -/
theorem move_committed (h : scope.database.closure? = some t)
    (hok : (move tenant parent verbose).on scope = (.ok (), scope')) :
    moveFault? t tenant parent = none ∧
      scope'.database = scope.database.setClosure (t.moved tenant.cell parent.cell) ∧
      ∃ plan, scope'.trail = scope.trail ++ (plan ++ [.told (moveApplied t tenant parent)]) := by
  have hfree : Scope.Holds { scope with access := .free } t := ⟨h, rfl⟩
  obtain ⟨hfault, plan, -, hafter⟩ := (move_eq_ok_iff hfree).1 (stepwise_move.free hok)
  have hdb := congrArg Scope.database hafter
  have htrail := congrArg Scope.trail hafter
  exact ⟨hfault, hdb, plan, htrail⟩

/-! ### What the scan tells -/

/-- Without rows both ways between different ids, the scan tells of nothing. -/
theorem scanEvents_of_not_mutual (hnone : ∀ a d, ¬u.Mutual a d) : scanEvents u = [] := by
  have hids : u.mutualIds = [] :=
    List.eq_nil_iff_forall_not_mem.2 fun n hn => by
      obtain ⟨m, hm⟩ := Closure.mem_mutualIds.1 hn
      exact hnone n m hm
  rw [scanEvents, scanResult, hids]
  rfl

/-- With such rows the scan tells of the ids at their ends, once and in ascending order, if all ids
    of the table can be read. -/
theorem scanEvents_of_mutual (hids : ∀ n ∈ u.ids, 0 ≤ n ∧ n ≤ TenantId.maxCell)
    (hmutual : ∃ a d, u.Mutual a d) :
    ∃ ids, scanEvents u = [.told (.circularReference ids)] ∧
      ids.Pairwise (fun a b => a.toNat < b.toNat) ∧
      ∀ n, n ∈ ids.map TenantId.cell ↔ ∃ m, u.Mutual n m := by
  obtain ⟨ids, hscan, hcells⟩ := exists_scanResult hids
  have hmem : ∀ n, n ∈ ids.map TenantId.cell ↔ ∃ m, u.Mutual n m := fun n => by
    rw [hcells]
    exact Closure.mem_mutualIds
  have hsome : ids ≠ [] := by
    rintro rfl
    obtain ⟨a, hd⟩ := hmutual
    exact absurd ((hmem a).2 hd) List.not_mem_nil
  refine ⟨ids, ?_, scanned_sorted hcells, hmem⟩
  rw [scanEvents, hscan]
  exact if_pos hsome

end Hierarchy

namespace Store

variable {s : Store} {w : Work Unit}

/-! ### Stores with and without the scan -/

/-- The store in which the scan after a move is switched on or off. -/
def scanning (s : Store) (on : Bool) : Store :=
  { s with settings := { s.settings with checkCyclesAfterMove := on } }

/-- A transaction does not depend on whether there will be a scan. -/
theorem transact_scanning {on : Bool} : (transact w).on (s.scanning on)
    = (((transact w).on s).1, ((transact w).on s).2.scanning on) := by
  -- the setting is read after the commit only, hence a transaction does not depend on it
  have hbegin : (s.scanning on).beginFault? = s.beginFault? := rfl
  have hcommit : (s.scanning on).commitFault? = s.commitFault? := rfl
  have hscope : (s.scanning on).scope = s.scope := rfl
  rw [transact_on, transact_on, hbegin, hcommit, hscope]
  cases s.beginFault? with
  | some e => rfl
  | none =>
    rcases w.on s.scope with ⟨r, scope⟩
    cases r with
    | error e => rfl
    | ok a => cases s.commitFault? <;> rfl

/-- **The scan after a move** tells of the table as it is then, and changes nothing. -/
theorem scanAfterMove_eq (hc : s.connectFault? = none) (ht : s.database.closure? = some t) :
    scanAfterMove.on s = (.ok (), s.after s.database (Hierarchy.scanEvents t)) := by
  exact scanAfterMove_of_connect hc (Hierarchy.warnOfCircularReferences_on ht)

/-- A move in a store is a transaction, and the scan if there is to be one. -/
theorem moveTenant_eq : (moveTenant tenant parent verbose).on s
    = match (transact (Hierarchy.move tenant parent verbose)).on s with
      | (.ok _, s') =>
          if s'.settings.checkCyclesAfterMove then scanAfterMove.on s' else (.ok (), s')
      | (.error e, s') => (.error e, s') := by
  unfold moveTenant
  rw [StoreWork.on_bind]
  rcases (transact (Hierarchy.move tenant parent verbose)).on s with ⟨r, s'⟩
  cases r with
  | error e => rfl
  | ok a =>
    dsimp only
    rw [StoreWork.on_bind_ok StoreWork.on_get]
    split <;> rfl

/-- **A move in a transaction** never tells of a circular reference; if it is committed, it tells in
    the end that it has run, and leaves the moved table. -/
theorem transact_move (ht : s.database.closure? = some t) (tenant parent : TenantId)
    (verbose : Bool) : ∃ r db es,
    (transact (Hierarchy.move tenant parent verbose)).on s = (r, s.after db es) ∧
      (∀ ids, .told (.circularReference ids) ∉ es) ∧
      (r = .ok () → s.connectFault? = none ∧ Hierarchy.moveFault? t tenant parent = none ∧
        db = s.database.setClosure (t.moved tenant.cell parent.cell) ∧
        ∃ plan, es = plan ++ [.told (Hierarchy.moveApplied t tenant parent)]) := by
  rw [transact_on]
  cases hbegin : s.beginFault? with
  | some e =>
    refine ⟨.error e, s.database, [], ?_, fun _ => List.not_mem_nil, fun he => nomatch he⟩
    simp only [Store.after, List.append_nil]
  | none =>
    have hconnect : s.connectFault? = none := (orElse_eq_none_iff.1 hbegin).1
    have hscope : s.scope.database.closure? = some t := ht
    obtain ⟨es, hes, hnone⟩ := Hierarchy.move_tells hscope tenant parent verbose
    have hcommitted := fun scope'
      (hok : (Hierarchy.move tenant parent verbose).on s.scope = (.ok (), scope')) =>
        Hierarchy.move_committed hscope hok
    dsimp only
    -- the run of the move is known by what it tells and by what it commits, whichever way it ends
    generalize (Hierarchy.move tenant parent verbose).on s.scope = o at hes hcommitted ⊢
    obtain ⟨r, scope'⟩ := o
    have htrail : scope'.trail = es := hes
    rw [← htrail] at hnone
    cases r with
    | error e => exact ⟨_, _, _, rfl, hnone, fun he => nomatch he⟩
    | ok a =>
      cases s.commitFault? with
      | some e => exact ⟨_, _, _, rfl, hnone, fun he => nomatch he⟩
      | none =>
        obtain ⟨hfault, hdb, plan, hplan⟩ := hcommitted scope' rfl
        exact ⟨_, _, _, rfl, hnone, fun _ => ⟨hconnect, hfault, hdb, plan, hplan⟩⟩

/-- **The scan after a move** never touches it.  On a table of which all ids can be read, a move
    with the scan comes to what it comes to without, and leaves the same database.  Without the scan
    no circular reference is told of.  With it, one is told of just if the move is committed and the
    table that it leaves has two different ids with rows both ways; that is told once, after the
    move has told that it has run, and lists just the ids in such pairs, in ascending order. -/
theorem moveTenant_scan (ht : s.database.closure? = some t)
    (hids : ∀ n ∈ t.ids, 0 ≤ n ∧ n ≤ TenantId.maxCell) (tenant parent : TenantId) (verbose : Bool) :
    ∃ r db told scan,
      ((transact (Hierarchy.move tenant parent verbose)).on s).1 = r ∧
      ((transact (Hierarchy.move tenant parent verbose)).on s).2.database = db ∧
      (moveTenant tenant parent verbose).on (s.scanning false)
        = (r, (s.scanning false).after db told) ∧
      (moveTenant tenant parent verbose).on (s.scanning true)
        = (r, (s.scanning true).after db (told ++ scan)) ∧
      (∀ ids, .told (.circularReference ids) ∉ told) ∧
      (∀ e, r = .error e → scan = []) ∧
      (r = .ok () → ∃ u plan detached upserted, db.closure? = some u ∧
        told = plan ++ [.told (.moveApplied tenant parent detached upserted)] ∧
        ((∀ a d, ¬u.Mutual a d) → scan = []) ∧
        ((∃ a d, u.Mutual a d) → ∃ ids, scan = [.told (.circularReference ids)] ∧
          ids.Pairwise (fun a b => a.toNat < b.toNat) ∧
          ∀ n, n ∈ ids.map TenantId.cell ↔ ∃ m, u.Mutual n m)) := by
  obtain ⟨r, db, es, hmove, hnone, hcommitted⟩ := transact_move ht tenant parent verbose
  have hoff : (moveTenant tenant parent verbose).on (s.scanning false)
      = (r, (s.scanning false).after db es) := by
    rw [moveTenant_eq, transact_scanning, hmove]
    cases r <;> rfl
  cases r with
  | error e =>
    refine ⟨_, db, es, [], congrArg Prod.fst hmove, congrArg (·.2.database) hmove, hoff, ?_, hnone,
      fun _ _ => rfl, fun he => nomatch he⟩
    rw [moveTenant_eq, transact_scanning, hmove, List.append_nil]
    rfl
  | ok a =>
    obtain ⟨hconnect, hfault, rfl, plan, hplan⟩ := hcommitted rfl
    obtain ⟨-, -, -, htenant, hparent⟩ := Hierarchy.moveFault?_eq_none_iff.1 hfault
    have hleft : (s.database.setClosure (t.moved tenant.cell parent.cell)).closure?
        = some (t.moved tenant.cell parent.cell) := by
      rw [Database.closure?_setClosure, ht, Option.map_some]
    have hids' : ∀ n ∈ (t.moved tenant.cell parent.cell).ids, 0 ≤ n ∧ n ≤ TenantId.maxCell :=
      fun n hn => hids n
        (Closure.mem_ids_of_mem_moved htenant (hparent.imp_left Hierarchy.cell_eq_zero_iff.2) hn)
    refine ⟨_, _, es, _, congrArg Prod.fst hmove, congrArg (·.2.database) hmove, hoff, ?_, hnone,
      fun e he => (nomatch he), fun _ => ⟨_, plan, _, _, hleft, hplan,
        Hierarchy.scanEvents_of_not_mutual, Hierarchy.scanEvents_of_mutual hids'⟩⟩
    -- the scan looks at what the transaction has left, through a connection to be had as before
    rw [moveTenant_eq, transact_scanning, hmove]
    have hscan := scanAfterMove_eq (s := (s.scanning true).after
      (s.database.setClosure (t.moved tenant.cell parent.cell)) es) hconnect hleft
    rw [after_after] at hscan
    exact hscan

/-- A table in which 3 is below 2 and above 1, but 2 has no row to 1. -/
def unclosed : Closure := (Closure.empty.fill
  [⟨1, 1, 0⟩, ⟨2, 2, 0⟩, ⟨2, 3, 1⟩, ⟨3, 1, 1⟩, ⟨3, 3, 0⟩]).closure

/-- When 2 is put under 1, the circle is closed: with the scan this is told of, and 2 is listed. -/
theorem moveTenant_scan_unclosed :
    let s : Store := { path := memoryPath, database := { table := some { closure := unclosed } } }
    let move := moveTenant (.ofNat 2) (.ofNat 1) false
    ((move.on (s.scanning true)).1 = (move.on (s.scanning false)).1 ∧
      (move.on (s.scanning true)).2.database = (move.on (s.scanning false)).2.database) ∧
      ∃ ids, .told (.circularReference ids) ∈ (move.on (s.scanning true)).2.trail ∧
        .told (.circularReference ids) ∉ (move.on (s.scanning false)).2.trail ∧
        2 ∈ ids.map TenantId.cell := by
  intro s move
  have hids : ∀ n ∈ unclosed.ids, 0 ≤ n ∧ n ≤ TenantId.maxCell := by
    have hall : ∀ n ∈ unclosed.ids.toList, 0 ≤ n ∧ n ≤ TenantId.maxCell := by decide +kernel
    exact fun n hn => hall n (Std.ExtTreeSet.mem_toList.2 hn)
  have h : s.scope.Holds unclosed := ⟨rfl, rfl⟩
  have hfault : Hierarchy.moveFault? unclosed (.ofNat 2) (.ofNat 1) = none := by decide +kernel
  have hwork : (Hierarchy.move (.ofNat 2) (.ofNat 1) false).on s.scope = _ :=
    (Hierarchy.move_eq_ok_iff h).2 ⟨hfault, [], rfl, rfl⟩
  have hcommit := transact_eq_ok_iff.2 ⟨rfl, rfl, congrArg Prod.fst hwork⟩
  obtain ⟨r, db, told, scan, hmove, hdb, hoff, hon, hnone, -, hscan⟩ :=
    moveTenant_scan (s := s) rfl hids (.ofNat 2) (.ofNat 1) false
  obtain rfl : r = .ok () := hmove.symm.trans hcommit
  obtain ⟨u, plan, detached, upserted, hu, -, -, hmutual⟩ := hscan rfl
  have hleft : db.closure? = some (unclosed.moved 2 1) := by
    rw [← hdb, database_transact hcommit, hwork]
    exact h.after.closure?
  obtain rfl : u = unclosed.moved 2 1 := Option.some.inj (hu.symm.trans hleft)
  have hpair : (unclosed.moved 2 1).Mutual 2 3 := by decide +kernel
  obtain ⟨ids, rfl, -, hmem⟩ := hmutual ⟨2, 3, hpair⟩
  have hfalse : (move.on (s.scanning false)).2.trail = told := congrArg (·.2.trail) hoff
  have htrue : (move.on (s.scanning true)).2.trail = told ++ [.told (.circularReference ids)] :=
    congrArg (·.2.trail) hon
  refine ⟨⟨?_, ?_⟩, ids, ?_, ?_, (hmem 2).2 ⟨3, hpair⟩⟩
  · rw [hon, hoff]
  · rw [hon, hoff]
    rfl
  · rw [htrue]
    exact List.mem_append_right _ List.mem_cons_self
  · rw [hfalse]
    exact hnone ids

end Store

end Tenancy
