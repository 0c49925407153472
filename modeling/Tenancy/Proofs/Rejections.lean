import Tenancy.Proofs.Transactions

namespace Tenancy

/-!
# Rejections without a rollback

An insertion or a move that fails has written nothing, and nor has the repair of a parent edge that
is rejected for its ids or for the hierarchy.  So a transaction can pass over such a failure and go
on: what it keeps is what those of its operations come to that succeed.

* `Hierarchy.database_insert_of_error`, `Hierarchy.database_move_of_error`,
  `Hierarchy.database_repairPair_of_error` — a rejection leaves the database as it was, whatever the
  table holds.
* `Request.rejects` — the failures after which a request has written nothing.
* `attemptAll`, `accepted` — requests one after the other, passing over rejections, and those of
  them that succeed.
* `Store.transact_attemptAll` — a transaction that passes over rejections.
-/

variable {α β : Type} {s s' : Scope} {t : Closure} {tenant parent id : TenantId} {verbose : Bool}
  {e : Failure} {r : Request} {rs : List Request}

/-! ### Scopes that see a table -/

/-- Either all statements can write to the table, or none can. -/
theorem Scope.holds_or_barred (h : s.database.closure? = some t) :
    s.Holds t ∨ s.access.writeFault?.isSome = true := by
  cases haccess : s.access with
  | free => exact .inl ⟨h, haccess⟩
  | watched => exact .inr rfl
  | barred => exact .inr rfl
  | readOnly => exact .inr rfl

namespace Work

variable {w : Work α} {f : α → β}

/-- What is made of the value of work adds nothing to the work. -/
theorem on_bind_pure : (w >>= fun a => pure (f a)).on s = ((w.on s).1.map f, (w.on s).2) := by
  rw [on_bind]
  rcases w.on s with ⟨x, s'⟩
  cases x <;> rfl

/-- A pure function of the result does not bring a failure about. -/
theorem eq_error_of_map {x : Except Failure α} (h : x.map f = .error e) : x = .error e := by
  cases x with
  | ok a => cases h
  | error e =>
    cases h
    rfl

/-- Work that leaves the database alone where statements can write does so anywhere. -/
theorem Stepwise.database_eq (hw : w.Stepwise True) (h : s.database.closure? = some t)
    (hfree : s.Holds t → (w.on s).2.database = s.database) :
    (w.on s).2.database = s.database := by
  rcases Scope.holds_or_barred h with hs | hbarred
  · exact hfree hs
  · exact (hw.kept fun _ => hbarred).1

end Work

/-! ### Rejections -/

namespace Hierarchy

/-- **An insertion that fails** has written nothing, whatever the table holds. -/
theorem database_insert_of_error (h : s.database.closure? = some t)
    (he : ((insert parent id).on s).1 = .error e) :
    ((insert parent id).on s).2.database = s.database := by
  refine stepwise_insert.database_eq h fun hs => ?_
  rw [insert_on hs] at he ⊢
  cases hfault : insertFault? t parent id with
  | some e => rfl
  | none =>
    rw [hfault] at he
    cases he

/-- **A move that fails** has written nothing, whatever the table holds. -/
theorem database_move_of_error (h : s.database.closure? = some t)
    (he : ((move tenant parent verbose).on s).1 = .error e) :
    ((move tenant parent verbose).on s).2.database = s.database := by
  refine stepwise_move.database_eq h fun hs => ?_
  rw [move_on hs] at he ⊢
  cases hfault : moveFault? t tenant parent with
  | some e => rfl
  | none =>
    rw [hfault] at he
    cases hplan : forewarning t tenant parent verbose with
    | error e => rfl
    | ok es =>
      rw [hplan] at he
      cases he

/-- **The repair of a parent edge that is rejected** has written nothing.  Only a parent edge that
    cannot be read is noticed after the self rows are written, and that is a failure of the
    store. -/
theorem database_repairPair_of_error (h : s.database.closure? = some t)
    (he : ((repairPair tenant parent).on s).1 = .error e) (hrejected : ∀ f, e ≠ .store f) :
    ((repairPair tenant parent).on s).2.database = s.database := by
  refine stepwise_repairPair.database_eq h fun hs => ?_
  rw [repairPair_on hs] at he ⊢
  cases hfault : pairFault? t tenant parent with
  | some e => rfl
  | none =>
    rw [hfault] at he
    dsimp only at he
    -- past the checks the self rows are written already: the only failure left is that of the store
    rw [readDepth] at he
    cases hk : (rooted t parent.cell tenant.cell).depth? parent.cell tenant.cell with
    | none =>
      rw [hk] at he
      cases he
    | some k =>
      rw [hk] at he
      dsimp only at he
      by_cases hlt : k < UInt32.size
      · rw [if_pos hlt] at he
        cases he
      · rw [if_neg hlt] at he
        cases he
        exact absurd rfl (hrejected _)

end Hierarchy

namespace Request

/-- The failures that a request can be rejected with before it writes anything. -/
def rejects : Request → Failure → Bool
  | change (.insert ..), _ | change (.move ..), _ => true
  | change .repairAll, _ => false
  | repairPair .., .store _ => false
  | repairPair .., _ => true

/-- A rejection leaves the database as it was. -/
theorem database_of_rejects (h : s.database.closure? = some t) (he : (r.work.on s).1 = .error e)
    (hr : r.rejects e = true) : (r.work.on s).2.database = s.database := by
  cases r with
  | change c =>
    cases c with
    | insert parent id =>
      rw [work, Work.on_bind_pure] at he ⊢
      exact Hierarchy.database_insert_of_error h (Work.eq_error_of_map he)
    | move tenant parent verbose =>
      rw [work, Work.on_bind_pure] at he ⊢
      exact Hierarchy.database_move_of_error h (Work.eq_error_of_map he)
    -- a failure of the store is not passed over, and no other leaves anything behind
    | repairAll => cases hr
  | repairPair tenant parent =>
    rw [work, Work.on_bind_pure] at he ⊢
    refine Hierarchy.database_repairPair_of_error h (Work.eq_error_of_map he) fun f hf => ?_
    subst hf
    cases hr

/-- A request leaves a table behind where it has found one. -/
theorem closure?_work (h : s.database.closure? = some t) :
    ∃ u, (r.work.on s).2.database.closure? = some u := by
  rcases Scope.holds_or_barred h with hs | hbarred
  · obtain ⟨u, es, hwork, -⟩ := r.work_on hs
    rw [hwork]
    exact ⟨u, hs.after.closure?⟩
  · rw [(r.stepwise_work.kept fun _ => hbarred).1]
    exact ⟨t, h⟩

/-- Does what the request asks for, and passes over a rejection. -/
def attempt (r : Request) : Work Unit :=
  tryCatch (discard r.work) fun e => if r.rejects e then pure () else throw e

/-- An attempt is the request, with its rejections passed over. -/
theorem on_attempt : r.attempt.on s = match r.work.on s with
    | (.ok _, s') => (.ok (), s')
    | (.error e, s') => if r.rejects e then (.ok (), s') else (.error e, s') := by
  have hdiscard : (discard r.work : Work PUnit).on s
      = ((r.work.on s).1.map fun _ => (), (r.work.on s).2) := by
    show ((fun _ => ()) <$> r.work : Work Unit).on s = _
    rw [map_eq_pure_bind, Work.on_bind_pure]
  rw [attempt, Work.on_tryCatch, hdiscard]
  rcases r.work.on s with ⟨x, s'⟩
  cases x with
  | ok a => rfl
  | error e =>
    dsimp only [Except.map]
    split <;> rfl

end Request

/-! ### Passing over rejections -/

/-- What the requests ask for, one after the other, passing over rejections. -/
def attemptAll (rs : List Request) : Work Unit := rs.forM Request.attempt

/-- Those of the requests that succeed when all of them are done one after the other, each on what
    the ones before have left. -/
def accepted (s : Scope) : List Request → List Request
  | [] => []
  | r :: rs =>
    match r.work.on s with
    | (.ok _, s') => r :: accepted s' rs
    | (.error _, s') => accepted s' rs

/-- Attempts go on from the state that the first has left, rejected or not. -/
theorem on_attemptAll_cons : (attemptAll (r :: rs)).on s = match r.attempt.on s with
    | (.ok _, s') => (attemptAll rs).on s'
    | (.error e, s') => (.error e, s') := by
  show (r.attempt >>= fun _ => attemptAll rs).on s = _
  rw [Work.on_bind]
  rcases r.attempt.on s with ⟨x, s'⟩
  cases x <;> rfl

/-- Nothing but a failure that is no rejection ends the requests early. -/
theorem exists_not_rejects (h : ((attemptAll rs).on s).1 = .error e) :
    ∃ r ∈ rs, r.rejects e = false := by
  induction rs generalizing s with
  | nil => cases h
  | cons r rs ih =>
    -- a rejection is passed over, so the failure of the whole comes from a request that was not
    -- rejected
    have hlater :
      ∀ s', ((attemptAll rs).on s').1 = .error e → ∃ r' ∈ r :: rs, r'.rejects e = false :=
      fun s' h => (ih h).imp fun _ hr => ⟨List.mem_cons_of_mem _ hr.1, hr.2⟩
    rw [on_attemptAll_cons, Request.on_attempt] at h
    generalize r.work.on s = o at h
    obtain ⟨x, s'⟩ := o
    cases x with
    | ok a => exact hlater s' h
    | error e' =>
      dsimp only at h
      cases hr : r.rejects e' with
      | true =>
        rw [hr] at h
        exact hlater s' h
      | false =>
        rw [hr] at h
        cases h
        exact ⟨r, List.mem_cons_self, hr⟩

/-- **What is left of requests that pass over rejections** is what the accepted ones come to on
    their own: a request that is rejected leaves the database to the next one as it has found it. -/
theorem on_runAll_accepted (h : s.database.closure? = some t)
    (hrun : (attemptAll rs).on s = (.ok (), s')) :
    ((runAll (accepted s rs)).on s).1 = .ok () ∧
      ((runAll (accepted s rs)).on s).2.database = s'.database := by
  induction rs generalizing s t with
  | nil =>
    cases hrun
    exact ⟨rfl, rfl⟩
  | cons r rs ih =>
    obtain ⟨u, hu⟩ := r.closure?_work h
    have haccess := r.plain_work.access_eq (s := s)
    have hkept := fun e => Request.database_of_rejects (r := r) (e := e) h
    rw [on_attemptAll_cons, Request.on_attempt] at hrun
    rw [accepted]
    cases hwork : r.work.on s with
    | mk x s₁ =>
      rw [hwork] at hu haccess hkept hrun
      cases x with
      | ok a =>
        dsimp only at hrun ⊢
        rw [on_runAll_cons, hwork]
        exact ih hu hrun
      | error e =>
        dsimp only at hrun ⊢
        cases hr : r.rejects e with
        | false =>
          rw [hr] at hrun
          cases hrun
        | true =>
          rw [hr] at hrun
          obtain ⟨hok, hdb⟩ := ih hu hrun
          -- the rest ran behind what the rejected request has told, but does the same without it
          obtain ⟨hsame, hdbs⟩ := (plain_runAll (accepted s₁ rs)).congr (hkept e rfl hr) haccess
          exact ⟨hsame.symm.trans hok, hdbs.symm.trans hdb⟩

namespace Store

/-- **Rejections without a rollback.** Whatever the table holds: an insertion or a move that fails
    leaves the database of an open transaction as it was, and so does the repair of a parent edge
    that fails for its ids or for the hierarchy.  A transaction that passes over such failures, so
    that nothing but a failure of another kind ends it early, keeps just what the accepted requests
    come to. -/
theorem transact_attemptAll :
    (∀ (scope : Scope) (t : Closure), scope.database.closure? = some t →
      (∀ parent id e, ((Hierarchy.insert parent id).on scope).1 = .error e →
        ((Hierarchy.insert parent id).on scope).2.database = scope.database) ∧
      (∀ tenant parent verbose e, ((Hierarchy.move tenant parent verbose).on scope).1 = .error e →
        ((Hierarchy.move tenant parent verbose).on scope).2.database = scope.database) ∧
      ∀ tenant parent e, ((Hierarchy.repairPair tenant parent).on scope).1 = .error e →
        (∀ f, e ≠ .store f) →
        ((Hierarchy.repairPair tenant parent).on scope).2.database = scope.database) ∧
    ∀ (s : Store) (t : Closure) (rs : List Request), s.database.closure? = some t →
      (∀ e, ((attemptAll rs).on s.scope).1 = .error e → ∃ r ∈ rs, r.rejects e = false) ∧
      (((transact (attemptAll rs)).on s).1 = .ok () →
        ((transact (runAll (accepted s.scope rs))).on s).1 = .ok () ∧
        ((transact (attemptAll rs)).on s).2.database
          = ((transact (runAll (accepted s.scope rs))).on s).2.database) := by
  refine ⟨fun scope t h => ⟨fun _ _ _ => Hierarchy.database_insert_of_error h,
    fun _ _ _ _ => Hierarchy.database_move_of_error h,
    fun _ _ _ => Hierarchy.database_repairPair_of_error h⟩,
    fun s t rs h => ⟨fun e => exists_not_rejects, fun hok => ?_⟩⟩
  obtain ⟨hbegin, hcommit, hwork⟩ := transact_eq_ok_iff.1 hok
  obtain ⟨haccepted, hdb⟩ := on_runAll_accepted (s := s.scope) h (Prod.ext hwork rfl)
  have hthen := transact_eq_ok_iff.2 ⟨hbegin, hcommit, haccepted⟩
  exact ⟨hthen, (database_transact hok).trans (hdb.symm.trans (database_transact hthen).symm)⟩

/-- A table in which the row from 1 to 2 is too deep to be read, and the id −7, which no tenant has,
    is above 1. -/
def garbled : Closure := (Closure.empty.fill
  [⟨1, 1, 0⟩, ⟨1, 2, 4294967296⟩, ⟨2, 2, 1⟩, ⟨-7, 1, 3⟩]).closure

/-- Four requests of five are rejected, among them a verbose move that meets the row that cannot be
    read, and the repair of the edge that has just been added, the other way round. -/
theorem transact_attemptAll_garbled :
    let s : Store := { path := memoryPath, database := { table := some { closure := garbled } } }
    let insert (parent id : Nat) : Request := .change (.insert (.ofNat parent) (.ofNat id))
    let rs : List Request := [insert 0 1, .change (.move (.ofNat 1) (.ofNat 2) true), insert 1 3,
      .repairPair (.ofNat 1) (.ofNat 3), .repairPair (.ofNat 3) (.ofNat 3)]
    ((transact (attemptAll rs)).on s).2.database
      = ((transact (runAll [insert 1 3])).on s).2.database ∧
      ((Hierarchy.move (.ofNat 1) (.ofNat 2) true).on s.scope).2.database = s.database := by
  intro s insert rs
  obtain ⟨hrejected, hstore⟩ := transact_attemptAll
  have haccepted : accepted s.scope rs = [insert 1 3] := rfl
  have hok : ((transact (attemptAll rs)).on s).1 = .ok () := rfl
  have hmove : ((Hierarchy.move (.ofNat 1) (.ofNat 2) true).on s.scope).1
      = .error (Work.failure "look up closure edge" (.outOfRange 4294967296 0)) := rfl
  obtain ⟨-, hkept⟩ := hstore s garbled rs rfl
  rw [haccepted] at hkept
  exact ⟨(hkept hok).2, (hrejected s.scope garbled rfl).2.1 _ _ _ _ hmove⟩

end Store

end Tenancy
