import Tenancy.Store.Tenants
import Tenancy.Proofs.Effect

namespace Tenancy

/-!
# Requests to a store

A store takes requests one after the other, each in a transaction of its own.  What a request comes
to is decided by the table alone, and a request that fails leaves the database as it was.

* `Change`, `Request` — what can be asked of a store.
* `Request.outcome` — what a request comes to on a table.
* `Store.transact_on` — what keeps a transaction from being kept.
* `Request.serve_transact` — serving a request is its operation in a transaction.
* `Store.Ready` — a store that can serve requests.
* `Request.serve_on` — a ready store serves a request as its outcome says, and is ready again.
* `Store.answer`, `Store.afterAll` — what a store answers, and the store after a list of requests.
-/

variable {α β : Type} {s s' : Store} {t u : Closure} {es fs : List Event}

/-! ### Work of a store -/

namespace StoreWork

variable {w : StoreWork α} {f : α → StoreWork β} {a : α} {e : Failure}

/-- Runs the work. -/
def on (w : StoreWork α) (s : Store) : Except Failure α × Store := w.run.run s

theorem on_pure : (pure a : StoreWork α).on s = (.ok a, s) := rfl

theorem on_get : (get : StoreWork Store).on s = (.ok s, s) := rfl

/-- What a bind does on a store: the second work starts from the store that the first has left. -/
theorem on_bind : (w >>= f).on s = match w.on s with
    | (.ok a, s') => (f a).on s'
    | (.error e, s') => (.error e, s') := by
  unfold on
  rw [run_bind]
  rcases StateT.run (ExceptT.run w) s with ⟨r, s'⟩
  cases r <;> rfl

theorem on_bind_ok (h : w.on s = (.ok a, s')) : (w >>= f).on s = (f a).on s' := by
  rw [on_bind, h]

/-- The handler starts from the store in which the failure left it. -/
theorem on_tryCatch {k : Failure → StoreWork α} : (tryCatch w k).on s = match w.on s with
    | (.ok a, s') => (.ok a, s')
    | (.error e, s') => (k e).on s' := by
  unfold on
  rw [run_tryCatch]
  rcases StateT.run (ExceptT.run w) s with ⟨r, s'⟩
  cases r <;> rfl

end StoreWork

namespace Store

open StoreWork

/-- The store with another database, and some more events told. -/
def after (s : Store) (db : Database) (es : List Event) : Store :=
  { s with database := db, trail := s.trail ++ es }

/-- Connections can be had, and nothing keeps a transaction from being written. -/
structure Ready (s : Store) : Prop where
  connects : s.refusal? = none
  spare : ¬(s.lease.isSome = true ∧ s.slots ≤ 1)
  free : s.access = .free

variable {db db' : Database} {w : Work α}

theorem Ready.after (h : s.Ready) : (s.after db es).Ready := ⟨h.connects, h.spare, h.free⟩

/-- Of two databases the later one stands, and the events add up. -/
theorem after_after : (s.after db es).after db' fs = s.after db' (es ++ fs) := by
  simp only [Store.after, List.append_assoc]

theorem noteAll_on : (noteAll es).on s = (.ok (), s.after s.database es) := rfl

/-! ### What keeps a transaction from being kept -/

/-- Why no connection can be had, if so. -/
def connectFault? (s : Store) : Option Failure :=
  s.refusal? <|> if s.lease.isSome = true ∧ s.slots ≤ 1 then some (timedOut none) else none

/-- Why a transaction that writes does not begin, if so. -/
def beginFault? (s : Store) : Option Failure :=
  s.connectFault? <|> match s.lease with
    | some .writing => some (lockedOut "begin")
    | _ => none

/-- Why a transaction cannot be committed, if so. -/
def commitFault? (s : Store) : Option Failure :=
  if s.access = .watched then some (lockedOut "commit") else none

/-- What the work in a transaction has to do with. -/
def scope (s : Store) : Scope where
  database := s.database
  access := if s.readOnly then .readOnly else .free

/-- Taking a connection either fails with the fault of the pool or changes nothing. -/
theorem connect_on : connect.on s = (verdict s.connectFault?, s) := by
  rw [connect, on_bind_ok on_get, connectFault?]
  cases s.refusal? with
  | some e => rfl
  | none =>
    by_cases h : s.lease.isSome = true ∧ s.slots ≤ 1
    · simp only [h, and_self, if_true]
      rfl
    · simp only [h, if_false]
      rfl

/-- Beginning a transaction takes a copy of the database to work on. -/
theorem begin_on : begin.on s = match s.beginFault? with
    | some e => (.error e, s)
    | none => (.ok s.scope, s) := by
  rw [begin, on_bind, connect_on, beginFault?]
  cases s.connectFault? with
  | some e => rfl
  | none =>
    show (get >>= _ : StoreWork Scope).on s = _
    rw [on_bind_ok on_get]
    cases s.lease with
    | none => rfl
    | some l => cases l <;> rfl

/-- A commit puts the worked-on database in place of the old one, or fails and leaves the old
    one. -/
theorem commit_on : (commit db).on s = match s.commitFault? with
    | some e => (.error e, s)
    | none => (.ok (), s.after db []) := by
  rw [commit, on_bind_ok on_get, commitFault?]
  by_cases h : s.access = .watched
  · simp only [h, if_true]
    rfl
  · simp only [h, if_false, Store.after, List.append_nil]
    rfl

/-- **Transactions.** The database changes only if the transaction begins, the work succeeds, and
    what it wrote can be committed. -/
theorem transact_on : (transact w).on s = match s.beginFault? with
    | some e => (.error e, s)
    | none =>
      match w.on s.scope with
      | (.error e, scope) => (.error e, s.after s.database scope.trail)
      | (.ok a, scope) =>
        match s.commitFault? with
        | some e => (.error e, s.after s.database scope.trail)
        | none => (.ok a, s.after scope.database scope.trail) := by
  rw [transact, on_bind, begin_on]
  cases s.beginFault? with
  | some e => rfl
  | none =>
    dsimp only
    rcases w.on s.scope with ⟨r, scope⟩
    dsimp only
    rw [on_bind_ok noteAll_on]
    cases r with
    | error e => rfl
    | ok a =>
      -- telling what was told does not touch the locks
      have hsame : (s.after s.database scope.trail).commitFault? = s.commitFault? := rfl
      rw [on_bind_ok (w := conclude (.ok a)) on_pure, on_bind, commit_on, hsame]
      cases s.commitFault? with
      | some e => rfl
      | none =>
        dsimp only
        rw [after_after, List.append_nil]
        rfl

/-- A transaction leaves everything but the database, and what was told, as it was. -/
theorem transact_after : ∃ es, (transact w).on s
    = (((transact w).on s).1, s.after ((transact w).on s).2.database es) := by
  have hsame : s = s.after s.database [] := by simp only [Store.after, List.append_nil]
  rw [transact_on]
  cases s.beginFault? with
  | some e => exact ⟨[], congrArg _ hsame⟩
  | none =>
    dsimp only
    rcases w.on s.scope with ⟨r, scope⟩
    cases r with
    | error e => exact ⟨_, rfl⟩
    | ok a =>
      cases s.commitFault? with
      | some e => exact ⟨_, rfl⟩
      | none => exact ⟨_, rfl⟩

/-- What is made of the value of the work can be made of it within the transaction. -/
theorem transact_map {f : α → β} : (transact (w >>= fun a => pure (f a))).on s
    = (transact w >>= fun a => pure (f a)).on s := by
  rw [on_bind, transact_on, transact_on]
  cases s.beginFault? with
  | some e => rfl
  | none =>
    dsimp only
    rw [Work.on_bind]
    rcases w.on s.scope with ⟨r, scope⟩
    cases r with
    | error e => rfl
    | ok a =>
      dsimp only [Work.on_pure]
      cases s.commitFault? with
      | some e => rfl
      | none => rfl

/-- Work outside a transaction keeps what it has written. -/
theorem look_on (hc : s.connectFault? = none) : (look w).on s
    = ((w.on { database := s.database, access := s.access }).1,
        s.after (w.on { database := s.database, access := s.access }).2.database
          (w.on { database := s.database, access := s.access }).2.trail) := by
  have hconnect : connect.on s = (.ok (), s) := by rw [connect_on, hc]; rfl
  rw [look, on_bind_ok hconnect, on_bind_ok on_get]
  rcases w.on { database := s.database, access := s.access } with ⟨r, scope⟩
  cases r <;> rfl

/-- A scan for circular references that tells of them always comes back, and leaves the database
    alone. -/
theorem warnOfCircularReferences_quiet (scope : Scope) :
    ∃ ids es, Hierarchy.warnOfCircularReferences.on scope
      = (.ok ids, { scope with trail := scope.trail ++ es }) := by
  have hread : ∃ x, Hierarchy.circularReferences.on scope = (x, scope) := by
    have hget : (get : Work Scope).on scope = (.ok scope, scope) := rfl
    unfold Hierarchy.circularReferences Work.read
    rw [bind_assoc, Work.on_bind_ok hget]
    cases scope.database.closure? with
    | none => exact ⟨_, rfl⟩
    | some t => exact ⟨_, Work.on_step⟩
  -- both ways out of the scan are caught, so that the warning itself never fails
  obtain ⟨x, hx⟩ := hread
  unfold Hierarchy.warnOfCircularReferences
  rw [Work.on_tryCatch, Work.on_bind, hx]
  cases x with
  | error e => exact ⟨_, _, rfl⟩
  | ok ids =>
    by_cases he : ids = []
    · refine ⟨ids, [], ?_⟩
      simp only [he, ne_eq, not_true_eq_false, if_false, List.append_nil]
      rfl
    · refine ⟨ids, [.told (.circularReference ids)], ?_⟩
      simp only [he, ne_eq, not_false_eq_true, if_true]
      rfl

/-- If a connection can be had, the scan after a move tells what it finds through it. -/
theorem scanAfterMove_of_connect {ids : List TenantId} (hc : s.connectFault? = none)
    (hwarn : Hierarchy.warnOfCircularReferences.on { database := s.database, access := s.access }
      = (.ok ids, { database := s.database, trail := es, access := s.access })) :
    scanAfterMove.on s = (.ok (), s.after s.database es) := by
  have hconnect : connect.on s = (.ok (), s) := by
    rw [connect_on, hc]
    rfl
  have hlook :
    (look Hierarchy.warnOfCircularReferences).on s = (.ok ids, s.after s.database es) := by
    rw [look_on hc, hwarn]
  have hscan : (discard (look Hierarchy.warnOfCircularReferences) : StoreWork PUnit).on s
      = (.ok (), s.after s.database es) := by
    show ((fun _ => ()) <$> look Hierarchy.warnOfCircularReferences).on s = _
    rw [map_eq_pure_bind, on_bind_ok hlook]
    rfl
  unfold scanAfterMove
  rw [on_tryCatch, on_bind_ok hconnect, hscan]

/-- The scan after a move always comes back, and leaves the database alone. -/
theorem scanAfterMove_on : ∃ es, scanAfterMove.on s = (.ok (), s.after s.database es) := by
  cases hc : s.connectFault? with
  | some e =>
    unfold scanAfterMove
    rw [on_tryCatch, on_bind, connect_on, hc]
    exact ⟨_, noteAll_on⟩
  | none =>
    obtain ⟨ids, es, hwarn⟩ := warnOfCircularReferences_quiet
      { database := s.database, access := s.access }
    exact ⟨es, scanAfterMove_of_connect hc hwarn⟩

/-- A move in a store is the move in a transaction; what comes afterwards writes nothing. -/
theorem moveTenant_on (tenant parent : TenantId) (verbose : Bool) :
    ∃ es, (moveTenant tenant parent verbose).on s
      = (((transact (Hierarchy.move tenant parent verbose)).on s).1,
        s.after ((transact (Hierarchy.move tenant parent verbose)).on s).2.database es) := by
  obtain ⟨es, htransact⟩ := transact_after (w := Hierarchy.move tenant parent verbose) (s := s)
  unfold moveTenant
  rw [on_bind]
  generalize (transact (Hierarchy.move tenant parent verbose)).on s = o at htransact ⊢
  obtain ⟨r, s'⟩ := o
  have hs : s' = s.after s'.database es := congrArg Prod.snd htransact
  cases r with
  | error e => exact ⟨es, congrArg _ hs⟩
  | ok u =>
    dsimp only
    rw [on_bind_ok on_get]
    split
    -- the scan runs after the commit, hence it can add to the trail and to nothing else
    · obtain ⟨fs, hscan⟩ := scanAfterMove_on (s := s')
      have hafter : s'.after s'.database fs = s.after s'.database (es ++ fs) :=
        (congrArg (Store.after · s'.database fs) hs).trans after_after
      exact ⟨es ++ fs, hscan.trans (congrArg _ hafter)⟩
    · exact ⟨es, congrArg _ hs⟩

/-! ### Stores that are ready -/

theorem Ready.connectFault? (h : s.Ready) : s.connectFault? = none := by
  rw [Store.connectFault?, h.connects, if_neg h.spare]
  rfl

/-- On a ready store a transaction begins. -/
theorem Ready.beginFault? (h : s.Ready) : s.beginFault? = none := by
  have hfree := h.free
  rw [Store.beginFault?, h.connectFault?]
  unfold access at hfree
  split at hfree
  · cases hfree
  · cases hl : s.lease with
    | none => rfl
    | some l =>
      cases l with
      | writing =>
        rw [hl] at hfree
        cases hfree
      | idle => rfl
      | reading seen => rfl

theorem Ready.commitFault? (h : s.Ready) : s.commitFault? = none := by
  rw [Store.commitFault?, h.free]
  rfl

/-- A transaction on a ready store starts with all access and an empty trail. -/
theorem Ready.scope (h : s.Ready) : s.scope = { database := s.database } := by
  have hfree := h.free
  unfold access at hfree
  split at hfree
  · cases hfree
  · rename_i hro
    rw [Store.scope, if_neg hro]

/-- In a ready store, a transaction is as good as its work. -/
theorem Ready.transact_on (h : s.Ready) : (transact w).on s
    = match w.on { database := s.database } with
      | (.ok a, scope) => (.ok a, s.after scope.database scope.trail)
      | (.error e, scope) => (.error e, s.after s.database scope.trail) := by
  rw [Store.transact_on, h.beginFault?, h.commitFault?, h.scope]
  rcases w.on { database := s.database } with ⟨r, scope⟩
  cases r <;> rfl

end Store

/-! ### Requests -/

/-- A change of the hierarchy as a whole. -/
inductive Change
  | insert (parent id : TenantId)
  | move (tenant parent : TenantId) (verbose : Bool)
  | repairAll

/-- All that can be asked of a store that changes its table: besides the changes of the hierarchy as
    a whole, the repair of one parent edge. -/
inductive Request
  | change (c : Change)
  | repairPair (tenant parent : TenantId)

/-- Serves the request: the answer of a repair is its report. -/
def Request.serve : Request → StoreWork (Option RepairReport)
  | change (.insert parent id) => do
    Store.insertTenant parent id
    pure none
  | change (.move tenant parent verbose) => do
    Store.moveTenant tenant parent verbose
    pure none
  | change .repairAll => do
    let report ← Store.repairAll
    pure (some report)
  | repairPair tenant parent => do
    let report ← Store.repairPair tenant parent
    pure (some report)

/-- The operation on the hierarchy that the request asks for, within a transaction. -/
def Request.work : Request → Work (Option RepairReport)
  | change (.insert parent id) => do
    Hierarchy.insert parent id
    pure none
  | change (.move tenant parent verbose) => do
    Hierarchy.move tenant parent verbose
    pure none
  | change .repairAll => do
    let report ← Hierarchy.repairAll
    pure (some report)
  | repairPair tenant parent => do
    let report ← Hierarchy.repairPair tenant parent
    pure (some report)

/-- What a change comes to on a table: the table and the answer that it leads to, or its failure. -/
def Change.outcome (t : Closure) : Change → Except Failure (Closure × Option RepairReport)
  | insert parent id =>
    match Hierarchy.insertFault? t parent id with
    | some e => .error e
    | none => .ok (t.planted parent.cell id.cell, none)
  | move tenant parent verbose =>
    match Hierarchy.moveFault? t tenant parent with
    | some e => .error e
    | none => (Hierarchy.forewarning t tenant parent verbose).map fun _ =>
        (t.moved tenant.cell parent.cell, none)
  | repairAll => .ok (t.repaired, some (Hierarchy.repairReport t))

/-- What a request comes to on a table. -/
def Request.outcome (t : Closure) : Request → Except Failure (Closure × Option RepairReport)
  | change c => c.outcome t
  | repairPair tenant parent =>
    match Hierarchy.pairFault? t tenant parent with
    | some e => .error e
    | none =>
      let rooted := Hierarchy.rooted t parent.cell tenant.cell
      (Hierarchy.readDepth rooted parent tenant).map fun existing =>
        (rooted.adopt parent.cell tenant.cell,
          some (Hierarchy.pairReport t tenant parent existing))

/-- An insertion that succeeds was not refused, and leaves the table in which the tenant is
    planted. -/
theorem Change.insert_eq_ok {parent id : TenantId} {o : Closure × Option RepairReport}
    (h : (insert parent id).outcome t = .ok o) :
    Hierarchy.insertFault? t parent id = none ∧ o.1 = t.planted parent.cell id.cell := by
  dsimp only [outcome] at h
  cases hfault : Hierarchy.insertFault? t parent id with
  | some e =>
    rw [hfault] at h
    cases h
  | none =>
    rw [hfault] at h
    cases h
    exact ⟨rfl, rfl⟩

/-- A move that succeeds was not refused, and leaves the moved table. -/
theorem Change.move_eq_ok {tenant parent : TenantId} {verbose : Bool}
    {o : Closure × Option RepairReport} (h : (move tenant parent verbose).outcome t = .ok o) :
    Hierarchy.moveFault? t tenant parent = none ∧ o.1 = t.moved tenant.cell parent.cell := by
  dsimp only [outcome] at h
  cases hfault : Hierarchy.moveFault? t tenant parent with
  | some e =>
    rw [hfault] at h
    cases h
  | none =>
    rw [hfault] at h
    cases hplan : Hierarchy.forewarning t tenant parent verbose with
    | error e =>
      rw [hplan] at h
      cases h
    | ok es =>
      rw [hplan] at h
      cases h
      exact ⟨rfl, rfl⟩

/-- The repair of a parent edge that succeeds was not refused, and leaves the table in which the
    tenant is adopted. -/
theorem Request.repairPair_eq_ok {tenant parent : TenantId} {o : Closure × Option RepairReport}
    (h : (repairPair tenant parent).outcome t = .ok o) :
    Hierarchy.pairFault? t tenant parent = none ∧
      o.1 = (Hierarchy.rooted t parent.cell tenant.cell).adopt parent.cell tenant.cell := by
  dsimp only [outcome] at h
  cases hfault : Hierarchy.pairFault? t tenant parent with
  | some e =>
    rw [hfault] at h
    cases h
  | none =>
    rw [hfault] at h
    dsimp only at h
    cases hread :
      Hierarchy.readDepth (Hierarchy.rooted t parent.cell tenant.cell) parent tenant with
    | error e =>
      rw [hread] at h
      cases h
    | ok existing =>
      rw [hread] at h
      cases h
      exact ⟨rfl, rfl⟩

/-- **The operation of a request** answers as the outcome of the request says, and leaves its table
    if it succeeds; a failure may leave some rows behind. -/
theorem Request.work_on {s : Scope} (r : Request) (h : s.Holds t) :
    ∃ u es, r.work.on s = ((r.outcome t).map Prod.snd, s.after u es) ∧
      ∀ o, r.outcome t = .ok o → u = o.1 := by
  -- each operation has its own equation above; where it fails, the rows may still have changed
  have hsame : s.after t [] = s := h.after_self
  cases r with
  | change c =>
    cases c with
    | insert parent id =>
      show ∃ u es, (Hierarchy.insert parent id >>= fun _ => pure none).on s = _ ∧ _
      rw [Work.on_bind, Hierarchy.insert_on h, outcome, Change.outcome]
      cases Hierarchy.insertFault? t parent id with
      | some e => exact ⟨t, [], by rw [hsame]; rfl, fun _ ho => nomatch ho⟩
      | none => exact ⟨_, _, rfl, fun _ ho => congrArg Prod.fst (Except.ok.inj ho)⟩
    | move tenant parent verbose =>
      show ∃ u es, (Hierarchy.move tenant parent verbose >>= fun _ => pure none).on s = _ ∧ _
      rw [Work.on_bind, Hierarchy.move_on h, outcome, Change.outcome]
      cases Hierarchy.moveFault? t tenant parent with
      | some e => exact ⟨t, [], by rw [hsame]; rfl, fun _ ho => nomatch ho⟩
      | none =>
        cases Hierarchy.forewarning t tenant parent verbose with
        | error e => exact ⟨t, [], by rw [hsame]; rfl, fun _ ho => nomatch ho⟩
        | ok plan => exact ⟨_, _, rfl, fun _ ho => congrArg Prod.fst (Except.ok.inj ho)⟩
    | repairAll =>
      show ∃ u es, (Hierarchy.repairAll >>= fun report => pure (some report)).on s = _ ∧ _
      rw [Work.on_bind, Hierarchy.repairAll_on h]
      exact ⟨_, _, rfl, fun _ ho => congrArg Prod.fst (Except.ok.inj ho)⟩
  | repairPair tenant parent =>
    show ∃ u es, (Hierarchy.repairPair tenant parent >>= fun report => pure (some report)).on s
      = _ ∧ _
    rw [Work.on_bind, Hierarchy.repairPair_on h, outcome]
    cases Hierarchy.pairFault? t tenant parent with
    | some e => exact ⟨t, [], by rw [hsame]; rfl, fun _ ho => nomatch ho⟩
    | none =>
      dsimp only
      cases Hierarchy.readDepth (Hierarchy.rooted t parent.cell tenant.cell) parent tenant with
      | error e => exact ⟨_, _, rfl, fun _ ho => nomatch ho⟩
      | ok existing => exact ⟨_, _, rfl, fun _ ho => congrArg Prod.fst (Except.ok.inj ho)⟩

/-- The store after a request with a given outcome. -/
def Store.settle (s : Store) (o : Except Failure (Closure × Option RepairReport))
    (es : List Event) : Except Failure (Option RepairReport) × Store :=
  match o with
  | .ok (u, a) => (.ok a, s.after (s.database.setClosure u) es)
  | .error e => (.error e, s.after s.database es)

/-- Serving a request is its operation in a transaction, as far as the answer and the database
    go. -/
theorem Request.serve_transact (r : Request) : ∃ es, r.serve.on s
    = (((Store.transact r.work).on s).1, s.after ((Store.transact r.work).on s).2.database es) := by
  cases r with
  | change c =>
    cases c with
    | insert parent id =>
      show ∃ es, (Store.transact (Hierarchy.insert parent id) >>= fun _ => pure none).on s = _
      rw [← Store.transact_map]
      exact Store.transact_after
    -- only a move does more than its transaction: the scan for cycles follows it
    | move tenant parent verbose =>
      show ∃ es, (Store.moveTenant tenant parent verbose >>= fun _ => pure none).on s
        = (((Store.transact (Hierarchy.move tenant parent verbose >>= fun _ => pure none)).on s).1,
          s.after ((Store.transact
            (Hierarchy.move tenant parent verbose >>= fun _ => pure none)).on s).2.database es)
      obtain ⟨es, hmove⟩ := Store.moveTenant_on (s := s) tenant parent verbose
      refine ⟨es, ?_⟩
      rw [Store.transact_map, StoreWork.on_bind, StoreWork.on_bind, hmove]
      rcases (Store.transact (Hierarchy.move tenant parent verbose)).on s with ⟨r, s'⟩
      cases r <;> rfl
    | repairAll =>
      show ∃ es, (Store.transact Hierarchy.repairAll >>= fun report => pure (some report)).on s = _
      rw [← Store.transact_map]
      exact Store.transact_after
  | repairPair tenant parent =>
    show ∃ es, (Store.transact (Hierarchy.repairPair tenant parent) >>= fun report =>
      pure (some report)).on s = _
    rw [← Store.transact_map]
    exact Store.transact_after

/-- **Serving a request.** A ready store does what the outcome of the request on its table says. -/
theorem Request.serve_on (r : Request) (h : s.Ready) (ht : s.database.closure? = some t) :
    ∃ es, r.serve.on s = s.settle (r.outcome t) es := by
  obtain ⟨es, hserve⟩ := r.serve_transact (s := s)
  obtain ⟨u, fs, hwork, hu⟩ := r.work_on (s := { database := s.database }) ⟨ht, rfl⟩
  refine ⟨es, ?_⟩
  rw [hserve, h.transact_on, hwork]
  cases ho : r.outcome t with
  | error e => rfl
  | ok o =>
    rw [hu o ho]
    rfl

/-! ### Lists of requests -/

/-- The table after a request. -/
def Closure.next (t : Closure) (r : Request) : Closure :=
  match r.outcome t with
  | .ok (u, _) => u
  | .error _ => t

/-- The next rows after a request that succeeds are those of its outcome. -/
theorem Closure.next_of_ok {r : Request} {o : Closure × Option RepairReport}
    (h : r.outcome t = .ok o) : t.next r = o.1 := by
  rw [next, h]

theorem Closure.next_of_error {r : Request} {e : Failure} (h : r.outcome t = .error e) :
    t.next r = t := by
  rw [next, h]

namespace Store

/-- The answer to a request. -/
def answer (s : Store) (r : Request) : Except Failure (Option RepairReport) := (r.serve.on s).1

/-- The store after a request. -/
def next (s : Store) (r : Request) : Store := (r.serve.on s).2

/-- The store after a list of requests. -/
def afterAll (s : Store) (rs : List Request) : Store := rs.foldl next s

variable {r : Request}

/-- What a caller gets is the outcome's answer, decided by the rows alone. -/
theorem answer_eq (h : s.Ready) (ht : s.database.closure? = some t) :
    s.answer r = (r.outcome t).map Prod.snd := by
  obtain ⟨es, hserve⟩ := r.serve_on h ht
  rw [answer, hserve]
  cases r.outcome t <;> rfl

/-- A ready store stays ready, and its table goes from request to request. -/
theorem ready_next (h : s.Ready) (ht : s.database.closure? = some t) :
    (s.next r).Ready ∧ (s.next r).database.closure? = some (t.next r) := by
  obtain ⟨es, hserve⟩ := r.serve_on h ht
  rw [next, hserve, Closure.next]
  cases r.outcome t with
  | error e => exact ⟨h.after, ht⟩
  | ok p =>
    refine ⟨h.after, ?_⟩
    show (s.database.setClosure p.1).closure? = some p.1
    rw [Database.closure?_setClosure, ht, Option.map_some]

/-- **A run of requests.** A ready store stays ready, and its rows are those of the outcomes one
    after the other; by induction on the requests. -/
theorem ready_afterAll (rs : List Request) (h : s.Ready) (ht : s.database.closure? = some t) :
    (s.afterAll rs).Ready ∧
      (s.afterAll rs).database.closure? = some (rs.foldl Closure.next t) := by
  induction rs generalizing s t with
  | nil => exact ⟨h, ht⟩
  | cons r rs ih =>
    obtain ⟨h', ht'⟩ := ready_next (r := r) h ht
    exact ih h' ht'

/-- What a scan for circular references finds in a ready store. -/
theorem look_circularReferences (h : s.Ready) (ht : s.database.closure? = some t) :
    ((look Hierarchy.circularReferences).on s).1 = Hierarchy.scanResult t := by
  rw [look_on h.connectFault?, h.free, Hierarchy.circularReferences_on ht]

/-- A new store in memory, once its schema is prepared. -/
def initial : Store := (prepareSchema.on { path := memoryPath }).2

theorem ready_initial : initial.Ready := ⟨rfl, by decide, rfl⟩

theorem closure?_initial : initial.database.closure? = some .empty := rfl

end Store

end Tenancy
