import Tenancy.Proofs.Requests
import Tenancy.Proofs.Stepwise

namespace Tenancy

/-!
# Operations in one transaction

A transaction may run any number of operations on the hierarchy, and stops at the first that fails.
Either all of them are kept, and then the database is the one that the same operations lead to in
transactions of their own, or nothing is.

* `Request.stepwise_work` — the operations on the hierarchy are done step by step, on any database.
* `Store.transact_eq_ok_iff`, `Store.database_transact`, `Store.refuses_of_error` — a transaction
  that succeeds, and one that fails; `Store.transact_congr` — two that come to the same.
* `runAll` — operations one after the other within a transaction.
* `Store.transact_runAll` — such a transaction keeps all or nothing.
-/

variable {α : Type} {s : Store} {scope scope' : Scope} {r : Request}
  {rs done rest : List Request} {e : Failure}

/-- What a request asks for is done step by step. -/
theorem Request.stepwise_work (r : Request) : r.work.Stepwise True := by
  cases r with
  | change c =>
    cases c with
    | insert parent id => exact .bind Hierarchy.stepwise_insert fun _ => .pure _
    | move tenant parent verbose => exact .bind Hierarchy.stepwise_move fun _ => .pure _
    | repairAll => exact .bind Hierarchy.stepwise_repairAll fun _ => .pure _
  | repairPair tenant parent => exact .bind Hierarchy.stepwise_repairPair fun _ => .pure _

/-- What was told before a request makes no difference to what it asks for. -/
theorem Request.plain_work (r : Request) : r.work.Plain := r.stepwise_work.plain

/-! ### Operations one after the other -/

/-- What the requests ask for, one after the other, up to the first that fails. -/
def runAll (rs : List Request) : Work Unit := rs.forM fun r => discard r.work

theorem plain_runAll (rs : List Request) : (runAll rs).Plain :=
  (Work.Stepwise.forM fun r => r.stepwise_work.discard).plain

/-- A run goes on from the state that its first request has left. -/
theorem on_runAll_cons : (runAll (r :: rs)).on scope = match r.work.on scope with
    | (.ok _, scope') => (runAll rs).on scope'
    | (.error e, scope') => (.error e, scope') := by
  show ((fun _ => ()) <$> r.work >>= fun _ => runAll rs : Work Unit).on scope = _
  rw [map_eq_pure_bind, Work.on_bind, Work.on_bind]
  rcases r.work.on scope with ⟨x, scope'⟩
  cases x <;> rfl

/-- Where the first requests succeed, what is left is the run of the others. -/
theorem on_runAll_append (h : (runAll done).on scope = (.ok (), scope')) :
    (runAll (done ++ rest)).on scope = (runAll rest).on scope' := by
  induction done generalizing scope with
  | nil =>
    cases h
    rfl
  | cons r done ih =>
    rw [List.cons_append, on_runAll_cons]
    rw [on_runAll_cons] at h
    generalize r.work.on scope = o at h ⊢
    obtain ⟨x, scope₁⟩ := o
    cases x with
    | error e => cases h
    | ok a => exact ih h

namespace Store

/-- The work fails, and leaves the database as it was. -/
def Refuses {α : Type} (s : Store) (w : StoreWork α) (e : Failure) : Prop :=
  (w.on s).1 = .error e ∧ (w.on s).2.database = s.database

/-! ### Beginnings and ends that fail -/

variable {db : Database}

/-- A transaction fails to begin exactly with the fault of the store. -/
theorem begin_eq_error_iff : (begin.on s).1 = .error e ↔ s.beginFault? = some e := by
  rw [begin_on]
  cases s.beginFault? <;> simp

theorem begin_eq_ok_iff : (begin.on s).1 = .ok scope ↔ s.beginFault? = none ∧ scope = s.scope := by
  rw [begin_on]
  cases s.beginFault? <;> simp [eq_comm]

theorem commit_eq_error_iff : ((commit db).on s).1 = .error e ↔ s.commitFault? = some e := by
  rw [commit_on]
  cases s.commitFault? <;> simp

theorem commit_eq_ok_iff : ((commit db).on s).1 = .ok () ↔ s.commitFault? = none := by
  rw [commit_on]
  cases s.commitFault? <;> simp

/-- A transaction does not begin if no connection can be made, all are in use, or another one
    writes. -/
theorem exists_begin_error_iff : (∃ e, (begin.on s).1 = .error e) ↔
    s.refusal?.isSome = true ∨ (s.lease.isSome = true ∧ s.slots ≤ 1) ∨ s.lease = some .writing := by
  simp only [begin_eq_error_iff, ← Option.isSome_iff_exists]
  rw [beginFault?, connectFault?]
  cases s.refusal? with
  | some e => simp
  | none =>
    by_cases hpool : s.slots ≤ 1
    · cases s.lease <;> simp [hpool]
    · cases s.lease with
      | none => simp
      | some l => cases l <;> simp [hpool]

/-- What was written cannot be kept while another one has read, without a write-ahead log. -/
theorem exists_commit_error_iff : (∃ e, ((commit db).on s).1 = .error e) ↔
    s.readOnly = false ∧ (∃ seen, s.lease = some (.reading (some seen))) ∧ s.journal = .delete := by
  simp only [commit_eq_error_iff, ← Option.isSome_iff_exists]
  rw [commitFault?, access]
  cases s.readOnly with
  | true => simp
  | false =>
    cases s.lease with
    | none => simp
    | some l =>
      cases l with
      | idle => simp
      | writing => simp
      | reading seen => cases seen <;> cases s.journal <;> simp

/-! ### All or nothing -/

variable {w : Work α}

/-- **A transaction that fails leaves the database as it was**, whatever the work has written. -/
theorem refuses_of_error (h : ((transact w).on s).1 = .error e) : s.Refuses (transact w) e := by
  refine ⟨h, ?_⟩
  -- the one case in which something is kept is the one that does not fail
  rw [transact_on] at h ⊢
  cases hbegin : s.beginFault? with
  | some e => rfl
  | none =>
    rw [hbegin] at h
    dsimp only at h ⊢
    generalize w.on s.scope = o at h ⊢
    obtain ⟨x, scope'⟩ := o
    cases x with
    | error e => rfl
    | ok a =>
      cases hcommit : s.commitFault? with
      | some e => rfl
      | none =>
        rw [hcommit] at h
        cases h

theorem refuses_of_begin (hbegin : (begin.on s).1 = .error e) : s.Refuses (transact w) e :=
  refuses_of_error (by rw [transact_on, begin_eq_error_iff.1 hbegin])

/-- A transaction whose work fails changes nothing. -/
theorem refuses_of_work (hbegin : (begin.on s).1 = .ok scope) (hw : (w.on scope).1 = .error e) :
    s.Refuses (transact w) e := by
  obtain ⟨hfault, rfl⟩ := begin_eq_ok_iff.1 hbegin
  refine refuses_of_error ?_
  rw [transact_on, hfault]
  generalize w.on s.scope = o at hw ⊢
  obtain ⟨x, scope'⟩ := o
  cases hw
  rfl

/-- A transaction that cannot commit changes nothing. -/
theorem refuses_of_commit {a : α} (hbegin : (begin.on s).1 = .ok scope)
    (hw : w.on scope = (.ok a, scope')) (hcommit : ((commit scope'.database).on s).1 = .error e) :
    s.Refuses (transact w) e := by
  obtain ⟨hfault, rfl⟩ := begin_eq_ok_iff.1 hbegin
  exact refuses_of_error (by rw [transact_on, hfault, hw, commit_eq_error_iff.1 hcommit])

/-- A transaction succeeds if it begins, its work succeeds, and what was written can be
    committed. -/
theorem transact_eq_ok_iff {a : α} : ((transact w).on s).1 = .ok a ↔
    s.beginFault? = none ∧ s.commitFault? = none ∧ (w.on s.scope).1 = .ok a := by
  rw [transact_on]
  cases s.beginFault? with
  | some e => simp
  | none =>
    generalize w.on s.scope = o
    obtain ⟨x, scope'⟩ := o
    cases x with
    | error e => simp
    | ok b => cases s.commitFault? <;> simp

/-- What a transaction that succeeds has written is kept. -/
theorem database_transact {a : α} (h : ((transact w).on s).1 = .ok a) :
    ((transact w).on s).2.database = (w.on s.scope).2.database := by
  obtain ⟨hbegin, hcommit, hw⟩ := transact_eq_ok_iff.1 h
  have hrun : w.on s.scope = (.ok a, (w.on s.scope).2) := Prod.ext hw rfl
  rw [transact_on, hbegin, hrun, hcommit]
  rfl

/-- Two pieces of work that succeed on the same conditions, and then leave the same database, do so
    in transactions too; if they fail, neither leaves a trace. -/
theorem transact_congr {w w' : Work Unit}
    (hok : (w.on s.scope).1 = .ok () ↔ (w'.on s.scope).1 = .ok ())
    (hdb : (w.on s.scope).1 = .ok () → (w.on s.scope).2.database = (w'.on s.scope).2.database) :
    (((transact w).on s).1 = .ok () ↔ ((transact w').on s).1 = .ok ()) ∧
      ((transact w).on s).2.database = ((transact w').on s).2.database := by
  have hiff : ((transact w).on s).1 = .ok () ↔ ((transact w').on s).1 = .ok () := by
    rw [transact_eq_ok_iff, transact_eq_ok_iff, hok]
  -- on success the two works have left the same rows; on failure both databases are that of before
  refine ⟨hiff, ?_⟩
  cases h : ((transact w).on s).1 with
  | ok a =>
    rw [database_transact h, database_transact (hiff.1 h)]
    exact hdb (transact_eq_ok_iff.1 h).2.2
  | error e =>
    cases h' : ((transact w').on s).1 with
    | ok a =>
      rw [hiff.2 h'] at h
      cases h
    | error e' => rw [(refuses_of_error h).2, (refuses_of_error h').2]

/-- What the requests of one transaction come to is what they come to in transactions of their own:
    each of these begins where the one before has left the database. -/
theorem database_afterAll (hbegin : s.beginFault? = none) (hcommit : s.commitFault? = none)
    (hrun : (runAll rs).on s.scope = (.ok (), scope')) :
    (s.afterAll rs).database = scope'.database ∧
      ∀ done r rest, rs = done ++ r :: rest → ∃ a, (s.afterAll done).answer r = .ok a := by
  induction rs generalizing s scope' with
  | nil =>
    cases hrun
    exact ⟨rfl, fun done r rest h => by simp at h⟩
  | cons r rs ih =>
    obtain ⟨x, db, es, hwork⟩ := r.plain_work s.database s.scope.access
    obtain ⟨y, db', fs, hrest⟩ := plain_runAll rs db s.scope.access
    have hfirst : r.work.on s.scope = (x, ⟨db, es, s.scope.access⟩) := hwork []
    rw [on_runAll_cons, hfirst] at hrun
    cases x with
    | error e => cases hrun
    | ok a =>
      dsimp only at hrun
      rw [hrest] at hrun
      cases hrun
      -- the next transaction begins with nothing told
      obtain ⟨gs, hserve⟩ := r.serve_transact (s := s)
      rw [transact_on, hbegin, hfirst, hcommit] at hserve
      have hnext : s.next r = s.after db gs := congrArg Prod.snd hserve
      have hanswer : s.answer r = .ok a := congrArg Prod.fst hserve
      have hthen : (runAll rs).on (s.next r).scope
          = (.ok (), ⟨db', [] ++ fs, s.scope.access⟩) := by
        rw [hnext]
        exact hrest []
      obtain ⟨hdb, hall⟩ := ih (hnext ▸ hbegin) (hnext ▸ hcommit) hthen
      refine ⟨hdb, fun done r' rest h => ?_⟩
      cases done with
      | nil =>
        obtain ⟨rfl, rfl⟩ := List.cons.inj h
        exact ⟨a, hanswer⟩
      | cons r'' done =>
        obtain ⟨rfl, htail⟩ := List.cons.inj h
        exact hall done r' rest htail

/-- A request that fails, in a transaction of its own, leaves the database as it was. -/
theorem database_next_of_error (h : s.answer r = .error e) : (s.next r).database = s.database := by
  obtain ⟨es, hserve⟩ := r.serve_transact (s := s)
  rw [answer, hserve] at h
  rw [next, hserve]
  exact (refuses_of_error h).2

/-- **All or nothing.** Requests that are served in one transaction, up to the first that fails,
    change the database as they do in transactions of their own, if the transaction begins, each of
    them succeeds and the transaction is committed.  If any of this fails, the failure is passed on,
    and the database stays as it was.  So it does if a request fails that is served on its own. -/
theorem transact_runAll (s : Store) (rs : List Request) :
    (∀ e, (begin.on s).1 = .error e → s.Refuses (transact (runAll rs)) e) ∧
    (∀ scope, (begin.on s).1 = .ok scope →
      (∀ done r rest scope' e, rs = done ++ r :: rest → (runAll done).on scope = (.ok (), scope') →
        (r.work.on scope').1 = .error e → s.Refuses (transact (runAll rs)) e) ∧
      ∀ scope', (runAll rs).on scope = (.ok (), scope') →
        (∀ e, ((commit scope'.database).on s).1 = .error e → s.Refuses (transact (runAll rs)) e) ∧
        (((commit scope'.database).on s).1 = .ok () →
          ((transact (runAll rs)).on s).1 = .ok () ∧
          ((transact (runAll rs)).on s).2.database = (s.afterAll rs).database ∧
          ∀ done r rest, rs = done ++ r :: rest → ∃ a, (s.afterAll done).answer r = .ok a)) ∧
    (∀ r e, s.answer r = .error e → (s.next r).database = s.database) ∧
    ((∃ e, (begin.on s).1 = .error e) ↔ s.refusal?.isSome = true ∨
      (s.lease.isSome = true ∧ s.slots ≤ 1) ∨ s.lease = some .writing) ∧
    ∀ db, (∃ e, ((commit db).on s).1 = .error e) ↔
      s.readOnly = false ∧ (∃ seen, s.lease = some (.reading (some seen))) ∧
        s.journal = .delete := by
  -- one case for each place where a transaction can fail, and one for none
  refine ⟨fun e => refuses_of_begin, fun scope hbegin => ⟨?_, fun scope' hrun => ⟨?_, ?_⟩⟩,
    fun r e => database_next_of_error, exists_begin_error_iff, fun db => exists_commit_error_iff⟩
  · rintro done r rest scope' e rfl hdone hfail
    refine refuses_of_work hbegin ?_
    rw [on_runAll_append hdone, on_runAll_cons]
    generalize r.work.on scope' = o at hfail ⊢
    obtain ⟨x, scope''⟩ := o
    cases hfail
    rfl
  · exact fun e => refuses_of_commit hbegin hrun
  · intro hcommit
    obtain ⟨hfault, rfl⟩ := begin_eq_ok_iff.1 hbegin
    have hlock := commit_eq_ok_iff.1 hcommit
    obtain ⟨hdb, hall⟩ := database_afterAll hfault hlock hrun
    rw [transact_on, hfault, hrun, hlock]
    exact ⟨rfl, hdb.symm, hall⟩

/-- Two tenants come in together; the same one twice does not come in at all. -/
theorem transact_runAll_of_two :
    let insert (parent id : Nat) : Request := .change (.insert (.ofNat parent) (.ofNat id))
    let both := transact (runAll [insert 0 1, insert 1 2])
    (both.on initial).2.database = (initial.afterAll [insert 0 1, insert 1 2]).database ∧
      initial.Refuses (transact (runAll [insert 0 1, insert 0 1]))
        (.conflict (.present (.ofNat 1))) := by
  intro insert both
  have hbegin : (begin.on initial).1 = .ok initial.scope := rfl
  have hrun : ((runAll [insert 0 1, insert 1 2]).on initial.scope).1 = .ok () := rfl
  have hone : ((runAll [insert 0 1]).on initial.scope).1 = .ok () := rfl
  have hagain : ((insert 0 1).work.on ((runAll [insert 0 1]).on initial.scope).2).1
      = .error (.conflict (.present (.ofNat 1))) := rfl
  constructor
  · obtain ⟨-, hkeeps⟩ := ((transact_runAll initial _).2.1 _ hbegin).2 _ (Prod.ext hrun rfl)
    exact (hkeeps rfl).2.1
  · obtain ⟨hrefuses, -⟩ := (transact_runAll initial [insert 0 1, insert 0 1]).2.1 _ hbegin
    exact hrefuses [insert 0 1] (insert 0 1) [] _ _ rfl (Prod.ext hone rfl) hagain

end Store

end Tenancy
