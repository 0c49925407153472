import Mathlib.Algebra.Group.Nat.Defs
import Tenancy.Proofs.ExitStatus

namespace Tenancy

/-!
# Refusals for the ids alone

A request can be refused for its ids, before anything is looked up.  This is all that is ever said
against ids: what comes after these checks may run into a conflict or into a fault of the store, on
whatever table, but refuses no ids any more.  The command line has rules for ids of its own; they
are weaker, since they do not care how large an id is, and otherwise they come to the same.

* `Work.Lenient` — work that refuses no ids.
* `Work.Screens` — work that is refused for its ids, or else refuses none.
* `Request.refusal?`, `Request.screens_work` — why a request is refused for its ids.
* `Admin.Command.problems_agree` — the rules of the command line and those of the operations.
-/

variable {α β : Type} {s : Store} {t : Closure} {tenant parent id : TenantId} {verbose : Bool}
  {i : InvalidId} {r : Request}

/-! ### Work that refuses no ids -/

namespace Work

variable {w : Work α} {f : α → Work β} {name : String}

/-- The work refuses no ids, whatever else it may fail for. -/
def Lenient (w : Work α) : Prop := ∀ s i, (w.on s).1 ≠ .error (.invalid i)

namespace Lenient

theorem pure (a : α) : (Pure.pure a : Work α).Lenient := fun _ _ h => by cases h

theorem conflict (c : Conflict) : (throw (.conflict c) : Work α).Lenient := fun _ _ h => by cases h

theorem store (fault : StoreFault) : (throw (.store fault) : Work α).Lenient :=
  fun _ _ h => by cases h

theorem note (ev : Event) : (Work.note ev).Lenient := fun _ _ h => by cases h

/-- Lenient work followed by lenient work: a refusal would have come from one of the two. -/
theorem bind (hw : w.Lenient) (hf : ∀ a, (f a).Lenient) : (w >>= f).Lenient := by
  intro s i h
  rw [on_bind] at h
  have hfirst := hw s i
  generalize w.on s = o at h hfirst
  obtain ⟨x, s'⟩ := o
  cases x with
  | error e =>
    cases h
    exact hfirst rfl
  | ok a => exact hf a s' i h

theorem map {g : α → β} (hw : w.Lenient) : (g <$> w).Lenient := by
  rw [map_eq_pure_bind]
  exact hw.bind fun _ => .pure _

theorem discard (hw : w.Lenient) : (Functor.discard w).Lenient := hw.map

theorem ite {c : Prop} [Decidable c] {v : Work α} (hw : w.Lenient) (hv : v.Lenient) :
    (if c then w else v).Lenient := by
  split
  · exact hw
  · exact hv

/-- Work that is done on a condition, before the rest. -/
theorem when {c : Prop} [Decidable c] {v : Work Unit} {f : Unit → Work β} (hv : v.Lenient)
    (hf : ∀ a, (f a).Lenient) : (if c then v >>= f else f ()).Lenient :=
  .ite (hv.bind hf) (hf ())

/-- Lenient work for each member of a list, by induction on the list. -/
theorem forM {l : List α} {f : α → Work PUnit} (hf : ∀ a, (f a).Lenient) : (l.forM f).Lenient := by
  induction l with
  | nil => exact .pure _
  | cons a l ih => exact (hf a).bind fun _ => ih

/-- A statement that is answered already can only fail as the store does. -/
theorem step (x : Except StatementFault α) : (Work.step name x).Lenient := by
  cases x with
  | ok a => exact .pure a
  | error fault => exact .store _

theorem read : (Work.read name).Lenient := by
  refine .bind (fun _ _ h => by cases h) fun s => ?_
  cases s.database.closure? with
  | some t => exact .pure t
  | none => exact step _

/-- A write that is refused is a fault of the store. -/
theorem write (change : Database → Database) : (Work.write (failure name) change).Lenient := by
  refine .bind (fun _ _ h => by cases h) fun s => ?_
  cases s.access.writeFault? with
  | some fault => exact .store _
  | none => exact fun _ _ h => by cases h

/-- A transaction that cannot begin is a fault of the store. -/
theorem enter : (Work.enter name).Lenient := by
  refine .bind (fun _ _ h => by cases h) fun s => ?_
  cases s.access.beginFault? with
  | some fault => exact .store _
  | none => exact .pure _

theorem execute (statement : Closure → Written) : (Work.execute name statement).Lenient :=
  .bind read fun _ => .bind (write _) fun _ => .pure _

theorem add (rows : Closure → List Row) : (Work.add name rows).Lenient :=
  .bind read fun _ => .bind enter fun _ => .ite (execute _) (step _)

end Lenient

/-! ### Work behind a check of ids -/

/-- The work is refused for the reason that is given, on whatever database and before it has done
    anything; without one, it refuses no ids. -/
structure Screens (w : Work α) (reason? : Option InvalidId) : Prop where
  refused : ∀ i, reason? = some i → ∀ s, w.on s = (.error (.invalid i), s)
  lenient : reason? = none → w.Lenient

namespace Screens

variable {reason? rest? : Option InvalidId}

theorem of_lenient (h : w.Lenient) : w.Screens none where
  refused _ hi := by cases hi
  lenient _ := h

/-- A check before the rest. -/
theorem check {v : Work Unit} {f : Unit → Work β}
    (hv : ∀ s, v.on s = (verdict (reason?.map .invalid), s)) (hrest : (f ()).Screens rest?) :
    (v >>= f).Screens (reason? <|> rest?) := by
  -- with a reason the check ends the work, and without one it does nothing
  cases reason? with
  | some i =>
    refine ⟨fun j hj s => ?_, fun hnone => by cases hnone⟩
    cases hj
    exact on_check (hv s)
  | none =>
    have hon : ∀ s, (v >>= f).on s = (f ()).on s := fun s => on_check (hv s)
    refine ⟨fun i hi s => (hon s).trans (hrest.refused i hi s), fun hnone s i h => ?_⟩
    rw [hon] at h
    exact hrest.lenient hnone s i h

/-- The last check. -/
theorem lastCheck {v : Work Unit} {f : Unit → Work β}
    (hv : ∀ s, v.on s = (verdict (reason?.map .invalid), s)) (hrest : (f ()).Lenient) :
    (v >>= f).Screens reason? := by
  have hscreens := check hv (of_lenient hrest)
  cases reason? <;> exact hscreens

/-- A refusal on a condition, as the last check. -/
theorem throwIf {c : Prop} [Decidable c] {f : Unit → Work β} (hrest : (f ()).Lenient) :
    (if c then throw (.invalid i) >>= f else f ()).Screens (if c then some i else none) := by
  by_cases hc : c
  · simp only [hc, if_true]
    exact lastCheck (fun _ => rfl) hrest
  · simp only [hc, if_false]
    exact of_lenient hrest

/-- What is done with the value of the work refuses no ids. -/
theorem bind (hw : w.Screens reason?) (hf : ∀ a, (f a).Lenient) : (w >>= f).Screens reason? where
  refused i hi s := by rw [on_bind, hw.refused i hi]
  lenient hnone := (hw.lenient hnone).bind hf

/-- Work with a reason to be refused is refused for the same reason on all databases. -/
theorem exists_refused (hw : w.Screens reason?) (h : reason? ≠ none) :
    ∃ i, ∀ s, w.on s = (.error (.invalid i), s) := by
  obtain ⟨i, hi⟩ := Option.ne_none_iff_exists'.1 h
  exact ⟨i, hw.refused i hi⟩

/-- The work fails for its ids just with the reason that is given. -/
theorem invalid_iff {s : Scope} (hw : w.Screens reason?) :
    (w.on s).1 = .error (.invalid i) ↔ reason? = some i := by
  -- without a reason no step refuses an id, and with one the first step does
  cases h : reason? with
  | none => exact iff_of_false (hw.lenient h s i) nofun
  | some j =>
    rw [hw.refused j h s]
    simp

end Screens

end Work

open Work.Lenient

/-! ### The operations -/

/-- An id fits a cell if it is below the half of what an id can be. -/
theorem TenantId.storable_iff : id.Storable ↔ id.toNat < 2 ^ 63 := by
  have hmax : TenantId.maxCell = 2 ^ 63 - 1 := rfl
  rw [TenantId.Storable, hmax]
  omega

namespace Hierarchy

variable {field : String}

/-- Why an id is refused that fits no cell. -/
def storableRefusal? (field : String) (id : TenantId) : Option InvalidId :=
  if id.Storable then none else some (.tooLarge field id)

/-- Why an id is refused that cannot name a tenant. -/
def tenantRefusal? (field : String) (id : TenantId) : Option InvalidId :=
  if id = .root then some (.zero field) else storableRefusal? field id

theorem storableRefusal?_eq_none_iff : storableRefusal? field id = none ↔ id.Storable := by
  unfold storableRefusal?
  split <;> simp [*]

/-- The only reason to refuse an id as too large. -/
theorem eq_of_storableRefusal? (h : storableRefusal? field id = some i) :
    i = .tooLarge field id := by
  unfold storableRefusal? at h
  split at h
  · cases h
  · exact (Option.some.inj h).symm

/-- So it is for two ids. -/
theorem eq_tooLarge_of_orElse {f g : String}
    (h : (storableRefusal? f tenant <|> storableRefusal? g parent) = some i) :
    ∃ field id, i = .tooLarge field id := by
  cases htenant : storableRefusal? f tenant with
  | some j =>
    rw [htenant] at h
    cases h
    exact ⟨_, _, eq_of_storableRefusal? htenant⟩
  | none =>
    rw [htenant] at h
    exact ⟨_, _, eq_of_storableRefusal? h⟩

/-- No refusal for a tenant says that it is not the root and that a cell can hold it. -/
theorem tenantRefusal?_eq_none_iff :
    tenantRefusal? field id = none ↔ id ≠ .root ∧ id.Storable := by
  unfold tenantRefusal?
  split
  · simp [*]
  · simp [*, storableRefusal?_eq_none_iff]

/-- For an id other than the root the check of a tenant is that of an id. -/
theorem tenantRefusal?_of_ne (h : id ≠ .root) :
    tenantRefusal? field id = storableRefusal? field id :=
  if_neg h

/-- The check of an id fails with its refusal and with nothing else. -/
theorem requireStorable_on {s : Scope} : (requireStorable field id).on s
    = (verdict ((storableRefusal? field id).map .invalid), s) := by
  unfold requireStorable storableRefusal?
  split <;> rfl

/-- The check of a tenant fails with its refusal and with nothing else. -/
theorem requireTenant_on {s : Scope} : (requireTenant field id).on s
    = (verdict ((tenantRefusal? field id).map .invalid), s) := by
  unfold requireTenant tenantRefusal?
  split
  · rfl
  · exact requireStorable_on

/-- The queries of the engine refuse no id: what they fail with is the store's. -/
theorem lenient_isPresent : (isPresent id).Lenient :=
  .bind read fun _ => .bind (step _) fun _ => .pure _

theorem lenient_depthBetween : (depthBetween tenant parent).Lenient := by
  refine .bind read fun t => .bind (step _) fun a => .bind (step _) fun d => ?_
  cases t.depth? a d with
  | none => exact .pure _
  | some k => exact (step _).map

theorem lenient_relatives {name : String} {select : Closure → Int → List Kin} :
    (relatives name id select).Lenient :=
  .bind read fun _ => .bind (step _) fun _ => step _

theorem lenient_requireParent : (requireParent parent).Lenient :=
  .ite (.bind lenient_isPresent fun _ => .ite (.conflict _) (.pure _)) (.pure _)

theorem lenient_refuseCycle : (refuseCycle tenant parent).Lenient := by
  unfold refuseCycle
  exact .when (.conflict _) fun _ => .bind lenient_depthBetween fun _ =>
    .ite (.conflict _) (.pure _)

theorem lenient_plan : (plan tenant parent).Lenient := by
  have hsup : (supertree parent).Lenient := .ite (.pure _) lenient_relatives
  exact .bind lenient_relatives fun _ => .bind hsup fun _ => .note _

theorem lenient_attach : (attach tenant parent).Lenient :=
  .bind (execute _) fun _ => .bind lenient_depthBetween fun _ =>
    .ite (.pure _) (.bind (execute _) fun _ => .bind (.note _) fun _ => .pure _)

theorem lenient_runPasses : runPasses.Lenient :=
  .bind read fun _ => .bind (execute _).discard fun _ =>
    .bind (.forM fun _ => .note _) fun _ => .pure _

theorem lenient_repairAll : repairAll.Lenient :=
  .bind (execute _) fun _ => .bind (execute _) fun _ => .bind lenient_runPasses fun _ =>
    .bind (.note _) fun _ => .pure _

/-- An insertion refuses its ids first. -/
theorem screens_insert : (insert parent id).Screens
    (tenantRefusal? "new_id" id <|> storableRefusal? "parent_id" parent
      <|> if parent = id then some (.ownParent id) else none) :=
  .check (fun _ => requireTenant_on) <| .check (fun _ => requireStorable_on) <| .throwIf <|
    .bind lenient_isPresent fun _ => .when (.conflict _) fun _ =>
      .bind lenient_requireParent fun _ => .bind (add _).discard fun _ =>
        .ite (.note _) (.bind (add _).discard fun _ => .bind (add _) fun _ => .note _)

/-- A move refuses its ids first. -/
theorem screens_move : (move tenant parent verbose).Screens
    (tenantRefusal? "tenant_id" tenant <|> storableRefusal? "new_parent_id" parent) :=
  .check (fun _ => requireTenant_on) <| .lastCheck (fun _ => requireStorable_on) <|
    .when lenient_refuseCycle fun _ => .bind lenient_isPresent fun _ => .when (.conflict _) fun _ =>
      .bind lenient_requireParent fun _ => .when lenient_plan fun _ =>
        .bind (execute _) fun _ => .bind (execute _) fun _ =>
          .ite (.bind (.pure _) fun _ => .note _) (.bind lenient_attach fun _ => .note _)

/-- The repair of a parent edge refuses its ids first. -/
theorem screens_repairPair : (repairPair tenant parent).Screens
    (tenantRefusal? "tenant_id" tenant <|> tenantRefusal? "parent_id" parent
      <|> if tenant = parent then some (.ownParent tenant) else none) :=
  .check (fun _ => requireTenant_on) <| .check (fun _ => requireTenant_on) <| .throwIf <|
    .bind lenient_depthBetween fun _ => .when (.conflict _) fun _ =>
      .bind (execute _) fun _ => .bind (execute _) fun _ => .bind lenient_depthBetween fun _ =>
        .bind (execute _) fun _ => .bind (add _) fun _ =>
          .bind (.note _) fun _ => .bind (.note _) fun _ => .pure _

end Hierarchy

/-! ### Requests -/

namespace Request

open Hierarchy

/-- Why a request is refused for its ids, whatever a table holds. -/
def refusal? : Request → Option InvalidId
  | change (.insert parent id) => tenantRefusal? "new_id" id <|> storableRefusal? "parent_id" parent
      <|> if parent = id then some (.ownParent id) else none
  | change (.move tenant parent _) =>
      tenantRefusal? "tenant_id" tenant <|> storableRefusal? "new_parent_id" parent
  | change .repairAll => none
  | repairPair tenant parent =>
      tenantRefusal? "tenant_id" tenant <|> tenantRefusal? "parent_id" parent
        <|> if tenant = parent then some (.ownParent tenant) else none

/-- The ids for which an insertion is not refused, whatever the table holds. -/
theorem refusal?_insert_eq_none_iff : (change (.insert parent id)).refusal? = none ↔
    (id ≠ .root ∧ id.Storable) ∧ parent.Storable ∧ parent ≠ id := by
  simp [refusal?, tenantRefusal?_eq_none_iff, storableRefusal?_eq_none_iff]

/-- The ids for which a move is not refused, whatever the table holds. -/
theorem refusal?_move_eq_none_iff : (change (.move tenant parent verbose)).refusal? = none ↔
    (tenant ≠ .root ∧ tenant.Storable) ∧ parent.Storable := by
  simp [refusal?, tenantRefusal?_eq_none_iff, storableRefusal?_eq_none_iff]

/-- The ids for which the repair of a pair is not refused, whatever the table holds. -/
theorem refusal?_repairPair_eq_none_iff : (repairPair tenant parent).refusal? = none ↔
    (tenant ≠ .root ∧ tenant.Storable) ∧ (parent ≠ .root ∧ parent.Storable) ∧ tenant ≠ parent := by
  simp [refusal?, tenantRefusal?_eq_none_iff]

/-- **Refusals for the ids alone** come first, and later on there are no more of them. -/
theorem screens_work (r : Request) : r.work.Screens r.refusal? := by
  cases r with
  | change c =>
    cases c with
    | insert parent id => exact screens_insert.bind fun _ => .pure _
    | move tenant parent verbose => exact screens_move.bind fun _ => .pure _
    | repairAll => exact .of_lenient (lenient_repairAll.bind fun _ => .pure _)
  | repairPair tenant parent => exact screens_repairPair.bind fun _ => .pure _

/-- In a store, too: neither a transaction that does not begin, nor one that cannot be committed,
    refuses ids. -/
theorem transact_invalid_iff (hbegin : s.beginFault? = none) :
    ((Store.transact r.work).on s).1 = .error (.invalid i) ↔ r.refusal? = some i := by
  rw [← (screens_work r).invalid_iff (s := s.scope), Store.transact_on, hbegin]
  dsimp only
  generalize r.work.on s.scope = o
  obtain ⟨x, scope⟩ := o
  cases x with
  | error e => exact Iff.rfl
  | ok a =>
    -- the work was done, and only the commit may fail now
    have hcommit : s.commitFault? ≠ some (.invalid i) := by
      unfold Store.commitFault?
      split <;> nofun
    cases hc : s.commitFault? with
    | none => exact iff_of_false nofun nofun
    | some e =>
      rw [hc] at hcommit
      exact iff_of_false (fun h => hcommit (congrArg some (Except.error.inj h))) nofun

end Request

/-! ### The rules of the command line -/

namespace Admin.Command

open Hierarchy

variable {above : TenantId} {c : Command}

/-- A command that requests a change fails for its ids just if the request does. -/
theorem run_invalid_iff (hr : c.request? verbose = some r) (hbegin : s.beginFault? = none) :
    ((c.run verbose).on s).1 = .error (.invalid i) ↔ r.refusal? = some i := by
  -- what a command does behind its request never fails
  obtain ⟨k, hrun, hk⟩ := run_of_request? hr
  obtain ⟨es, hserve⟩ := r.serve_transact (s := s)
  rw [← Request.transact_invalid_iff hbegin, hrun, StoreWork.on_bind, hserve]
  cases ((Store.transact r.work).on s).1 with
  | error e => exact ⟨fun h => by cases h; rfl, fun h => by cases h; rfl⟩
  | ok a =>
    obtain ⟨answer, s', hanswer, -, -⟩ :=
      hk a (s.after ((Store.transact r.work).on s).2.database es)
    dsimp only
    rw [hanswer]
    exact iff_of_false nofun nofun

/-- What the command line checks of an insertion before the database is opened. -/
theorem problems_insert :
    (insert tenant above).problems = [] ↔ tenant ≠ .root ∧ tenant ≠ above := by
  rw [problems]
  split
  · simp [*]
  · split <;> simp [*]

/-- What the command line checks of a move before the database is opened. -/
theorem problems_move : (move tenant above).problems = [] ↔ tenant ≠ .root := by
  rw [problems]
  split <;> simp [*]

/-- What the command line checks of the repair of a pair before the database is opened. -/
theorem problems_repairPair : (repairPair tenant above).problems = [] ↔
    (tenant ≠ .root ∧ above ≠ .root) ∧ tenant ≠ above := by
  rw [problems, ← not_or]
  split
  · simp [*]
  · split <;> simp [*]

/-- The command asks for `tenant` to be below `above`. -/
def Places (c : Command) (tenant above : TenantId) : Prop :=
  c = .insert tenant above ∨ c = .move tenant above ∨ c = .repairPair tenant above

/-- A command with problems requests something that is refused. -/
theorem refusal?_of_problems (verbose : Bool) (hc : c.Places tenant above) (h : c.problems ≠ []) :
    ∃ r, c.request? verbose = some r ∧ r.refusal? ≠ none := by
  rcases hc with rfl | rfl | rfl
  · refine ⟨_, rfl, fun hnone => h (problems_insert.2 ?_)⟩
    obtain ⟨⟨hroot, -⟩, -, hne⟩ := Request.refusal?_insert_eq_none_iff.1 hnone
    exact ⟨hroot, hne.symm⟩
  · exact ⟨_, rfl, fun hnone =>
      h (problems_move.2 (Request.refusal?_move_eq_none_iff.1 hnone).1.1)⟩
  · refine ⟨_, rfl, fun hnone => h (problems_repairPair.2 ?_)⟩
    obtain ⟨⟨hroot, -⟩, ⟨habove, -⟩, hne⟩ := Request.refusal?_repairPair_eq_none_iff.1 hnone
    exact ⟨⟨hroot, habove⟩, hne⟩

/-- A command without problems requests something that is refused only for an id that fits no
    cell. -/
theorem refusal?_of_no_problems (verbose : Bool) (hc : c.Places tenant above)
    (h : c.problems = []) :
    ∃ r f g, c.request? verbose = some r ∧
      r.refusal? = (storableRefusal? f tenant <|> storableRefusal? g above) := by
  rcases hc with rfl | rfl | rfl
  · obtain ⟨hroot, hne⟩ := problems_insert.1 h
    refine ⟨_, "new_id", "parent_id", rfl, ?_⟩
    rw [Request.refusal?, tenantRefusal?_of_ne hroot, if_neg hne.symm]
    simp
  · exact ⟨_, "tenant_id", "new_parent_id", rfl,
      by rw [Request.refusal?, tenantRefusal?_of_ne (problems_move.1 h)]⟩
  · obtain ⟨⟨hroot, habove⟩, hne⟩ := problems_repairPair.1 h
    refine ⟨_, "tenant_id", "parent_id", rfl, ?_⟩
    rw [Request.refusal?, tenantRefusal?_of_ne hroot, tenantRefusal?_of_ne habove, if_neg hne]
    simp

/-- **The rules of the command line agree with those of the operations.**  If a command that asks
    for `tenant` to be below `above` has problems with its ids, it is refused for its ids, whatever
    the table holds.  If it has none, it is refused for its ids just if one of them is too large,
    and never because an id is 0 or a tenant would be its own parent. -/
theorem problems_agree (hbegin : s.beginFault? = none) (hc : c.Places tenant above)
    (verbose : Bool) :
    (c.problems ≠ [] → ∃ i, ((c.run verbose).on s).1 = .error (.invalid i)) ∧
    (c.problems = [] →
      (∀ field, ((c.run verbose).on s).1 ≠ .error (.invalid (.zero field))) ∧
      (∀ id, ((c.run verbose).on s).1 ≠ .error (.invalid (.ownParent id))) ∧
      ((∃ field id, ((c.run verbose).on s).1 = .error (.invalid (.tooLarge field id))) ↔
        2 ^ 63 ≤ tenant.toNat ∨ 2 ^ 63 ≤ above.toNat)) := by
  constructor
  · intro h
    obtain ⟨r, hr, hrefusal⟩ := refusal?_of_problems verbose hc h
    obtain ⟨i, hi⟩ := Option.ne_none_iff_exists'.1 hrefusal
    exact ⟨i, (run_invalid_iff hr hbegin).2 hi⟩
  · intro h
    obtain ⟨r, f, g, hr, hrefusal⟩ := refusal?_of_no_problems verbose hc h
    have hlarge : ∀ i, r.refusal? = some i → ∃ field id, i = .tooLarge field id :=
      fun i hi => eq_tooLarge_of_orElse (hrefusal.symm.trans hi)
    -- without problems, all that is left to refuse is an id that fits no cell
    have hborder : r.refusal? = none ↔ ¬(2 ^ 63 ≤ tenant.toNat ∨ 2 ^ 63 ≤ above.toNat) := by
      rw [hrefusal, orElse_eq_none_iff, storableRefusal?_eq_none_iff, storableRefusal?_eq_none_iff,
        TenantId.storable_iff, TenantId.storable_iff]
      omega
    simp only [ne_eq, run_invalid_iff hr hbegin]
    refine ⟨fun field hzero => ?_, fun id hown => ?_, fun ⟨field, id, htoo⟩ => ?_, fun hids => ?_⟩
    · obtain ⟨_, _, hi⟩ := hlarge _ hzero
      cases hi
    · obtain ⟨_, _, hi⟩ := hlarge _ hown
      cases hi
    · by_contra hids
      rw [hborder.2 hids] at htoo
      cases htoo
    · obtain ⟨i, hi⟩ := Option.ne_none_iff_exists'.1 fun hnone => hborder.1 hnone hids
      obtain ⟨field, id, rfl⟩ := hlarge i hi
      exact ⟨field, id, hi⟩

/-- Without a table: 3 is not put above itself, and the smallest id that fits no cell is not a
    parent, while the one before it is only found to be missing. -/
theorem problems_agree_border :
    let s : Store := { path := Store.memoryPath }
    (∃ i, ((run true (.repairPair (.ofNat 3) (.ofNat 3))).on s).1 = .error (.invalid i)) ∧
      (∃ field id, ((run true (.move (.ofNat 5) (.ofNat (2 ^ 63)))).on s).1
        = .error (.invalid (.tooLarge field id))) ∧
      ¬∃ field id, ((run true (.move (.ofNat 5) (.ofNat (2 ^ 63 - 1)))).on s).1
        = .error (.invalid (.tooLarge field id)) := by
  intro s
  have hrepair : (repairPair (.ofNat 3) (.ofNat 3)).Places (.ofNat 3) (.ofNat 3) := .inr (.inr rfl)
  have hmove : ∀ above, (move (.ofNat 5) above).Places (.ofNat 5) above := fun _ => .inr (.inl rfl)
  have hnone : ∀ above, (move (.ofNat 5) above).problems = [] :=
    fun _ => problems_move.2 (by decide)
  refine ⟨(problems_agree rfl hrepair true).1 (by decide), ?_, fun hlarge => ?_⟩
  · exact ((problems_agree rfl (hmove _) true).2 (hnone _)).2.2.2 (by decide)
  · exact absurd (((problems_agree rfl (hmove _) true).2 (hnone _)).2.2.1 hlarge) (by decide)

end Admin.Command

end Tenancy
