import Tenancy.Database.Schema
import Tenancy.Proofs.Effect

namespace Tenancy

/-!
# Work in single steps

All work on a hierarchy is put together from few kinds of steps.  What each kind does with the
database, with what was told, and with the access of the statements carries over to the whole, so
that nothing of it has to be proved again for one operation or another.

* `Work.Stepwise` — work made of steps, among which are statements that write only if it is said so.
* `Work.Stepwise.plain` — what was told before makes no difference.
* `Work.Stepwise.kept` — without a statement that writes, or if none can, the database stays.
* `Work.Stepwise.free` — what work succeeded in doing it would do with free access as well;
  `Work.Stepwise.trail_extends_free` — and it tells no more than it would then.
* `Hierarchy.stepwise_relatives`, `Hierarchy.stepwise_move` and others — the lookups and the
  operations are made of such steps; `Schema.stepwise_prepare` — so is the way to the latest schema.
-/

variable {α β : Type} {s s' : Scope}

namespace Work

/-- What the work comes to is decided by the database and by who may write; it adds to what was
    told, and leaves the access alone. -/
def Plain (w : Work α) : Prop :=
  ∀ db access, ∃ r db' es, ∀ trail, w.on ⟨db, trail, access⟩ = (r, ⟨db', trail ++ es, access⟩)

/-- Work that goes step by step: it gives a value or fails, tells something, looks at the database,
    or writes, if statements that write are among its steps. -/
inductive Stepwise (writes : Prop) : {α : Type} → Work α → Prop
  | pure {α : Type} (a : α) : Stepwise writes (pure a)
  | throw {α : Type} (e : Failure) : Stepwise writes (throw e : Work α)
  | note (e : Event) : Stepwise writes (note e)
  | inspect {α : Type} (f : Database → Work α) (hf : ∀ db, Stepwise writes (f db)) :
      Stepwise writes (get >>= fun s => f s.database)
  | enter (name : String) : Stepwise writes (enter name)
  | write (h : writes) (failed : StatementFault → Failure) (change : Database → Database) :
      Stepwise writes (write failed change)
  | bind {α β : Type} {w : Work α} {f : α → Work β} (hw : Stepwise writes w)
      (hf : ∀ a, Stepwise writes (f a)) : Stepwise writes (w >>= f)

theorem on_get : (get : Work Scope).on s = (.ok s, s) := rfl

/-- A statement writes unless its access is at fault. -/
theorem on_write {failed : StatementFault → Failure} {change : Database → Database} :
    (write failed change).on s = match s.access.writeFault? with
      | some fault => (.error (failed fault), s)
      | none => (.ok (), { s with database := change s.database }) := by
  rw [write, on_bind_ok on_get]
  cases s.access.writeFault? <;> rfl

/-- A statement that writes begins unless its access is at fault. -/
theorem on_enter_eq {name : String} : (enter name).on s = match s.access.beginFault? with
    | some fault => (.error (failure name fault), s)
    | none => (.ok (), s) := by
  rw [enter, on_bind_ok on_get]
  cases s.access.beginFault? <;> rfl

/-! ### Plain work -/

namespace Plain

variable {w : Work α}

/-- Work leaves the access of its statements alone. -/
theorem access_eq (h : w.Plain) : (w.on s).2.access = s.access := by
  obtain ⟨x, db, es, hrun⟩ := h s.database s.access
  exact congrArg (fun o => o.2.access) (hrun s.trail)

/-- What was told before is still told. -/
theorem trail_extends (h : w.Plain) : s.trail <+: (w.on s).2.trail := by
  obtain ⟨x, db, es, hrun⟩ := h s.database s.access
  exact ⟨es, (congrArg (fun o => o.2.trail) (hrun s.trail)).symm⟩

/-- On the same database, and with the same access, work comes to the same. -/
theorem congr (h : w.Plain) (hdb : s.database = s'.database) (haccess : s.access = s'.access) :
    (w.on s).1 = (w.on s').1 ∧ (w.on s).2.database = (w.on s').2.database := by
  obtain ⟨db, trail, access⟩ := s
  obtain ⟨db', trail', access'⟩ := s'
  cases hdb
  cases haccess
  obtain ⟨x, db', es, hrun⟩ := h db access
  rw [hrun, hrun]
  exact ⟨rfl, rfl⟩

end Plain

namespace Stepwise

variable {writes : Prop} {w : Work α} {name : String}

/-! ### What all such work has in common -/

/-- What was told before makes no difference, and nothing of it is taken back. -/
theorem plain (h : w.Stepwise writes) : w.Plain := by
  intro db access
  -- the trail is left out of the induction: no step looks at it, so it can be put before what is
  -- told
  induction h generalizing db with
  | pure a => exact ⟨.ok a, db, [], fun trail => by rw [on_pure, List.append_nil]⟩
  | throw e => exact ⟨.error e, db, [], fun trail => by rw [List.append_nil]; rfl⟩
  | note e => exact ⟨.ok (), db, [e], fun _ => rfl⟩
  | inspect f hf ih =>
    obtain ⟨r, db', es, hrun⟩ := ih db db
    exact ⟨r, db', es, fun trail => (on_bind_ok on_get).trans (hrun trail)⟩
  | enter name =>
    cases hfault : access.beginFault? with
    | some fault =>
      refine ⟨.error (failure name fault), db, [], fun trail => ?_⟩
      rw [on_enter_eq, hfault, List.append_nil]
    | none =>
      refine ⟨.ok (), db, [], fun trail => ?_⟩
      rw [on_enter_eq, hfault, List.append_nil]
  | write h failed change =>
    cases hfault : access.writeFault? with
    | some fault =>
      refine ⟨.error (failed fault), db, [], fun trail => ?_⟩
      rw [on_write, hfault, List.append_nil]
    | none =>
      refine ⟨.ok (), change db, [], fun trail => ?_⟩
      rw [on_write, hfault, List.append_nil]
  | bind hw hf ihw ihf =>
    obtain ⟨r, db₁, es, hw⟩ := ihw db
    cases r with
    | error e => exact ⟨.error e, db₁, es, fun trail => by rw [on_bind, hw]⟩
    | ok a =>
      obtain ⟨r, db₂, fs, hf⟩ := ihf a db₁
      exact ⟨r, db₂, es ++ fs, fun trail => by rw [on_bind_ok (hw trail), hf, List.append_assoc]⟩

/-- Where no step writes, or none can, the database stays as it was. -/
theorem kept (h : w.Stepwise writes) (hno : writes → s.access.writeFault?.isSome = true) :
    (w.on s).2.database = s.database ∧ (w.on s).2.access = s.access := by
  -- a write is refused by hypothesis, and the refusal stands for the whole run because access is
  -- kept
  induction h generalizing s with
  | pure a => exact ⟨rfl, rfl⟩
  | throw e => exact ⟨rfl, rfl⟩
  | note e => exact ⟨rfl, rfl⟩
  | inspect f hf ih =>
    rw [on_bind_ok on_get]
    exact ih s.database hno
  | enter name =>
    rw [on_enter_eq]
    cases s.access.beginFault? <;> exact ⟨rfl, rfl⟩
  | write h failed change =>
    obtain ⟨fault, hfault⟩ := Option.isSome_iff_exists.1 (hno h)
    rw [on_write, hfault]
    exact ⟨rfl, rfl⟩
  | @bind α β w f hw hf ihw ihf =>
    obtain ⟨hdb, haccess⟩ := ihw hno
    rw [on_bind]
    generalize w.on s = o at hdb haccess ⊢
    obtain ⟨r, s₁⟩ := o
    cases r with
    | error e => exact ⟨hdb, haccess⟩
    | ok a =>
      have hthen := ihf a (s := s₁) fun hwrites => haccess ▸ hno hwrites
      exact ⟨hthen.1.trans hdb, hthen.2.trans haccess⟩

/-- What the work succeeds in doing, it would do with free access as well. -/
theorem free (h : w.Stepwise writes) {a : α} (hok : w.on s = (.ok a, s')) :
    w.on { s with access := .free } = (.ok a, { s' with access := .free }) := by
  -- success means that no write was refused, so each step answers the same when none can be
  induction h generalizing s s' with
  | pure b =>
    cases hok
    rfl
  | throw e => cases hok
  | note e =>
    cases hok
    rfl
  | inspect f hf ih =>
    rw [on_bind_ok on_get] at hok ⊢
    exact ih s.database hok
  | enter name =>
    rw [on_enter_eq] at hok
    cases hfault : s.access.beginFault? with
    | some fault =>
      rw [hfault] at hok
      cases hok
    | none =>
      rw [hfault] at hok
      cases hok
      rfl
  | write h failed change =>
    rw [on_write] at hok
    cases hfault : s.access.writeFault? with
    | some fault =>
      rw [hfault] at hok
      cases hok
    | none =>
      rw [hfault] at hok
      cases hok
      rfl
  | @bind α β w f hw hf ihw ihf =>
    rw [on_bind] at hok
    cases hfirst : w.on s with
    | mk r s₁ =>
      rw [hfirst] at hok
      cases r with
      | error e => cases hok
      | ok b =>
        rw [on_bind_ok (ihw hfirst)]
        exact ihf b hok

/-- Work tells no more than it would with free access: it may only end earlier. -/
theorem trail_extends_free (h : w.Stepwise writes) :
    (w.on s).2.trail <+: (w.on { s with access := .free }).2.trail := by
  induction h generalizing s with
  | pure a => exact List.prefix_refl _
  | throw e => exact List.prefix_refl _
  | note e => exact List.prefix_refl _
  | inspect f hf ih =>
    rw [on_bind_ok on_get, on_bind_ok on_get]
    exact ih s.database
  | enter name =>
    rw [on_enter_eq, on_enter_eq]
    cases s.access.beginFault? <;> exact List.prefix_refl _
  | write h failed change =>
    rw [on_write, on_write]
    cases s.access.writeFault? <;> exact List.prefix_refl _
  | @bind α β w f hw hf ihw ihf =>
    rw [on_bind]
    cases hfirst : w.on s with
    | mk r s₁ =>
      cases r with
      | ok a =>
        rw [on_bind_ok (hw.free hfirst)]
        exact ihf a
      | error e =>
        -- with free access, the rest may be done as well, and only adds to what is told
        have hearly : s₁.trail <+: (w.on { s with access := .free }).2.trail := by
          have hbegins := ihw (s := s)
          rwa [hfirst] at hbegins
        dsimp only
        rw [on_bind]
        generalize w.on { s with access := .free } = o at hearly ⊢
        obtain ⟨r', s₂⟩ := o
        cases r' with
        | ok b => exact hearly.trans (hf b).plain.trail_extends
        | error e' => exact hearly

/-! ### Steps taken together -/

/-- A choice between two works is stepwise if both are: the condition is settled outside the
    work. -/
theorem ite {c : Prop} [Decidable c] {v : Work α} (hw : w.Stepwise writes)
    (hv : v.Stepwise writes) :
    (if c then w else v).Stepwise writes := by
  split
  · exact hw
  · exact hv

/-- Work that is done on a condition, before the rest. -/
theorem when {c : Prop} [Decidable c] {v : Work Unit} {f : Unit → Work β} (hv : v.Stepwise writes)
    (hf : ∀ a, (f a).Stepwise writes) : (if c then v >>= f else f ()).Stepwise writes :=
  .ite (hv.bind hf) (hf ())

theorem map {f : α → β} (hw : w.Stepwise writes) : (f <$> w).Stepwise writes := by
  rw [map_eq_pure_bind]
  exact hw.bind fun _ => .pure _

theorem discard (hw : w.Stepwise writes) : (Functor.discard w : Work PUnit).Stepwise writes :=
  hw.map

/-- Work for each member of a list, by induction on the list. -/
theorem forM {l : List α} {f : α → Work PUnit} (hf : ∀ a, (f a).Stepwise writes) :
    (l.forM f).Stepwise writes := by
  induction l with
  | nil => exact .pure _
  | cons a l ih => exact (hf a).bind fun _ => ih

/-- A statement that is already answered is one step without a write. -/
theorem step (x : Except StatementFault α) : (Work.step name x).Stepwise writes := by
  cases x with
  | ok a => exact .pure a
  | error fault => exact .throw _

/-- Work that looks at the database, and at nothing else, before it goes on. -/
theorem look {g : Scope → Work α} (hdb : ∀ s, g s = g { database := s.database })
    (hg : ∀ s, (g s).Stepwise writes) : (get >>= g).Stepwise writes := by
  rw [show g = fun s => g { database := s.database } from funext hdb]
  exact .inspect (fun db => g { database := db }) fun db => hg _

/-- Reading the table is one step, and writes nothing. -/
theorem read : (Work.read name).Stepwise writes := by
  refine look (fun _ => rfl) fun s => ?_
  cases s.database.closure? with
  | some t => exact .pure t
  | none => exact step _

theorem execute (statement : Closure → Written) : (Work.execute name statement).Stepwise True :=
  .bind read fun _ => (Stepwise.write trivial _ _).bind fun _ => .pure _

/-- A plain insertion is one step that writes, also where it is refused. -/
theorem add (rows : Closure → List Row) : (Work.add name rows).Stepwise True :=
  .bind read fun _ => .bind (.enter _) fun _ => .ite (execute _) (step _)

end Stepwise

end Work

open Work.Stepwise

/-! ### Lookups -/

namespace Hierarchy

variable {writes : Prop} {field name : String} {id tenant parent : TenantId}

theorem stepwise_isPresent : (isPresent id).Stepwise writes :=
  .bind read fun _ => .bind (step _) fun _ => .pure _

theorem stepwise_depthBetween : (depthBetween tenant parent).Stepwise writes := by
  refine .bind read fun t => .bind (step _) fun a => .bind (step _) fun d => ?_
  cases t.depth? a d with
  | none => exact .pure _
  | some k => exact (step _).map

theorem stepwise_parentOf : (parentOf id).Stepwise writes :=
  .bind read fun _ => .bind (step _) fun _ => .bind (step _) fun _ =>
    .when (.note _) fun _ => .pure _

theorem stepwise_relatives {select : Closure → Int → List Kin} :
    (relatives name id select).Stepwise writes :=
  .bind read fun _ => .bind (step _) fun _ => step _

theorem stepwise_edges : edges.Stepwise writes := .bind read fun _ => step _

theorem stepwise_circularReferences : circularReferences.Stepwise writes :=
  .bind read fun _ => step _

/-! ### Operations -/

theorem stepwise_requireStorable : (requireStorable field id).Stepwise writes :=
  .ite (.pure _) (.throw _)

theorem stepwise_requireTenant : (requireTenant field id).Stepwise writes :=
  .ite (.throw _) stepwise_requireStorable

theorem stepwise_requireParent : (requireParent parent).Stepwise writes :=
  .ite (.bind stepwise_isPresent fun _ => .ite (.throw _) (.pure _)) (.pure _)

/-- The guard against cycles does not write, so it is stepwise for either index. -/
theorem stepwise_refuseCycle : (refuseCycle tenant parent).Stepwise writes := by
  unfold refuseCycle
  exact .when (.throw _) fun _ => .bind stepwise_depthBetween fun _ => .ite (.throw _) (.pure _)

/-- Announcing a move reads and notes, and writes nothing. -/
theorem stepwise_plan : (plan tenant parent).Stepwise writes := by
  have hsup : (supertree parent).Stepwise writes := .ite (.pure _) stepwise_relatives
  exact .bind stepwise_relatives fun _ => .bind hsup fun _ => .note _

theorem stepwise_attach : (attach tenant parent).Stepwise True :=
  .bind (execute _) fun _ => .bind stepwise_depthBetween fun _ =>
    .ite (.pure _) (.bind (execute _) fun _ => .bind (.note _) fun _ => .pure _)

/-- Inserting a tenant: the checks, the self row, and attaching. -/
theorem stepwise_insert : (insert parent id).Stepwise True :=
  .bind stepwise_requireTenant fun _ => .bind stepwise_requireStorable fun _ =>
    .when (.throw _) fun _ => .bind stepwise_isPresent fun _ => .when (.throw _) fun _ =>
      .bind stepwise_requireParent fun _ => .bind (add _).discard fun _ =>
        .ite (.note _) (.bind (add _).discard fun _ => .bind (add _) fun _ => .note _)

/-- Moving a subtree: the checks, the announcement, and one statement for each set of rows. -/
theorem stepwise_move {verbose : Bool} : (move tenant parent verbose).Stepwise True :=
  .bind stepwise_requireTenant fun _ => .bind stepwise_requireStorable fun _ =>
    .when stepwise_refuseCycle fun _ => .bind stepwise_isPresent fun _ => .when (.throw _) fun _ =>
      .bind stepwise_requireParent fun _ => .when stepwise_plan fun _ =>
        .bind (execute _) fun _ => .bind (execute _) fun _ =>
          .ite (.bind (.pure _) fun _ => .note _) (.bind stepwise_attach fun _ => .note _)

theorem stepwise_runPasses : runPasses.Stepwise True :=
  .bind read fun _ => .bind (execute _).discard fun _ =>
    .bind (.forM fun _ => .note _) fun _ => .pure _

/-- The full repair: the self rows, then the passes. -/
theorem stepwise_repairAll : repairAll.Stepwise True :=
  .bind (execute _) fun _ => .bind (execute _) fun _ => .bind stepwise_runPasses fun _ =>
    .bind (.note _) fun _ => .pure _

/-- The repair of a pair: the checks and three statements. -/
theorem stepwise_repairPair : (repairPair tenant parent).Stepwise True :=
  .bind stepwise_requireTenant fun _ => .bind stepwise_requireTenant fun _ =>
    .when (.throw _) fun _ => .bind stepwise_depthBetween fun _ => .when (.throw _) fun _ =>
      .bind (execute _) fun _ => .bind (execute _) fun _ => .bind stepwise_depthBetween fun _ =>
        .bind (execute _) fun _ => .bind (add _) fun _ =>
          .bind (.note _) fun _ => .bind (.note _) fun _ => .pure _

end Hierarchy

/-! ### The schema -/

namespace Schema

theorem stepwise_setVersion {n : Int} : (setVersion n).Stepwise True :=
  .bind (.write trivial _ _) fun _ => .write trivial _ _

/-- The preparation from any version on: one statement after the other. -/
theorem stepwise_migrate {n : Int} : (migrate n).Stepwise True := by
  have hindex : createIndex.Stepwise True := by
    refine look (fun _ => rfl) fun s => ?_
    cases s.database.table with
    | some c => exact .ite (.write trivial _ _) (.pure _)
    | none => exact .throw _
  exact .ite (.bind hindex fun _ => .bind stepwise_setVersion fun _ => .note _) (.throw _)

/-- The preparation of a fresh database as of one that is up to date. -/
theorem stepwise_prepare : prepare.Stepwise True := by
  have hversions : createVersions.Stepwise True :=
    look (fun _ => rfl) fun _ => .ite (.write trivial _ _) (.pure _)
  have hversion : version.Stepwise True :=
    .bind hversions fun _ => look (fun _ => rfl) fun _ => .pure _
  have htable : createTable.Stepwise True :=
    look (fun _ => rfl) fun _ => .ite (.write trivial _ _) (.pure _)
  exact .bind hversion fun _ => .ite
    (.bind htable fun _ => .bind stepwise_setVersion fun _ => stepwise_migrate)
    (.ite stepwise_migrate (.pure _))

end Schema

end Tenancy
