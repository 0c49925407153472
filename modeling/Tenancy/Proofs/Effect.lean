import Tenancy.Hierarchy.Repair
import Tenancy.Proofs.Order

namespace Tenancy

/-!
# What the operations come to

Each operation on the hierarchy is described here as a whole: which fault it refuses a request for,
and otherwise the table that it leaves and what it tells.  Everything else about operations is
derived from these descriptions and from the theory of tables.

* `Scope.Holds`, `Scope.after` — a scope that a table can be read from and written to.
* `Hierarchy.insertFault?`, `Hierarchy.moveFault?`, `Hierarchy.pairFault?` — the first fault of a
  request, from the table alone.
* `insert_on`, `move_on`, `repairAll_on`, `repairPair_on` — the operations.
* `circularReferences_on`, `warnOfCircularReferences_on` — the scans for circular references.
-/

variable {α β : Type} {s s' : Scope} {t u v : Closure} {es fs : List Event}

/-! ### Scopes -/

/-- The scope sees the table `t` and lets statements write. -/
structure Scope.Holds (s : Scope) (t : Closure) : Prop where
  closure? : s.database.closure? = some t
  free : s.access = .free

/-- The scope with the rows of `u` in its table, and some more events told. -/
def Scope.after (s : Scope) (u : Closure) (es : List Event) : Scope :=
  { s with database := s.database.setClosure u, trail := s.trail ++ es }

namespace Scope

/-- A write keeps what the rest of the run relies on: the tables are still there, and the rows are
    those just written. -/
theorem Holds.after (h : s.Holds t) : (s.after u es).Holds u := by
  refine ⟨?_, h.free⟩
  show (s.database.setClosure u).closure? = some u
  rw [Database.closure?_setClosure, h.closure?, Option.map_some]

/-- Of two writes the later one stands, and the events add up. -/
theorem after_after : (s.after u es).after v fs = s.after v (es ++ fs) := by
  unfold Scope.after Database.setClosure
  simp only [List.append_assoc, Option.map_map, Function.comp_def]

theorem Holds.after_self (h : s.Holds t) : s.after t [] = s := by
  obtain ⟨⟨table, versions⟩, trail, access⟩ := s
  have ht := h.closure?
  cases table with
  | none => cases ht
  | some c =>
    obtain ⟨closure, indexed⟩ := c
    cases ht
    simp [Scope.after, Database.setClosure]

/-- Nothing but what is told is new, if the table stays as it was. -/
theorem Holds.after_same (h : s.Holds t) : s.after t es = { s with trail := s.trail ++ es } := by
  have hdb : s.database.setClosure t = s.database := congrArg Scope.database h.after_self
  rw [Scope.after, hdb]

end Scope

/-! ### Steps of work -/

/-- Work in two parts: the second one runs if the first one succeeds. -/
theorem run_bind {σ : Type} {w : ExceptT Failure (StateM σ) α}
    {f : α → ExceptT Failure (StateM σ) β} {s : σ} :
    (w >>= f).run.run s = match w.run.run s with
      | (.ok a, s') => (f a).run.run s'
      | (.error e, s') => (.error e, s') := by
  simp only [ExceptT.run_bind, StateT.run_bind]
  rcases StateT.run (ExceptT.run w) s with ⟨r, s'⟩
  cases r <;> rfl

/-- Work with a way out: it is taken if the work fails. -/
theorem run_tryCatch {σ : Type} {w : ExceptT Failure (StateM σ) α}
    {k : Failure → ExceptT Failure (StateM σ) α} {s : σ} :
    (tryCatch w k).run.run s = match w.run.run s with
      | (.ok a, s') => (.ok a, s')
      | (.error e, s') => (k e).run.run s' := by
  rw [ExceptT.run_tryCatch, StateT.run_bind]
  rcases StateT.run (ExceptT.run w) s with ⟨r, s'⟩
  cases r <;> rfl

namespace Work

variable {w : Work α} {f : α → Work β} {a : α} {e : Failure} {name : String}

theorem on_pure : (pure a : Work α).on s = (.ok a, s) := rfl

/-- What a bind does: the second work starts from the state that the first has left, and a failure
    ends the run there. -/
theorem on_bind : (w >>= f).on s = match w.on s with
    | (.ok a, s') => (f a).on s'
    | (.error e, s') => (.error e, s') := by
  unfold on
  rw [run_bind]
  rcases StateT.run (ExceptT.run w) s with ⟨r, s'⟩
  cases r <;> rfl

/-- What catching a failure does: the handler starts from the state in which the failure left the
    scope. -/
theorem on_tryCatch {k : Failure → Work α} : (tryCatch w k).on s = match w.on s with
    | (.ok a, s') => (.ok a, s')
    | (.error e, s') => (k e).on s' := by
  unfold on
  rw [run_tryCatch]
  rcases StateT.run (ExceptT.run w) s with ⟨r, s'⟩
  cases r <;> rfl

/-- Work after work that succeeds runs from the state it left: the step by which the operations
    below are run through. -/
theorem on_bind_ok (h : w.on s = (.ok a, s')) : (w >>= f).on s = (f a).on s' := by
  rw [on_bind, h]

/-- Two ways to go on come to the same if they do after the first part has succeeded. -/
theorem on_bind_congr {g : α → Work β}
    (h : ∀ a s', w.on s = (.ok a, s') → (f a).on s' = (g a).on s') :
    (w >>= f).on s = (w >>= g).on s := by
  rw [on_bind, on_bind]
  cases hw : w.on s with
  | mk r s' =>
  cases r with
  | error e => rfl
  | ok a => exact h a s' hw

/-- Work in two parts succeeds if both parts do. -/
theorem bind_eq_ok_iff {b : β} : (w >>= f).on s = (.ok b, s') ↔
    ∃ a s₁, w.on s = (.ok a, s₁) ∧ (f a).on s₁ = (.ok b, s') := by
  rw [on_bind]
  generalize w.on s = o
  obtain ⟨x, s₁⟩ := o
  cases x <;> simp

theorem on_map_ok {g : α → β} (h : w.on s = (.ok a, s')) : (g <$> w).on s = (.ok (g a), s') := by
  rw [map_eq_pure_bind, on_bind_ok h, on_pure]

theorem on_discard_ok (h : w.on s = (.ok a, s')) : (discard w : Work PUnit).on s = (.ok (), s') :=
  on_map_ok h

theorem on_step_ok : (step name (.ok a) : Work α).on s = (.ok a, s) := rfl

/-- A statement that has been answered already only turns its refusal into a failure with its name
    on it. -/
theorem on_step {x : Except StatementFault α} :
    (step name x).on s = (x.mapError (failure name), s) := by
  cases x <;> rfl

/-- Reading takes a table, and no more. -/
theorem on_read_of_closure? (h : s.database.closure? = some t) :
    (read name).on s = (.ok t, s) := by
  have hget : (get : Work Scope).on s = (.ok s, s) := rfl
  rw [read, on_bind_ok hget, h, on_pure]

/-- Reading the table gives the rows as they are and changes nothing. -/
theorem on_read (h : s.Holds t) : (read name).on s = (.ok t, s) := on_read_of_closure? h.closure?

/-- A statement that is never refused leaves the rows that it writes, and tells how many it
    touched. -/
theorem on_execute {statement : Closure → Written} (h : s.Holds t) :
    (execute name statement).on s
      = (.ok (statement t).count, s.after (statement t).closure []) := by
  -- the statement is worked out on the rows read just before, so that the write is all that is left
  have hwrite : (write (failure name) fun db => db.setClosure (statement t).closure).on s
      = (.ok (), s.after (statement t).closure []) := by
    have hget : (get : Work Scope).on s = (.ok s, s) := rfl
    rw [write, on_bind_ok hget, h.free]
    show (Except.ok (), _) = _
    rw [Scope.after, List.append_nil]
  rw [execute, on_bind_ok (on_read h), on_bind_ok hwrite, on_pure]

/-- Beginning an operation changes nothing once the tables are there. -/
theorem on_enter (h : s.Holds t) : (enter name).on s = (.ok (), s) := by
  have hget : (get : Work Scope).on s = (.ok s, s) := rfl
  rw [enter, on_bind_ok hget, h.free]
  rfl

/-- Rows that can all be added are added. -/
theorem on_add {rows : Closure → List Row} {w : Written} (h : s.Holds t)
    (hadmits : t.admits (rows t) = true) (hw : t.fill (rows t) = w) :
    (add name rows).on s = (.ok w.count, s.after w.closure []) := by
  rw [add, on_bind_ok (on_read h), on_bind_ok (on_enter h), if_pos hadmits, on_execute h, hw]

/-- Noting an event adds it to the trail and leaves the database alone. -/
theorem on_note {ev : Event} (h : s.Holds t) : (note ev).on s = (.ok (), s.after t [ev]) := by
  show (Except.ok (), _) = _
  rw [h.after_same]

/-- Work that is done on a condition, before the rest. -/
theorem on_when {c : Prop} [Decidable c] {w : Work Unit} {f : Unit → Work β} :
    (if c then w >>= f else f ()).on s = ((if c then w else pure ()) >>= f).on s := by
  split <;> rfl

theorem on_report {d : Diagnostic} (h : s.Holds t) :
    (report d).on s = (.ok (), s.after t [.told d]) := on_note h

theorem on_log {r : LogRecord} (h : s.Holds t) :
    (log r).on s = (.ok (), s.after t [.logged r]) := on_note h

/-- Several entries of the log, in order. -/
theorem on_forM_log {l : List α} {g : α → LogRecord} (h : s.Holds t) :
    (l.forM fun x => log (g x)).on s = (.ok (), s.after t (l.map fun x => .logged (g x))) := by
  induction l generalizing s with
  | nil =>
    rw [List.map_nil, h.after_self]
    rfl
  | cons x l ih =>
    show (log (g x) >>= fun _ => l.forM fun x => log (g x)).on s = _
    rw [on_bind_ok (on_log h), ih h.after, Scope.after_after, List.map_cons, List.singleton_append]

end Work

/-! ### Checks -/

theorem orElse_eq_none_iff {x y : Option α} : (x <|> y) = none ↔ x = none ∧ y = none := by
  cases x <;> simp

/-- The result of a check: the fault that it found, if any. -/
def verdict : Option Failure → Except Failure Unit
  | none => .ok ()
  | some e => .error e

/-- A check before the rest: the rest is done unless there is a fault. -/
theorem Work.on_check {w : Work Unit} {f : Unit → Work β} {fault : Option Failure}
    (h : w.on s = (verdict fault, s)) :
    (w >>= f).on s = fault.elim ((f ()).on s) fun e => (.error e, s) := by
  rw [on_bind, h]
  cases fault <;> rfl

namespace Hierarchy

variable {field : String} {id tenant parent : TenantId} {verbose : Bool}

/-- The fault of an id that fits no cell. -/
def storableFault? (field : String) (id : TenantId) : Option Failure :=
  if id.Storable then none else some (.invalid (.tooLarge field id))

/-- The fault of an id that cannot name a tenant. -/
def tenantFault? (field : String) (id : TenantId) : Option Failure :=
  if id = .root then some (.invalid (.zero field)) else storableFault? field id

/-- The fault of a parent that the table does not mention. -/
def parentFault? (t : Closure) (parent : TenantId) : Option Failure :=
  if parent ≠ .root ∧ t.mentions parent.cell = false then some (.conflict (.parentAbsent parent))
  else none

/-- The depth of a row as callers can have it, or the failure to read it. -/
def readDepth (t : Closure) (ancestor descendant : TenantId) : Except Failure (Option Depth) :=
  match t.depth? ancestor.cell descendant.cell with
  | none => .ok none
  | some k =>
    if k < UInt32.size then .ok (some (.ofNat k))
    else .error (Work.failure "look up closure edge" (Cell.depthFault 0 k))

theorem readDepth_of_none {a d : TenantId} (h : t.depth? a.cell d.cell = none) :
    readDepth t a d = .ok none := by
  rw [readDepth, h]

/-- A depth that fits 32 bits is read as it is. -/
theorem readDepth_of_lt {a d : TenantId} {k : Nat} (h : t.depth? a.cell d.cell = some k)
    (hk : k < UInt32.size) : readDepth t a d = .ok (some (.ofNat k)) := by
  rw [readDepth, h]
  exact if_pos hk

/-- A depth beyond 32 bits makes the query fail, with the fault of its own kind of cell. -/
theorem readDepth_of_not_lt {a d : TenantId} {k : Nat} (h : t.depth? a.cell d.cell = some k)
    (hk : ¬k < UInt32.size) :
    readDepth t a d = .error (Work.failure "look up closure edge" (Cell.depthFault 0 k)) := by
  rw [readDepth, h]
  exact if_neg hk

/-- A depth that is read says whether there is a row. -/
theorem isSome_of_readDepth {a d : TenantId} {o : Option Depth} (h : readDepth t a d = .ok o) :
    o.isSome = t.joins a.cell d.cell := by
  rw [Closure.joins]
  cases hk : t.depth? a.cell d.cell with
  | none =>
    rw [readDepth_of_none hk] at h
    cases h
    rfl
  | some k =>
    by_cases hlt : k < UInt32.size
    · rw [readDepth_of_lt hk hlt] at h
      cases h
      rfl
    · rw [readDepth_of_not_lt hk hlt] at h
      cases h

/-- The fault of a parent that the tenant has a row to. -/
def reachFault? (t : Closure) (tenant parent : TenantId) : Option Failure :=
  match readDepth t tenant parent with
  | .ok none => none
  | .ok (some _) => some (.conflict (.circular tenant parent))
  | .error e => some e

/-- The first fault of an insertion. -/
def insertFault? (t : Closure) (parent id : TenantId) : Option Failure :=
  tenantFault? "new_id" id <|> storableFault? "parent_id" parent
    <|> (if parent = id then some (.invalid (.ownParent id)) else none)
    <|> (if t.mentions id.cell = true then some (.conflict (.present id)) else none)
    <|> parentFault? t parent

/-- The fault of a new parent that is the tenant or lies below it. -/
def cycleFault? (t : Closure) (tenant parent : TenantId) : Option Failure :=
  if parent = .root then none
  else if parent = tenant then some (.conflict (.circular tenant parent))
  else reachFault? t tenant parent

/-- The first fault of a move. -/
def moveFault? (t : Closure) (tenant parent : TenantId) : Option Failure :=
  tenantFault? "tenant_id" tenant <|> storableFault? "new_parent_id" parent
    <|> cycleFault? t tenant parent
    <|> (if t.mentions tenant.cell = false then some (.conflict (.absent tenant)) else none)
    <|> parentFault? t parent

/-- The first fault of the repair of a parent edge, apart from a row that cannot be read. -/
def pairFault? (t : Closure) (tenant parent : TenantId) : Option Failure :=
  tenantFault? "tenant_id" tenant <|> tenantFault? "parent_id" parent
    <|> (if tenant = parent then some (.invalid (.ownParent tenant)) else none)
    <|> reachFault? t tenant parent

/-- The check of an id passes exactly the ids that a cell of the table can hold. -/
theorem storableFault?_eq_none_iff : storableFault? field id = none ↔ id.Storable := by
  unfold storableFault?
  split <;> simp [*]

/-- The check of a tenant passes exactly the storable ids other than the root. -/
theorem tenantFault?_eq_none_iff :
    tenantFault? field id = none ↔ id ≠ .root ∧ id.Storable := by
  unfold tenantFault?
  split
  · simp [*]
  · simp [*, storableFault?_eq_none_iff]

/-- The check of an id, as a verdict that leaves the state alone. -/
theorem on_requireStorable :
    (requireStorable field id).on s = (verdict (storableFault? field id), s) := by
  unfold requireStorable storableFault?
  split <;> rfl

/-- The check of a tenant, as a verdict that leaves the state alone. -/
theorem on_requireTenant :
    (requireTenant field id).on s = (verdict (tenantFault? field id), s) := by
  unfold requireTenant tenantFault?
  split
  · rfl
  · exact on_requireStorable

theorem on_cellOf {step : String} (hid : id.Storable) :
    (cellOf step id).on s = (.ok id.cell, s) := by
  rw [cellOf, Cell.bind, if_pos hid, Work.on_step_ok]

/-- A lookup takes a table, and no more. -/
theorem on_isPresent (h : s.database.closure? = some t) (hid : id.Storable) :
    (isPresent id).on s = (.ok (t.mentions id.cell), s) := by
  rw [isPresent, Work.on_bind_ok (Work.on_read_of_closure? h), Work.on_bind_ok (on_cellOf hid),
    Work.on_pure]

/-- The check that the new parent is known, as a verdict on the rows. -/
theorem on_requireParent (h : s.Holds t) (hp : parent.Storable) :
    (requireParent parent).on s = (verdict (parentFault? t parent), s) := by
  unfold requireParent parentFault?
  by_cases hz : parent = .root
  · simp only [hz, ne_eq, not_true_eq_false, if_false, false_and]
    rfl
  · rw [if_pos hz, Work.on_bind_ok (on_isPresent h.closure? hp)]
    cases t.mentions parent.cell <;> simp [hz] <;> rfl

/-- The query for one depth is the reading of one cell. -/
theorem on_depthBetween {a d : TenantId} (h : s.database.closure? = some t) (ha : a.Storable)
    (hd : d.Storable) : (depthBetween a d).on s = (readDepth t a d, s) := by
  rw [depthBetween, Work.on_bind_ok (Work.on_read_of_closure? h), Work.on_bind_ok (on_cellOf ha),
    Work.on_bind_ok (on_cellOf hd), readDepth]
  cases t.depth? a.cell d.cell with
  | none => rfl
  | some k =>
    simp only [Cell.depth]
    split
    · exact Work.on_map_ok Work.on_step_ok
    · rfl

/-- The guard against cycles, as a verdict on the rows.  It looks up one row only, that from the
    tenant down to the new parent. -/
theorem on_refuseCycle (h : s.Holds t) (ht : tenant.Storable) (hp : parent.Storable)
    (hz : parent ≠ .root) :
    (refuseCycle tenant parent).on s = (verdict (cycleFault? t tenant parent), s) := by
  unfold refuseCycle cycleFault? reachFault?
  rw [if_neg hz]
  by_cases he : parent = tenant
  · simp only [he, if_true]
    rfl
  · simp only [he, if_false]
    rw [Work.on_bind, on_depthBetween h.closure? ht hp]
    cases readDepth t tenant parent with
    | error e => rfl
    | ok o => cases o <;> rfl

/-! ### Insertion -/

/-- What an insertion logs. -/
def insertEvents (t : Closure) (parent id : TenantId) : List Event :=
  [.logged (if parent = .root then
      ⟨.debug, .insertion, "Inserted root tenant", [("tenant_id", .ofId id)]⟩
    else
      ⟨.debug, .insertion, "Inserted tenant closure rows",
        [("tenant_id", .ofId id), ("parent_id", .ofId parent),
          ("inherited",
            .number (((t.plant id.cell).closure.direct parent.cell id.cell).closure.inherit
            parent.cell id.cell).count)]⟩)]

theorem cell_eq_zero_iff : id.cell = 0 ↔ id = .root := TenantId.cell_inj (b := .root)

/-- **Insertion.** A request with a fault changes nothing; any other plants the leaf. -/
theorem insert_on (h : s.Holds t) : (insert parent id).on s
    = match insertFault? t parent id with
      | some e => (.error e, s)
      | none => (.ok (), s.after (t.planted parent.cell id.cell) (insertEvents t parent id)) := by
  unfold insert insertFault?
  rw [Work.on_check on_requireTenant]
  cases h₁ : tenantFault? "new_id" id with
  | some e => rfl
  | none =>
  obtain ⟨-, hstore⟩ := tenantFault?_eq_none_iff.1 h₁
  rw [Option.elim_none, Work.on_check on_requireStorable]
  cases h₂ : storableFault? "parent_id" parent with
  | some e => rfl
  | none =>
  have hparent := storableFault?_eq_none_iff.1 h₂
  by_cases h₃ : parent = id
  · simp only [h₃, if_true]
    rfl
  simp only [h₃, if_false]
  rw [Work.on_bind_ok (on_isPresent h.closure? hstore)]
  cases hthere : t.mentions id.cell with
  | true => rfl
  | false =>
  have hleaf : id.cell ∉ t.ids := by
    rw [← Closure.mentions_iff, hthere]
    exact Bool.false_ne_true
  simp only [Bool.false_eq_true, if_false]
  rw [Work.on_check (on_requireParent h hparent)]
  cases parentFault? t parent with
  | some e => rfl
  | none =>
  -- from here on nothing is refused any more, and no row is in the way of those that are added
  have hself : (Work.add "insert self edge" fun _ => [.self id.cell]).on s
      = (.ok (t.plant id.cell).count, s.after (t.plant id.cell).closure []) :=
    Work.on_add h (Closure.admits_leaf hleaf) rfl
  rw [Option.elim_none, Work.on_bind_ok (Work.on_discard_ok hself)]
  have hplant : (s.after (t.plant id.cell).closure []).Holds (t.plant id.cell).closure := h.after
  by_cases hz : parent = .root
  · have hz' : parent.cell = 0 := cell_eq_zero_iff.2 hz
    simp only [hz, if_true]
    rw [Work.on_log hplant, Scope.after_after]
    simp [Closure.planted, ← hz, hz', insertEvents]
  · have hz' : parent.cell ≠ 0 := fun he => hz (cell_eq_zero_iff.1 he)
    have hne : parent.cell ≠ id.cell := fun he => h₃ (TenantId.cell_inj.1 he)
    obtain ⟨hedge, hdirect⟩ := Closure.admits_leaf_edge hleaf hne
    obtain ⟨hrows, hinherit⟩ := Closure.admits_leaf_inherited hleaf hne
    -- each insertion is onto the table that the one before has left, in which the leaf is still new
    -- to the rows added
    have hfirst : (Work.add "insert parent edge" fun _ => [⟨parent.cell, id.cell, 1⟩]).on
        (s.after (t.plant id.cell).closure []) = (.ok _, Scope.after _ _ _) :=
      Work.on_add hplant hedge hdirect
    have hsecond : (Work.add "insert inherited ancestor edges"
        (·.inheritedRows parent.cell id.cell)).on
        ((s.after (t.plant id.cell).closure []).after
          ((t.plant id.cell).closure.direct parent.cell id.cell).closure [])
        = (.ok _, Scope.after _ _ _) :=
      Work.on_add hplant.after hrows hinherit
    simp only [hz, if_false]
    rw [Work.on_bind_ok (Work.on_discard_ok hfirst), Work.on_bind_ok hsecond,
      Work.on_log hplant.after.after]
    simp only [Scope.after_after, Closure.planted, hz', if_false, insertEvents, hz, List.nil_append]
    rfl

/-! ### Moves -/

/-- Ids with their distances as callers can have them, or the failure to read them. -/
def readRelatives (step : String) (kin : List Kin) : Except Failure (List Relative) :=
  (readKin kin).mapError (Work.failure step)

/-- What a verbose move tells before it writes, or the failure to read it. -/
def planEvents (t : Closure) (tenant parent : TenantId) : Except Failure (List Event) := do
  let sub ← readRelatives "compute subtree" (byDistance (t.subtree tenant.cell))
  let sup ← if parent = .root then .ok []
    else readRelatives "compute supertree" (byDistance (t.supertree parent.cell))
  .ok [.told (.movePlanned tenant parent sub sup)]

/-- What a move tells before it writes: its plan, if it is verbose. -/
def forewarning (t : Closure) (tenant parent : TenantId) (verbose : Bool) :
    Except Failure (List Event) :=
  if verbose = true then planEvents t tenant parent else .ok []

/-- The numbers of rows that a move deletes, and that it adds or lowers. -/
def moveApplied (t : Closure) (tenant parent : TenantId) : Diagnostic :=
  let detached := t.detach tenant.cell parent.cell
  let cut := detached.closure.dropOtherParents tenant.cell parent.cell
  .moveApplied tenant parent (detached.count + cut.count)
    (if parent = .root then 0 else (cut.closure.attach tenant.cell parent.cell).count)

/-- The look-up of the guard passes exactly when the tenant has no row down to the new parent.  A
    row whose depth cannot be read stops the move as well. -/
theorem reachFault?_eq_none_iff :
    reachFault? t tenant parent = none ↔ t.depth? tenant.cell parent.cell = none := by
  unfold reachFault?
  cases hk : t.depth? tenant.cell parent.cell with
  | none =>
    rw [readDepth_of_none hk]
    exact iff_of_true rfl rfl
  | some k =>
    refine iff_of_false ?_ (Option.some_ne_none k)
    by_cases hlt : k < UInt32.size
    · rw [readDepth_of_lt hk hlt]
      exact Option.some_ne_none _
    · rw [readDepth_of_not_lt hk hlt]
      exact Option.some_ne_none _

/-- The guard against cycles passes a detach, and any parent but the tenant itself that the tenant
    does not reach. -/
theorem cycleFault?_eq_none_iff :
    cycleFault? t tenant parent = none ↔
      parent = .root ∨ parent ≠ tenant ∧ t.depth? tenant.cell parent.cell = none := by
  unfold cycleFault?
  by_cases hz : parent = .root
  · simp [hz]
  · by_cases he : parent = tenant <;> simp [hz, he, reachFault?_eq_none_iff]

/-- The guard against cycles keeps the new parent out of the subtree, whatever else the table
    holds. -/
theorem outside_of_cycleFault? (h : cycleFault? t tenant parent = none) :
    parent.cell = 0 ∨ ¬t.InSubtree tenant.cell parent.cell := by
  rcases cycleFault?_eq_none_iff.1 h with rfl | ⟨hne, hnone⟩
  · exact .inl rfl
  · refine .inr fun hin => ?_
    rcases hin with he | hj
    · exact hne (TenantId.cell_inj.1 he)
    · rw [Closure.joins, hnone] at hj
      cases hj

/-- A parent is known if it is the root or an id of some row. -/
theorem parentFault?_eq_none_iff :
    parentFault? t parent = none ↔ parent = .root ∨ parent.cell ∈ t.ids := by
  rw [← Closure.mentions_iff]
  unfold parentFault?
  by_cases hz : parent = .root <;> simp [hz]

/-- The queries for relatives give the rows they select, read one by one. -/
theorem on_relatives {step : String} {select : Closure → Int → List Kin}
    (h : s.database.closure? = some t) (hid : id.Storable) :
    (relatives step id select).on s = (readRelatives step (select t id.cell), s) := by
  rw [relatives, Work.on_bind_ok (Work.on_read_of_closure? h), Work.on_bind_ok (on_cellOf hid),
    Work.on_step]
  rfl

/-- Announcing the plan adds its one event, or fails where the plan cannot be read; the rows are
    left alone in both cases. -/
theorem on_plan (h : s.Holds t) (ht : tenant.Storable) (hp : parent.Storable) :
    (plan tenant parent).on s
      = match planEvents t tenant parent with
        | .ok es => (.ok (), s.after t es)
        | .error e => (.error e, s) := by
  unfold plan subtree supertree planEvents
  rw [Work.on_bind, on_relatives h.closure? ht]
  cases readRelatives "compute subtree" (byDistance (t.subtree tenant.cell)) with
  | error e => rfl
  | ok sub =>
    by_cases hz : parent = .root
    · simp only [hz, if_true]
      exact Work.on_note h
    · simp only [hz, if_false]
      show ((relatives _ _ _) >>= _ : Work Unit).on s = _
      rw [Work.on_bind, on_relatives h.closure? hp]
      cases readRelatives "compute supertree" (byDistance (t.supertree parent.cell)) with
      | error e => rfl
      | ok sup => exact Work.on_note h

/-- The guard of a move: the root lies below no tenant. -/
theorem on_guard (h : s.Holds t) (ht : tenant.Storable) (hp : parent.Storable) :
    (if parent ≠ .root then refuseCycle tenant parent else pure ()).on s
      = (verdict (cycleFault? t tenant parent), s) := by
  by_cases hz : parent = .root
  · rw [if_neg (not_not.2 hz), cycleFault?, if_pos hz]
    rfl
  · rw [if_pos hz]
    exact on_refuseCycle h ht hp hz

/-- With or without the verbose setting: what is announced before the first write. -/
theorem on_forewarn (h : s.Holds t) (ht : tenant.Storable) (hp : parent.Storable) :
    (if verbose = true then plan tenant parent else pure ()).on s
      = match forewarning t tenant parent verbose with
        | .ok es => (.ok (), s.after t es)
        | .error e => (.error e, s) := by
  cases verbose with
  | false =>
    show (Except.ok (), s) = (Except.ok (), s.after t [])
    rw [h.after_self]
  | true => exact on_plan h ht hp

/-- Joins a detached subtree to `parent`.  Should the parent edge be missing after that, `otherwise`
    is done with the number of rows written. -/
def attachOr (otherwise : Nat → Work Nat) (tenant parent : TenantId) : Work Nat := do
  let upserted ← Work.execute "attach subtree to new ancestors" (·.attach tenant.cell parent.cell)
  if (← depthBetween parent tenant) = some 1 then
    pure upserted
  else
    otherwise upserted

/-- A move that does `otherwise` should the parent edge be missing after the subtree is attached. -/
def moveOr (otherwise : Nat → Work Nat) (tenant parent : TenantId) (verbose : Bool) :
    Work Unit := do
  requireTenant "tenant_id" tenant
  requireStorable "new_parent_id" parent
  if parent ≠ .root then
    refuseCycle tenant parent
  if !(← isPresent tenant) then
    throw (.conflict (.absent tenant))
  requireParent parent
  if verbose then
    plan tenant parent
  let detached ← Work.execute "detach subtree from old ancestors"
    (·.detach tenant.cell parent.cell)
  let dropped ← Work.execute "delete old parent edge" (·.dropOtherParents tenant.cell parent.cell)
  let upserted ← if parent = .root then pure 0 else attachOr otherwise tenant parent
  Work.report (.moveApplied tenant parent (detached + dropped) upserted)

/-- Writes the parent edge, and tells of it. -/
def restoreEdge (tenant parent : TenantId) (upserted : Nat) : Work Nat := do
  let written ← Work.execute "write direct parent edge" (·.direct parent.cell tenant.cell)
  Work.report (.directEdgeRepaired tenant parent)
  pure (upserted + written)

/-- A move writes the parent edge should it be missing. -/
theorem move_eq_moveOr :
    move tenant parent verbose = moveOr (restoreEdge tenant parent) tenant parent verbose := rfl

/-- Where attaching leaves the parent edge at depth 1, nothing else is done. -/
theorem on_attachOr {otherwise : Nat → Work Nat} (h : s.Holds u) (ht : tenant.Storable)
    (hp : parent.Storable)
    (hedge : (u.attach tenant.cell parent.cell).closure.depth? parent.cell tenant.cell = some 1) :
    (attachOr otherwise tenant parent).on s
      = (.ok (u.attach tenant.cell parent.cell).count,
          s.after (u.attach tenant.cell parent.cell).closure []) := by
  -- the look-up that follows finds depth 1, hence the way out is not taken
  have hread : readDepth (u.attach tenant.cell parent.cell).closure parent tenant
      = .ok (some 1) := readDepth_of_lt hedge (by decide)
  rw [attachOr, Work.on_bind_ok (Work.on_execute h), Work.on_bind,
    on_depthBetween h.after.closure? hp ht, hread]
  rfl

/-- **Moves.** A request with a fault changes nothing, nor does a plan that cannot be read; any
    other request moves the subtree.  The parent edge is never missing, so that it makes no
    difference what would be done then. -/
theorem moveOr_on {otherwise : Nat → Work Nat} (h : s.Holds t) :
    (moveOr otherwise tenant parent verbose).on s
    = match moveFault? t tenant parent with
      | some e => (.error e, s)
      | none =>
        match forewarning t tenant parent verbose with
        | .error e => (.error e, s)
        | .ok es => (.ok (), s.after (t.moved tenant.cell parent.cell)
            (es ++ [.told (moveApplied t tenant parent)])) := by
  unfold moveOr moveFault?
  rw [Work.on_check on_requireTenant]
  cases h₁ : tenantFault? "tenant_id" tenant with
  | some e => rfl
  | none =>
  obtain ⟨-, hstore⟩ := tenantFault?_eq_none_iff.1 h₁
  rw [Option.elim_none, Work.on_check on_requireStorable]
  cases h₂ : storableFault? "new_parent_id" parent with
  | some e => rfl
  | none =>
  have hparent := storableFault?_eq_none_iff.1 h₂
  rw [Option.elim_none, Work.on_when, Work.on_check (on_guard h hstore hparent)]
  cases h₃ : cycleFault? t tenant parent with
  | some e => rfl
  | none =>
  rw [Option.elim_none, Work.on_bind_ok (on_isPresent h.closure? hstore)]
  cases t.mentions tenant.cell with
  | false => rfl
  | true =>
  simp only [Bool.not_true, Bool.false_eq_true, if_false]
  rw [Work.on_check (on_requireParent h hparent)]
  cases parentFault? t parent with
  | some e => rfl
  | none =>
  rw [Option.elim_none, Work.on_when, Work.on_bind, on_forewarn h hstore hparent]
  cases forewarning t tenant parent verbose with
  | error e => rfl
  | ok es =>
  dsimp only
  -- from here on nothing is refused any more
  have hs : (s.after t es).Holds t := h.after
  rw [Work.on_bind_ok (Work.on_execute hs), Work.on_bind_ok (Work.on_execute hs.after)]
  by_cases hz : parent = .root
  · subst hz
    have hz' : TenantId.root.cell = 0 := rfl
    simp only [if_true]
    rw [Work.on_bind_ok Work.on_pure, Work.on_report hs.after.after]
    simp only [Scope.after_after, Closure.moved, moveApplied, if_pos hz', if_true, List.append_nil]
    rfl
  -- the guard has kept the parent out of the subtree, and so attaching leaves the edge at depth 1
  · have hz' : parent.cell ≠ 0 := fun he => hz (cell_eq_zero_iff.1 he)
    have hedge := Closure.depth?_moved_edge hz' ((outside_of_cycleFault? h₃).resolve_left hz')
    rw [Closure.moved_of_ne_zero hz', Closure.cut] at hedge
    simp only [if_neg hz]
    rw [Work.on_bind_ok (on_attachOr hs.after.after hstore hparent hedge)]
    rw [Work.on_report hs.after.after.after]
    simp [Scope.after_after, Closure.moved, moveApplied, hz, hz']

/-- **A move, all in all.** Past the checks and the announcement the rows are those of
    `Closure.moved`, and the move is told last; in all other cases the state is as it was. -/
theorem move_on (h : s.Holds t) : (move tenant parent verbose).on s
    = match moveFault? t tenant parent with
      | some e => (.error e, s)
      | none =>
        match forewarning t tenant parent verbose with
        | .error e => (.error e, s)
        | .ok es => (.ok (), s.after (t.moved tenant.cell parent.cell)
            (es ++ [.told (moveApplied t tenant parent)])) := by
  rw [move_eq_moveOr]
  exact moveOr_on h

/-! ### Repairs -/

/-- The report of a repair of the whole table. -/
def repairReport (t : Closure) : RepairReport where
  selfEdgesInserted := (t.fill t.selfRows).count
  transitiveEdgesInserted := t.selved.saturate.2.foldl (fun n pass => n + pass.inserted) 0
  depthsLowered := ((t.fill t.selfRows).closure.lower (t.fill t.selfRows).closure.selfRows).count
    + t.selved.saturate.2.foldl (fun n pass => n + pass.lowered) 0
  passes := t.selved.saturate.2.length

/-- The log entry of the pass with a given number. -/
def passRecord (p : Pass × Nat) : LogRecord :=
  ⟨.debug, .repair, "Closure repair pass",
    [("pass", .number p.2), ("inserted", .number p.1.inserted), ("lowered", .number p.1.lowered)]⟩

/-- What a repair of the whole table tells. -/
def repairEvents (t : Closure) : List Event :=
  (t.selved.saturate.2.zipIdx 1).map (fun p => .logged (passRecord p))
    ++ [.told (.repairCompleted (repairReport t))]

/-- The passes of the full repair leave the saturated rows and log each pass with its number. -/
theorem on_runPasses (h : s.Holds t) :
    runPasses.on s = (.ok t.saturate.2, s.after t.saturate.1
      ((t.saturate.2.zipIdx 1).map fun p => .logged (passRecord p))) := by
  unfold runPasses
  rw [Work.on_bind_ok (Work.on_read h)]
  dsimp only
  rw [Work.on_bind_ok (Work.on_discard_ok (Work.on_execute h))]
  refine (Work.on_bind_ok (Work.on_forM_log (g := passRecord) h.after)).trans ?_
  rw [Work.on_pure, Scope.after_after, List.nil_append]

/-- **Repair.** It never fails, and leaves the repaired table. -/
theorem repairAll_on (h : s.Holds t) : repairAll.on s
    = (.ok (repairReport t), s.after t.repaired (repairEvents t)) := by
  unfold repairAll
  rw [Work.on_bind_ok (Work.on_execute h), Work.on_bind_ok (Work.on_execute h.after),
    Work.on_bind_ok (on_runPasses h.after.after)]
  dsimp only
  rw [Work.on_bind_ok (Work.on_report h.after.after.after), Work.on_pure]
  simp only [Scope.after_after, List.nil_append]
  rfl

/-- On a table that a repair leaves alone, it takes one pass, in which nothing is written. -/
theorem repairReport_of_repaired_eq (h : t.repaired = t) : repairReport t = { passes := 1 } := by
  obtain ⟨hself, hclosed⟩ := Closure.repaired_eq_self_iff.1 h
  -- every self row is there at depth 0, so that filling and lowering both find nothing to do
  have hrow : ∀ r ∈ t.selfRows, t.depth? r.ancestor r.descendant = some 0 := by
    intro r hr
    obtain ⟨hd, hn, -⟩ := Closure.mem_selfRows.1 hr
    rw [← hd]
    exact hself _ hn
  have hfill : t.fill t.selfRows = ⟨t, 0⟩ :=
    Closure.fill_eq_self fun r hr => Closure.joins_of_depth? (hrow r hr)
  have hlower : t.lower t.selfRows = ⟨t, 0⟩ := by
    refine Closure.lower_eq_self fun r hr k hk => ?_
    rw [hrow r hr, Option.some.injEq] at hk
    omega
  unfold repairReport
  rw [Closure.selved_eq_self hself, hclosed.idle.saturate, hfill, hlower]
  rfl

/-- The table after the repair of a parent edge, and before anything but self rows is written. -/
def rooted (t : Closure) (parent child : Int) : Closure :=
  ((t.plant parent).closure.plant child).closure

/-- The report of the repair of a parent edge. -/
def pairReport (t : Closure) (tenant parent : TenantId) (existing : Option Depth) : RepairReport :=
  let selves := rooted t parent.cell tenant.cell
  let edge := selves.direct parent.cell tenant.cell
  { selfEdgesInserted := (t.plant parent.cell).count + ((t.plant parent.cell).closure.plant
      tenant.cell).count
    transitiveEdgesInserted := (if existing.isNone then edge.count else 0)
      + (edge.closure.inherit parent.cell tenant.cell).count
    depthsLowered := if existing.isSome then edge.count else 0
    passes := 1 }

/-- What the repair of a parent edge tells. -/
def pairEvents (tenant parent : TenantId) (report : RepairReport) : List Event :=
  [.logged ⟨.debug, .repair, "Repaired tenant parent edge",
    [("tenant_id", .ofId tenant), ("parent_id", .ofId parent),
     ("rows_changed", .number report.changed)]⟩,
   .told (.repairCompleted report)]

/-- **Repair of one parent edge.** A request with a fault changes nothing; a parent edge that is
    there and cannot be read leaves the self rows behind; any other request adopts the tenant. -/
theorem repairPair_on (h : s.Holds t) : (repairPair tenant parent).on s
    = match pairFault? t tenant parent with
      | some e => (.error e, s)
      | none =>
        match readDepth (rooted t parent.cell tenant.cell) parent tenant with
        | .error e => (.error e, s.after (rooted t parent.cell tenant.cell) [])
        | .ok existing => (.ok (pairReport t tenant parent existing),
            s.after ((rooted t parent.cell tenant.cell).adopt parent.cell tenant.cell)
              (pairEvents tenant parent (pairReport t tenant parent existing))) := by
  unfold repairPair pairFault?
  rw [Work.on_check on_requireTenant]
  cases h₁ : tenantFault? "tenant_id" tenant with
  | some e => rfl
  | none =>
  obtain ⟨-, ht⟩ := tenantFault?_eq_none_iff.1 h₁
  rw [Option.elim_none, Work.on_check on_requireTenant]
  cases h₂ : tenantFault? "parent_id" parent with
  | some e => rfl
  | none =>
  obtain ⟨-, hp⟩ := tenantFault?_eq_none_iff.1 h₂
  by_cases h₃ : tenant = parent
  · simp only [h₃, if_true]
    rfl
  simp only [h₃, if_false]
  rw [Work.on_bind, on_depthBetween h.closure? ht hp]
  unfold reachFault?
  cases readDepth t tenant parent with
  | error e => rfl
  | ok o =>
  cases o with
  | some k => rfl
  | none =>
  simp only [Option.isSome_none, Bool.false_eq_true, if_false]
  -- the parent edge is looked for only after the self rows are written
  have hs : (s.after (rooted t parent.cell tenant.cell) []).Holds
      (rooted t parent.cell tenant.cell) := h.after
  have hselves : ((s.after (t.plant parent.cell).closure []).after
      ((t.plant parent.cell).closure.plant tenant.cell).closure [])
      = s.after (rooted t parent.cell tenant.cell) [] := by
    rw [Scope.after_after]
    rfl
  rw [Work.on_bind_ok (Work.on_execute h), Work.on_bind_ok (Work.on_execute h.after), hselves,
    Work.on_bind, on_depthBetween hs.closure? hp ht]
  cases readDepth (rooted t parent.cell tenant.cell) parent tenant with
  | error e => rfl
  | ok existing =>
    dsimp only
    -- what the child lacks is asked for again right before it is added: nothing is in the way
    have hadd : (Work.add "back-fill inherited ancestor edges"
        (·.missingRows parent.cell tenant.cell)).on
        ((s.after (rooted t parent.cell tenant.cell) []).after
          ((rooted t parent.cell tenant.cell).direct parent.cell tenant.cell).closure [])
        = (.ok _, Scope.after _ _ _) :=
      Work.on_add hs.after Closure.admits_missingRows Closure.fill_missingRows
    rw [Work.on_bind_ok (Work.on_execute hs), Work.on_bind_ok hadd,
      Work.on_bind_ok (Work.on_log hs.after.after),
      Work.on_bind_ok (Work.on_report hs.after.after.after), Work.on_pure]
    simp only [Scope.after_after, List.nil_append]
    rfl

/-! ### Scans for circular references -/

/-- What a scan finds, or the failure to read it. -/
def scanResult (t : Closure) : Except Failure (List TenantId) :=
  (t.mutualIds.mapM (Cell.id 0)).mapError (Work.failure "read mutual ancestor rows")

/-- What a scan after a move tells. -/
def scanEvents (t : Closure) : List Event :=
  match scanResult t with
  | .ok ids => if ids ≠ [] then [.told (.circularReference ids)] else []
  | .error e => [.logged ⟨.warn, .cycleScan, "Circular reference scan failed",
      [("error", .text e.message)]⟩]

/-- The scan for cycles reads and does not write. -/
theorem circularReferences_on (h : s.database.closure? = some t) :
    circularReferences.on s = (scanResult t, s) := by
  rw [circularReferences, Work.on_bind_ok (Work.on_read_of_closure? h), Work.on_step]
  rfl

/-- A scan after a move never fails, and writes nothing, whoever else may write. -/
theorem warnOfCircularReferences_on (h : s.database.closure? = some t) :
    warnOfCircularReferences.on s = (.ok ((scanResult t).toOption.getD []),
      { s with trail := s.trail ++ scanEvents t }) := by
  unfold warnOfCircularReferences scanEvents
  rw [Work.on_tryCatch, Work.on_bind, circularReferences_on h]
  cases scanResult t with
  | error e => rfl
  | ok ids =>
    by_cases he : ids = []
    · simp only [he, ne_eq, not_true_eq_false, if_false, List.append_nil]
      rfl
    · simp only [he, ne_eq, not_false_eq_true, if_true]
      rfl

end Hierarchy

end Tenancy
