import Tenancy.Admin.Run
import Tenancy.Proofs.Preparation
import Tenancy.Proofs.Transactions

namespace Tenancy

/-!
# What the exit status tells

A run of the program can end early in many places: with a command line that says nothing, with an
invocation that has problems, with a database that cannot be opened or has no table, with a command
that fails.  Wherever it does, the databases are the ones from before the run; and a run with a good
ending has done the one operation that its command stands for.

* `Store.Alone` — a store that is used by nobody else, as the one of a run.
* `Admin.Command.isQuery`, `Admin.Command.request?` — which commands ask, and what the others
  request.
* `Admin.Invocation.Tells` — what an exit status says about a database before and after a run.
* `Admin.exitCode_tells` — the exit status of each of any number of runs tells what it has changed.
-/

/-! ### Stores that nobody else uses -/

namespace Store

variable {α : Type} {s : Store} {w : Work α}

/-- A transaction that succeeds leaves the database that its work makes of the one before. -/
theorem transact_of_ok {a : α} {writes : Prop} (hw : w.Stepwise writes)
    (hok : ((transact w).on s).1 = .ok a) : ∃ scope,
      w.on { database := s.database } = (.ok a, scope) ∧
        ((transact w).on s).2.database = scope.database := by
  obtain ⟨-, -, hw'⟩ := transact_eq_ok_iff.1 hok
  exact ⟨_, hw.free (Prod.ext hw' rfl), database_transact hok⟩

/-- Connections can be had, and nobody else has one. -/
structure Alone (s : Store) : Prop where
  connects : s.refusal? = none
  unleased : s.lease = none

namespace Alone

variable (h : s.Alone)

include h

/-- Nobody else holds a connection, so there is one to be had. -/
theorem connectFault? : s.connectFault? = none := by
  rw [Store.connectFault?, h.connects, h.unleased]
  rfl

/-- Looking something up leaves the database alone. -/
theorem look_kept (hw : w.Stepwise False) : ((look w).on s).2.database = s.database := by
  rw [look_on h.connectFault?]
  exact (hw.kept False.elim).1

/-- A schema that cannot be prepared is left as it was. -/
theorem prepareSchema_kept {e : Failure} (hfail : (prepareSchema.on s).1 = .error e) :
    (prepareSchema.on s).2.database = s.database := by
  rw [prepareSchema, look_on h.connectFault?] at hfail ⊢
  exact Schema.prepare_kept (Prod.ext hfail rfl)

/-- Where the health check passes, there is a table; the store stays as it is in any case. -/
theorem checkHealth_on : checkHealth.on s = match s.database.closure? with
    | some _ => (.ok (), s)
    | none => (.error (unavailable
        ("Health check failed: " ++ (StatementFault.noTable Database.tableName).message)), s) := by
  have hconnect : (tryCatch connect fun _ => throw (unavailable "Failed to get connection")).on s
      = (.ok (), s) := by
    rw [StoreWork.on_tryCatch, connect_on, h.connectFault?]
    rfl
  rw [checkHealth, StoreWork.on_bind_ok hconnect, StoreWork.on_bind_ok StoreWork.on_get]
  cases s.database.closure? <;> rfl

end Alone

end Store

/-! ### Commands -/

namespace Admin

open Store

variable {s : Store} {verbose : Bool} {r : Request}

namespace Command

/-- The command asks something about the hierarchy. -/
def isQuery : Command → Bool
  | isDescendant .. | parent _ | ancestors _ | descendants _ | detectCycles | dump => true
  | init | insert .. | move .. | repair | repairPair .. => false

/-- What the command requests to be changed in the hierarchy. -/
def request? (verbose : Bool) : Command → Option Request
  | insert tenant above => some (.change (.insert above tenant))
  | move tenant above => some (.change (.move tenant above verbose))
  | repair => some (.change .repairAll)
  | repairPair tenant above => some (.repairPair tenant above)
  | init | isDescendant .. | parent _ | ancestors _ | descendants _ | detectCycles | dump => none

/-- A command with a request is no query. -/
theorem isQuery_of_request? {c : Command} (h : c.request? verbose = some r) :
    c.isQuery = false := by
  cases c with
  | insert | move | repair | repairPair => rfl
  | init | isDescendant | parent | ancestors | descendants | detectCycles | dump => cases h

/-- A query looks something up, and makes an answer of it. -/
theorem run_of_isQuery (verbose : Bool) {c : Command} (h : c.isQuery = true) :
    ∃ (β : Type) (w : Work β) (f : β → Answer), w.Stepwise False ∧
      c.run verbose = f <$> look w := by
  cases c with
  | isDescendant a d => exact ⟨_, _, _, Hierarchy.stepwise_depthBetween, rfl⟩
  | parent n => exact ⟨_, _, _, Hierarchy.stepwise_parentOf, rfl⟩
  | ancestors n => exact ⟨_, _, _, Hierarchy.stepwise_relatives, rfl⟩
  | descendants n => exact ⟨_, _, _, Hierarchy.stepwise_relatives, rfl⟩
  | detectCycles => exact ⟨_, _, _, Hierarchy.stepwise_circularReferences, rfl⟩
  | dump => exact ⟨_, _, _, Hierarchy.stepwise_edges, rfl⟩
  | init | insert | move | repair | repairPair => cases h

/-- A command that changes the hierarchy serves its request, and then gives a good answer. -/
theorem run_of_request? {c : Command} (h : c.request? verbose = some r) :
    ∃ k : Option RepairReport → StoreWork Answer, c.run verbose = r.serve >>= k ∧
      ∀ a s, ∃ answer s', (k a).on s = (.ok answer, s') ∧ s'.database = s.database ∧
        answer.success = true := by
  -- what follows the request only logs or words the answer: it neither fails nor touches the
  -- database
  cases c with
  | insert tenant above =>
    cases h
    refine ⟨fun _ => do
      logChange "Inserted tenant" [("tenant_id", .ofId tenant), ("parent_id", .ofId above)]
      pure (.inserted tenant above), ?_, fun a s => ⟨_, _, rfl, rfl, rfl⟩⟩
    simp only [run, Request.serve, bind_assoc, pure_bind]
  | move tenant above =>
    cases h
    refine ⟨fun _ => do
      logChange "Moved tenant" [("tenant_id", .ofId tenant), ("new_parent_id", .ofId above)]
      pure (.moved tenant above), ?_, fun a s => ⟨_, _, rfl, rfl, rfl⟩⟩
    simp only [run, Request.serve, bind_assoc, pure_bind]
  | repair =>
    cases h
    refine ⟨fun a => pure (a.elim .prepared .repaired), ?_, fun a s => ⟨_, _, rfl, rfl, ?_⟩⟩
    · simp only [run, Request.serve, map_eq_pure_bind, bind_assoc, pure_bind, Option.elim_some]
    · cases a <;> rfl
  | repairPair tenant above =>
    cases h
    refine ⟨fun a => pure (a.elim .prepared .repaired), ?_, fun a s => ⟨_, _, rfl, rfl, ?_⟩⟩
    · simp only [run, Request.serve, map_eq_pure_bind, bind_assoc, pure_bind, Option.elim_some]
    · cases a <;> rfl
  | init | isDescendant | parent | ancestors | descendants | detectCycles | dump => cases h

/-- A command prepares the schema, asks something, or requests a change. -/
theorem init_or_isQuery_or_request (c : Command) (verbose : Bool) :
    c = .init ∨ c.isQuery = true ∨ ∃ r, c.request? verbose = some r := by
  cases c with
  | init => exact .inl rfl
  | insert | move | repair | repairPair => exact .inr (.inr ⟨_, rfl⟩)
  | isDescendant | parent | ancestors | descendants | detectCycles | dump => exact .inr (.inl rfl)

/-- Preparing the schema succeeds, or changes nothing. -/
theorem run_init (verbose : Bool) (h : s.Alone) :
    (∃ e s', (run verbose .init).on s = (.error e, s') ∧
    s'.database = s.database) ∨ ∃ s', (run verbose .init).on s = (.ok .prepared, s') := by
  have hrun : run verbose .init = prepareSchema >>= fun _ => pure Answer.prepared := rfl
  rw [hrun, StoreWork.on_bind]
  have hkept := @Alone.prepareSchema_kept s h
  generalize prepareSchema.on s = o at hkept ⊢
  obtain ⟨x, s'⟩ := o
  cases x with
  | error e => exact .inl ⟨e, s', rfl, hkept rfl⟩
  | ok u => exact .inr ⟨s', rfl⟩

/-- A query leaves the database alone, whether or not it finds an answer. -/
theorem run_query_kept (verbose : Bool) {c : Command} (h : s.Alone) (hquery : c.isQuery = true) :
    ((c.run verbose).on s).2.database = s.database := by
  obtain ⟨β, w, f, hw, hrun⟩ := run_of_isQuery verbose hquery
  rw [hrun, map_eq_pure_bind, StoreWork.on_bind]
  have hkept := h.look_kept hw
  generalize (look w).on s = o at hkept ⊢
  obtain ⟨x, s'⟩ := o
  cases x <;> exact hkept

/-- A request that is refused changes nothing; any other is done, and answered well. -/
theorem run_request {c : Command} (hr : c.request? verbose = some r) :
    (∃ e s', (c.run verbose).on s = (.error e, s') ∧ s'.database = s.database) ∨
      ∃ answer s' a scope, (c.run verbose).on s = (.ok answer, s') ∧ answer.success = true ∧
        r.work.on { database := s.database } = (.ok a, scope) ∧ s'.database = scope.database := by
  obtain ⟨k, hrun, hk⟩ := run_of_request? hr
  obtain ⟨es, hserve⟩ := r.serve_transact (s := s)
  -- the database of before or that of the request's work, and the status says which
  rw [hrun, StoreWork.on_bind, hserve]
  cases hresult : ((transact r.work).on s).1 with
  | error e => exact .inl ⟨e, _, rfl, (refuses_of_error hresult).2⟩
  | ok a =>
    obtain ⟨scope, hwork, hdb⟩ := transact_of_ok r.stepwise_work hresult
    obtain ⟨answer, s', hanswer, hsame, hgood⟩ :=
      hk a (s.after ((transact r.work).on s).2.database es)
    exact .inr ⟨answer, s', a, scope, hanswer, hgood, hwork, hsame.trans hdb⟩

end Command

/-! ### Invocations -/

namespace Invocation

variable {inv : Invocation} {db db' : Database} {status : UInt8}

/-- **What an exit status says** about the database before a run and after it: nothing has changed
    if the status is not zero, or if the command asks something; and if the status is zero, a change
    of the hierarchy was done on its table. -/
structure Tells (inv : Invocation) (status : UInt8) (db db' : Database) : Prop where
  failed : status ≠ 0 → db' = db
  asked : inv.command.isQuery = true → db' = db
  done : ∀ r, inv.command.request? inv.verbose = some r → status = 0 →
    db.closure?.isSome = true ∧
      ∃ a scope, r.work.on { database := db } = (.ok a, scope) ∧ db' = scope.database

/-- A run that fails and changes nothing. -/
theorem Tells.unchanged (h : status ≠ 0) : inv.Tells status db db :=
  ⟨fun _ => rfl, fun _ => rfl, fun _ _ hzero => absurd hzero h⟩

/-- Whether the store is ready for the command; it stays as it is. -/
theorem prepare_on (h : s.Alone) : inv.prepare.on s = (.ok (), s) ∧
    (inv.command ≠ .init → s.database.closure?.isSome = true) ∨
      ∃ e, inv.prepare.on s = (.error e, s) := by
  rw [prepare]
  by_cases hinit : inv.command = .init
  · rw [if_pos hinit]
    exact .inl ⟨rfl, fun hne => absurd hinit hne⟩
  · rw [if_neg hinit, h.checkHealth_on]
    cases s.database.closure? with
    | none => exact .inr ⟨_, rfl⟩
    | some t => exact .inl ⟨rfl, fun _ => rfl⟩

/-- The status for what a command comes to. -/
def statusOf : Except Failure Answer → UInt8
  | .error _ => 1
  | .ok answer => if answer.success then 0 else 2

theorem statusOf_error {e : Failure} : statusOf (.error e) ≠ 0 := by
  show (1 : UInt8) ≠ 0
  decide

theorem statusOf_ok {answer : Answer} (h : answer.success = true) : statusOf (.ok answer) = 0 :=
  if_pos h

variable {s' : Store} {x : Except Failure Answer}

/-- On a store that is ready, the status tells how the command went. -/
theorem runOn_of_ready (hready : inv.prepare.on s = (.ok (), s))
    (hrun : (inv.command.run inv.verbose).on s = (x, s')) :
    (inv.runOn s).1.exitCode = statusOf x ∧ (inv.runOn s).2 = s' := by
  have hready' : inv.prepare.run.run s = (.ok (), s) := hready
  have hrun' : (inv.command.run inv.verbose).run.run s = (x, s') := hrun
  rw [runOn, hready']
  dsimp only
  rw [hrun']
  cases x <;> exact ⟨rfl, rfl⟩

/-- Preparing the schema is neither a query nor a change of the hierarchy. -/
theorem tells_of_init (h : s.Alone) (hinit : inv.command = .init)
    (hrun : (inv.command.run inv.verbose).on s = (x, s')) :
    inv.Tells (statusOf x) s.database s'.database := by
  have hask : ¬inv.command.isQuery = true := by
    rw [hinit]
    decide
  have hnone : ∀ r, inv.command.request? inv.verbose ≠ some r := by
    rw [hinit]
    exact fun r he => nomatch he
  rw [hinit] at hrun
  -- preparing is neither a query nor a request, so that nothing is left to tell on success
  rcases Command.run_init inv.verbose h with ⟨e, s₁, hfail, hkept⟩ | ⟨s₁, hok⟩
  · cases hrun.symm.trans hfail
    exact ⟨fun _ => hkept, fun _ => hkept, fun r hr => absurd hr (hnone r)⟩
  · cases hrun.symm.trans hok
    exact ⟨fun hne => absurd (statusOf_ok rfl) hne, fun hquery => absurd hquery hask,
      fun r hr => absurd hr (hnone r)⟩

/-- A query changes nothing, even one that is answered with a "no". -/
theorem tells_of_query (h : s.Alone) (hquery : inv.command.isQuery = true)
    (hrun : (inv.command.run inv.verbose).on s = (x, s')) :
    inv.Tells (statusOf x) s.database s'.database := by
  have hkept : s'.database = s.database := by
    rw [← Command.run_query_kept inv.verbose h hquery, hrun]
  refine ⟨fun _ => hkept, fun _ => hkept, fun r hr => ?_⟩
  rw [Command.isQuery_of_request? hr] at hquery
  cases hquery

/-- A change that is answered was done, and is never answered with a "no". -/
theorem tells_of_request (htable : s.database.closure?.isSome = true)
    (hr : inv.command.request? inv.verbose = some r)
    (hrun : (inv.command.run inv.verbose).on s = (x, s')) :
    inv.Tells (statusOf x) s.database s'.database := by
  have hask : ¬inv.command.isQuery = true := by
    rw [Command.isQuery_of_request? hr]
    decide
  rcases Command.run_request hr with ⟨e, s₁, hfail, hkept⟩ |
    ⟨answer, s₁, a, scope, hok, hgood, hwork, hdb⟩
  · cases hrun.symm.trans hfail
    exact ⟨fun _ => hkept, fun _ => hkept, fun _ _ hzero => absurd hzero statusOf_error⟩
  · cases hrun.symm.trans hok
    refine ⟨fun hne => absurd (statusOf_ok hgood) hne, fun hquery => absurd hquery hask,
      fun r' hr' _ => ?_⟩
    cases hr.symm.trans hr'
    exact ⟨htable, a, scope, hwork, hdb⟩

/-- **A run on an open store** ends with a status that tells what it did. -/
theorem runOn_tells (h : s.Alone) :
    inv.Tells (inv.runOn s).1.exitCode s.database (inv.runOn s).2.database := by
  -- the store is prepared before any command but init; where that fails the status is 1
  rcases inv.prepare_on h with ⟨hready, htable⟩ | ⟨e, hfail⟩
  · obtain ⟨x, s', hrun⟩ : ∃ x s', (inv.command.run inv.verbose).on s = (x, s') := ⟨_, _, rfl⟩
    obtain ⟨hstatus, hstore⟩ := runOn_of_ready hready hrun
    rw [hstatus, hstore]
    rcases inv.command.init_or_isQuery_or_request inv.verbose with hinit | hquery | ⟨r, hr⟩
    · exact tells_of_init h hinit hrun
    · exact tells_of_query h hquery hrun
    · have hne : inv.command ≠ .init := fun he => by
        rw [he] at hr
        cases hr
      exact tells_of_request (htable hne) hr hrun
  · have hfail' : inv.prepare.run.run s = (.error e, s) := hfail
    have hone : (1 : UInt8) ≠ 0 := by decide
    rw [runOn, hfail']
    exact .unchanged hone

/-- A store that could be opened is used by nobody else. -/
theorem alone_of_open? {db : Database} (h : (inv.store db).open? = .ok s) :
    s.Alone ∧ s.database = db ∧ inv.location?.isSome = true := by
  unfold open? at h
  have htimeout : ¬(inv.store db).settings.connectionTimeout = 0 := by
    show ¬(30000 : UInt64) = 0
    decide
  rw [if_neg htimeout] at h
  have heager : (inv.store db).settings.eager (inv.store db).isMemory = true := by
    show (_ || decide (0 < (1 : UInt32).toNat)) = true
    rw [Bool.or_eq_true]
    exact .inr (by decide)
  cases hrefusal : (inv.store db).refusal? with
  | some e =>
    rw [hrefusal, heager] at h
    cases h
  | none =>
    rw [hrefusal] at h
    cases h
    refine ⟨⟨hrefusal, rfl⟩, rfl, ?_⟩
    -- a location that cannot be reached would have been refused
    cases hlocation : inv.location?.isSome with
    | true => rfl
    | false =>
      have hout : (inv.store db).reachable = false := hlocation
      rw [refusal?, hout] at hrefusal
      split at hrefusal <;> cases hrefusal

/-- **A run of an invocation** ends with a status that tells what it did; with a good one, its
    database could be reached. -/
theorem run_tells (inv : Invocation) (logging : Bool) (db : Database) :
    inv.Tells (inv.run logging db).1.exitCode db (inv.run logging db).2 ∧
      ((inv.run logging db).1.exitCode = 0 → inv.location?.isSome = true) := by
  have hone : (1 : UInt8) ≠ 0 := by decide
  unfold run
  cases inv.problems with
  | cons p ps => exact ⟨.unchanged hone, fun hzero => absurd hzero hone⟩
  | nil =>
    dsimp only
    cases hopen : (inv.store db).open? with
    | error fault => exact ⟨.unchanged hone, fun hzero => absurd hzero hone⟩
    | ok s =>
      obtain ⟨halone, hdb, hlocation⟩ := inv.alone_of_open? hopen
      exact ⟨hdb ▸ runOn_tells halone, fun _ => hlocation⟩

end Invocation

/-! ### Runs among all databases -/

variable {files : Files} {location : Option Location}

namespace Files

/-- Putting a file back where it was changes nothing. -/
theorem set_get : files.set location (files.get location) = files := by
  match location with
  | none | some .passing => rfl
  | some (.file path readOnly) =>
    funext p
    show (if p = path then files path else files p) = files p
    split
    · rename_i hp
      rw [hp]
    · rfl

end Files

/-- One run of the program: whether it logs, the variables of its environment, and its arguments. -/
structure Call where
  logging : Bool
  env : Environment
  args : List String

/-- The run among the given databases. -/
def Call.run (call : Call) (files : Files) : Outcome × Files :=
  Admin.run files call.logging call.env call.args

/-- The databases after one run and another. -/
def Files.afterAll (files : Files) (calls : List Call) : Files :=
  calls.foldl (fun files call => (call.run files).2) files

/-- The last of several calls works on the files that the others have left. -/
theorem Files.afterAll_append {calls : List Call} {call : Call} :
    files.afterAll (calls ++ [call]) = (call.run (files.afterAll calls)).2 := by
  rw [afterAll, List.foldl_append]
  rfl

/-- One run of the program: its status tells what it did to the databases. -/
theorem Call.run_tells (call : Call) (files : Files) :
    ((call.run files).1.exitCode ≠ 0 → (call.run files).2 = files) ∧
    ∀ inv, Invocation.ofArguments? call.env call.args = .ok inv →
      (inv.command.isQuery = true → (call.run files).2 = files) ∧
      ∀ r, inv.command.request? inv.verbose = some r → (call.run files).1.exitCode = 0 →
        ∃ path readOnly t a scope, inv.location? = some (.file path readOnly) ∧
          (files path).closure? = some t ∧
          r.work.on { database := files path } = (.ok a, scope) ∧
          (call.run files).2 path = scope.database ∧
          ∀ p, p ≠ path → (call.run files).2 p = files p := by
  unfold Call.run Admin.run
  cases hargs : Invocation.ofArguments? call.env call.args with
  | error fault => exact ⟨fun _ => rfl, fun inv hinv => nomatch hinv⟩
  | ok inv =>
    obtain ⟨htells, hlocation⟩ := inv.run_tells call.logging (files.get inv.location?)
    dsimp only [Outcome.exitCode]
    refine ⟨fun hne => ?_, fun inv' hinv => ?_⟩
    · rw [htells.failed hne, Files.set_get]
    · cases hinv
      refine ⟨fun hquery => by rw [htells.asked hquery, Files.set_get], fun r hr hzero => ?_⟩
      obtain ⟨htable, a, scope, hwork, hdb⟩ := htells.done r hr hzero
      obtain ⟨location, hloc⟩ := Option.isSome_iff_exists.1 (hlocation hzero)
      rw [hloc] at htable hwork hdb ⊢
      cases location with
      | passing =>
        -- a database that is not kept in a file has no table
        cases htable
      | file path readOnly =>
        obtain ⟨t, ht⟩ := Option.isSome_iff_exists.1 htable
        refine ⟨path, readOnly, t, a, scope, rfl, ht, hwork, ?_, fun p hp => if_neg hp⟩
        exact (if_pos rfl).trans hdb

/-- **The exit status tells whether the hierarchy has changed.**  Of any number of runs with
    whatever arguments, among whatever databases, each that ends with a status other than 0 leaves
    all databases as they were, and so does each that asks something.  One that ends with the status
    0 and was to change a hierarchy leaves, in the file that its database is in, what the operation
    makes of the rows that were there before it, and all other files as they were. -/
theorem exitCode_tells (files : Files) (earlier : List Call) (call : Call) :
    let before := files.afterAll earlier
    let after := files.afterAll (earlier ++ [call])
    let status := (call.run before).1.exitCode
    (status ≠ 0 → after = before) ∧
    ∀ inv, Invocation.ofArguments? call.env call.args = .ok inv →
      (inv.command.isQuery = true → after = before) ∧
      ∀ r, inv.command.request? inv.verbose = some r → status = 0 →
        ∃ path readOnly t a scope, inv.location? = some (.file path readOnly) ∧
          (before path).closure? = some t ∧
          r.work.on { database := before path } = (.ok a, scope) ∧
          after path = scope.database ∧ ∀ p, p ≠ path → after p = before p := by
  intro before after status
  have hafter : after = (call.run before).2 := Files.afterAll_append
  rw [hafter]
  exact call.run_tells before

/-- A run that logs nothing, with no variable set. -/
def Call.plain (args : List String) : Call := ⟨false, fun _ => none, args⟩

/-- Of two runs that insert the same tenant, the first does it and the second is refused; a search
    for circular references in between changes nothing. -/
theorem exitCode_tells_insertedTwice :
    let init := Call.plain ["init"]
    let insert := Call.plain ["insert", "1"]
    let search := Call.plain ["detect-cycles"]
    let files := Files.fresh.afterAll
    (∃ path a scope, (Request.change (.insert .root (.ofNat 1))).work.on
        { database := files [init] path } = (.ok a, scope) ∧
      files [init, insert] path = scope.database) ∧
    files [init, insert, search] = files [init, insert] ∧
    files [init, insert, search, insert] = files [init, insert, search] := by
  intro init insert search files
  have hargs : ∃ inv, Invocation.ofArguments? insert.env insert.args = .ok inv ∧
      inv.command.request? inv.verbose = some (.change (.insert .root (.ofNat 1))) := ⟨_, rfl, rfl⟩
  have hsearch : ∃ inv, Invocation.ofArguments? search.env search.args = .ok inv ∧
      inv.command.isQuery = true := ⟨_, rfl, rfl⟩
  have hdone : (insert.run (files [init])).1.exitCode = 0 := by decide +kernel
  have hrefused : (insert.run (files [init, insert, search])).1.exitCode ≠ 0 := by decide +kernel
  obtain ⟨inv, hinsert, hr⟩ := hargs
  obtain ⟨query, hquery, hask⟩ := hsearch
  obtain ⟨path, -, -, a, scope, -, -, hwork, hafter, -⟩ :=
    ((exitCode_tells .fresh [init] insert).2 inv hinsert).2 _ hr hdone
  exact ⟨⟨path, a, scope, hwork, hafter⟩,
    ((exitCode_tells .fresh [init, insert] search).2 query hquery).1 hask,
    (exitCode_tells .fresh [init, insert, search] insert).1 hrefused⟩

end Admin

end Tenancy
