import Mathlib.Algebra.Group.Int.Defs
import Tenancy.Proofs.Stepwise

namespace Tenancy.Schema

/-!
# Preparing the schema

The schema is prepared by a few statements, without a transaction around them; which ones, the first
of the versions decides.  Each of them only adds what is missing, or writes the list of versions
anew, so that wherever the work is cut off between two of them, the rest can be done from the
database that is left.

* `Schema.Statement`, `Schema.follow` — the statements, and running some of them.
* `Schema.statements`, `Schema.prepare_eq_follow` — those that the schema of a database is prepared
  by.
* `Schema.Startable`, `Schema.ready` — the databases from which this leads to the latest version,
  and the one that it leads to; `Schema.prepare_of_startable`.
* `Schema.prepare_cases` — a schema can be prepared, or needs nothing, or is refused.
* `Schema.onTheWay_take` — wherever it is cut off, a database is left that leads there as well.
* `Schema.prepare_kept` — preparing the schema fails before it has written anything.
* `Schema.prepare_restarts` — preparing the schema from any state.
-/

/-! ### Statements -/

/-- A statement on the schema. -/
inductive Statement
  | createVersions
  | createTable
  | createIndex
  | clearVersions
  | addVersion (n : Int)

namespace Statement

/-- Runs the statement. -/
def work : Statement → Work Unit
  | createVersions => Schema.createVersions
  | createTable => Schema.createTable
  | createIndex => Schema.createIndex
  | clearVersions => Schema.clearVersions
  | addVersion n => Schema.addVersion n

/-- The database after the statement, if it does not fail. -/
def apply (db : Database) : Statement → Database
  | createVersions => { db with versions := some (db.versions.getD []) }
  | createTable => { db with table := some (db.table.getD {}) }
  | createIndex => { db with table := db.table.map fun c => { c with indexed := true } }
  | clearVersions => { db with versions := some [] }
  | addVersion n => { db with versions := some (db.versions.getD [] ++ [.number n]) }

end Statement

/-- Runs statements one after the other, up to the first that fails. -/
def follow (qs : List Statement) : Work Unit := qs.forM Statement.work

/-- The version of a database: 0 if there is none. -/
def versionOf (db : Database) : Int := current (db.versions.getD [])

/-- The statements that the schema is prepared by. -/
def statements (db : Database) : List Statement :=
  .createVersions ::
    (if versionOf db = 0 then [.createTable, .clearVersions, .addVersion 1] else []) ++
    (if versionOf db = 0 ∨ versionOf db = 1 then [.createIndex, .clearVersions, .addVersion latest]
      else [])

/-- What is left to do when the statements have run: a migration is told of, and a version from
    which no way leads on is refused. -/
def conclude (n : Int) : Work Unit :=
  if n = 0 ∨ n = 1 then
    Work.log ⟨.debug, .schema, "Applied tenant closure schema migration",
      [("version", .number latest.toNat)]⟩
  else if n < latest then refuse ("No migration path from schema version " ++ toString n)
  else pure ()

/-- An index on a table that is missing cannot be created. -/
def noIndex : Failure :=
  Schema.failed "create descendant index" (.noTable ("main." ++ Database.tableName))

variable {s s' : Scope} {db : Database} {n : Int} {k : Nat} {q : Statement} {qs : List Statement}
  {failed : StatementFault → Failure} {change : Database → Database}

/-! ### What a statement does -/

/-- With free access, a write succeeds. -/
theorem on_write (hfree : s.access = .free) :
    (Work.write failed change).on s = (.ok (), { s with database := change s.database }) := by
  rw [Work.on_write, hfree]
  rfl

/-- A write that succeeds has made its change. -/
theorem eq_of_write (h : (Work.write failed change).on s = (.ok (), s')) :
    s' = { s with database := change s.database } := by
  rw [Work.on_write] at h
  cases hfault : s.access.writeFault? with
  | some fault =>
    rw [hfault] at h
    cases h
  | none =>
    rw [hfault] at h
    cases h
    rfl

/-- The table of versions is made unless it is there. -/
theorem createVersions_on : createVersions.on s = match s.database.versions with
    | some _ => (.ok (), s)
    | none => (Work.write (Schema.failed "create schema_version table")
        fun db => { db with versions := some [] }).on s := by
  rw [createVersions, Work.on_bind_ok Work.on_get]
  cases s.database.versions <;> rfl

/-- The table of rows is made unless it is there. -/
theorem createTable_on : createTable.on s = match s.database.table with
    | some _ => (.ok (), s)
    | none => (Work.write (Schema.failed "create tenant_closure table")
        fun db => { db with table := some {} }).on s := by
  rw [createTable, Work.on_bind_ok Work.on_get]
  cases s.database.table <;> rfl

/-- The index is made unless it is there, and only beside its table. -/
theorem createIndex_on : createIndex.on s = match s.database.table with
    | some ⟨_, true⟩ => (.ok (), s)
    | some ⟨t, false⟩ => (Work.write (Schema.failed "create descendant index")
        fun db => { db with table := some ⟨t, true⟩ }).on s
    | none => (.error noIndex, s) := by
  rw [createIndex, Work.on_bind_ok Work.on_get]
  cases s.database.table with
  | none => rfl
  | some c =>
    obtain ⟨t, indexed⟩ := c
    cases indexed <;> rfl

namespace Statement

/-- A statement that succeeds has left the database that it is to leave. -/
theorem eq_of_work (h : q.work.on s = (.ok (), s')) :
    s' = { s with database := q.apply s.database } := by
  obtain ⟨⟨table, versions⟩, trail, access⟩ := s
  -- what is there already is not created again, and stays as it is
  cases q with
  | createVersions =>
    rw [work, createVersions_on] at h
    cases versions with
    | none => exact eq_of_write h
    | some vs =>
      cases h
      rfl
  | createTable =>
    rw [work, createTable_on] at h
    cases table with
    | none => exact eq_of_write h
    | some c =>
      cases h
      rfl
  | createIndex =>
    rw [work, createIndex_on] at h
    match table, h with
    | none, h => cases h
    | some ⟨t, true⟩, h =>
      cases h
      rfl
    | some ⟨t, false⟩, h => exact eq_of_write h
  | clearVersions =>
    rw [work, Schema.clearVersions] at h
    exact eq_of_write h
  | addVersion n =>
    rw [work, Schema.addVersion] at h
    exact eq_of_write h

/-- With free access, only an index on a missing table cannot be created. -/
theorem on_work (hfree : s.access = .free)
    (htable : q = .createIndex → s.database.table.isSome = true) :
    q.work.on s = (.ok (), { s with database := q.apply s.database }) := by
  -- each statement asks first whether its object is there; only the index needs the table beside it
  obtain ⟨⟨table, versions⟩, trail, access⟩ := s
  cases q with
  | createVersions =>
    rw [work, createVersions_on]
    cases versions with
    | none => exact on_write hfree
    | some vs => rfl
  | createTable =>
    rw [work, createTable_on]
    cases table with
    | none => exact on_write hfree
    | some c => rfl
  | createIndex =>
    rw [work, createIndex_on]
    match table, htable rfl with
    | some ⟨t, true⟩, _ => rfl
    | some ⟨t, false⟩, _ => exact on_write hfree
  | clearVersions =>
    rw [work, Schema.clearVersions]
    exact on_write hfree
  | addVersion n =>
    rw [work, Schema.addVersion]
    exact on_write hfree

/-- No statement takes the table away. -/
theorem table_apply (h : db.table.isSome = true) : (q.apply db).table.isSome = true := by
  cases q with
  | createIndex => rwa [apply, Option.isSome_map]
  | createTable => rfl
  | createVersions | clearVersions | addVersion n => exact h

end Statement

/-! ### Statements one after the other -/

theorem on_follow_cons : (follow (q :: qs)).on s = (q.work >>= fun _ => follow qs).on s := rfl

/-- Once the first statement has succeeded, the others run. -/
theorem on_follow_of_work (h : q.work.on s = (.ok (), s')) :
    (follow (q :: qs)).on s = (follow qs).on s' := by
  rw [on_follow_cons, Work.on_bind_ok h]

/-- Statements that succeed have left the database that they are to leave, and told nothing. -/
theorem eq_of_follow (h : (follow qs).on s = (.ok (), s')) :
    s' = { s with database := qs.foldl Statement.apply s.database } := by
  -- the induction is on the statements, for any scope that the first one leaves
  induction qs generalizing s with
  | nil =>
    cases h
    rfl
  | cons q qs ih =>
    rw [on_follow_cons] at h
    obtain ⟨u, s₁, hfirst, hrest⟩ := Work.bind_eq_ok_iff.1 h
    rw [ih hrest, Statement.eq_of_work hfirst]
    rfl

/-- Once there is a table, and with free access, no statement fails. -/
theorem on_follow (hfree : s.access = .free) (htable : s.database.table.isSome = true) :
    (follow qs).on s = (.ok (), { s with database := qs.foldl Statement.apply s.database }) := by
  induction qs generalizing s with
  | nil => rfl
  | cons q qs ih =>
    rw [on_follow_of_work (Statement.on_work hfree fun _ => htable)]
    exact ih hfree (Statement.table_apply htable)

/-- Preparing the schema is running its statements one after the other. -/
theorem prepare_eq_follow : prepare.on s
    = (follow (statements s.database) >>= fun _ => conclude (versionOf s.database)).on s := by
  have hfollow : ∀ qs, follow (.createVersions :: qs) = createVersions >>= fun _ => follow qs :=
    fun _ => rfl
  rw [prepare, version, statements, List.cons_append, hfollow]
  simp only [bind_assoc]
  refine Work.on_bind_congr fun _ s₁ hcreate => ?_
  -- the version that is read now is the one from before
  have hs₁ := Statement.eq_of_work (q := .createVersions) hcreate
  have hversion : current (s₁.database.versions.getD []) = versionOf s.database := by
    rw [hs₁]
    rfl
  rw [Work.on_bind_ok Work.on_get, pure_bind, hversion]
  generalize versionOf s.database = n
  by_cases hzero : n = 0
  · simp [hzero, follow, Statement.work, setVersion, migrate, conclude, bind_assoc]
  · by_cases hone : n = 1
    · simp [hone, follow, Statement.work, setVersion, migrate, conclude, latest, bind_assoc]
    · by_cases hlt : n < latest <;>
        simp [follow, migrate, conclude, hzero, hone, hlt]

/-! ### Where it leads -/

/-- From this database a way leads to the latest version: either from the beginning, or from version
    1, which comes with a table. -/
def Startable (db : Database) : Prop :=
  versionOf db = 0 ∨ versionOf db = 1 ∧ db.table.isSome = true

/-- The database with the latest schema: the rows are the old ones, or none if there was no
    table. -/
def ready (db : Database) : Database where
  table := some { closure := db.closure?.getD .empty, indexed := true }
  versions := some [.number latest]

/-- What is told once the schema is ready. -/
def migrated : Event :=
  .logged ⟨.debug, .schema, "Applied tenant closure schema migration",
    [("version", .number latest.toNat)]⟩

/-- A migration is all that is told of. -/
theorem Startable.conclude (h : Startable db) :
    Schema.conclude (versionOf db) = Work.note migrated :=
  if_pos (h.imp_right And.left)

/-- What keeps version 1 from the latest one is a missing table. -/
theorem table_of_not_startable (h : ¬Startable db) (hone : versionOf db = 1) : db.table = none := by
  rw [← Option.not_isSome_iff_eq_none]
  exact fun hsome => h (.inr ⟨hone, hsome⟩)

/-- All statements together lead to the latest schema. -/
theorem foldl_statements (h : Startable db) :
    (statements db).foldl Statement.apply db = ready db := by
  obtain ⟨table, versions⟩ := db
  rcases h with hzero | ⟨hone, htable⟩
  · rw [statements, if_pos hzero, if_pos (.inl hzero)]
    cases table <;> rfl
  · have hne : versionOf ⟨table, versions⟩ ≠ 0 := by omega
    rw [statements, if_neg hne, if_pos (.inr hone)]
    obtain ⟨c, rfl⟩ := Option.isSome_iff_exists.1 htable
    rfl

/-- **A schema that can be prepared** is prepared where statements can write. -/
theorem prepare_of_startable (hfree : s.access = .free) (h : Startable s.database) :
    prepare.on s
      = (.ok (), { s with database := ready s.database, trail := s.trail ++ [migrated] }) := by
  have hfollow : (follow (statements s.database)).on s
      = (.ok (), { s with database := ready s.database }) := by
    rw [← foldl_statements h]
    rcases h with hzero | ⟨-, htable⟩
    · -- the table is there after the first two statements
      rw [statements, if_pos hzero]
      refine Eq.trans (on_follow_of_work (Statement.on_work hfree fun he => by cases he)) ?_
      refine Eq.trans (on_follow_of_work (Statement.on_work hfree fun he => by cases he)) ?_
      exact on_follow hfree rfl
    · exact on_follow hfree htable
  rw [prepare_eq_follow, Work.on_bind_ok hfollow, h.conclude]
  rfl

/-- A version other than 0 stands in a list that is there: nothing is created. -/
theorem createVersions_of_ne (h : versionOf s.database ≠ 0) :
    (Statement.work .createVersions).on s = (.ok (), s) := by
  obtain ⟨⟨table, versions⟩, trail, access⟩ := s
  cases versions with
  | none => exact absurd rfl h
  | some vs => rfl

/-- A version from which no way leads on, or need not, ends the work at once. -/
theorem prepare_of_ne (hzero : versionOf s.database ≠ 0) (hone : versionOf s.database ≠ 1) :
    prepare.on s = (conclude (versionOf s.database)).on s := by
  have hno : ¬(versionOf s.database = 0 ∨ versionOf s.database = 1) := not_or.2 ⟨hzero, hone⟩
  have hfollow : (follow [.createVersions]).on s = (.ok (), s) := by
    rw [on_follow_of_work (createVersions_of_ne hzero)]
    rfl
  rw [prepare_eq_follow, statements, if_neg hzero, if_neg hno, List.append_nil,
    Work.on_bind_ok hfollow]

/-- Version 1 without a table is refused. -/
theorem prepare_of_missing (hone : versionOf s.database = 1) (htable : s.database.table = none) :
    prepare.on s = (.error noIndex, s) := by
  have hzero : versionOf s.database ≠ 0 := by omega
  have hfollow : (follow (statements s.database)).on s = (.error noIndex, s) := by
    rw [statements, if_neg hzero, if_pos (.inr hone), List.cons_append, List.nil_append,
      on_follow_of_work (createVersions_of_ne hzero), on_follow_cons, Work.on_bind, Statement.work,
      createIndex_on, htable]
  rw [prepare_eq_follow, Work.on_bind, hfollow]

/-- From the latest version on, there is nothing to do. -/
theorem prepare_of_le (h : 2 ≤ versionOf s.database) : prepare.on s = (.ok (), s) := by
  have hno : ¬(versionOf s.database = 0 ∨ versionOf s.database = 1) := by omega
  have hlatest : ¬versionOf s.database < latest := Int.not_lt.2 h
  rw [prepare_of_ne (by omega) (by omega), conclude, if_neg hno, if_neg hlatest]
  rfl

/-- From a negative version no way leads on. -/
theorem prepare_of_neg (h : versionOf s.database < 0) : prepare.on s
    = (refuse ("No migration path from schema version " ++ toString (versionOf s.database))).on
      s := by
  have hno : ¬(versionOf s.database = 0 ∨ versionOf s.database = 1) := by omega
  have hlatest : versionOf s.database < latest := Int.lt_trans h (by decide)
  rw [prepare_of_ne (by omega) (by omega), conclude, if_neg hno, if_pos hlatest]

/-- The ways that preparing a schema can go: it can be prepared; nothing is left to do; or it is
    refused, with nothing done. -/
theorem prepare_cases (s : Scope) : Startable s.database ∨ prepare.on s = (.ok (), s) ∧
    2 ≤ versionOf s.database ∨ ∃ reason, prepare.on s
      = (.error (.store (.migration reason)), s) := by
  by_cases hstart : Startable s.database
  · exact .inl hstart
  refine .inr ?_
  have hzero : versionOf s.database ≠ 0 := fun h => hstart (.inl h)
  by_cases hone : versionOf s.database = 1
  · exact .inr ⟨_, prepare_of_missing hone (table_of_not_startable hstart hone)⟩
  · by_cases hneg : versionOf s.database < 0
    · exact .inr ⟨_, prepare_of_neg hneg⟩
    · have hle : 2 ≤ versionOf s.database := by omega
      exact .inl ⟨prepare_of_le hle, hle⟩

/-- Preparing a schema that succeeds leaves one for which nothing is left to do. -/
theorem le_of_prepare (h : prepare.on s = (.ok (), s')) : 2 ≤ versionOf s'.database := by
  rcases prepare_cases s with hstart | ⟨hok, hle⟩ | ⟨reason, herr⟩
  · rw [prepare_eq_follow] at h
    obtain ⟨u, s₁, hfollow, hconclude⟩ := Work.bind_eq_ok_iff.1 h
    rw [hstart.conclude] at hconclude
    cases hconclude
    rw [eq_of_follow hfollow, foldl_statements hstart]
    exact Int.le_refl 2
  · rw [hok] at h
    cases h
    exact hle
  · rw [herr] at h
    cases h

/-! ### Cut off -/

/-- From the one database the same schema can be reached as from the other. -/
structure Leads (db' db : Database) : Prop where
  start : Startable db'
  same : ready db' = ready db

/-- From the one database the same schema can be reached as from the other, or has been reached. -/
def OnTheWay (db' db : Database) : Prop := Leads db' db ∨ db' = ready db

variable {db' : Database}

/-- A statement that adds no version leaves the way open. -/
theorem Leads.apply (h : Leads db' db) (hadd : ∀ n, q ≠ .addVersion n) :
    Leads (q.apply db') db := by
  obtain ⟨hstart, hsame⟩ := h
  obtain ⟨table, versions⟩ := db'
  -- what a later run arrives at depends on the rows only, and these no statement touches
  have hready : ready (q.apply ⟨table, versions⟩) = ready ⟨table, versions⟩ := by
    cases q with
    | createVersions | clearVersions | addVersion n => rfl
    | createTable | createIndex => cases table <;> rfl
  refine ⟨?_, hready.trans hsame⟩
  cases q with
  | createVersions => exact hstart
  | createTable => exact hstart.imp_right fun h => ⟨h.1, rfl⟩
  | createIndex =>
    exact hstart.imp_right fun h => ⟨h.1, Statement.table_apply (q := .createIndex) h.2⟩
  | clearVersions => exact .inl rfl
  | addVersion n => exact absurd rfl (hadd n)

/-- Version 1 is written once its table is there. -/
theorem Leads.first (h : Leads db' db) (htable : db'.table.isSome = true)
    (hempty : db'.versions = some []) : Leads ((Statement.addVersion 1).apply db') db where
  start := .inr ⟨by rw [versionOf, Statement.apply, hempty]; rfl, htable⟩
  same := h.same

/-- If the first statement leaves a database on the way, and the others do so wherever they are cut
    off, then all of them do. -/
theorem onTheWay_cons (h : Leads db' db)
    (hrest : ∀ k, OnTheWay ((qs.take k).foldl Statement.apply (q.apply db')) db) :
    ∀ k, OnTheWay (((q :: qs).take k).foldl Statement.apply db') db
  | 0 => .inl h
  | k + 1 => hrest k

/-- The last migration, wherever it is cut off. -/
theorem onTheWay_migrate (h : Leads db' db) (htable : db'.table.isSome = true) : ∀ k, OnTheWay
    ((([.createIndex, .clearVersions, .addVersion latest] : List Statement).take k).foldl
      Statement.apply db') db := by
  -- a cut after any statement but the last leads to the same end; after the last it is the end
  have hindex := h.apply (q := .createIndex) fun n he => by cases he
  have hclear := hindex.apply (q := .clearVersions) fun n he => by cases he
  have hready : ([.createIndex, .clearVersions, .addVersion latest] : List Statement).foldl
      Statement.apply db' = ready db := by
    rw [← h.same]
    obtain ⟨c, hc⟩ := Option.isSome_iff_exists.1 htable
    obtain ⟨table, versions⟩ := db'
    subst hc
    rfl
  refine onTheWay_cons h (onTheWay_cons hindex (onTheWay_cons hclear fun k => ?_))
  rw [List.take_nil]
  exact .inr hready

/-- **Wherever the statements are cut off**, the way to the same schema leads on from there. -/
theorem onTheWay_take (h : Startable db) :
    ∀ k, OnTheWay (((statements db).take k).foldl Statement.apply db) db := by
  have hnone : Leads db db := ⟨h, rfl⟩
  have hversions := hnone.apply (q := .createVersions) fun n he => by cases he
  -- only a version that is added needs a second look: the others leave the way open
  rcases h with hzero | ⟨hone, hsome⟩
  · have htable := hversions.apply (q := .createTable) fun n he => by cases he
    have hclear := htable.apply (q := .clearVersions) fun n he => by cases he
    have hadd := hclear.first rfl rfl
    rw [statements, if_pos hzero, if_pos (.inl hzero)]
    exact onTheWay_cons hnone (onTheWay_cons hversions (onTheWay_cons htable
      (onTheWay_cons hclear (onTheWay_migrate hadd rfl))))
  · have hzero : versionOf db ≠ 0 := by omega
    rw [statements, if_neg hzero, if_pos (.inr hone)]
    exact onTheWay_cons hnone (onTheWay_migrate hversions hsome)

/-- Where the schema cannot be prepared, the statements that succeed have done nothing. -/
theorem eq_of_follow_take (h : ¬Startable s.database)
    (hcut : (follow ((statements s.database).take k)).on s = (.ok (), s')) : s' = s := by
  have hzero : versionOf s.database ≠ 0 := fun hzero => h (.inl hzero)
  cases k with
  | zero =>
    cases hcut
    rfl
  | succ k =>
    -- the list of versions is there, and so the first statement does nothing
    rw [statements, if_neg hzero, List.cons_append, List.nil_append, List.take_succ_cons,
      on_follow_of_work (createVersions_of_ne hzero)] at hcut
    split at hcut
    next hone =>
      -- the second one fails for want of a table
      have htable := table_of_not_startable h (hone.resolve_left hzero)
      cases k with
      | zero =>
        cases hcut
        rfl
      | succ k =>
        rw [List.take_succ_cons, on_follow_cons, Work.on_bind, Statement.work, createIndex_on,
          htable] at hcut
        cases hcut
    next =>
      rw [List.take_nil] at hcut
      cases hcut
      rfl

/-- **After an interruption** — some of the statements were run, and no more — the schema is
    prepared with the same answer and the same result as without it. -/
theorem prepare_of_follow (hfree : s.access = .free)
    (hcut : (follow ((statements s.database).take k)).on s = (.ok (), s')) :
    (prepare.on s').1 = (prepare.on s).1 ∧
      (prepare.on s').2.database = (prepare.on s).2.database := by
  by_cases hstart : Startable s.database
  · have hway := onTheWay_take hstart k
    have hs' := eq_of_follow hcut
    generalize ((statements s.database).take k).foldl Statement.apply s.database = db' at hway hs'
    subst hs'
    rw [prepare_of_startable hfree hstart]
    rcases hway with hleads | rfl
    · rw [prepare_of_startable (s := { s with database := db' }) hfree hleads.start]
      exact ⟨rfl, hleads.same⟩
    -- all statements were run before the interruption: the second run finds the newest version
    · rw [prepare_of_le (s := { s with database := ready s.database }) (Int.le_refl 2)]
      exact ⟨rfl, rfl⟩
  · rw [eq_of_follow_take hstart hcut]
    exact ⟨rfl, rfl⟩

/-! ### From any state -/

/-- The first of the versions reads as `n`, a signed number of 32 bits. -/
def Reads (db : Database) (n : Int) : Prop :=
  ∃ vs, db.versions = some (.number n :: vs) ∧ -2 ^ 31 ≤ n ∧ n < 2 ^ 31

/-- The version that is read is that of the newest entry. -/
theorem Reads.versionOf (h : Reads db n) : versionOf db = n := by
  obtain ⟨vs, hvs, hlow, hhigh⟩ := h
  rw [Schema.versionOf, hvs]
  exact if_pos ⟨hlow, hhigh⟩

/-- Only a version that reads as a number is one. -/
theorem reads_versionOf (h : versionOf db ≠ 0) : Reads db (versionOf db) := by
  obtain ⟨table, versions⟩ := db
  match versions, h with
  | none, h => exact absurd rfl h
  | some [], h => exact absurd rfl h
  | some (.text _ :: _), h => exact absurd rfl h
  | some (.number m :: vs), h =>
    by_cases hrange : -0x80000000 ≤ m ∧ m < 0x80000000
    · have hm : Schema.versionOf ⟨table, some (.number m :: vs)⟩ = m := if_pos hrange
      rw [hm]
      exact ⟨vs, rfl, hrange⟩
    · exact absurd (if_neg hrange) h

/-- Where statements cannot write, nothing is changed. -/
theorem prepare_of_ne_free (h : s.access ≠ .free) : (prepare.on s).2.database = s.database := by
  have hfault : s.access.writeFault?.isSome = true := by
    cases haccess : s.access with
    | free => exact absurd haccess h
    | watched | barred | readOnly => rfl
  exact (stepwise_prepare.kept fun _ => hfault).1

/-- **Preparing the schema** fails before it has written anything: where statements can write at
    all, the only faults are a version without a way to the next and an index on a missing table. -/
theorem prepare_kept {e : Failure} (h : prepare.on s = (.error e, s')) :
    s'.database = s.database := by
  by_cases hfree : s.access = .free
  · rcases prepare_cases s with hstart | ⟨hok, -⟩ | ⟨reason, herr⟩
    · rw [prepare_of_startable hfree hstart] at h
      cases h
    · rw [hok] at h
      cases h
    · rw [herr] at h
      cases h
      rfl
  · have hkept := prepare_of_ne_free hfree
    rwa [h] at hkept

/-- Whatever comes of it, the rows stay. -/
theorem closure?_prepare {t : Closure} (h : s.database.closure? = some t) :
    (prepare.on s).2.database.closure? = some t := by
  by_cases hfree : s.access = .free
  · rcases prepare_cases s with hstart | ⟨hok, -⟩ | ⟨reason, herr⟩
    · rw [prepare_of_startable hfree hstart]
      exact congrArg (fun t? => some (t?.getD .empty)) h
    · rw [hok, h]
    · rw [herr, h]
  · rw [prepare_of_ne_free hfree, h]

/-- **Preparing the schema** never changes a closure row.  It leads to the latest version unless it
    is refused; and it is refused, with everything left as it was, only for a negative version and
    for version 1 without a table.  Doing it once is enough; and if it is interrupted between two of
    its statements, doing it again leads to the same. -/
theorem prepare_restarts (s : Scope) :
    (∀ t, s.database.closure? = some t → (prepare.on s).2.database.closure? = some t) ∧
    (s.access = .free →
      (∀ n, Reads s.database n → n = 0 ∨ n = 1 ∧ s.database.table.isSome = true) →
      ∃ s', prepare.on s = (.ok (), s') ∧
        s'.database.table = some { closure := s.database.closure?.getD .empty, indexed := true } ∧
        s'.database.versions = some [.number 2]) ∧
    (∀ n, Reads s.database n → 2 ≤ n → prepare.on s = (.ok (), s)) ∧
    (∀ n, Reads s.database n → n < 0 ∨ n = 1 ∧ s.database.table = none →
      ∃ reason, prepare.on s = (.error (.store (.migration reason)), s)) ∧
    (∀ s', prepare.on s = (.ok (), s') → prepare.on s' = (.ok (), s')) ∧
    (s.access = .free → ∀ k s', (follow ((statements s.database).take k)).on s = (.ok (), s') →
      (prepare.on s').1 = (prepare.on s).1 ∧
        (prepare.on s').2.database = (prepare.on s).2.database) := by
  refine ⟨fun t => closure?_prepare, fun hfree hreads => ?_, fun n hreads hle => ?_,
    fun n hreads hrefused => ?_, fun s' hok => prepare_of_le (le_of_prepare hok),
    fun hfree k s' => prepare_of_follow hfree⟩
  · have hstart : Startable s.database := by
      by_cases hzero : versionOf s.database = 0
      · exact .inl hzero
      · exact .inr ((hreads _ (reads_versionOf hzero)).resolve_left hzero)
    exact ⟨_, prepare_of_startable hfree hstart, rfl, rfl⟩
  · exact prepare_of_le (hreads.versionOf ▸ hle)
  · rcases hrefused with hneg | ⟨hone, htable⟩
    · exact ⟨_, prepare_of_neg (hreads.versionOf ▸ hneg)⟩
    · exact ⟨_, prepare_of_missing (hreads.versionOf.trans hone) htable⟩

/-- A table of version 1 without an index, and a second version that does not count. -/
def dated : Database where
  table := some { closure := .put .empty ⟨1, 2, 1⟩ }
  versions := some [.number 1, .text "2"]

/-- With the versions just cleared, the version reads as 0; the rest is done as if it were still
    1. -/
theorem prepare_restarts_cleared :
    ∃ s', (follow ((statements dated).take 3)).on { database := dated }
      = (.ok (), s') ∧ s'.database.versions = some [] ∧
    ∃ s'', prepare.on s' = (.ok (), s'') ∧ s''.database.versions = some [.number 2] ∧
      s''.database.closure? = dated.closure? ∧ prepare.on s'' = (.ok (), s'') := by
  have hreads : Reads dated 1 := ⟨_, rfl, by decide, by decide⟩
  have hone : ∀ n, Reads dated n → n = 0 ∨ n = 1 ∧ dated.table.isSome = true := fun n hn =>
    .inr ⟨hn.versionOf.symm.trans hreads.versionOf, rfl⟩
  obtain ⟨-, hok, -, -, -, hcut⟩ := prepare_restarts { database := dated }
  obtain ⟨s₁, hs₁, htable, hversions⟩ := hok rfl hone
  have hcleared : (follow ((statements dated).take 3)).on { database := dated } = (.ok (), _) :=
    on_follow rfl rfl
  obtain ⟨hanswer, hdb⟩ := hcut rfl 3 _ hcleared
  rw [hs₁] at hanswer hdb
  refine ⟨_, hcleared, rfl, (prepare.on _).2, Prod.ext hanswer rfl, by rw [hdb, hversions], ?_, ?_⟩
  · rw [hdb, Database.closure?, htable]
    rfl
  · exact (prepare_restarts _).2.2.2.2.1 _ (Prod.ext hanswer rfl)

end Tenancy.Schema
