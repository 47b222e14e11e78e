import Aardbin.Effect.Interrupted
import Aardbin.Store

/-!
# Opening the database file (`db.rs`, `Db::open` and `Db::migrate`)

SQLite commits every statement of the schema on its own, and the version is written last.  A start
that is cut off in between leaves a file with tables but without a version, and the next start
creates the same tables again.
-/

namespace Aardbin

open Effect

/-! ## SQL -/

structure Table where
  name : String
  columns : List String
  deriving DecidableEq, Repr

structure Index where
  name : String
  table : String
  column : String
  deriving DecidableEq, Repr

inductive Statement
  | createTable (t : Table)
  | createIndex (i : Index)
  deriving DecidableEq, Repr

def Statement.name : Statement → String
  | .createTable t => t.name
  | .createIndex i => i.name

inductive Pragma
  | journalMode (mode : String)
  | foreignKeys (on : String)
  | busyTimeout (ms : Nat)
  | userVersion (version : Int)
  deriving DecidableEq, Repr

inductive SqlError
  | alreadyExists (name : String)
  | noSuchTable (name : String)
  | noSuchColumn (name : String)
  deriving DecidableEq, Repr

inductive Sql
  | pragmaUpdate (p : Pragma)
  /-- `PRAGMA user_version` -/
  | userVersion
  | execute (s : Statement)

abbrev SqlReply : Sql → Type
  | .userVersion => Except SqlError Int
  | _ => Except SqlError Unit

/-! ## Opening -/

def recordsTable : Table :=
  { name := "records", columns := ["id", "encrypted_content", "created_at", "updated_at"] }

def attachmentsTable : Table :=
  { name := "attachments"
    columns := ["id", "record_id", "original_filename", "size_bytes", "mime_type", "created_at"] }

def recordsIndex : Index :=
  { name := "idx_records_updated_at", table := "records", column := "updated_at" }

def attachmentsIndex : Index :=
  { name := "idx_attachments_record_id", table := "attachments", column := "record_id" }

def schemaV1 : List Statement :=
  [.createTable recordsTable, .createIndex recordsIndex,
    .createTable attachmentsTable, .createIndex attachmentsIndex]

namespace AskSql

abbrev execute (s : Statement) : Program SqlReply (Except SqlError Unit) :=
  .perform (Sql.execute s)

abbrev pragmaUpdate (p : Pragma) : Program SqlReply (Except SqlError Unit) :=
  .perform (Sql.pragmaUpdate p)

abbrev userVersion : Program SqlReply (Except SqlError Int) :=
  .perform Sql.userVersion

end AskSql

/-- `execute_batch`: one statement after the other, up to the first that fails. -/
def executeBatch : List Statement → Program SqlReply (Except SqlError Unit)
  | [] => return .ok ()
  | s :: rest => do
      match ← AskSql.execute s with
      | .error e => return .error e
      | .ok () => executeBatch rest

/-- The first migration, and the version that tells that it is done. -/
def migrateV1 : Program SqlReply (Except SqlError Unit) := do
  match ← executeBatch schemaV1 with
  | .error e => return .error e
  | .ok () => AskSql.pragmaUpdate (.userVersion 1)

def migrate : Program SqlReply (Except SqlError Unit) := do
  match ← AskSql.userVersion with
  | .error e => return .error e
  | .ok version => if version < 1 then migrateV1 else return .ok ()

/-- `Db::open`. -/
def openDb : Program SqlReply (Except SqlError Unit) := do
  match ← AskSql.pragmaUpdate (.journalMode "WAL") with
  | .error e => return .error e
  | .ok () =>
      match ← AskSql.pragmaUpdate (.foreignKeys "ON") with
      | .error e => return .error e
      | .ok () =>
          match ← AskSql.pragmaUpdate (.busyTimeout 5000) with
          | .error e => return .error e
          | .ok () => migrate

/-! ## The database file -/

structure DbFile where
  tables : List Table
  indexes : List Index
  userVersion : Int
  /-- the rows of the two tables -/
  rows : Db

namespace DbFile

def empty : DbFile :=
  { tables := [], indexes := [], userVersion := 0, rows := .empty }

/-- The file after the whole migration. -/
def migrated (rows : Db) : DbFile :=
  { tables := [recordsTable, attachmentsTable], indexes := [recordsIndex, attachmentsIndex]
    userVersion := 1, rows }

/-- Tables and indexes share one namespace. -/
def names (f : DbFile) : List String :=
  f.tables.map (·.name) ++ f.indexes.map (·.name)

/-- SQLite, without `IF NOT EXISTS`. -/
def execute (f : DbFile) : Statement → Except SqlError DbFile
  | .createTable t =>
      if t.name ∈ f.names then .error (.alreadyExists t.name)
      else .ok { f with tables := f.tables ++ [t] }
  | .createIndex i =>
      if i.name ∈ f.names then .error (.alreadyExists i.name)
      else
        match f.tables.find? fun t => t.name = i.table with
        | none => .error (.noSuchTable i.table)
        | some t =>
            if i.column ∈ t.columns then .ok { f with indexes := f.indexes ++ [i] }
            else .error (.noSuchColumn i.column)

/-- Of the pragmas only the version is read back from the file. -/
def setPragma (f : DbFile) : Pragma → DbFile
  | .userVersion version => { f with userVersion := version }
  | _ => f

/-- Each statement is committed on its own; one that fails changes nothing. -/
def step (f : DbFile) : (op : Sql) → SqlReply op × DbFile
  | .pragmaUpdate p => (.ok (), f.setPragma p)
  | .userVersion => (.ok f.userVersion, f)
  | .execute s =>
      match f.execute s with
      | .error e => (.error e, f)
      | .ok f' => (.ok (), f')

end DbFile

/-! ## Starts of the process -/

def Db.after (db : Db) (c : DbCall) : Db :=
  match db.exec c with
  | .ok (_, db') => db'
  | .error _ => db

/-- A start of the process: it opens the database and then makes the calls, or it is cut off after
some of the statements of `Db::open`. -/
inductive Startup
  | completed (calls : List DbCall)
  | crashed (after : Nat)

/-- A call of the running process, which needs both tables. -/
def DbFile.call (f : DbFile) (c : DbCall) : DbFile :=
  if recordsTable ∈ f.tables ∧ attachmentsTable ∈ f.tables then { f with rows := f.rows.after c }
  else f

def DbFile.start (f : DbFile) : Startup → DbFile
  | .crashed n => (openDb.cut step n f).1
  | .completed calls =>
      match openDb.exec step f with
      -- `main` ends with the error
      | (.error _, f') => f'
      | (.ok (), f') => calls.foldl DbFile.call f'

/-- The file that some starts of the process leave. -/
def fileAfter (starts : List Startup) : DbFile :=
  starts.foldl DbFile.start .empty

/-- The rows that a start stores, on top of those there are. -/
def Startup.store (db : Db) : Startup → Db
  | .crashed _ => db
  | .completed calls => calls.foldl Db.after db

/-- The rows stored by the starts that were not cut off. -/
def stored (starts : List Startup) : Db :=
  starts.foldl Startup.store .empty

/-- The next start finds the database, or makes it, and no row is lost. -/
structure Recovers (f : DbFile) (rows : Db) : Prop where
  opens : (openDb.exec DbFile.step f).1 = .ok ()
  tables : ∀ t ∈ [recordsTable, attachmentsTable], t ∈ (openDb.exec DbFile.step f).2.tables
  indexes : ∀ i ∈ [recordsIndex, attachmentsIndex], i ∈ (openDb.exec DbFile.step f).2.indexes
  version : (openDb.exec DbFile.step f).2.userVersion = 1
  rows : (openDb.exec DbFile.step f).2.rows = rows

/-! ## Running the schema -/

namespace DbFile

def executeAll (f : DbFile) (ss : List Statement) : Except SqlError DbFile :=
  ss.foldlM execute f

theorem executeAll_cons {f f' : DbFile} {s : Statement} {ss : List Statement}
    (h : f.executeAll (s :: ss) = .ok f') :
    ∃ f₁, f.execute s = .ok f₁ ∧ f₁.executeAll ss = .ok f' := by
  rw [executeAll, List.foldlM_cons] at h
  cases hs : f.execute s with
  | error e =>
      rw [hs] at h
      cases h
  | ok f₁ =>
      rw [hs] at h
      exact ⟨f₁, rfl, h⟩

theorem execute_of_mem {f : DbFile} {s : Statement} (h : s.name ∈ f.names) :
    f.execute s = .error (.alreadyExists s.name) := by
  cases s with
  | createTable t => exact if_pos h
  | createIndex i => exact if_pos h

/-- A statement adds its name, and leaves the version and the rows. -/
theorem execute_eq_ok {f f' : DbFile} {s : Statement} (h : f.execute s = .ok f') :
    (∀ name, name ∈ f'.names ↔ name ∈ f.names ∨ name = s.name) ∧
      f'.userVersion = f.userVersion ∧ f'.rows = f.rows := by
  cases s with
  | createTable t =>
      simp only [execute] at h
      split_ifs at h
      cases h
      simp [names, Statement.name, or_assoc, or_comm]
  | createIndex i =>
      simp only [execute] at h
      split_ifs at h
      split at h
      · cases h
      · split_ifs at h
        cases h
        simp [names, Statement.name, or_assoc]

theorem executeAll_eq_ok {f f' : DbFile} {ss : List Statement} (h : f.executeAll ss = .ok f') :
    (∀ name, name ∈ f'.names ↔ name ∈ f.names ∨ name ∈ ss.map Statement.name) ∧
      f'.userVersion = f.userVersion := by
  induction ss generalizing f with
  | nil =>
      cases h
      simp
  | cons s ss ih =>
      rcases executeAll_cons h with ⟨f₁, hs, hrest⟩
      rcases execute_eq_ok hs with ⟨hnames, hversion, -⟩
      rcases ih hrest with ⟨hnames', hversion'⟩
      refine ⟨fun name => ?_, hversion'.trans hversion⟩
      rw [hnames', hnames, List.map_cons, List.mem_cons, or_assoc]

end DbFile

theorem cut_executeBatch_succ {f f₁ : DbFile} {s : Statement} (h : f.execute s = .ok f₁)
    (rest : List Statement) (n : Nat) :
    (executeBatch (s :: rest)).cut DbFile.step (n + 1) f =
      (executeBatch rest).cut DbFile.step n f₁ := by
  simp [executeBatch, Program.cut_bind, DbFile.step, h]

/-- A batch whose first statement fails does nothing. -/
theorem cut_executeBatch_error {f : DbFile} {s : Statement} {e : SqlError}
    (h : f.execute s = .error e) (rest : List Statement) (n : Nat) :
    (executeBatch (s :: rest)).cut DbFile.step (n + 1) f = (f, some (.error e, n)) := by
  simp [executeBatch, Program.cut_bind, DbFile.step, h]

/-- A batch that is cut off has executed its first statements. -/
theorem cut_executeBatch_lt {f f' : DbFile} {ss : List Statement} {n : Nat}
    (h : f.executeAll ss = .ok f') (hn : n < ss.length) :
    ∃ f₁, f.executeAll (ss.take n) = .ok f₁ ∧
      (executeBatch ss).cut DbFile.step n f = (f₁, none) := by
  induction ss generalizing f n with
  | nil => cases hn
  | cons s ss ih =>
      cases n with
      | zero => exact ⟨f, rfl, rfl⟩
      | succ n =>
          rcases DbFile.executeAll_cons h with ⟨f₁, hs, hrest⟩
          rcases ih hrest (by simpa using hn) with ⟨f₂, htake, hcut⟩
          refine ⟨f₂, ?_, (cut_executeBatch_succ hs ss n).trans hcut⟩
          rw [List.take_succ_cons, DbFile.executeAll, List.foldlM_cons, hs]
          exact htake

theorem cut_executeBatch_ge {f f' : DbFile} {ss : List Statement} (h : f.executeAll ss = .ok f')
    (n : Nat) : (executeBatch ss).cut DbFile.step (ss.length + n) f = (f', some (.ok (), n)) := by
  induction ss generalizing f with
  | nil =>
      cases h
      simp [executeBatch]
  | cons s ss ih =>
      rcases DbFile.executeAll_cons h with ⟨f₁, hs, hrest⟩
      rw [List.length_cons, Nat.add_right_comm, cut_executeBatch_succ hs]
      exact ih hrest

/-! ## Where a start is cut off -/

/-- The statements before the schema: three pragmas and the query of the version. -/
def beforeSchema : Nat := 4

theorem cut_openDb (f : DbFile) (n : Nat) :
    openDb.cut DbFile.step (beforeSchema + n) f =
      (if f.userVersion < 1 then migrateV1 else pure (.ok ())).cut DbFile.step n f := by
  rw [beforeSchema, Nat.add_comm]
  simp only [openDb, migrate, Program.cut_bind, Program.cut_perform_succ, DbFile.step,
    DbFile.setPragma]

theorem cut_openDb_le {n : Nat} (hn : n ≤ beforeSchema) (f : DbFile) :
    (openDb.cut DbFile.step n f).1 = f := by
  match n, hn with
  | 0, _ | 1, _ | 2, _ | 3, _ => rfl
  | 4, _ =>
      rw [show 4 = beforeSchema + 0 from rfl, cut_openDb]
      split_ifs <;> rfl

/-- Opening the file loses no row, wherever it is cut off. -/
theorem rows_cut_openDb (f : DbFile) (n : Nat) : (openDb.cut DbFile.step n f).1.rows = f.rows := by
  refine Program.cut_keeps (I := fun f' : DbFile => f'.rows = f.rows) ?_ n openDb rfl
  rintro f' op hrows
  cases op with
  | pragmaUpdate p => cases p <;> exact hrows
  | userVersion => exact hrows
  | execute s =>
      cases hs : f'.execute s with
      | error e => simpa [DbFile.step, hs] using hrows
      | ok f₁ => simpa [DbFile.step, hs] using (DbFile.execute_eq_ok hs).2.2.trans hrows

theorem cut_migrateV1_le {f f' : DbFile} (h : f.executeAll schemaV1 = .ok f') {n : Nat}
    (hn : n ≤ schemaV1.length) :
    ∃ f₁, f.executeAll (schemaV1.take n) = .ok f₁ ∧ (migrateV1.cut DbFile.step n f).1 = f₁ := by
  rcases Nat.lt_or_eq_of_le hn with hlt | rfl
  · rcases cut_executeBatch_lt h hlt with ⟨f₁, htake, hcut⟩
    refine ⟨f₁, htake, ?_⟩
    rw [migrateV1, Program.cut_bind_of_none _ hcut]
  · -- Only the version is missing.
    have hcut : (executeBatch schemaV1).cut DbFile.step schemaV1.length f =
        (f', some (.ok (), 0)) := cut_executeBatch_ge h 0
    refine ⟨f', by rw [List.take_length, h], ?_⟩
    rw [migrateV1, Program.cut_bind_of_some _ hcut]
    rfl

theorem cut_migrateV1_succ {f f' : DbFile} (h : f.executeAll schemaV1 = .ok f') (n : Nat) :
    migrateV1.cut DbFile.step (schemaV1.length + (n + 1)) f =
      ({ f' with userVersion := 1 }, some (.ok (), n)) := by
  rw [migrateV1, Program.cut_bind_of_some _ (cut_executeBatch_ge h (n + 1))]
  exact Program.cut_perform_succ n _ f'

/-! ## The three kinds of files -/

theorem executeAll_empty :
    DbFile.empty.executeAll schemaV1 = .ok { DbFile.migrated .empty with userVersion := 0 } :=
  rfl

/-- Some of the schema is there, and the version says that none is. -/
structure Torn (f : DbFile) : Prop where
  version : f.userVersion < 1
  records : recordsTable.name ∈ f.names

/-- Opening such a file fails at the first statement of the schema. -/
theorem cut_torn {f : DbFile} (h : Torn f) (n : Nat) :
    openDb.cut DbFile.step (beforeSchema + (n + 1)) f =
      (f, some (.error (.alreadyExists recordsTable.name), n)) := by
  have hfirst : f.execute (.createTable recordsTable) = .error (.alreadyExists recordsTable.name) :=
    DbFile.execute_of_mem h.records
  calc
    openDb.cut DbFile.step (beforeSchema + (n + 1)) f
        = migrateV1.cut DbFile.step (n + 1) f := by rw [cut_openDb, if_pos h.version]
    _ = (pure (.error (.alreadyExists recordsTable.name)) :
          Program SqlReply (Except SqlError Unit)).cut DbFile.step n f :=
        Program.cut_bind_of_some _ (cut_executeBatch_error hfirst _ n)
    _ = (f, some (.error (.alreadyExists recordsTable.name), n)) := Program.cut_pure n _ f

theorem start_torn {f : DbFile} (h : Torn f) (s : Startup) : f.start s = f := by
  cases s with
  | completed calls => rw [DbFile.start, Program.exec_of_cut (cut_torn h 0)]
  | crashed n =>
      rcases Nat.lt_or_ge beforeSchema n with hlt | hle
      · rcases Nat.exists_eq_add_of_lt hlt with ⟨m, rfl⟩
        rw [DbFile.start, Nat.add_assoc, cut_torn h]
      · exact cut_openDb_le hle f

theorem cut_migrated (rows : Db) (n : Nat) :
    openDb.cut DbFile.step (beforeSchema + n) (.migrated rows) =
      (.migrated rows, some (.ok (), n)) := by
  rw [cut_openDb, if_neg (by simp [DbFile.migrated]), Program.cut_pure]

/-- The calls of the process find their tables. -/
theorem foldl_call_migrated (calls : List DbCall) (rows : Db) :
    calls.foldl DbFile.call (.migrated rows) = .migrated (calls.foldl Db.after rows) := by
  induction calls generalizing rows with
  | nil => rfl
  | cons c calls ih =>
      have hcall : (DbFile.migrated rows).call c = .migrated (rows.after c) :=
        if_pos (by simp [DbFile.migrated])
      rw [List.foldl_cons, List.foldl_cons, hcall, ih]

theorem start_migrated (rows : Db) (s : Startup) :
    (DbFile.migrated rows).start s = .migrated (s.store rows) := by
  cases s with
  | completed calls =>
      rw [DbFile.start, Program.exec_of_cut (cut_migrated rows 0)]
      exact foldl_call_migrated calls rows
  | crashed n =>
      rcases Nat.le_total beforeSchema n with hle | hle
      · rcases Nat.exists_eq_add_of_le hle with ⟨m, rfl⟩
        rw [DbFile.start, cut_migrated]
        rfl
      · exact cut_openDb_le hle _

theorem cut_empty (n : Nat) :
    openDb.cut DbFile.step (beforeSchema + (schemaV1.length + (n + 1))) .empty =
      (.migrated .empty, some (.ok (), n)) := by
  calc
    openDb.cut DbFile.step (beforeSchema + (schemaV1.length + (n + 1))) .empty
        = migrateV1.cut DbFile.step (schemaV1.length + (n + 1)) .empty := by
          rw [cut_openDb, if_pos (by decide)]
    _ = (.migrated .empty, some (.ok (), n)) := cut_migrateV1_succ executeAll_empty n

theorem start_empty_completed (calls : List DbCall) :
    DbFile.empty.start (.completed calls) = .migrated (calls.foldl Db.after .empty) := by
  rw [DbFile.start, Program.exec_of_cut (cut_empty 0)]
  exact foldl_call_migrated calls .empty

theorem start_empty_crashed {n : Nat} (hn : beforeSchema + schemaV1.length < n) :
    DbFile.empty.start (.crashed n) = .migrated .empty := by
  rcases Nat.exists_eq_add_of_lt hn with ⟨m, rfl⟩
  rw [DbFile.start, Nat.add_assoc, Nat.add_assoc, cut_empty]

/-- A first start that is cut off inside the schema tears the file. -/
theorem torn_of_crash {n : Nat} (hpos : 0 < n) (hn : n ≤ schemaV1.length) :
    Torn (DbFile.empty.start (.crashed (beforeSchema + n))) := by
  rcases cut_migrateV1_le executeAll_empty hn with ⟨f, htake, hcut⟩
  rcases DbFile.executeAll_eq_ok htake with ⟨hnames, hversion⟩
  rw [DbFile.start, cut_openDb, if_pos (by decide), hcut]
  refine ⟨by rw [hversion]; decide, (hnames _).2 (.inr ?_)⟩
  cases n with
  | zero => cases hpos
  | succ n => exact List.mem_cons_self

/-! ## Any number of starts -/

/-- Before the first start that comes past the schema, none is cut off inside it. -/
def Unharmed : List Startup → Prop
  | [] => True
  | .completed _ :: _ => True
  | .crashed n :: rest =>
      if n ≤ beforeSchema then Unharmed rest else beforeSchema + schemaV1.length < n

theorem foldl_start_migrated (starts : List Startup) (rows : Db) :
    starts.foldl DbFile.start (.migrated rows) = .migrated (starts.foldl Startup.store rows) := by
  induction starts generalizing rows with
  | nil => rfl
  | cons s starts ih => rw [List.foldl_cons, List.foldl_cons, start_migrated, ih]

theorem foldl_start_torn {f : DbFile} (h : Torn f) (starts : List Startup) :
    starts.foldl DbFile.start f = f := by
  induction starts with
  | nil => rfl
  | cons s starts ih => rw [List.foldl_cons, start_torn h, ih]

theorem recovers_migrated (rows : Db) : Recovers (.migrated rows) rows := by
  have hexec := Program.exec_of_cut (cut_migrated rows 0)
  constructor <;> rw [hexec] <;> simp [DbFile.migrated]

theorem not_recovers_torn {f : DbFile} (h : Torn f) (rows : Db) : ¬ Recovers f rows := by
  intro hrec
  have hopens := hrec.opens
  rw [Program.exec_of_cut (cut_torn h 0)] at hopens
  cases hopens

/-- The next start recovers the database exactly when no first start was cut off in the schema. -/
theorem recovers_iff_unharmed (starts : List Startup) :
    Recovers (fileAfter starts) (stored starts) ↔ Unharmed starts := by
  rw [fileAfter, stored]
  induction starts with
  | nil =>
      have hexec := Program.exec_of_cut (cut_empty 0)
      refine iff_of_true ?_ trivial
      constructor <;> rw [List.foldl_nil, hexec] <;> simp [DbFile.migrated]
  | cons s starts ih =>
      rw [List.foldl_cons, List.foldl_cons]
      cases s with
      | completed calls =>
          rw [start_empty_completed, foldl_start_migrated]
          exact iff_of_true (recovers_migrated _) trivial
      | crashed n =>
          rw [Unharmed]
          split_ifs with hbefore
          · -- Nothing has been written, so the next start is a first one again.
            rw [DbFile.start, cut_openDb_le hbefore]
            exact ih
          · rcases Nat.lt_or_ge (beforeSchema + schemaV1.length) n with hafter | hwithin
            · rw [start_empty_crashed hafter, foldl_start_migrated]
              exact iff_of_true (recovers_migrated _) hafter
            · -- From here on no start changes the file.
              rcases Nat.exists_eq_add_of_le (Nat.le_of_not_le hbefore) with ⟨m, rfl⟩
              have htorn : Torn (DbFile.empty.start (.crashed (beforeSchema + m))) :=
                torn_of_crash (by omega) (by omega)
              rw [foldl_start_torn htorn]
              exact iff_of_false (not_recovers_torn htorn _) (by omega)

/-- The process is killed after `CREATE TABLE records`: no later start opens the database. -/
theorem torn_by_first_crash :
    (∀ starts, (openDb.exec DbFile.step (fileAfter (.crashed 5 :: starts))).1 =
      .error (.alreadyExists "records")) ∧
    ¬ ∀ starts, Recovers (fileAfter starts) (stored starts) := by
  have htorn : Torn (DbFile.empty.start (.crashed 5)) :=
    torn_of_crash (n := 1) (by decide) (by decide)
  have hopens : ∀ starts, (openDb.exec DbFile.step (fileAfter (.crashed 5 :: starts))).1 =
      .error (.alreadyExists "records") := by
    intro starts
    rw [fileAfter, List.foldl_cons, foldl_start_torn htorn, Program.exec_of_cut (cut_torn htorn 0)]
    rfl
  refine ⟨hopens, fun h => ?_⟩
  have hopen := (h [.crashed 5]).opens
  rw [hopens []] at hopen
  cases hopen

end Aardbin
