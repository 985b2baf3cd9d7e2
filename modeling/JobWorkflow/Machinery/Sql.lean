import Mathlib.Data.Finmap
import Mathlib.Data.Finset.Union

/-!
# Machinery/Sql — the statements migrations are written in

A database is a finite map from names to tables and indexes, over a type `V` of values and a type
`E` of default expressions; `eval e k` is the value of a default for the `k`-th row of a statement.
The statements are the four a repeatable migration is written in: `CREATE TABLE`, `CREATE INDEX` and
`ADD COLUMN`, each `IF NOT EXISTS`, and `INSERT … ON CONFLICT DO NOTHING`.

`Effect` lists the ways a statement succeeds and what each leaves.
-/

namespace Sql

/-! ## Schemas -/

/-- The types of columns. -/
inductive DataType
  | bigint | int | text | jsonb | timestamptz | interval
deriving DecidableEq

/-- A column.  An identity column is one with the sequence's next value as its default. -/
structure Column (E : Type) where
  name : String
  type : DataType
  notNull : Bool := false
  default : Option E := none
  references : Option (String × String) := none
deriving DecidableEq

/-- The condition of a partial index. -/
inductive Cond (V : Type)
  | isNull (column : String)
  | isIn (column : String) (values : List V)
deriving DecidableEq

inductive Order
  | asc | desc
deriving DecidableEq

structure Index (V : Type) where
  table : String
  columns : List (String × Order)
  unique : Bool := false
  cond : Option (Cond V) := none
deriving DecidableEq

/-- Rows as wide as the columns, a missing cell being `NULL`. -/
@[ext] structure Table (V E : Type) where
  columns : List (Column E)
  primaryKey : List String
  rows : List (List (Option V))
  width : ∀ row ∈ rows, row.length = columns.length

/-- Tables and indexes share their names. -/
inductive Relation (V E : Type)
  | table (t : Table V E)
  | index (i : Index V)

abbrev Database (V E : Type) := Finmap fun _ : String => Relation V E

inductive Error
  | undefinedTable | wrongObjectType | undefinedColumn | duplicateColumn | undefinedKey | noArbiter
  | notNullViolation | uniqueViolation | foreignKeyViolation
deriving DecidableEq

variable {V E : Type}

/-! ## Cells -/

def Cond.column : Cond V → String
  | isNull c => c
  | isIn c _ => c

/-- The condition, of a cell of its column. -/
def Cond.Meets (x : Option V) : Cond V → Prop
  | isNull _ => x = none
  | isIn _ values => ∃ v ∈ values, x = some v

/-- The columns an index reads. -/
def Index.mentions (i : Index V) : List String :=
  i.columns.map Prod.fst ++ (i.cond.map Cond.column).toList

namespace Table

def names (t : Table V E) : List String := t.columns.map Column.name

/-- The cell of a row in the named column. -/
def cell (t : Table V E) (row : List (Option V)) (name : String) : Option V :=
  ((t.names.zip row).lookup name).join

end Table

/-! ## Unique constraints -/

/-- A unique constraint: of the primary key, or of a unique index. -/
structure Unique (V : Type) where
  columns : List String
  cond : Option (Cond V)
deriving DecidableEq

/-- Two rows of the table that the constraint does not let stand together; `NULL`s are distinct. -/
def Table.Clash (t : Table V E) (u : Unique V) (row row' : List (Option V)) : Prop :=
  (∀ c ∈ u.cond, c.Meets (t.cell row c.column) ∧ c.Meets (t.cell row' c.column)) ∧
    ∀ name ∈ u.columns, (t.cell row name).isSome ∧ t.cell row' name = t.cell row name

namespace Database

/-- The constraint an index puts on the table. -/
def constraint (name : String) : Option (Relation V E) → Option (Unique V)
  | some (.index i) =>
    if i.table = name ∧ i.unique then some ⟨i.columns.map Prod.fst, i.cond⟩ else none
  | some (.table _) => none
  | none => none

variable [DecidableEq V]

/-- The unique constraints on the rows of a table. -/
def uniques (db : Database V E) (name : String) (t : Table V E) : Finset (Unique V) :=
  {⟨t.primaryKey, none⟩} ∪ db.keys.biUnion fun i => (constraint name (db.lookup i)).toFinset

/-- The constraints that `ON CONFLICT (…)` names. -/
def arbiters (db : Database V E) (name : String) (t : Table V E) (conflict : List String) :
    Finset (Unique V) :=
  (db.uniques name t).filter fun u =>
    u.cond = none ∧ u.columns ⊆ conflict ∧ conflict ⊆ u.columns

/-- What `REFERENCES` may name: a column that is a key of its table. -/
def isKey (db : Database V E) (ref : String × String) : Bool :=
  match db.lookup ref.1 with
  | some (.table t) => ⟨[ref.2], none⟩ ∈ db.uniques ref.1 t
  | some (.index _) => false
  | none => false

/-- The cells of a column. -/
def values (db : Database V E) (ref : String × String) : List (Option V) :=
  match db.lookup ref.1 with
  | some (.table t) => t.rows.map fun row => t.cell row ref.2
  | some (.index _) => []
  | none => []

/-- The cells may stand in the column, as far as its foreign key goes. -/
def Admits (db : Database V E) (c : Column E) (cells : List (Option V)) : Prop :=
  ∀ ref ∈ c.references, ∀ x ∈ cells, x = none ∨ x ∈ db.values ref

end Database

/-! ## Statements -/

/-- The statements, the names coming first.  A row to insert is given by the values of the columns
it names. -/
inductive Statement (V E : Type)
  /-- `CREATE TABLE IF NOT EXISTS`. -/
  | createTable (name : String) (columns : List (Column E)) (primaryKey : List String)
  /-- `CREATE INDEX IF NOT EXISTS`. -/
  | createIndex (name : String) (i : Index V)
  /-- `ALTER TABLE … ADD COLUMN IF NOT EXISTS …, …`. -/
  | addColumns (name : String) (columns : List (Column E))
  /-- `INSERT INTO … VALUES … ON CONFLICT (…) DO NOTHING`. -/
  | insert (name : String) (rows : List (List (String × V))) (conflict : List String)

/-- Go on if the condition holds. -/
def require (p : Prop) [Decidable p] (e : Error) : Except Error Unit :=
  if p then .ok () else .error e

/-- The table of that name. -/
def Database.table? (db : Database V E) (name : String) : Except Error (Table V E) :=
  match db.lookup name with
  | some (.table t) => .ok t
  | some (.index _) => .error .wrongObjectType
  | none => .error .undefinedTable

theorem bind_eq_ok {α β : Type} {x : Except Error α} {f : α → Except Error β} {b : β} :
    (x >>= f) = .ok b ↔ ∃ a, x = .ok a ∧ f a = .ok b := by
  cases x with
  | ok a =>
    constructor
    · exact fun h => ⟨a, rfl, h⟩
    · rintro ⟨_, ha, h⟩
      exact Except.ok.inj ha ▸ h
  | error e =>
    constructor
    · exact fun h => (by cases h)
    · rintro ⟨_, ha, -⟩
      cases ha

theorem require_bind_eq_ok {p : Prop} [Decidable p] {e : Error} {β : Type}
    {f : Unit → Except Error β} {b : β} : (require p e >>= f) = .ok b ↔ p ∧ f () = .ok b := by
  by_cases h : p
  · rw [require, if_pos h]
    exact (and_iff_right h).symm
  · rw [require, if_neg h]
    exact iff_of_false (fun he => by cases he) fun he => h he.1

theorem Database.table?_eq_ok {db : Database V E} {name : String} {t : Table V E} :
    db.table? name = .ok t ↔ db.lookup name = some (.table t) := by
  unfold table?
  split
  · rename_i t' h
    simp [h]
  · rename_i i h
    simp [h]
  · rename_i h
    simp [h]

variable [DecidableEq V]

section Decidable

instance (x : Option V) : ∀ c : Cond V, Decidable (c.Meets x)
  | .isNull _ => inferInstanceAs (Decidable (x = none))
  | .isIn _ values => inferInstanceAs (Decidable (∃ v ∈ values, x = some v))

instance (t : Table V E) (u : Unique V) (row row' : List (Option V)) :
    Decidable (t.Clash u row row') :=
  inferInstanceAs (Decidable (_ ∧ _))

instance (db : Database V E) (c : Column E) (cells : List (Option V)) :
    Decidable (db.Admits c cells) :=
  inferInstanceAs (Decidable (∀ ref ∈ c.references, ∀ x ∈ cells, x = none ∨ x ∈ db.values ref))

end Decidable

/-- The cell of the `k`-th row of an `INSERT`: the value given, or the default. -/
def Column.fill (eval : E → ℕ → V) (k : ℕ) (given : List (String × V)) (c : Column E) : Option V :=
  (given.lookup c.name).or (c.default.map fun e => eval e k)

/-- The columns of a table as it is created: those of the primary key are not null. -/
def createdColumns (columns : List (Column E)) (primaryKey : List String) : List (Column E) :=
  columns.map fun c => { c with notNull := c.notNull || c.name ∈ primaryKey }

namespace Table

def new (columns : List (Column E)) (primaryKey : List String) : Table V E where
  columns := createdColumns columns primaryKey
  primaryKey := primaryKey
  rows := []
  width := fun _ h => absurd h List.not_mem_nil

/-- The table with one more column, filled with its default. -/
def addColumn (eval : E → ℕ → V) (t : Table V E) (c : Column E) : Table V E where
  columns := t.columns ++ [c]
  primaryKey := t.primaryKey
  rows := t.rows.mapIdx fun k row => row ++ [c.default.map fun e => eval e k]
  width := by
    intro row h
    obtain ⟨k, hk, rfl⟩ := List.mem_mapIdx.mp h
    simp [t.width _ (List.getElem_mem hk)]

/-- The `k`-th row of an `INSERT`. -/
def newRow (eval : E → ℕ → V) (k : ℕ) (given : List (String × V)) (t : Table V E) :
    List (Option V) :=
  t.columns.map fun c => c.fill eval k given

/-- The table with that row at its end. -/
def insertRow (eval : E → ℕ → V) (k : ℕ) (given : List (String × V)) (t : Table V E) :
    Table V E where
  columns := t.columns
  primaryKey := t.primaryKey
  rows := t.rows ++ [t.newRow eval k given]
  width := by
    intro row h
    rcases List.mem_append.mp h with h | h
    · exact t.width row h
    · rw [List.mem_singleton.mp h, newRow, List.length_map]

end Table

/-- Add the columns that are not there. -/
def addColumns (eval : E → ℕ → V) (db : Database V E) :
    List (Column E) → Table V E → Except Error (Table V E)
  | [], t => .ok t
  | c :: cs, t =>
    if c.name ∈ t.names then addColumns eval db cs t
    else do
      let t' := t.addColumn eval c
      require (c.notNull → c.default.isSome ∨ t.rows = []) .notNullViolation
      require (∀ ref ∈ c.references, db.isKey ref) .undefinedKey
      require (db.Admits c (t'.rows.map fun row => t'.cell row c.name)) .foreignKeyViolation
      addColumns eval db cs t'

/-- Insert the rows, from the `k`-th one, that break no constraint among `arbiters`. -/
def insertRows (eval : E → ℕ → V) (uniques arbiters : Finset (Unique V)) :
    ℕ → List (List (String × V)) → Table V E → Except Error (Table V E)
  | _, [], t => .ok t
  | k, given :: rows, t => do
    let row := t.newRow eval k given
    require (∀ c ∈ t.columns, c.notNull → (c.fill eval k given).isSome) .notNullViolation
    if ∃ u ∈ arbiters, ∃ row' ∈ t.rows, t.Clash u row row' then
      insertRows eval uniques arbiters (k + 1) rows t
    else do
      require (∀ u ∈ uniques, ∀ row' ∈ t.rows, ¬ t.Clash u row row') .uniqueViolation
      insertRows eval uniques arbiters (k + 1) rows (t.insertRow eval k given)

/-- Run one statement. -/
def exec (eval : E → ℕ → V) (db : Database V E) : Statement V E → Except Error (Database V E)
  | .createTable name columns primaryKey =>
    if name ∈ db then .ok db
    else do
      let db' : Database V E := db.insert name (.table (Table.new columns primaryKey))
      require (columns.map Column.name).Nodup .duplicateColumn
      require (primaryKey ⊆ columns.map Column.name) .undefinedColumn
      require (∀ c ∈ columns, ∀ ref ∈ c.references, db'.isKey ref) .undefinedKey
      .ok db'
  | .createIndex name i => do
    let t ← db.table? i.table
    require (i.mentions ⊆ t.names) .undefinedColumn
    if name ∈ db then .ok db
    else do
      require (i.unique →
        t.rows.Pairwise fun row row' => ¬ t.Clash ⟨i.columns.map Prod.fst, i.cond⟩ row row')
        .uniqueViolation
      .ok (db.insert name (.index i))
  | .addColumns name columns => do
    let t ← db.table? name
    let t' ← addColumns eval db columns t
    .ok (db.insert name (.table t'))
  | .insert name rows conflict => do
    let t ← db.table? name
    require (∀ given ∈ rows, given.map Prod.fst ⊆ t.names) .undefinedColumn
    let arbiters := db.arbiters name t conflict
    require arbiters.Nonempty .noArbiter
    let t' ← insertRows eval (db.uniques name t) arbiters 0 rows t
    let db' : Database V E := db.insert name (.table t')
    -- the foreign keys of the rows that are new
    require (∀ c ∈ t'.columns,
        db'.Admits c ((t'.rows.drop t.rows.length).map fun row => t'.cell row c.name))
      .foreignKeyViolation
    .ok db'

/-- Run the statements in order; the first error ends the run. -/
def run (eval : E → ℕ → V) : Database V E → List (Statement V E) → Except Error (Database V E)
  | db, [] => .ok db
  | db, s :: ss => do
    let db' ← exec eval db s
    run eval db' ss

/-! ## What a statement does

`Effect` lists the ways a statement succeeds: the theorems about `exec` are by cases on it. -/

/-- The ways a statement succeeds, and what it leaves. -/
inductive Effect (eval : E → ℕ → V) (db : Database V E) : Statement V E → Database V E → Prop
  | skipTable {name : String} {columns : List (Column E)} {primaryKey : List String}
      (h : name ∈ db) : Effect eval db (.createTable name columns primaryKey) db
  | newTable {name : String} {columns : List (Column E)} {primaryKey : List String}
      (h : name ∉ db) : Effect eval db (.createTable name columns primaryKey)
        (db.insert name (.table (Table.new columns primaryKey)))
  | skipIndex {name : String} {i : Index V} {t : Table V E}
      (ht : db.lookup i.table = some (.table t)) (hm : i.mentions ⊆ t.names) (h : name ∈ db) :
      Effect eval db (.createIndex name i) db
  | newIndex {name : String} {i : Index V} {t : Table V E}
      (ht : db.lookup i.table = some (.table t)) (hm : i.mentions ⊆ t.names) (h : name ∉ db) :
      Effect eval db (.createIndex name i) (db.insert name (.index i))
  | addColumns {name : String} {columns : List (Column E)} {t t' : Table V E}
      (ht : db.lookup name = some (.table t)) (h : addColumns eval db columns t = .ok t') :
      Effect eval db (.addColumns name columns) (db.insert name (.table t'))
  | insert {name : String} {rows : List (List (String × V))} {conflict : List String}
      {t t' : Table V E} (ht : db.lookup name = some (.table t))
      (hnames : ∀ given ∈ rows, given.map Prod.fst ⊆ t.names)
      (harbiters : (db.arbiters name t conflict).Nonempty)
      (h : insertRows eval (db.uniques name t) (db.arbiters name t conflict) 0 rows t = .ok t') :
      Effect eval db (.insert name rows conflict) (db.insert name (.table t'))

theorem effect_of_exec {eval : E → ℕ → V} {db db' : Database V E} {s : Statement V E}
    (h : exec eval db s = .ok db') : Effect eval db s db' := by
  cases s with
  | createTable name columns primaryKey =>
    rw [exec] at h
    split at h
    · rename_i hname
      exact Except.ok.inj h ▸ .skipTable hname
    · rename_i hname
      simp only [require_bind_eq_ok] at h
      obtain ⟨-, -, -, h⟩ := h
      exact Except.ok.inj h ▸ .newTable hname
  | createIndex name i =>
    obtain ⟨t, ht, h⟩ := bind_eq_ok.mp h
    have ht := Database.table?_eq_ok.mp ht
    obtain ⟨hm, h⟩ := require_bind_eq_ok.mp h
    split at h
    · rename_i hname
      exact Except.ok.inj h ▸ .skipIndex ht hm hname
    · rename_i hname
      obtain ⟨-, h⟩ := require_bind_eq_ok.mp h
      exact Except.ok.inj h ▸ .newIndex ht hm hname
  | addColumns name columns =>
    obtain ⟨t, ht, h⟩ := bind_eq_ok.mp h
    obtain ⟨t', ht', h⟩ := bind_eq_ok.mp h
    exact Except.ok.inj h ▸ .addColumns (Database.table?_eq_ok.mp ht) ht'
  | insert name rows conflict =>
    obtain ⟨t, ht, h⟩ := bind_eq_ok.mp h
    obtain ⟨hnames, h⟩ := require_bind_eq_ok.mp h
    obtain ⟨harbiters, h⟩ := require_bind_eq_ok.mp h
    obtain ⟨t', ht', h⟩ := bind_eq_ok.mp h
    obtain ⟨-, h⟩ := require_bind_eq_ok.mp h
    exact Except.ok.inj h ▸ .insert (Database.table?_eq_ok.mp ht) hnames harbiters ht'

/-! ## Cells of a table that grows -/

namespace Table

omit [DecidableEq V]

variable {t : Table V E} {row : List (Option V)} {name : String}

theorem mem_names_of_cell (h : (t.cell row name).isSome) : name ∈ t.names := by
  obtain ⟨v, hv⟩ := Option.isSome_iff_exists.mp h
  obtain ⟨before, later, hzip, -⟩ := List.lookup_eq_some_iff.mp (Option.join_eq_some_iff.mp hv)
  have hmem : (name, some v) ∈ t.names.zip row := by simp [hzip]
  exact (List.of_mem_zip hmem).1

/-- A new column hides no cell. -/
theorem cell_addColumn {c : Column E} {v : V} (eval : E → ℕ → V) (x : Option V)
    (hrow : row.length = t.columns.length) (h : t.cell row name = some v) :
    (t.addColumn eval c).cell (row ++ [x]) name = some v := by
  have hwidth : t.names.length = row.length := by rw [names, List.length_map, hrow]
  have hnames : (t.addColumn eval c).names = t.names ++ [c.name] := List.map_append
  rw [cell, hnames, List.zip_append hwidth, List.lookup_append, Option.join_eq_some_iff.mp h]
  rfl

/-- A new row has the values it is given. -/
theorem cell_newRow {eval : E → ℕ → V} {k : ℕ} {given : List (String × V)}
    (hname : name ∈ t.names) (hgiven : (given.lookup name).isSome) :
    t.cell (t.newRow eval k given) name = given.lookup name := by
  have key : ∀ columns : List (Column E), name ∈ columns.map Column.name →
      ((columns.map Column.name).zip (columns.map fun c => c.fill eval k given)).lookup name =
        some (given.lookup name) := by
    intro columns hmem
    induction columns with
    | nil => exact absurd hmem List.not_mem_nil
    | cons c columns ih =>
      rw [List.map_cons, List.map_cons, List.zip_cons_cons, List.lookup_cons]
      by_cases hc : name = c.name
      · subst hc
        rw [beq_self_eq_true, Column.fill, Option.or_of_isSome hgiven]
      · rw [beq_false_of_ne hc]
        exact ih ((List.mem_cons.mp hmem).resolve_left hc)
  rw [cell, newRow, names, key t.columns hname]
  rfl

end Table

end Sql
