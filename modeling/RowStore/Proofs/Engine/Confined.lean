import RowStore.Proofs.Catalog.Confined
import RowStore.Proofs.Engine.Insertion

namespace RowStore

def Sql.Statement.OnTables : Sql.Statement → Prop
  | .createTable _ _ | .dropTable _ | .insert _ _ _ | .select _ _ _ | .showNames .tables => True
  | .createDatabase _ | .dropDatabase _ | .useDatabase _ | .showNames .databases => False

namespace Engine

variable {δ : Type} {v : Volume} {database table : String} {s : Session}

theorem currentDatabase_confined (current : s.database = some database) :
    Confined v database (currentDatabase s : Act δ String) fun name => database = name := by
  rw [currentDatabase, current]
  exact .succeed _ rfl

section Files

variable (hd : v.Reaches database)

include hd

theorem openTable_confined {schema : TableSchema} (ht : Sql.PlainName schema.name) :
    Confined v database (openTable (v.catalog δ) database schema)
      fun p => p.1.path = (v.catalog δ).tablePath database schema.name := by
  refine .bind (.mapError _ (v.read_confined hd ht Catalog.table_mem)) fun content _ => ?_
  cases opened : TableFile.ofContent ((v.catalog δ).tablePath database schema.name) schema content with
  | error e => exact .fail _
  | ok t =>
    rw [TableFile.ofContent] at opened
    split at opened
    · cases opened
      exact .succeed _ rfl
    · cases opened

variable (ht : Sql.PlainName table)

include ht

theorem createTableFiles_confined :
    Confined v database (createTableFiles (v.catalog δ) database table) fun _ => True :=
  .bind (.mapError _ (v.write_confined hd ht Catalog.table_mem Catalog.table_ne_schema _)) fun _ _ =>
    .mapError _ (v.write_confined hd ht Catalog.index_mem Catalog.index_ne_schema _)

theorem withdrawSchema_confined :
    Confined v database (withdrawSchema (v.catalog δ) database table) fun _ => True := by
  refine .bind (.attempt (v.dropSchema_confined hd ht)) fun answer _ => ?_
  cases answer with
  | ok u => exact .succeed _ trivial
  | error e => exact .notify _ _

theorem addRow_confined {literals : List Sql.Literal} {f : TableFile} {content : Content}
    (path : f.path = (v.catalog δ).tablePath database table) :
    Confined v database (addRow table literals f content : Act δ Outcome) fun _ => True := by
  refine .bind (.ofExcept _) fun row _ => ?_
  rcases f.append row content with ⟨added, longer⟩
  have written : Confined v database (FileAccess.write f.path longer : Action δ Fault Unit)
      fun _ => True := by
    rw [path]
    exact v.write_confined hd ht Catalog.table_mem Catalog.table_ne_schema longer
  refine .bind (.mapError _ written) fun _ _ => ?_
  cases added with
  | ok g => exact .succeed _ trivial
  | error e => exact .fail _

end Files

section Statements

variable (current : s.database = some database) (hd : v.Reaches database)

include current hd

theorem showTables_confined :
    Confined v database (showNames (v.catalog δ) s .tables) fun _ => True := by
  refine .bind (currentDatabase_confined current) fun _ eq => ?_
  subst eq
  exact .bind (.mapError _ (v.tables_confined hd)) fun _ _ => .succeed _ trivial

theorem createTable_confined {schema : TableSchema} (ht : Sql.PlainName schema.name)
    (columns : ∀ column ∈ schema.columns, Sql.IsName column.name) :
    Confined v database (createTable (v.catalog δ) s schema) fun _ => True := by
  refine .bind (currentDatabase_confined current) fun _ eq => ?_
  subst eq
  refine .bind (.mapError _ (v.createSchema_confined hd schema ht columns)) fun _ _ => ?_
  refine .bind (.attempt (createTableFiles_confined hd ht)) fun answer _ => ?_
  cases answer with
  | ok u => exact .bind (.notify _ _) fun _ _ => .succeed _ trivial
  | error e => exact .bind (withdrawSchema_confined hd ht) fun _ _ => .fail _

variable (ht : Sql.PlainName table)

include ht

theorem dropTable_confined :
    Confined v database (dropTable (v.catalog δ) s table) fun _ => True := by
  refine .bind (currentDatabase_confined current) fun _ eq => ?_
  subst eq
  exact .bind (.mapError _ (v.dropTable_confined hd ht)) fun _ _ => .succeed _ trivial

theorem insert_confined (columns : Option Sql.Columns) (literals : List Sql.Literal) :
    Confined v database (insert (v.catalog δ) s table columns literals) fun _ => True := by
  -- The table file that is written is the one of the table's own name, since its schema has that
  -- name.
  refine .bind (currentDatabase_confined current) fun _ eq => ?_
  subst eq
  refine .bind (.mapError _ (v.readSchema_confined hd ht)) fun schema name => ?_
  have rest : Confined v database (openTable (v.catalog δ) database schema >>= fun p =>
      addRow table literals p.1 p.2) fun _ => True := by
    refine .bind (openTable_confined hd (name ▸ ht)) fun p path => ?_
    rw [name] at path
    exact addRow_confined hd ht path
  split
  · split
    · exact .bind (.notify _ _) fun _ _ => rest
    · exact rest
  · exact .fail _

theorem select_confined (columns : Sql.Columns) (filter : Option Sql.Filter) :
    Confined v database (select (v.catalog δ) s columns table filter) fun _ => True := by
  refine .bind (currentDatabase_confined current) fun _ eq => ?_
  subst eq
  refine .bind (.mapError _ (v.readSchema_confined hd ht)) fun schema name => ?_
  refine .bind (.ofExcept _) fun p _ => .bind (openTable_confined hd (name ▸ ht)) fun opened _ => ?_
  dsimp only
  split
  · exact .bind (.notify _ _) fun _ _ => .succeed _ trivial
  · exact .fail _

end Statements

theorem execute_confined {stmt : Sql.Statement} (current : s.database = some database)
    (hd : v.Reaches database) (tables : stmt.OnTables)
    (names : ∀ name ∈ stmt.names, Sql.PlainName name) :
    ∃ x : Session → Act δ Outcome, execute (v.catalog δ) stmt = .within x ∧
      Confined v database (x s) fun _ => True := by
  cases stmt with
  | createTable name columns =>
    refine ⟨_, rfl, createTable_confined current hd (names _ (.head _)) ?_⟩
    intro column mem
    obtain ⟨d, there, rfl⟩ := List.mem_map.1 mem
    exact (names _ (.tail _ (List.mem_map.2 ⟨d, there, rfl⟩))).isName
  | dropTable name => exact ⟨_, rfl, dropTable_confined current hd (names _ (.head _))⟩
  | insert table columns literals =>
    exact ⟨_, rfl, insert_confined current hd (names _ (.head _)) columns literals⟩
  | select columns table filter =>
    exact ⟨_, rfl, select_confined current hd (names _ (.head _)) columns filter⟩
  | showNames target =>
    cases target with
    | tables => exact ⟨_, rfl, showTables_confined current hd⟩
    | databases => cases tables
  | createDatabase name | dropDatabase name | useDatabase name => cases tables

section Refusals

variable {c : Catalog δ} {d : Disk δ} {stmt : Sql.Statement}

theorem execute_unselected (current : s.database = none) (tables : stmt.OnTables) :
    (execute c stmt).Yields s d (.error .noDatabaseSelected) s d := by
  have nothing := currentDatabase_yields_none (d := d) (δ := δ) current
  cases stmt with
  | createTable name columns | dropTable name | insert table columns literals
  | select columns table filter => exact .within (.bind_error nothing)
  | showNames target =>
    cases target with
    | tables => exact .within (.bind_error nothing)
    | databases => cases tables
  | createDatabase name | dropDatabase name | useDatabase name => cases tables

theorem execute_missing (current : s.database = some database) (missed : c.Misses d database)
    (tables : stmt.OnTables) :
    (execute c stmt).Yields s d (.error (.noSuchDatabase database)) s d := by
  have selected := currentDatabase_yields (d := d) (δ := δ) current
  cases stmt with
  | createTable name columns =>
    exact .within (.bind selected (.bind_error (.mapError _ (missed.createSchema _))))
  | dropTable name =>
    exact .within (.bind selected (.bind_error (.mapError _ (missed.dropTable _))))
  | insert table columns literals =>
    exact .within (.bind selected (.bind_error (.mapError _ (missed.readSchema _))))
  | select columns table filter =>
    exact .within (.bind selected (.bind_error (.mapError _ (missed.readSchema _))))
  | showNames target =>
    cases target with
    | tables => exact .within (.bind selected (.bind_error (.mapError _ missed.tables)))
    | databases => cases tables
  | createDatabase name | dropDatabase name | useDatabase name => cases tables

end Refusals

end Engine

end RowStore
