import RowStore.Proofs.Catalog.Places
import RowStore.Proofs.Disk.Accesses

namespace RowStore

namespace Catalog

variable {δ ε α : Type} (c : Catalog δ) {w : World δ} {database table ext : String} {p : Path}

abbrev Keeps (x : Action δ ε α) (w : World δ) : Prop :=
  Action.Touches (Place c.root) x w

def SchemasPlain (w : World δ) : Prop :=
  ∀ {database table schema w'}, Sql.PlainName database → Sql.PlainName table →
    c.readSchema database table w = (.ok schema, w') → Sql.PlainName schema.name

theorem prepare_keeps : c.Keeps c.prepare w :=
  .bind (.record .root) fun _ _ _ => .mapError _ (.changePartly _)

theorem databases_keeps : c.Keeps c.databases w :=
  .bind (.mapError _ (.ask _ .root)) fun _ _ _ => .succeed _

theorem deleteFile_keeps (h : Place c.root p) : c.Keeps (c.deleteFile p) w := .ask _ h

theorem deleteLeftover_keeps (h : Place c.root p) : c.Keeps (c.deleteLeftover p) w := by
  refine .bind (.attempt (c.deleteFile_keeps h)) fun answer _ _ => ?_
  cases answer with
  | ok u => exact .succeed _
  | error e =>
    dsimp only
    split
    · exact .succeed _
    · exact .fail _

variable (hd : Sql.PlainName database)

include hd

theorem databaseExists_keeps : c.Keeps (c.databaseExists database : Action δ ε Bool) w :=
  .askFlag _ (.database hd)

theorem requireDatabase_keeps : c.Keeps (c.requireDatabase database) w := by
  refine .bind (c.databaseExists_keeps hd) fun there _ _ => ?_
  split
  · exact .succeed _
  · exact .fail _

theorem createDatabase_keeps : c.Keeps (c.createDatabase database) w := by
  refine .bind (c.databaseExists_keeps hd) fun there _ _ => ?_
  split
  · exact .fail _
  · exact .bind (.mapError _ (.ask _ (.database hd))) fun _ _ _ => .notify _ _

theorem dropDatabase_keeps : c.Keeps (c.dropDatabase database) w :=
  .bind (c.requireDatabase_keeps hd) fun _ _ _ =>
    .bind (.mapError _ (.ask _ (.database hd))) fun _ _ _ => .notify _ _

theorem tables_keeps : c.Keeps (c.tables database) w :=
  .bind (c.requireDatabase_keeps hd) fun _ _ _ =>
    .bind (.mapError _ (.ask _ (.database hd))) fun _ _ _ => .succeed _

theorem createSchema_keeps {s : TableSchema} (ht : Sql.PlainName s.name) :
    c.Keeps (c.createSchema database s) w :=
  .bind (c.requireDatabase_keeps hd) fun _ _ _ =>
    .mapError _ (.writeNew (.file hd (.mk ht schema_mem)) _)

variable (ht : Sql.PlainName table)

include ht

theorem readSchema_keeps : c.Keeps (c.readSchema database table) w :=
  .bind (c.requireDatabase_keeps hd) fun _ _ _ =>
    .bind (.mapError _ (.read (.file hd (.mk ht schema_mem)))) fun _ _ _ => .ofExcept _

theorem dropSchema_keeps : c.Keeps (c.dropSchema database table) w :=
  .bind (c.requireDatabase_keeps hd) fun _ _ _ =>
    .mapError _ (c.deleteFile_keeps (.file hd (.mk ht schema_mem)))

theorem dropTable_keeps : c.Keeps (c.dropTable database table) w :=
  .bind (c.dropSchema_keeps hd ht) fun _ _ _ =>
    .bind (c.deleteLeftover_keeps (.file hd (.mk ht table_mem))) fun _ _ _ =>
      .bind (c.deleteLeftover_keeps (.file hd (.mk ht index_mem))) fun _ _ _ => .notify _ _

end Catalog

end RowStore
