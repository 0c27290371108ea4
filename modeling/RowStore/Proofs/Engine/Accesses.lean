import RowStore.Proofs.Catalog.Accesses
import RowStore.Proofs.Engine.History
import RowStore.Proofs.Engine.Reached

namespace RowStore

open Catalog (Place)

variable {δ ι : Type}

namespace Engine

section Rules

variable {α β : Type} {P : Path → Prop} {s : Session} {w : World δ}

def Turn.Touches (P : Path → Prop) (x : Turn δ α) (s : Session) (w : World δ) : Prop :=
  ∀ access ∈ (x s w).2.2.accesses, access ∈ w.accesses ∨ P access.path

theorem Turn.Touches.bind {x : Turn δ α} {f : α → Turn δ β} (hx : x.Touches P s w)
    (hf : ∀ a s' w', x s w = (.ok a, s', w') → (f a).Touches P s' w') :
    (x >>= f).Touches P s w := by
  rw [Touches, bind_apply]
  rw [Touches] at hx
  cases first : x s w with
  | mk r rest =>
    rw [first] at hx
    cases r with
    | error e => exact hx
    | ok a => exact fun access mem => (hf a _ _ first access mem).elim (hx access) .inr

theorem Turn.Touches.onWorld {x : Act δ α} (hx : Action.Touches P x w) :
    (Turn.onWorld x).Touches P s w :=
  hx

theorem Turn.Touches.pure (a : α) : (Pure.pure a : Turn δ α).Touches P s w := fun _ => .inl

theorem Turn.Touches.select (name : String) : (Turn.select name).Touches P s w := fun _ => .inl

theorem Turn.Touches.leave (name : String) : (Turn.leave name).Touches P s w := fun _ => .inl

end Rules

variable {c : Catalog δ} {w : World δ} {s : Session} {database table : String}

section Database

variable (hd : Sql.PlainName database)

include hd

theorem createDatabase_keeps : c.Keeps (createDatabase c database) w :=
  .bind (.mapError _ (c.createDatabase_keeps hd)) fun _ _ _ => .succeed _

theorem dropDatabase_keeps : (dropDatabase c database).Touches (Place c.root) s w := by
  refine .bind (.onWorld (.mapError _ (c.dropDatabase_keeps hd))) fun _ _ _ _ => ?_
  refine .bind (.leave _) fun current _ _ _ => ?_
  split
  · exact .bind (.onWorld (.notify _ _)) fun _ _ _ _ => .pure _
  · exact .pure _

theorem requireDatabase_keeps : c.Keeps (requireDatabase c database) w := by
  refine .bind (c.databaseExists_keeps hd) fun there _ _ => ?_
  split
  · exact .succeed _
  · exact .fail _

theorem useDatabase_keeps : (useDatabase c database).Touches (Place c.root) s w :=
  .bind (.onWorld (requireDatabase_keeps hd)) fun _ _ _ _ =>
    .bind (.select _) fun _ _ _ _ => .bind (.onWorld (.notify _ _)) fun _ _ _ _ => .pure _

theorem openTable_keeps {schema : TableSchema} (ht : Sql.PlainName schema.name) :
    c.Keeps (openTable c database schema) w := by
  refine .bind (.mapError _ (.read (.file hd (.mk ht Catalog.table_mem)))) fun content _ _ => ?_
  split
  · exact .succeed _
  · exact .fail _

omit hd in
theorem path_of_openTable {schema : TableSchema} {p : TableFile × Content} {w' : World δ}
    (h : openTable c database schema w = (.ok p, w')) :
    p.1.path = c.tablePath database schema.name := by
  rw [openTable, Action.bind_apply] at h
  split at h
  · rename_i content _ _
    cases opened : TableFile.ofContent (c.tablePath database schema.name) schema content with
    | error e =>
      rw [opened] at h
      cases h
    | ok t =>
      rw [opened] at h
      cases h
      rw [TableFile.ofContent] at opened
      split at opened
      · cases opened
        rfl
      · cases opened
  · cases h

variable (ht : Sql.PlainName table)

include ht

theorem createTableFiles_keeps : c.Keeps (createTableFiles c database table) w :=
  .bind (.mapError _ (.write (.file hd (.mk ht Catalog.table_mem)) _)) fun _ _ _ =>
    .mapError _ (.write (.file hd (.mk ht Catalog.index_mem)) _)

theorem withdrawSchema_keeps : c.Keeps (withdrawSchema c database table) w := by
  refine .bind (.attempt (c.dropSchema_keeps hd ht)) fun answer _ _ => ?_
  cases answer with
  | ok u => exact .succeed _
  | error e => exact .notify _ _

end Database

section Session

theorem currentDatabase_bind_keeps {α : Type} {f : String → Act δ α}
    (h : ∀ database, s.database = some database → c.Keeps (f database) w) :
    c.Keeps (currentDatabase s >>= f) w := by
  cases current : s.database with
  | none =>
    rw [currentDatabase, current]
    refine .bind (.fail _) fun _ _ selected => ?_
    cases selected
  | some database =>
    rw [currentDatabase, current]
    refine .bind (.succeed _) fun other _ selected => ?_
    cases selected
    exact h database current

variable (plain : PlainSession s)

include plain

theorem showNames_keeps (target : Sql.ShowTarget) : c.Keeps (showNames c s target) w := by
  cases target with
  | databases => exact .bind (.mapError _ c.databases_keeps) fun _ _ _ => .succeed _
  | tables =>
    refine currentDatabase_bind_keeps fun database current => ?_
    exact .bind (.mapError _ (c.tables_keeps (plain database current))) fun _ _ _ => .succeed _

theorem createTable_keeps {schema : TableSchema} (ht : Sql.PlainName schema.name) :
    c.Keeps (createTable c s schema) w := by
  refine currentDatabase_bind_keeps fun database current => ?_
  have hd := plain database current
  refine .bind (.mapError _ (c.createSchema_keeps hd ht)) fun _ _ _ => ?_
  refine .bind (.attempt (createTableFiles_keeps hd ht)) fun answer _ _ => ?_
  cases answer with
  | ok u => exact .bind (.notify _ _) fun _ _ _ => .succeed _
  | error e => exact .bind (withdrawSchema_keeps hd ht) fun _ _ _ => .fail _

variable (ht : Sql.PlainName table)

include ht

theorem dropTable_keeps : c.Keeps (dropTable c s table) w :=
  currentDatabase_bind_keeps fun database current =>
    .bind (.mapError _ (c.dropTable_keeps (plain database current) ht)) fun _ _ _ => .succeed _

theorem readSchema_bind_keeps {α : Type} {f : String → TableSchema → Act δ α}
    (named : c.SchemasPlain w) (h : ∀ database schema w', Sql.PlainName database →
      Sql.PlainName schema.name → c.Keeps (f database schema) w') :
    c.Keeps (currentDatabase s >>= fun database =>
      inCatalog (c.readSchema database table) >>= f database) w := by
  refine currentDatabase_bind_keeps fun database current => ?_
  have hd := plain database current
  refine .bind (.mapError _ (c.readSchema_keeps hd ht)) fun schema w' read => ?_
  exact h database schema w' hd (named hd ht (Action.eq_ok_of_mapError read))

theorem insert_keeps (named : c.SchemasPlain w) (columns : Option Sql.Columns)
    (literals : List Sql.Literal) : c.Keeps (insert c s table columns literals) w := by
  refine readSchema_bind_keeps plain ht named fun database schema w' hd name => ?_
  have rest (w' : World δ) : c.Keeps (openTable c database schema >>= fun p =>
      addRow table literals p.1 p.2) w' := by
    refine .bind (openTable_keeps hd name) fun p w'' opened => ?_
    have place : Place c.root p.1.path := by
      rw [path_of_openTable opened]
      exact .file hd (.mk name Catalog.table_mem)
    refine .bind (.ofExcept _) fun row _ _ => ?_
    rcases p.1.append row p.2 with ⟨added, longer⟩
    refine .bind (.mapError _ (.write place longer)) fun _ _ _ => ?_
    cases added with
    | ok g => exact .succeed _
    | error e => exact .fail _
  split
  · split
    · exact .bind (.notify _ _) fun _ w' _ => rest w'
    · exact rest w'
  · exact .fail _

theorem select_keeps (named : c.SchemasPlain w) (columns : Sql.Columns)
    (filter : Option Sql.Filter) : c.Keeps (select c s columns table filter) w := by
  refine readSchema_bind_keeps plain ht named fun database schema w' hd name => ?_
  refine .bind (.ofExcept _) fun p _ _ => .bind (openTable_keeps hd name) fun opened _ _ => ?_
  dsimp only
  split
  · exact .bind (.notify _ _) fun _ _ _ => .succeed _
  · exact .fail _

end Session

theorem execute_keeps {stmt : Sql.Statement} (plain : PlainSession s)
    (names : ∀ name ∈ stmt.names, Sql.PlainName name) (named : c.SchemasPlain w) :
    (execute c stmt).Touches (Place c.root) s w := by
  cases stmt with
  | createDatabase name => exact .onWorld (createDatabase_keeps (names _ (.head _)))
  | createTable name columns =>
    have ht : Sql.PlainName (schemaOf name columns).name := names _ (.head _)
    exact .onWorld (createTable_keeps plain ht)
  | dropDatabase name => exact dropDatabase_keeps (names _ (.head _))
  | dropTable name => exact .onWorld (dropTable_keeps plain (names _ (.head _)))
  | useDatabase name => exact useDatabase_keeps (names _ (.head _))
  | showNames target => exact .onWorld (showNames_keeps plain target)
  | insert table columns literals =>
    exact .onWorld (insert_keeps plain (names _ (.head _)) named columns literals)
  | select columns table filter =>
    exact .onWorld (select_keeps plain (names _ (.head _)) named columns filter)

end Engine

/-- Below the root there are databases of plain names, with nothing in them but files of tables. -/
def OnlyTables (root : Path) (f : Files) : Prop :=
  ∀ es, f.list root = .ok es → ∀ database ∈ es, Sql.PlainName database.1 ∧
    ∃ fs, database.2 = .directory fs ∧
      ∀ file ∈ fs, Catalog.OfTable file.1 ∧ ∃ content, file.2 = .file content

section Worlds

open Engine

variable {data : Path} {S : ι → Session} {w : World δ} {v : Volume} {state : δ}

theorem Tidy.onlyTables (h : Tidy v state S w) : OnlyTables v.root w.files := by
  obtain ⟨es, disk, neat⟩ := h.disk
  have holding : w.files = v.holding es := congrArg Disk.files disk
  intro listed list database mem
  rw [holding, Files.list_directory (v.locate_root es) (v.at?_root es)] at list
  cases list
  have entry := Entries.get?_of_mem neat.nodup mem
  obtain ⟨-, fs, directory, orderly⟩ := neat.database _ _ entry
  refine ⟨neat.plain _ (List.mem_map_of_mem mem), fs, directory, fun file inside => ?_⟩
  exact ⟨orderly.owned _ (List.mem_map_of_mem inside),
    orderly.file (Entries.get?_of_mem orderly.nodup inside)⟩

theorem Tidy.schemasPlain (h : Tidy v state S w) : (v.catalog δ).SchemasPlain w := by
  intro database table schema w' named ht read
  obtain ⟨es, disk, neat⟩ := h.disk
  rcases neat.none_or_directory database with entry | ⟨hd, fs, entry, orderly⟩
  · have refused := ((v.misses state named.isName entry).readSchema table w disk).1
    rw [read] at refused
    cases refused
  · obtain ⟨r, fs', -, name, run⟩ := v.readSchema_confined (δ := δ) hd ht fs orderly
    have answer := (run state es entry w disk).1
    rw [read] at answer
    rw [name schema answer.symm]
    exact ht

theorem Lost.onlyTables (h : Lost data S) (f : Files) : OnlyTables (data.join "databases") f := by
  intro es list
  rw [Files.list_refused (Files.locate_long h.free h.far)] at list
  cases list

theorem Lost.schemasPlain (h : Lost data S) (w : World δ) :
    (Catalog.ofDataDirectory data .onFiles).SchemasPlain w := by
  intro database table schema w' named ht read
  have refused := ((h.misses named.isName w.disk).readSchema table w rfl).1
  rw [read] at refused
  cases refused

variable [DecidableEq ι]

theorem Reached.onlyTables (h : Reached data S w) : OnlyTables (data.join "databases") w.files := by
  obtain ⟨v, state, root, tidy⟩ | lost := h.tidy_or_lost
  · exact root ▸ tidy.onlyTables
  · exact lost.onlyTables w.files

theorem Reached.schemasPlain (h : Reached data S w) :
    (Catalog.ofDataDirectory data .onFiles).SchemasPlain w := by
  obtain ⟨v, state, root, tidy⟩ | lost := h.tidy_or_lost
  · rw [v.ofDataDirectory_eq root]
    exact tidy.schemasPlain
  · exact lost.schemasPlain w

theorem Reached.plainSession (h : Reached data S w) (user : ι) : PlainSession (S user) := by
  obtain ⟨v, state, root, tidy⟩ | lost := h.tidy_or_lost
  · exact tidy.session user
  · intro name eq
    rw [lost.session user] at eq
    cases eq

theorem Reached.place_of_mem_accesses (h : Reached data S w) :
    ∀ access ∈ w.accesses, Place (data.join "databases") access.path := by
  induction h with
  | opened empty =>
    intro access mem
    exact (Catalog.prepare_keeps _ access mem).elim nofun id
  | reopened _ ih =>
    intro access mem
    exact (Catalog.prepare_keeps _ access mem).elim (ih access) id
  | @ran S w w' user text p r s parsed reached run ih =>
    cases p with
    | error e =>
      cases run
      exact ih
    | ok stmt =>
      have names := (Sql.printable_of_mem_parse parsed).names
      have keeps := execute_keeps (reached.plainSession user) names reached.schemasPlain
      rw [runParsed] at run
      rw [Turn.Touches, run] at keeps
      exact fun access mem => (keeps access mem).elim (ih access) id

/-- No text leads out of the data directory, and no two tables share a file. In an empty directory,
whatever texts are run in whatever sessions, all paths that were touched are the root of the databases,
databases of plain names and files of tables of plain names, and nothing else is below the root. -/
theorem place_of_mem_history {f : Files} (empty : f.find data = .ok (.directory [])) (state : δ)
    (events : List (Event ι)) :
    let c : Catalog δ := .ofDataDirectory data .onFiles
    (∀ w ∈ history c (fun _ => .fresh) (World.ofFiles f state) (.opening :: events),
      (∀ access ∈ w.accesses, Place (data.join "databases") access.path ∧
        ∃ below, access.path.steps = data.steps ++ "databases" :: below ∧
          ∀ step ∈ below, Path.Plain step) ∧
      OnlyTables (data.join "databases") w.files) ∧
    ∀ d d' t t' : String, ∀ ext ∈ Catalog.extensions, ∀ ext' ∈ Catalog.extensions,
      Sql.PlainName d → Sql.PlainName d' → Sql.PlainName t → Sql.PlainName t' →
      (c.filePath d t ext).steps = (c.filePath d' t' ext').steps → d = d' ∧ t = t' ∧ ext = ext' := by
  intro c
  refine ⟨fun w mem => ?_, fun d d' t t' ext hx ext' hx' hd hd' ht ht' same =>
    c.steps_filePath_inj hd.isName hd'.isName ht.isName ht'.isName hx hx' same⟩
  have first : Reached data (fun _ : ι => .fresh) (c.prepare (World.ofFiles f state)).2 :=
    .opened empty
  have reached : ∃ S : ι → Session, Reached data S w := by
    rw [history] at mem
    rcases List.mem_cons.1 mem with rfl | mem
    · exact ⟨_, first⟩
    · exact first.of_mem_history mem
  obtain ⟨S, reached⟩ := reached
  refine ⟨fun access mem => ?_, reached.onlyTables⟩
  have place := reached.place_of_mem_accesses access mem
  obtain ⟨below, steps, -, plain⟩ := place.exists_steps
  refine ⟨place, below, ?_, plain⟩
  rw [steps, Path.steps_join plain_databases, List.append_assoc, List.singleton_append]

end Worlds

section Intruder

def intruderText : String :=
  "CREATE DATABASE d; USE d; CREATE TABLE t (a int); DROP DATABASE '..'; USE /x; DROP DATABASE d;"

def intruderWorlds : List (World Unit) :=
  Engine.history sharedCatalog (fun _ : Unit => .fresh)
    (World.ofFiles vacantFiles ()) [.opening, .text () intruderText]

theorem place_of_mem_history_intruder : ∃ w ∈ intruderWorlds,
    .directory (.deleteDirectory ⟨"/r/databases/d"⟩) ∈ w.accesses ∧
    ∀ access ∈ w.accesses, Place ⟨"/r/databases"⟩ access.path := by
  have deleted : intruderWorlds.any (fun w =>
      .directory (.deleteDirectory ⟨"/r/databases/d"⟩) ∈ w.accesses) = true := by
    decide +kernel
  obtain ⟨w, mem, access⟩ := List.any_eq_true.1 deleted
  have places := (place_of_mem_history vacant_vacantFiles.empty () [.text () intruderText]).1 w mem
  exact ⟨w, mem, of_decide_eq_true access, fun access mem => (places.1 access mem).1⟩

end Intruder

end RowStore
