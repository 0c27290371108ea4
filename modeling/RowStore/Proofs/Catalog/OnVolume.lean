import RowStore.Proofs.Catalog.FileNames
import RowStore.Proofs.Catalog.Lookup
import RowStore.Proofs.Disk.Volume

namespace RowStore

variable {δ : Type}

namespace Volume

def disk (v : Volume) (state : δ) (es : List (String × Tree)) : Disk δ := ⟨v.holding es, state⟩

def catalog (δ : Type) (v : Volume) : Catalog δ := ⟨v.root, .onFiles⟩

structure Reaches (v : Volume) (database : String) : Prop where
  name : Sql.IsName database
  short : (v.root.join database).text.utf8ByteSize < Files.pathLimit

structure ReachesFile (v : Volume) (database table ext : String) : Prop
    extends v.Reaches database where
  named : Sql.IsName table
  known : ext ∈ Catalog.extensions
  fits : ((v.root.join database).join (Catalog.fileName table ext)).text.utf8ByteSize
    < Files.pathLimit

def Flat (fs : List (String × Tree)) : Prop :=
  ∀ e ∈ fs, Path.Plain e.1 ∧ ∃ content, Entries.get? e.1 fs = some (.file content)

def stems (v : Volume) (ext database : String) (fs : List (String × Tree)) : List String :=
  (fs.filter fun e => decide
    (((v.root.join database).join e.1).text.utf8ByteSize < Files.pathLimit)).filterMap
      fun e => Path.stem? ext e.1

section Places

variable {v : Volume} {es fs : List (String × Tree)} {database table ext : String}

theorem Reaches.locate (hd : v.Reaches database) (es : List (String × Tree)) :
    (v.holding es).locate (v.root.join database) = .ok (v.here ++ [database]) :=
  Files.locate_join (v.locate_root es) (v.at?_root es) hd.name.plain hd.short

theorem ReachesFile.locate (hf : v.ReachesFile database table ext)
    (h : Entries.get? database es = some (.directory fs)) :
    (v.holding es).locate ((v.root.join database).join (Catalog.fileName table ext))
      = .ok (v.here ++ [database] ++ [Catalog.fileName table ext]) := by
  have at_ := (v.at?_database es database).trans h
  exact Files.locate_join (hf.toReaches.locate es) at_ (Catalog.plain_fileName hf.named hf.known)
    hf.fits

theorem namesDirectory_file (v : Volume) (database : String) (ht : Sql.IsName table)
    (hx : ext ∈ Catalog.extensions) :
    ((v.root.join database).join (Catalog.fileName table ext)).namesDirectory = false :=
  Path.namesDirectory_join (Catalog.plain_fileName ht hx) _

theorem nul_not_mem_root (v : Volume) : '\x00' ∉ v.root.text.toList :=
  (Files.follow_eq_ok.1 v.located).1

theorem locate_far (v : Volume) (hd : Sql.IsName database) (far : ¬v.Reaches database)
    (es : List (String × Tree)) :
    (v.holding es).locate (v.root.join database) = .error .nameTooLong :=
  Files.locate_long (Path.nul_not_mem_join hd.plain v.nul_not_mem_root)
    (Nat.le_of_not_lt fun short => far ⟨hd, short⟩)

theorem locate_file_far (v : Volume) (hd : v.Reaches database) (ht : Sql.IsName table)
    (hx : ext ∈ Catalog.extensions) (far : ¬v.ReachesFile database table ext)
    (es : List (String × Tree)) :
    (v.holding es).locate ((v.root.join database).join (Catalog.fileName table ext))
      = .error .nameTooLong :=
  Files.locate_long (Path.nul_not_mem_join (Catalog.plain_fileName ht hx)
    (Path.nul_not_mem_join hd.name.plain v.nul_not_mem_root))
    (Nat.le_of_not_lt fun short => far ⟨hd, ht, hx, short⟩)

end Places

section Operations

variable (v : Volume) (state : δ) {es fs : List (String × Tree)} {database table ext : String}
  {content : Content}

theorem finds (hd : v.Reaches database) (h : Entries.get? database es = some (.directory fs)) :
    (v.catalog δ).Finds (v.disk state es) database := by
  have at_ := (v.at?_database es database).trans h
  exact Catalog.finds_of_isDirectory rfl
    (Files.isDirectory_of_directory (hd.locate es) at_)

theorem misses (hd : Sql.IsName database) (h : Entries.get? database es = none) :
    (v.catalog δ).Misses (v.disk state es) database := by
  by_cases near : v.Reaches database
  · have at_ := (v.at?_database es database).trans h
    exact Catalog.misses_of_isDirectory rfl (Files.isDirectory_of_none (near.locate es) at_)
  · exact Catalog.misses_of_isDirectory rfl (Files.isDirectory_refused (v.locate_far hd near es))

theorem createDatabase_yields (hd : v.Reaches database) (h : Entries.get? database es = none) :
    ((v.catalog δ).createDatabase database).Yields (v.disk state es) (.ok ())
      (v.disk state (Entries.put database (.directory []) es)) := by
  have at_ := (v.at?_database es database).trans h
  have made := Files.makeDirectory_none (hd.locate es) at_
  rw [v.putAt_database] at made
  have change : (v.catalog δ).directory.createDirectory ((v.catalog δ).databasePath database)
      (v.disk state es) = (.ok (), v.disk state (Entries.put database (.directory []) es)) :=
    Directory.changing_ok made
  exact .bind (.askFlag (v.misses state hd.name h)) (.bind (.mapError _ (.ask change)) (.notify _ _))

theorem createDatabase_yields_far (hd : Sql.IsName database) (far : ¬v.Reaches database)
    (h : Entries.get? database es = none) :
    ((v.catalog δ).createDatabase database).Yields (v.disk state es)
      (.error (.io (v.root.join database) .nameTooLong)) (v.disk state es) :=
  (v.misses state hd h).createDatabase rfl (Files.makeDirectory_refused (v.locate_far hd far es))

theorem createDatabase_yields_exists (hd : v.Reaches database)
    (h : Entries.get? database es = some (.directory fs)) :
    ((v.catalog δ).createDatabase database).Yields (v.disk state es)
      (.error (.databaseExists database)) (v.disk state es) :=
  .bind (.askFlag (v.finds state hd h)) (.fail _)

theorem dropDatabase_yields (hd : v.Reaches database)
    (h : Entries.get? database es = some (.directory fs)) :
    ((v.catalog δ).dropDatabase database).Yields (v.disk state es) (.ok ())
      (v.disk state (Entries.erase database es)) := by
  have at_ := (v.at?_database es database).trans h
  have still := hd.locate (Entries.put database .empty es)
  have last : (v.root.join database).steps.getLast? ≠ some "." := by
    rw [Path.steps_join hd.name.plain, List.getLast?_concat]
    exact fun eq => hd.name.plain.dot (Option.some.inj eq)
  have emptied := v.putAt_database es database .empty
  have gone := Files.deleteDirectory_eq (hd.locate es) at_ (emptied ▸ still) last
  rw [emptied, v.eraseAt_database, Entries.erase_put] at gone
  have change : (v.catalog δ).directory.deleteDirectory ((v.catalog δ).databasePath database)
      (v.disk state es) = (.ok (), v.disk state (Entries.erase database es)) :=
    Directory.changingPartly_ok gone
  exact .bind (v.finds state hd h).requireDatabase
    (.bind (.mapError _ (.ask change)) (.notify _ _))

theorem dropDatabase_yields_missing (hd : Sql.IsName database)
    (h : Entries.get? database es = none) :
    ((v.catalog δ).dropDatabase database).Yields (v.disk state es)
      (.error (.noSuchDatabase database)) (v.disk state es) :=
  (v.misses state hd h).dropDatabase

theorem databases_yields (es : List (String × Tree)) :
    (v.catalog δ).databases.Yields (v.disk state es)
      (.ok (Names.sort (Directory.subdirectoryNames es))) (v.disk state es) := by
  have list := Files.list_directory (v.locate_root es) (v.at?_root es)
  have answer : (v.catalog δ).directory.listSubdirectories (v.catalog δ).root (v.disk state es)
      = (.ok (Directory.subdirectoryNames es), v.disk state es) :=
    Prod.ext (congrArg (Except.map Directory.subdirectoryNames) list) rfl
  exact .bind (.mapError _ (.ask answer)) (.pure _)

theorem isFile_entry (hd : v.Reaches database) (h : Entries.get? database es = some (.directory fs))
    {name : String} (plain : Path.Plain name) (file : Entries.get? name fs = some (.file content)) :
    (v.holding es).isFile ((v.root.join database).join name)
      = decide (((v.root.join database).join name).text.utf8ByteSize < Files.pathLimit) := by
  have at_ := (v.at?_database es database).trans h
  by_cases short : ((v.root.join database).join name).text.utf8ByteSize < Files.pathLimit
  · rw [decide_eq_true short]
    exact Files.isFile_iff.2 ⟨Path.namesDirectory_join plain _, _, content,
      Files.locate_join (hd.locate es) at_ plain short, (v.at?_file h name).trans file⟩
  · have free := Path.nul_not_mem_join plain (Path.nul_not_mem_join hd.name.plain v.nul_not_mem_root)
    rw [decide_eq_false short, Bool.eq_false_iff]
    intro found
    obtain ⟨-, l, _, located, -⟩ := Files.isFile_iff.1 found
    cases (Files.locate_long free (Nat.le_of_not_lt short)).symm.trans located

theorem fileStems_eq (hd : v.Reaches database) (h : Entries.get? database es = some (.directory fs))
    (flat : Flat fs) (ext : String) :
    Directory.fileStems ext (v.root.join database) (v.holding es) = .ok (v.stems ext database fs) := by
  have at_ := (v.at?_database es database).trans h
  have led : ∀ e ∈ fs, (v.holding es).isFile ((v.root.join database).join e.1)
      = decide (((v.root.join database).join e.1).text.utf8ByteSize < Files.pathLimit) := by
    intro e mem
    obtain ⟨plain, content, file⟩ := flat e mem
    exact v.isFile_entry hd h plain file
  rw [Directory.fileStems, Files.list_directory (hd.locate es) at_, Except.map, stems,
    List.filter_congr led]

theorem tables_yields (hd : v.Reaches database)
    (h : Entries.get? database es = some (.directory fs)) (flat : Flat fs) :
    ((v.catalog δ).tables database).Yields (v.disk state es)
      (.ok (Names.sort (v.stems Catalog.schemaExtension database fs))) (v.disk state es) := by
  have answer : (v.catalog δ).directory.listFiles Catalog.schemaExtension
      ((v.catalog δ).databasePath database) (v.disk state es)
      = (.ok (v.stems Catalog.schemaExtension database fs), v.disk state es) :=
    Prod.ext (v.fileStems_eq hd h flat _) rfl
  exact .bind (v.finds state hd h).requireDatabase (.bind (.mapError _ (.ask answer)) (.pure _))

end Operations

section TableFiles

variable (v : Volume) (state : δ) {es fs : List (String × Tree)} {database table ext : String}
  {content : Content} (hf : v.ReachesFile database table ext)
  (h : Entries.get? database es = some (.directory fs))

include hf h

theorem read_file (file : Entries.get? (Catalog.fileName table ext) fs = some (.file content)) :
    (v.holding es).read ((v.catalog δ).filePath database table ext) = .ok content :=
  Files.read_file (hf.locate h) (v.namesDirectory_file _ hf.named hf.known)
    ((v.at?_file h _).trans file)

theorem read_missing (file : Entries.get? (Catalog.fileName table ext) fs = none) :
    (v.holding es).read ((v.catalog δ).filePath database table ext) = .error .notFound :=
  Files.read_none (hf.locate h) ((v.at?_file h _).trans file)

theorem write_file
    (file : ∀ inner, Entries.get? (Catalog.fileName table ext) fs ≠ some (.directory inner))
    (content : Content) :
    (v.holding es).write content ((v.catalog δ).filePath database table ext)
      = .ok (v.holding (Entries.put database
          (.directory (Entries.put (Catalog.fileName table ext) (.file content) fs)) es)) := by
  have at_ : ∀ inner, (v.holding es).tree.at? (v.here ++ [database] ++ [Catalog.fileName table ext])
      ≠ some (.directory inner) := by
    intro inner
    rw [v.at?_file h]
    exact file inner
  rw [← v.putAt_file h]
  exact Files.write_eq (hf.locate h) (v.namesDirectory_file _ hf.named hf.known) at_ content

theorem delete_yields (file : Entries.get? (Catalog.fileName table ext) fs = some (.file content)) :
    ((v.catalog δ).deleteFile ((v.catalog δ).filePath database table ext)).Yields
      (v.disk state es) (.ok ()) (v.disk state (Entries.put database
        (.directory (Entries.erase (Catalog.fileName table ext) fs)) es)) := by
  have gone := Files.deleteFile_file (hf.locate h) (v.namesDirectory_file _ hf.named hf.known)
    ((v.at?_file h _).trans file)
  rw [v.eraseAt_file h] at gone
  have change : (v.catalog δ).directory.deleteFile ((v.catalog δ).filePath database table ext)
      (v.disk state es) = (.ok (), v.disk state (Entries.put database
        (.directory (Entries.erase (Catalog.fileName table ext) fs)) es)) :=
    Directory.changing_ok gone
  exact .ask change

theorem delete_yields_missing (file : Entries.get? (Catalog.fileName table ext) fs = none) :
    ((v.catalog δ).deleteFile ((v.catalog δ).filePath database table ext)).Yields
      (v.disk state es) (.error .notFound) (v.disk state es) := by
  have gone := Files.deleteFile_none (hf.locate h) ((v.at?_file h _).trans file)
  have change : (v.catalog δ).directory.deleteFile ((v.catalog δ).filePath database table ext)
      (v.disk state es) = (.error .notFound, v.disk state es) :=
    Directory.changing_error gone
  exact .ask change

theorem deleteLeftover_yields
    (file : Entries.get? (Catalog.fileName table ext) fs = some (.file content)) :
    ((v.catalog δ).deleteLeftover ((v.catalog δ).filePath database table ext)).Yields
      (v.disk state es) (.ok ()) (v.disk state (Entries.put database
        (.directory (Entries.erase (Catalog.fileName table ext) fs)) es)) :=
  .bind (.attempt (v.delete_yields state hf h file)) (.pure ())

end TableFiles

section Schemas

variable (v : Volume) (state : δ) {es fs : List (String × Tree)} {database table : String}
  {content : Content} (hf : v.ReachesFile database table Catalog.schemaExtension)
  (h : Entries.get? database es = some (.directory fs))

include hf h

theorem readSchema_yields {schema : TableSchema}
    (file : Entries.get? (Catalog.fileName table Catalog.schemaExtension) fs = some (.file content))
    (decoded : Catalog.schemaOfContent ((v.catalog δ).schemaPath database table) content
      = .ok schema) :
    ((v.catalog δ).readSchema database table).Yields (v.disk state es) (.ok schema)
      (v.disk state es) :=
  (v.finds state hf.toReaches h).readSchema (v.read_file hf h file) decoded

theorem readSchema_yields_missing
    (file : Entries.get? (Catalog.fileName table Catalog.schemaExtension) fs = none) :
    ((v.catalog δ).readSchema database table).Yields (v.disk state es)
      (.error (.noSuchTable table)) (v.disk state es) :=
  (v.finds state hf.toReaches h).readSchema_error (v.read_missing hf h file)

theorem dropTable_yields_missing
    (file : Entries.get? (Catalog.fileName table Catalog.schemaExtension) fs = none) :
    ((v.catalog δ).dropTable database table).Yields (v.disk state es)
      (.error (.noSuchTable table)) (v.disk state es) := by
  have gone := v.delete_yields_missing state hf h file
  exact .bind_error (.bind (v.finds state hf.toReaches h).requireDatabase (.mapError _ gone))

end Schemas

section NewSchemas

variable (v : Volume) (state : δ) {es fs : List (String × Tree)} {database : String}
  {schema : TableSchema} (hf : v.ReachesFile database schema.name Catalog.schemaExtension)
  (h : Entries.get? database es = some (.directory fs))

include hf h

theorem createSchema_yields
    (file : Entries.get? (Catalog.fileName schema.name Catalog.schemaExtension) fs = none) :
    ((v.catalog δ).createSchema database schema).Yields (v.disk state es) (.ok ())
      (v.disk state (Entries.put database (.directory
        (Entries.put (Catalog.fileName schema.name Catalog.schemaExtension)
          (.file (SchemaText.content schema)) fs)) es)) := by
  have written := Files.writeNew_none (hf.locate h) (v.namesDirectory_file _ hf.named hf.known)
    ((v.at?_file h _).trans file) (SchemaText.content schema)
  rw [v.putAt_file h] at written
  exact (v.finds state hf.toReaches h).createSchema written

theorem createSchema_yields_exists {t : Tree}
    (file : Entries.get? (Catalog.fileName schema.name Catalog.schemaExtension) fs = some t) :
    ((v.catalog δ).createSchema database schema).Yields (v.disk state es)
      (.error (.tableExists schema.name)) (v.disk state es) := by
  have refused := Files.writeNew_some (hf.locate h) (v.namesDirectory_file _ hf.named hf.known)
    ((v.at?_file h _).trans file) (SchemaText.content schema)
  exact (v.finds state hf.toReaches h).createSchema_error refused

end NewSchemas

section Dropping

variable (v : Volume) (state : δ) {es fs : List (String × Tree)} {database table : String}

theorem dropTable_yields (hf : ∀ ext ∈ Catalog.extensions, v.ReachesFile database table ext)
    (h : Entries.get? database es = some (.directory fs))
    (files : ∀ ext ∈ Catalog.extensions,
      ∃ content, Entries.get? (Catalog.fileName table ext) fs = some (.file content)) :
    ((v.catalog δ).dropTable database table).Yields (v.disk state es) (.ok ())
      (v.disk state (Entries.put database (.directory (Catalog.without table fs)) es)) := by
  obtain ⟨text, schema⟩ := files _ Catalog.schema_mem
  obtain ⟨rows, data⟩ := files _ Catalog.table_mem
  obtain ⟨nodes, index⟩ := files _ Catalog.index_mem
  have reached := hf _ Catalog.schema_mem
  have first := v.delete_yields state reached h schema
  have data' := (Catalog.get?_erase_fileName reached.named Catalog.table_ne_schema fs).trans data
  have second := v.deleteLeftover_yields state (hf _ Catalog.table_mem)
    (Entries.get?_put_self database _ es) data'
  rw [Entries.put_put] at second
  have index' := (Catalog.get?_erase_fileName reached.named Catalog.index_ne_table _).trans
    ((Catalog.get?_erase_fileName reached.named Catalog.index_ne_schema fs).trans index)
  have third := v.deleteLeftover_yields state (hf _ Catalog.index_mem)
    (Entries.get?_put_self database _ es) index'
  rw [Entries.put_put] at third
  exact .bind (.bind (v.finds state reached.toReaches h).requireDatabase (.mapError _ first))
    (.bind second (.bind third (.notify _ _)))

end Dropping

section Far

variable (v : Volume) (state : δ) {database table ext : String} {content : Content}
  (hd : v.Reaches database) (ht : Sql.IsName table) (hx : ext ∈ Catalog.extensions)
  (far : ¬v.ReachesFile database table ext) (es : List (String × Tree))

include hd ht hx far

theorem read_far : (v.holding es).read ((v.catalog δ).filePath database table ext)
    = .error .nameTooLong :=
  Files.read_refused (v.locate_file_far hd ht hx far es)

theorem write_far (content : Content) :
    (v.holding es).write content ((v.catalog δ).filePath database table ext)
      = .error .nameTooLong :=
  Files.write_refused (v.locate_file_far hd ht hx far es) (v.namesDirectory_file _ ht hx) content

theorem writeNew_far (content : Content) :
    (v.holding es).writeNew content ((v.catalog δ).filePath database table ext)
      = .error .nameTooLong :=
  Files.writeNew_refused (v.locate_file_far hd ht hx far es) (v.namesDirectory_file _ ht hx) content

theorem delete_yields_far :
    ((v.catalog δ).deleteFile ((v.catalog δ).filePath database table ext)).Yields
      (v.disk state es) (.error .nameTooLong) (v.disk state es) := by
  have refused := Files.deleteFile_refused (v.locate_file_far hd ht hx far es)
  have answer : (v.catalog δ).directory.deleteFile ((v.catalog δ).filePath database table ext)
      (v.disk state es) = (.error .nameTooLong, v.disk state es) :=
    Directory.changing_error refused
  exact .ask answer

end Far

end Volume

namespace NearVolume

variable (v : NearVolume) {database table ext : String}

theorem utf8ByteSize_database_le (hd : Sql.IsName database) :
    (v.root.join database).text.utf8ByteSize ≤ v.root.text.utf8ByteSize + 64 := by
  have size := Path.utf8ByteSize_join hd.plain v.root
  have short := hd.short
  have limit : Text.clipLimit = 63 := rfl
  rw [← Text.utf8ByteSize_eq] at short
  omega

theorem reaches (hd : Sql.IsName database) : v.Reaches database := by
  have size := v.utf8ByteSize_database_le hd
  have room := v.room
  exact ⟨hd, by omega⟩

theorem reachesFile (hd : Sql.IsName database) (ht : Sql.IsName table)
    (hx : ext ∈ Catalog.extensions) : v.ReachesFile database table ext := by
  have outer := v.utf8ByteSize_database_le hd
  have inner := Path.utf8ByteSize_join (Catalog.plain_fileName ht hx) (v.root.join database)
  have short := Catalog.utf8ByteSize_fileName_le ht hx
  have room := v.room
  exact ⟨v.reaches hd, ht, hx, by omega⟩

end NearVolume

end RowStore
