import RowStore.Proofs.Catalog.OnVolume
import RowStore.Proofs.Catalog.Places

/-!
Actions that keep to one database: what they answer and what they make of its files depends on these
files alone, and the other databases stay as they are.
-/

namespace RowStore

open Catalog (fileName schemaExtension schemaOfContent)

variable {δ : Type}

/-- A database directory with files of tables only, in which every table's schema has the table's
name. -/
structure Orderly (fs : List (String × Tree)) : Prop where
  nodup : (fs.map Prod.fst).Nodup
  owned : ∀ name ∈ fs.map Prod.fst, Catalog.OfTable name
  file : ∀ {name t}, Entries.get? name fs = some t → ∃ content, t = .file content
  named : ∀ {table content p schema}, Sql.IsName table →
    Entries.get? (fileName table schemaExtension) fs = some (.file content) →
    schemaOfContent p content = .ok schema → schema.name = table

namespace Orderly

variable {fs : List (String × Tree)} {name table ext : String} {content : Content}

theorem empty : Orderly [] := ⟨List.nodup_nil, nofun, nofun, nofun⟩

theorem put (h : Orderly fs) (owned : Catalog.OfTable name)
    (own : ∀ {table p schema}, Sql.IsName table → name = fileName table schemaExtension →
      schemaOfContent p content = .ok schema → schema.name = table) :
    Orderly (Entries.put name (.file content) fs) where
  nodup := Entries.nodup_put h.nodup
  owned other mem := by
    rcases Entries.mem_map_fst_put.1 mem with rfl | mem
    · exact owned
    · exact h.owned other mem
  file {other t} at_ := by
    by_cases same : other = name
    · rw [same, Entries.get?_put_self] at at_
      exact ⟨content, (Option.some.inj at_).symm⟩
    · rw [Entries.get?_put_of_ne same] at at_
      exact h.file at_
  named {table inner p schema} ht at_ decoded := by
    by_cases same : fileName table schemaExtension = name
    · rw [same, Entries.get?_put_self] at at_
      cases at_
      exact own ht same.symm decoded
    · rw [Entries.get?_put_of_ne same] at at_
      exact h.named ht at_ decoded

theorem put_data (h : Orderly fs) (ht : Sql.PlainName table) (hx : ext ∈ Catalog.extensions)
    (other : ext ≠ schemaExtension) :
    Orderly (Entries.put (fileName table ext) (.file content) fs) :=
  h.put (.mk ht hx) fun ht' eq _ => absurd ((Catalog.fileName_inj ht.isName ht').1 eq).2 other

theorem put_schema {schema : TableSchema} (h : Orderly fs) (ht : Sql.PlainName schema.name)
    (columns : ∀ column ∈ schema.columns, Sql.IsName column.name) :
    Orderly (Entries.put (fileName schema.name schemaExtension)
      (.file (SchemaText.content schema)) fs) := by
  refine h.put (.mk ht Catalog.schema_mem) fun {table p other} ht' eq decoded => ?_
  have written := SchemaText.schemaOfContent_encode p (.of_isName ht.isName)
    (fun column mem => .of_isName (columns column mem)) (Content.bytes_ofBytes _)
  cases written.symm.trans decoded
  exact ((Catalog.fileName_inj ht.isName ht').1 eq).1

theorem erase (h : Orderly fs) : Orderly (Entries.erase name fs) := by
  have kept {other : String} {t : Tree} (at_ : Entries.get? other (Entries.erase name fs) = some t) :
      Entries.get? other fs = some t := by
    by_cases same : other = name
    · rw [same, Entries.get?_erase_self] at at_
      cases at_
    · rwa [Entries.get?_erase_of_ne same] at at_
  exact ⟨Entries.nodup_erase h.nodup,
    fun name mem => h.owned name (Entries.mem_map_fst_erase.1 mem).2,
    fun at_ => h.file (kept at_), fun ht at_ decoded => h.named ht (kept at_) decoded⟩

theorem flat (h : Orderly fs) : Volume.Flat fs := by
  intro e mem
  have entry := Entries.get?_of_mem h.nodup mem
  obtain ⟨content, eq⟩ := h.file entry
  exact ⟨(h.owned _ (List.mem_map_of_mem mem)).plain, content, eq ▸ entry⟩

theorem none_or_file (h : Orderly fs) (name : String) :
    Entries.get? name fs = none ∨ ∃ content, Entries.get? name fs = some (.file content) := by
  cases at_ : Entries.get? name fs with
  | none => exact .inl rfl
  | some t =>
    obtain ⟨content, rfl⟩ := h.file at_
    exact .inr ⟨content, rfl⟩

end Orderly

/-- Run on a volume with an orderly database, the action keeps to it: its answer and the files that it
leaves there are the same whatever else the volume holds. A value that it gives satisfies `Q`. -/
def Confined {ε α : Type} (v : Volume) (database : String) (x : Action δ ε α) (Q : α → Prop) : Prop :=
  ∀ fs, Orderly fs → ∃ r fs', Orderly fs' ∧ (∀ a, r = .ok a → Q a) ∧
    ∀ state es, Entries.get? database es = some (.directory fs) →
      x.Yields (v.disk state es) r (v.disk state (Entries.put database (.directory fs') es))

namespace Confined

variable {ε ε' α β : Type} {v : Volume} {database : String}

theorem still {x : Action δ ε α} {Q : α → Prop} (h : ∀ fs, Orderly fs → ∃ r, (∀ a, r = .ok a → Q a) ∧
      ∀ state es, Entries.get? database es = some (.directory fs) →
        x.Yields (v.disk state es) r (v.disk state es)) :
    Confined v database x Q := by
  intro fs orderly
  obtain ⟨r, post, run⟩ := h fs orderly
  refine ⟨r, fs, orderly, post, fun state es entry => ?_⟩
  rw [Entries.put_of_get? entry]
  exact run state es entry

theorem succeed {Q : α → Prop} (a : α) (h : Q a) :
    Confined v database (Action.succeed a : Action δ ε α) Q :=
  still fun _ _ => ⟨.ok a, fun _ eq => Except.ok.inj eq ▸ h, fun _ _ _ => .succeed a⟩

theorem fail {Q : α → Prop} (e : ε) : Confined v database (Action.fail e : Action δ ε α) Q :=
  still fun _ _ => ⟨.error e, nofun, fun _ _ _ => .fail e⟩

theorem ofExcept (r : Except ε α) :
    Confined v database (Action.ofExcept r : Action δ ε α) fun _ => True :=
  still fun _ _ => ⟨r, fun _ _ => trivial, fun _ _ _ => .ofExcept r⟩

theorem notify (level : Level) (text : String) :
    Confined v database (Action.notify level text : Action δ ε Unit) fun _ => True :=
  still fun _ _ => ⟨.ok (), fun _ _ => trivial, fun _ _ _ => .notify level text⟩

theorem record (a : Access) :
    Confined v database (Action.record a : Action δ ε Unit) fun _ => True :=
  still fun _ _ => ⟨.ok (), fun _ _ => trivial, fun _ _ _ => .record a⟩

theorem bind {x : Action δ ε α} {f : α → Action δ ε β} {P : α → Prop} {Q : β → Prop}
    (hx : Confined v database x P) (hf : ∀ a, P a → Confined v database (f a) Q) :
    Confined v database (x >>= f) Q := by
  intro fs orderly
  obtain ⟨r, fs', orderly', post, run⟩ := hx fs orderly
  cases r with
  | error e =>
    exact ⟨.error e, fs', orderly', nofun, fun state es entry => (run state es entry).bind_error⟩
  | ok a =>
    obtain ⟨r', fs'', orderly'', post', run'⟩ := hf a (post a rfl) fs' orderly'
    refine ⟨r', fs'', orderly'', post', fun state es entry => ?_⟩
    have after := run' state _ (Entries.get?_put_self database (.directory fs') es)
    rw [Entries.put_put] at after
    exact (run state es entry).bind after

theorem mapError {x : Action δ ε α} {Q : α → Prop} (f : ε → ε') (hx : Confined v database x Q) :
    Confined v database (x.mapError f) Q := by
  intro fs orderly
  obtain ⟨r, fs', orderly', post, run⟩ := hx fs orderly
  refine ⟨r.mapError f, fs', orderly', ?_, fun state es entry => (run state es entry).mapError f⟩
  cases r with
  | error e => exact nofun
  | ok a =>
    rintro _ ⟨⟩
    exact post a rfl

theorem attempt {x : Action δ ε α} {Q : α → Prop} (hx : Confined v database x Q) :
    Confined v database (x.attempt : Action δ ε' (Except ε α)) fun _ => True := by
  intro fs orderly
  obtain ⟨r, fs', orderly', -, run⟩ := hx fs orderly
  exact ⟨.ok r, fs', orderly', fun _ _ => trivial, fun state es entry => (run state es entry).attempt⟩

theorem inspect {f : Files → Except ε α} (h : ∀ fs, Orderly fs → ∃ r,
      ∀ es, Entries.get? database es = some (.directory fs) → f (v.holding es) = r) :
    Confined v database (Action.inspect f : Action δ ε α) fun _ => True := by
  refine still fun fs orderly => ?_
  obtain ⟨r, same⟩ := h fs orderly
  refine ⟨r, fun _ _ => trivial, fun state es entry => ?_⟩
  rw [← same es entry]
  exact .inspect (d := v.disk state es) f

theorem change {f : Files → Except ε Files} (h : ∀ fs, Orderly fs → ∃ fs', Orderly fs' ∧
      ∀ es, Entries.get? database es = some (.directory fs) →
        f (v.holding es) = .ok (v.holding (Entries.put database (.directory fs') es))) :
    Confined v database (Action.change f : Action δ ε Unit) fun _ => True := by
  intro fs orderly
  obtain ⟨fs', orderly', changed⟩ := h fs orderly
  refine ⟨.ok (), fs', orderly', fun _ _ => trivial, fun state es entry => ?_⟩
  exact .change (d := v.disk state es) (changed es entry)

theorem refuse {f : Files → Except ε Files} {Q : Unit → Prop} {e : ε}
    (h : ∀ es, f (v.holding es) = .error e) :
    Confined v database (Action.change f : Action δ ε Unit) Q :=
  still fun _ _ => ⟨.error e, nofun, fun state es _ =>
    .change_error (d := v.disk state es) (h es)⟩

end Confined

namespace Volume

variable (v : Volume) {database table ext : String} {content : Content}

section Named

variable (hd : v.Reaches database)

include hd

theorem requireDatabase_confined :
    Confined v database ((v.catalog δ).requireDatabase database) fun _ => True :=
  .still fun _ _ => ⟨.ok (), fun _ _ => trivial, fun state _ entry =>
    (v.finds state hd entry).requireDatabase⟩

theorem tables_confined : Confined v database ((v.catalog δ).tables database) fun _ => True :=
  .still fun fs orderly => ⟨.ok (Names.sort (v.stems schemaExtension database fs)),
    fun _ _ => trivial, fun state _ entry => v.tables_yields state hd entry orderly.flat⟩

variable (ht : Sql.PlainName table)

include ht

theorem readSchema_confined : Confined v database ((v.catalog δ).readSchema database table)
    fun schema => schema.name = table := by
  refine .still fun fs orderly => ?_
  by_cases near : v.ReachesFile database table schemaExtension
  · rcases orderly.none_or_file (fileName table schemaExtension) with file | ⟨content, file⟩
    · exact ⟨.error (.noSuchTable table), nofun,
        fun state es entry => v.readSchema_yields_missing state near entry file⟩
    · have found (state : δ) {es : List (String × Tree)}
          (entry : Entries.get? database es = some (.directory fs)) :=
        (v.finds state hd entry).readSchema (v.read_file (δ := δ) near entry file) rfl
      exact ⟨_, fun schema decoded => orderly.named ht.isName file decoded,
        fun state es entry => found state entry⟩
  · have far := v.read_far (δ := δ) hd ht.isName Catalog.schema_mem near
    exact ⟨.error _, nofun, fun state es entry => (v.finds state hd entry).readSchema_error (far es)⟩

theorem read_confined (hx : ext ∈ Catalog.extensions) :
    Confined v database (FileAccess.read ((v.catalog δ).filePath database table ext) :
      Action δ Fault Content) fun _ => True := by
  refine .bind (.record _) fun _ _ => .inspect fun fs orderly => ?_
  by_cases near : v.ReachesFile database table ext
  · rcases orderly.none_or_file (fileName table ext) with file | ⟨content, file⟩
    · exact ⟨.error .notFound, fun es entry => v.read_missing (δ := δ) near entry file⟩
    · exact ⟨.ok content, fun es entry => v.read_file (δ := δ) near entry file⟩
  · exact ⟨.error .nameTooLong, fun es _ => v.read_far hd ht.isName hx near es⟩

theorem write_confined (hx : ext ∈ Catalog.extensions) (data : ext ≠ schemaExtension)
    (content : Content) :
    Confined v database (FileAccess.write ((v.catalog δ).filePath database table ext) content :
      Action δ Fault Unit) fun _ => True := by
  refine .bind (.record _) fun _ _ => ?_
  by_cases near : v.ReachesFile database table ext
  · refine .change fun fs orderly => ?_
    have orderly' : Orderly (Entries.put (fileName table ext) (.file content) fs) :=
      orderly.put_data ht hx data
    refine ⟨_, orderly', fun es entry => v.write_file near entry (fun inner at_ => ?_) content⟩
    obtain ⟨_, eq⟩ := orderly.file at_
    cases eq
  · exact .refuse fun es => v.write_far hd ht.isName hx near es content

theorem deleteFile_confined (hx : ext ∈ Catalog.extensions) :
    Confined v database ((v.catalog δ).deleteFile ((v.catalog δ).filePath database table ext))
      fun _ => True := by
  intro fs orderly
  by_cases near : v.ReachesFile database table ext
  · rcases orderly.none_or_file (fileName table ext) with file | ⟨content, file⟩
    · refine ⟨.error .notFound, fs, orderly, nofun, fun state es entry => ?_⟩
      rw [Entries.put_of_get? entry]
      exact v.delete_yields_missing state near entry file
    · exact ⟨.ok (), _, orderly.erase, fun _ _ => trivial,
        fun state es entry => v.delete_yields state near entry file⟩
  · refine ⟨.error .nameTooLong, fs, orderly, nofun, fun state es entry => ?_⟩
    rw [Entries.put_of_get? entry]
    exact v.delete_yields_far state hd ht.isName hx near es

theorem dropSchema_confined :
    Confined v database ((v.catalog δ).dropSchema database table) fun _ => True :=
  .bind (v.requireDatabase_confined hd) fun _ _ =>
    .mapError _ (v.deleteFile_confined hd ht Catalog.schema_mem)

theorem deleteLeftover_confined (hx : ext ∈ Catalog.extensions) :
    Confined v database ((v.catalog δ).deleteLeftover ((v.catalog δ).filePath database table ext))
      fun _ => True := by
  refine .bind (.attempt (v.deleteFile_confined hd ht hx)) fun answer _ => ?_
  cases answer with
  | ok u => exact .succeed _ trivial
  | error e =>
    dsimp only
    split
    · exact .succeed _ trivial
    · exact .fail _

theorem dropTable_confined :
    Confined v database ((v.catalog δ).dropTable database table) fun _ => True :=
  .bind (v.dropSchema_confined hd ht) fun _ _ =>
    .bind (v.deleteLeftover_confined hd ht Catalog.table_mem) fun _ _ =>
      .bind (v.deleteLeftover_confined hd ht Catalog.index_mem) fun _ _ => .notify _ _

end Named

theorem createSchema_confined (hd : v.Reaches database) (schema : TableSchema)
    (ht : Sql.PlainName schema.name) (columns : ∀ column ∈ schema.columns, Sql.IsName column.name) :
    Confined v database ((v.catalog δ).createSchema database schema) fun _ => True := by
  by_cases near : v.ReachesFile database schema.name schemaExtension
  · intro fs orderly
    rcases orderly.none_or_file (fileName schema.name schemaExtension) with file | ⟨content, file⟩
    · exact ⟨.ok (), _, orderly.put_schema ht columns, fun _ _ => trivial,
        fun state es entry => v.createSchema_yields state near entry file⟩
    · refine ⟨.error (.tableExists schema.name), fs, orderly, nofun, fun state es entry => ?_⟩
      rw [Entries.put_of_get? entry]
      exact v.createSchema_yields_exists state near entry file
  · have far := v.writeNew_far (δ := δ) hd ht.isName Catalog.schema_mem near
    exact .still fun fs _ => ⟨.error _, nofun, fun state es entry =>
      (v.finds state hd entry).createSchema_error (far es _)⟩

end Volume

end RowStore
