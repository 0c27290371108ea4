import RowStore.Proofs.Catalog.Opening
import RowStore.Proofs.Engine.Confined
import RowStore.Proofs.Engine.History
import RowStore.Proofs.Sql.Image

/-!
The states that texts alone lead to, from a data directory that was empty at first. In each of them the
databases are orderly, and the sessions are in databases of plain names. Where the path to the databases
is too long to lead anywhere, there are none.
-/

namespace RowStore

open Engine

variable {δ ι : Type} [DecidableEq ι] {data : Path} {S : ι → Session} {w : World δ}

/-- The sessions of all users and the world, after statements of any texts by any users. The directory
may be opened again in between. -/
inductive Reached (data : Path) : (ι → Session) → World δ → Prop
  | opened {f : Files} {state : δ} : f.find data = .ok (.directory []) →
      Reached data (fun _ => .fresh)
        ((Catalog.ofDataDirectory data .onFiles).prepare (World.ofFiles f state)).2
  | reopened {S : ι → Session} {w : World δ} : Reached data S w →
      Reached data S ((Catalog.ofDataDirectory data .onFiles).prepare w).2
  | ran {S : ι → Session} {w w' : World δ} {user : ι} {text : String} {p : Sql.Parsed} {r : Result}
      {s : Session} : p ∈ Sql.parse text → Reached data S w →
      runParsed (Catalog.ofDataDirectory data .onFiles) (S user) w p = (r, s, w') →
      Reached data (Function.update S user s) w'

theorem Reached.runAll {user : ι} {text : String} {ps : List Sql.Parsed} {rs : List Result}
    {s : Session} {w' : World δ} (parsed : ∀ p ∈ ps, p ∈ Sql.parse text) (h : Reached data S w)
    (ran : Engine.runAll (Catalog.ofDataDirectory data .onFiles) (S user) w ps = (rs, s, w')) :
    Reached data (Function.update S user s) w' := by
  induction ps generalizing S w rs with
  | nil =>
    cases ran
    rwa [Function.update_eq_self]
  | cons p ps ih =>
    cases first : runParsed (Catalog.ofDataDirectory data .onFiles) (S user) w p with
    | mk r after =>
      obtain ⟨s', next⟩ := after
      have reached := h.ran (parsed p (.head _)) first
      cases rest : Engine.runAll (Catalog.ofDataDirectory data .onFiles) s' next ps with
      | mk rs' last =>
        simp only [Engine.runAll, first, rest] at ran
        cases ran
        rw [← Function.update_self user s' S] at rest
        have all := ih (fun q mem => parsed q (.tail _ mem)) reached rest
        rwa [Function.update_idem] at all

theorem Reached.run {user : ι} {text : String} {rs : List Result} {s : Session} {w' : World δ}
    (h : Reached data S w)
    (ran : Engine.run (Catalog.ofDataDirectory data .onFiles) (S user) w text = (rs, s, w')) :
    Reached data (Function.update S user s) w' :=
  h.runAll (fun _ => id) ran

theorem Reached.of_mem_worlds {user : ι} {text : String} {ps : List Sql.Parsed} {w' : World δ}
    (parsed : ∀ p ∈ ps, p ∈ Sql.parse text) (h : Reached data S w)
    (mem : w' ∈ worlds (Catalog.ofDataDirectory data .onFiles) (S user) w ps) :
    ∃ S' : ι → Session, Reached data S' w' := by
  induction ps generalizing S w with
  | nil => cases mem
  | cons p ps ih =>
    have reached : Reached data (Function.update S user _) _ := h.ran (parsed p (.head _)) rfl
    rw [worlds] at mem
    rcases List.mem_cons.1 mem with rfl | mem
    · exact ⟨_, reached⟩
    · refine ih (fun q mem => parsed q (.tail _ mem)) reached ?_
      rwa [Function.update_self]

theorem Reached.of_mem_history {events : List (Event ι)} {w' : World δ} (h : Reached data S w)
    (mem : w' ∈ history (Catalog.ofDataDirectory data .onFiles) S w events) :
    ∃ S' : ι → Session, Reached data S' w' := by
  induction events generalizing S w with
  | nil => cases mem
  | cons event events ih =>
    cases event with
    | text user sql =>
      rw [history] at mem
      rcases List.mem_append.1 mem with mem | mem
      · exact h.of_mem_worlds (fun _ => id) mem
      · exact ih (h.run rfl) mem
    | opening =>
      rw [history] at mem
      rcases List.mem_cons.1 mem with rfl | mem
      · exact ⟨S, h.reopened⟩
      · exact ih h.reopened mem

def OrderlyAt (v : Volume) (database : String) (o : Option Tree) : Prop :=
  ∀ t, o = some t → v.Reaches database ∧ ∃ fs, t = .directory fs ∧ Orderly fs

/-- Orderly databases, each of its own plain name. -/
structure Neat (v : Volume) (es : List (String × Tree)) : Prop where
  nodup : (es.map Prod.fst).Nodup
  plain : ∀ name ∈ es.map Prod.fst, Sql.PlainName name
  database : ∀ name, OrderlyAt v name (Entries.get? name es)

namespace Neat

variable {v : Volume} {es fs : List (String × Tree)} {database : String}

theorem empty : Neat v [] := ⟨List.nodup_nil, nofun, fun _ => nofun⟩

theorem put (h : Neat v es) (plain : Sql.PlainName database) (reached : v.Reaches database)
    (orderly : Orderly fs) : Neat v (Entries.put database (.directory fs) es) where
  nodup := Entries.nodup_put h.nodup
  plain name mem := by
    rcases Entries.mem_map_fst_put.1 mem with rfl | mem
    · exact plain
    · exact h.plain name mem
  database name := by
    by_cases same : name = database
    · rw [same, Entries.get?_put_self]
      rintro _ ⟨⟩
      exact ⟨reached, fs, rfl, orderly⟩
    · rw [Entries.get?_put_of_ne same]
      exact h.database name

theorem erase (h : Neat v es) : Neat v (Entries.erase database es) where
  nodup := Entries.nodup_erase h.nodup
  plain name mem := h.plain name (Entries.mem_map_fst_erase.1 mem).2
  database name := by
    by_cases same : name = database
    · rw [same, Entries.get?_erase_self]
      exact nofun
    · rw [Entries.get?_erase_of_ne same]
      exact h.database name

theorem none_or_directory (h : Neat v es) (database : String) :
    Entries.get? database es = none ∨ v.Reaches database ∧
      ∃ fs, Entries.get? database es = some (.directory fs) ∧ Orderly fs := by
  cases at_ : Entries.get? database es with
  | none => exact .inl rfl
  | some t =>
    obtain ⟨reached, fs, rfl, orderly⟩ := h.database database t at_
    exact .inr ⟨reached, fs, rfl, orderly⟩

end Neat

def PlainSession (s : Session) : Prop := ∀ name, s.database = some name → Sql.PlainName name

section Steps

variable (v : Volume) (state : δ) {es : List (String × Tree)} {s : Session}

theorem Neat.exists_execute (h : Neat v es) (plain : PlainSession s) {stmt : Sql.Statement}
    (names : ∀ name ∈ stmt.names, Sql.PlainName name) :
    ∃ r s' es', (execute (v.catalog δ) stmt).Yields s (v.disk state es) r s' (v.disk state es') ∧
      Neat v es' ∧ PlainSession s' := by
  have tables (on : stmt.OnTables) : ∃ r s' es',
      (execute (v.catalog δ) stmt).Yields s (v.disk state es) r s' (v.disk state es') ∧
        Neat v es' ∧ PlainSession s' := by
    cases current : s.database with
    | none => exact ⟨_, s, es, execute_unselected current on, h, plain⟩
    | some database =>
      have named := plain database current
      rcases h.none_or_directory database with entry | ⟨hd, fs, entry, orderly⟩
      · exact ⟨_, s, es, execute_missing current (v.misses state named.isName entry) on, h, plain⟩
      · obtain ⟨x, whole, confined⟩ :=
          execute_confined (δ := δ) (v := v) current hd on names
        obtain ⟨r, fs', orderly', -, run⟩ := confined fs orderly
        rw [whole]
        exact ⟨r, s, _, .within (run state es entry), h.put named hd orderly', plain⟩
  cases stmt with
  | createTable name columns | dropTable name | insert table columns literals
  | select columns table filter => exact tables trivial
  | showNames target =>
    cases target with
    | tables => exact tables trivial
    | databases =>
      exact ⟨_, s, es, .within (.bind (.mapError _ (v.databases_yields state es)) (.pure _)), h,
        plain⟩
  | createDatabase name =>
    have named := names _ (.head _)
    rcases h.none_or_directory name.name with entry | ⟨hd, fs, entry, -⟩
    · by_cases hd : v.Reaches name.name
      · exact ⟨_, s, _, .onWorld (.bind (.mapError _ (v.createDatabase_yields state hd entry))
          (.pure _)), h.put named hd .empty, plain⟩
      · exact ⟨_, s, es, .onWorld (.bind_error (.mapError _
          (v.createDatabase_yields_far state named.isName hd entry))), h, plain⟩
    · exact ⟨_, s, es, .onWorld (.bind_error (.mapError _
        (v.createDatabase_yields_exists state hd entry))), h, plain⟩
  | dropDatabase name =>
    have named := (names _ (.head _)).isName
    rcases h.none_or_directory name.name with entry | ⟨hd, fs, entry, -⟩
    · exact ⟨_, s, es, dropDatabase_yields_error (v.misses state named entry).dropDatabase, h, plain⟩
    · refine ⟨_, s.leave name.name, _, dropDatabase_yields (v.dropDatabase_yields state hd entry),
        h.erase, ?_⟩
      intro other eq
      rw [Session.leave] at eq
      split at eq
      · cases eq
      · exact plain other eq
  | useDatabase name =>
    have named := names _ (.head _)
    rcases h.none_or_directory name.name with entry | ⟨hd, fs, entry, -⟩
    · exact ⟨_, s, es, useDatabase_yields_error (v.misses state named.isName entry), h, plain⟩
    · refine ⟨_, s.select name.name, es, useDatabase_yields (v.finds state hd entry), h, ?_⟩
      rintro other ⟨⟩
      exact named

end Steps

structure Tidy (v : Volume) (state : δ) (S : ι → Session) (w : World δ) : Prop where
  disk : ∃ es, w.disk = v.disk state es ∧ Neat v es
  session : ∀ user, PlainSession (S user)

theorem Tidy.runParsed {v : Volume} {state : δ} (h : Tidy v state S w) {text : String}
    {p : Sql.Parsed} (parsed : p ∈ Sql.parse text) {user : ι} {r : Result} {s : Session}
    {w' : World δ} (ran : Engine.runParsed (v.catalog δ) (S user) w p = (r, s, w')) :
    Tidy v state (Function.update S user s) w' := by
  cases p with
  | error e =>
    cases ran
    rwa [Function.update_eq_self]
  | ok stmt =>
    obtain ⟨es, disk, neat⟩ := h.disk
    have names := (Sql.printable_of_mem_parse parsed).names
    obtain ⟨answer, s', es', yields, neat', plain⟩ :=
      neat.exists_execute v state (h.session user) names
    rw [← disk] at yields
    obtain ⟨w'', disk', eq⟩ := runParsed_of_yields yields
    cases eq.symm.trans ran
    refine ⟨⟨es', disk', neat'⟩, fun other => ?_⟩
    by_cases same : other = user
    · rw [same, Function.update_self]
      exact plain
    · rw [Function.update_of_ne same]
      exact h.session other

structure Lost (data : Path) (S : ι → Session) : Prop where
  free : '\x00' ∉ (data.join "databases").text.toList
  far : Files.pathLimit ≤ (data.join "databases").text.utf8ByteSize
  session : ∀ user, (S user).database = none

namespace Lost

variable (h : Lost data S)

omit [DecidableEq ι]

include h

theorem locate {database : String} (hd : Sql.IsName database) (f : Files) :
    f.locate ((data.join "databases").join database) = .error .nameTooLong :=
  Files.locate_long (Path.nul_not_mem_join hd.plain h.free)
    (h.far.trans (Path.utf8ByteSize_le_join hd.plain _))

theorem misses {database : String} (hd : Sql.IsName database) (d : Disk δ) :
    (Catalog.ofDataDirectory data .onFiles).Misses d database :=
  Catalog.misses_of_isDirectory rfl (Files.isDirectory_refused (h.locate hd d.files))

theorem exists_execute (d : Disk δ) (user : ι) {stmt : Sql.Statement}
    (names : ∀ name ∈ stmt.names, Sql.PlainName name) :
    ∃ e, (execute (Catalog.ofDataDirectory data .onFiles) stmt).Yields (S user) d (.error e) (S user)
      d := by
  have tables (on : stmt.OnTables) := execute_unselected (d := d)
    (c := Catalog.ofDataDirectory data .onFiles) (h.session user) on
  cases stmt with
  | createTable name columns | dropTable name | insert table columns literals
  | select columns table filter => exact ⟨_, tables trivial⟩
  | showNames target =>
    cases target with
    | tables => exact ⟨_, tables trivial⟩
    | databases =>
      have refused := Files.list_refused (Files.locate_long (f := d.files) h.free h.far)
      have answer : Directory.onFiles.listSubdirectories (data.join "databases") d
          = (.error .nameTooLong, d) :=
        Prod.ext (congrArg (Except.map Directory.subdirectoryNames) refused) rfl
      exact ⟨_, .within (.bind_error (.mapError _ (.bind_error (.mapError _ (.ask answer)))))⟩
  | createDatabase name =>
    have hd := (names _ (.head _)).isName
    exact ⟨_, .onWorld (.bind_error (.mapError _ ((h.misses hd d).createDatabase rfl
      (Files.makeDirectory_refused (h.locate hd d.files)))))⟩
  | dropDatabase name =>
    exact ⟨_, dropDatabase_yields_error (h.misses (names _ (.head _)).isName d).dropDatabase⟩
  | useDatabase name =>
    exact ⟨_, useDatabase_yields_error (h.misses (names _ (.head _)).isName d)⟩

theorem runParsed {text : String} {p : Sql.Parsed} (parsed : p ∈ Sql.parse text) {user : ι}
    {r : Result} {s : Session} {w' : World δ}
    (ran : Engine.runParsed (Catalog.ofDataDirectory data .onFiles) (S user) w p = (r, s, w')) :
    s = S user := by
  cases p with
  | error e =>
    cases ran
    rfl
  | ok stmt =>
    obtain ⟨e, yields⟩ := h.exists_execute w.disk user (Sql.printable_of_mem_parse parsed).names
    obtain ⟨w'', -, eq⟩ := runParsed_of_yields yields
    cases eq.symm.trans ran
    rfl

end Lost

theorem Reached.tidy_or_lost (h : Reached data S w) : (∃ (v : Volume) (state : δ),
    v.root = data.join "databases" ∧ Tidy v state S w) ∨ Lost data S := by
  induction h with
  | @opened f state empty =>
    by_cases short : (data.join "databases").text.utf8ByteSize < Files.pathLimit
    · obtain ⟨v, root, first⟩ := exists_prepare_yields empty short state
      refine .inl ⟨v, state, root, ⟨[], ?_, .empty⟩, fun _ => nofun⟩
      rw [v.ofDataDirectory_eq root]
      exact (first _ rfl).2
    · obtain ⟨v, -, root⟩ := Volume.exists_of_find empty
      have free := Path.nul_not_mem_join plain_databases v.nul_not_mem_root
      rw [root] at free
      exact .inr ⟨free, Nat.le_of_not_lt short, fun _ => rfl⟩
  | reopened _ ih =>
    rcases ih with ⟨v, state, root, tidy⟩ | lost
    · obtain ⟨es, disk, neat⟩ := tidy.disk
      have some_ : v.root.steps ≠ [] := root ▸ steps_databases data
      refine .inl ⟨v, state, root, ⟨es, ?_, neat⟩, tidy.session⟩
      rw [v.ofDataDirectory_eq root]
      exact (v.prepare_yields some_ state es _ disk).2
    · exact .inr lost
  | @ran S w w' user text p r s parsed _ run ih =>
    rcases ih with ⟨v, state, root, tidy⟩ | lost
    · rw [v.ofDataDirectory_eq root] at run
      exact .inl ⟨v, state, root, tidy.runParsed parsed run⟩
    · refine .inr ?_
      rwa [lost.runParsed parsed run, Function.update_eq_self]

section TwoDatabases

def sharedCatalog : Catalog Unit := Catalog.ofDataDirectory ⟨"/r"⟩ .onFiles

def said (user : Bool) (text : String) (before : (Bool → Session) × World Unit) :
    (Bool → Session) × World Unit :=
  let (_, s, w) := Engine.run sharedCatalog (before.1 user) before.2 text
  (Function.update before.1 user s, w)

theorem reached_said {before : (Bool → Session) × World Unit}
    (h : Reached ⟨"/r"⟩ before.1 before.2) (user : Bool) (text : String) :
    Reached ⟨"/r"⟩ (said user text before).1 (said user text before).2 :=
  h.run rfl

def twoDatabases : (Bool → Session) × World Unit :=
  said true "CREATE DATABASE e; USE e; CREATE TABLE t (a int);"
    (said false "CREATE DATABASE d; USE d; CREATE TABLE t (a int);"
      (fun _ => .fresh,
        (sharedCatalog.prepare (World.ofFiles vacantFiles ())).2))

theorem reached_twoDatabases : Reached ⟨"/r"⟩ twoDatabases.1 twoDatabases.2 :=
  reached_said (reached_said (.opened vacant_vacantFiles.empty) _ _) _ _

end TwoDatabases

end RowStore
