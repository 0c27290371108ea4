import RowStore.Proofs.Catalog.Opening
import RowStore.Proofs.Engine.History
import RowStore.Proofs.Memory.Simulation

namespace RowStore

namespace Memory

variable {ι : Type} [DecidableEq ι]

def runParsed (m : Store) (current : Option String) :
    Sql.Parsed → Engine.Result × Store × Option String
  | .error e => (.error (.parse e), m, current)
  | .ok stmt => match execute m current stmt with
    | .ok (outcome, m', current') => (.ok outcome, m', current')
    | .error e => (.error e, m, current)

def runAll (m : Store) (current : Option String) :
    List Sql.Parsed → List Engine.Result × Store × Option String
  | [] => ([], m, current)
  | p :: ps =>
    let (r, m', current') := runParsed m current p
    let (rs, m'', current'') := runAll m' current' ps
    (r :: rs, m'', current'')

def serve (m : Store) (current : ι → Option String) : List (Event ι) → List Reply
  | [] => []
  | .text user sql :: events =>
    let (rs, m', selected) := runAll m (current user) (Sql.parse sql)
    .results rs :: serve m' (Function.update current user selected) events
  | .opening :: events => .opened (.ok ()) :: serve m current events

theorem Named.execute {m m' : Store} {current current' : Option String} {stmt : Sql.Statement}
    {outcome : Outcome} (h : Named current) (proper : stmt.WellNamed)
    (ran : Memory.execute m current stmt = .ok (outcome, m', current')) : Named current' := by
  cases stmt with
  | createDatabase name =>
    rw [Memory.execute] at ran
    split at ran <;> cases ran
    exact h
  | dropDatabase name =>
    rw [Memory.execute] at ran
    split at ran <;> cases ran
    split
    · rintro _ ⟨⟩
    · exact h
  | useDatabase name =>
    rw [Memory.execute] at ran
    split at ran <;> cases ran
    rintro _ ⟨⟩
    exact proper.names _ (.head _)
  | showNames target =>
    cases target with
    | databases =>
      cases ran
      exact h
    | tables =>
      rw [Memory.execute] at ran
      cases found : database m current <;> rw [found] at ran <;> cases ran
      exact h
  | createTable name columns =>
    rw [Memory.execute] at ran
    cases found : database m current with
    | error e =>
      rw [found] at ran
      cases ran
    | ok selected =>
      rw [found] at ran
      simp only [bind, Except.bind] at ran
      split at ran <;> cases ran
      exact h
  | dropTable name =>
    rw [Memory.execute] at ran
    cases found : table m current name.name <;> rw [found] at ran <;> cases ran
    exact h
  | insert name columns literals =>
    rw [Memory.execute] at ran
    cases found : table m current name.name with
    | error e =>
      rw [found] at ran
      cases ran
    | ok selected =>
      rw [found] at ran
      simp only [bind, Except.bind] at ran
      split at ran
      · split at ran <;> cases ran
        exact h
      · cases ran
  | select columns name filter =>
    rw [Memory.execute] at ran
    cases found : table m current name.name with
    | error e =>
      rw [found] at ran
      cases ran
    | ok selected =>
      rw [found] at ran
      simp only [bind, Except.bind] at ran
      split at ran <;> cases ran
      exact h

end Memory

open Memory (Store Named)

section Runs

variable {δ ι : Type} [DecidableEq ι] {v : NearVolume} {state : δ} {m : Store} {w : World δ}
  {current : Option String}

def Keeps (v : NearVolume) (state : δ) (m : Store) (w : World δ) : Prop :=
  ∃ es, w.disk = v.disk state es ∧ m.Image es

theorem Keeps.roomy (h : Keeps v state m w) (roomy : Roomy v.root w.files) : m.Roomy := by
  obtain ⟨es, disk, image⟩ := h
  intro database tables there name t inside
  obtain ⟨fs, entry, files⟩ := image.database database tables there
  have own := files.table name t inside
  obtain ⟨content, data, written⟩ := own.data
  have holding : w.files = v.holding es := congrArg Disk.files disk
  have list : w.files.list v.root = .ok es := by
    rw [holding]
    exact Files.list_directory (v.locate_root es) (v.at?_root es)
  have stem := (Catalog.stem?_fileName own.named.table Catalog.table_mem
    Catalog.tableExtension).trans (if_pos rfl)
  have few := roomy content (mem_allTableContents list entry (mem_tableContents stem data))
  rwa [written.counted own.small] at few

theorem runParsed_keeps {sql : String} {p : Sql.Parsed} (h : Keeps v state m w)
    (named : Named current) (roomy : m.Roomy) (parsed : p ∈ Sql.parse sql) :
    ∃ r m' current' w', Memory.runParsed m current p = (r, m', current') ∧
      Engine.runParsed (v.catalog δ) ⟨current⟩ w p = (r, ⟨current'⟩, w') ∧
      Keeps v state m' w' ∧ Named current' := by
  cases p with
  | error e => exact ⟨_, _, _, _, rfl, rfl, h, named⟩
  | ok stmt =>
    obtain ⟨es, disk, image⟩ := h
    have proper := Sql.wellNamed_of_mem_parse parsed
    have simulated : Engine.Simulates v state m es ⟨current⟩ (Engine.execute (v.catalog δ) stmt)
        (Memory.execute m current stmt) :=
      Engine.execute_simulates image named roomy proper
    obtain ⟨es', yields, after⟩ := simulated
    obtain ⟨answer, session, disk'⟩ := yields w disk
    rw [Memory.runParsed, Engine.runParsed]
    cases result : Engine.execute (v.catalog δ) stmt ⟨current⟩ w with
    | mk r rest =>
      rw [result] at answer session disk'
      obtain ⟨s', w'⟩ := rest
      cases ran : Memory.execute m current stmt with
      | error e =>
        rw [ran] at answer session after
        cases answer
        cases session
        exact ⟨_, _, _, _, rfl, rfl, ⟨es', disk', after⟩, named⟩
      | ok results =>
        obtain ⟨outcome, m', current'⟩ := results
        rw [ran] at answer session after
        cases answer
        cases session
        exact ⟨_, _, _, _, rfl, rfl, ⟨es', disk', after⟩, named.execute proper ran⟩

theorem runAll_keeps {sql : String} {ps : List Sql.Parsed} (h : Keeps v state m w)
    (named : Named current) (start : m.Roomy) (parsed : ∀ p ∈ ps, p ∈ Sql.parse sql)
    (roomy : ∀ w' ∈ Engine.worlds (v.catalog δ) ⟨current⟩ w ps, Roomy v.root w'.files) :
    ∃ rs m' current' w', Memory.runAll m current ps = (rs, m', current') ∧
      Engine.runAll (v.catalog δ) ⟨current⟩ w ps = (rs, ⟨current'⟩, w') ∧
      Keeps v state m' w' ∧ Named current' ∧ m'.Roomy ∧
      ∀ w' ∈ Engine.worlds (v.catalog δ) ⟨current⟩ w ps, ∃ m', Keeps v state m' w' := by
  -- What is known of one world gives the room that the next statement needs.
  induction ps generalizing m w current with
  | nil => exact ⟨_, _, _, _, rfl, rfl, h, named, start, nofun⟩
  | cons p ps ih =>
    obtain ⟨r, m', current', w', memory, disk, after, named'⟩ :=
      runParsed_keeps h named start (parsed p (.head _))
    rw [Engine.worlds, disk] at roomy ⊢
    have room := after.roomy (roomy w' (.head _))
    obtain ⟨rs, m'', current'', w'', memory', disk', after', named'', room', all⟩ :=
      ih after named' room (fun q mem => parsed q (.tail _ mem))
        fun u mem => roomy u (.tail _ mem)
    refine ⟨r :: rs, m'', current'', w'', ?_, ?_, after', named'', room', ?_⟩
    · simp only [Memory.runAll, memory, memory']
    · simp only [Engine.runAll, disk, disk']
    · rintro u (_ | ⟨_, mem⟩)
      · exact ⟨m', after⟩
      · exact all u mem

theorem serve_keeps {current : ι → Option String} (events : List (Event ι))
    (some_ : v.root.steps ≠ []) (h : Keeps v state m w) (named : ∀ user, Named (current user))
    (start : m.Roomy)
    (roomy : ∀ w' ∈ Engine.history (v.catalog δ) (Session.mk ∘ current) w events,
      Roomy v.root w'.files) :
    Engine.serve (v.catalog δ) (Session.mk ∘ current) w events = Memory.serve m current events ∧
      ∀ w' ∈ Engine.history (v.catalog δ) (Session.mk ∘ current) w events,
        ∃ m', Keeps v state m' w' := by
  induction events generalizing m w current with
  | nil => exact ⟨rfl, nofun⟩
  | cons event events ih =>
    cases event with
    | opening =>
      -- All that lasts is on the disk, and the disk stays as it is.
      obtain ⟨es, disk, image⟩ := h
      obtain ⟨answer, disk'⟩ := v.prepare_yields some_ state es w disk
      cases opened : (v.catalog δ).prepare w with
      | mk r w' =>
        rw [opened] at answer disk'
        cases answer
        have after : Keeps v state m w' := ⟨es, disk', image⟩
        simp only [Engine.history, Engine.serve, Memory.serve, opened] at roomy ⊢
        obtain ⟨same, all⟩ := ih after named start fun u mem => roomy u (.tail _ mem)
        refine ⟨congrArg _ same, ?_⟩
        rintro u (_ | ⟨_, mem⟩)
        · exact ⟨m, after⟩
        · exact all u mem
    | text user sql =>
      simp only [Engine.history, Engine.serve, Memory.serve, Engine.run] at roomy ⊢
      obtain ⟨rs, m', current', w', memory, disk, after, named', start', all⟩ :=
        runAll_keeps h (named user) start (fun _ => id)
          fun u mem => roomy u (List.mem_append_left _ mem)
      have sessions : Function.update (Session.mk ∘ current) user ⟨current'⟩
          = Session.mk ∘ Function.update current user current' :=
        (Function.comp_update _ _ _ _).symm
      have others : ∀ other, Named (Function.update current user current' other) := by
        intro other
        by_cases same : other = user
        · rw [same, Function.update_self]
          exact named'
        · rw [Function.update_of_ne same]
          exact named other
      simp only [Function.comp_apply, disk, memory, sessions] at roomy ⊢
      obtain ⟨same, later⟩ := ih after others start'
        fun u mem => roomy u (List.mem_append_right _ mem)
      refine ⟨congrArg _ same, ?_⟩
      intro u mem
      rcases List.mem_append.1 mem with mem | mem
      · exact all u mem
      · exact later u mem

theorem Vacant.serve_keeps {data : Path} (vacant : Vacant data w.files)
    {events : List (Event ι)}
    (roomy : ∀ w' ∈ Engine.history (Catalog.ofDataDirectory data .onFiles) (fun _ => .fresh) w
      (.opening :: events), Roomy (data.join "databases") w'.files) :
    ∃ v : NearVolume, v.root = data.join "databases" ∧
      Engine.serve (Catalog.ofDataDirectory data .onFiles) (fun _ => .fresh) w (.opening :: events)
        = .opened (.ok ()) :: Memory.serve ∅ (fun _ => none) events ∧
      ∀ w' ∈ Engine.history (Catalog.ofDataDirectory data .onFiles) (fun _ => .fresh) w
        (.opening :: events), ∃ m, Keeps v w.disk.state m w' := by
  obtain ⟨v, root, first⟩ := vacant.prepare_yields w.disk.state
  obtain ⟨answer, disk⟩ := first w rfl
  have some_ : v.root.steps ≠ [] := root ▸ steps_databases data
  have same : (Catalog.ofDataDirectory data .onFiles : Catalog δ) = v.catalog δ :=
    v.ofDataDirectory_eq root
  rw [same, ← root] at roomy
  rw [same]
  cases opened : (v.catalog δ).prepare w with
  | mk r w' =>
    rw [opened] at answer disk
    cases answer
    have empty : Keeps v w.disk.state ∅ w' := ⟨[], disk, .empty⟩
    have start : Store.Roomy ∅ := fun _ _ found => by simp at found
    simp only [Engine.history, Engine.serve, opened] at roomy ⊢
    have nobody (user : ι) : Named ((fun _ => none) user) := nofun
    obtain ⟨replies, all⟩ := RowStore.serve_keeps events some_ empty nobody start
      fun u mem => roomy u (.tail _ mem)
    refine ⟨v, root, congrArg _ replies, ?_⟩
    rintro u (_ | ⟨_, mem⟩)
    · exact ⟨∅, empty⟩
    · exact all u mem

/-- Users of a data directory that was empty at first get the replies that databases in memory give. -/
theorem serve_eq_memory {data : Path} (vacant : Vacant data w.files) (events : List (Event ι))
    (roomy : ∀ w' ∈ Engine.history (Catalog.ofDataDirectory data .onFiles) (fun _ => .fresh) w
      (.opening :: events), Roomy (data.join "databases") w'.files) :
    Engine.serve (Catalog.ofDataDirectory data .onFiles) (fun _ => .fresh) w (.opening :: events)
      = .opened (.ok ()) :: Memory.serve ∅ (fun _ => none) events := by
  obtain ⟨-, -, replies, -⟩ := vacant.serve_keeps roomy
  exact replies

end Runs

section TwoUsers

def twoUsers : List (Event Bool) :=
  [.text false "CREATE DATABASE d; USE d; CREATE TABLE t (a int, b varchar);",
    .text true "USE d; INSERT INTO t VALUES (1, 'x');", .opening,
    .text false "SELECT b FROM t WHERE a = 1; DROP DATABASE d;", .text true "SHOW TABLES;"]

def twoUsersWorlds : List (World Unit) :=
  Engine.history (Catalog.ofDataDirectory ⟨"/r"⟩ .onFiles) (fun _ => .fresh)
    (World.ofFiles vacantFiles ()) (.opening :: twoUsers)

theorem roomy_twoUsers :
    ∀ w ∈ twoUsersWorlds, Roomy (Path.join ⟨"/r"⟩ "databases") w.files := by
  decide +kernel

def twoUsersReplies : List Reply :=
  [.results [.ok (.databaseCreated "d"), .ok (.databaseChanged "d"), .ok (.tableCreated "t")],
    .results [.ok (.databaseChanged "d"), .ok (.inserted "t" 1)], .opened (.ok ()),
    .results [.ok (.selected ⟨["b"], [[.varchar "x"]]⟩), .ok (.databaseDropped "d")],
    .results [.error (.noSuchDatabase "d")]]

theorem serve_eq_memory_twoUsers :
    Vacant ⟨"/r"⟩ vacantFiles ∧
      (∀ w ∈ twoUsersWorlds, Roomy (Path.join ⟨"/r"⟩ "databases") w.files) ∧
      Engine.serve (Catalog.ofDataDirectory ⟨"/r"⟩ .onFiles) (fun _ => .fresh)
          (World.ofFiles vacantFiles ()) (.opening :: twoUsers)
        = .opened (.ok ()) :: twoUsersReplies := by
  have memory : Memory.serve ∅ (fun _ => none) twoUsers = twoUsersReplies := by decide +kernel
  refine ⟨vacant_vacantFiles, roomy_twoUsers, ?_⟩
  rw [← memory]
  exact serve_eq_memory (w := World.ofFiles vacantFiles ()) vacant_vacantFiles twoUsers roomy_twoUsers

end TwoUsers

end RowStore
