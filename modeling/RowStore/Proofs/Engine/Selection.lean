import RowStore.Proofs.Engine.Confined

/-!
Which database a session has selected. Its results alone say it, whatever the directory service answers
and whatever becomes of the disk between two statements.
-/

namespace RowStore

variable {δ : Type}

def Action.Gives {ε α : Type} (P : α → Prop) (x : Action δ ε α) : Prop :=
  ∀ w a w', x w = (.ok a, w') → P a

namespace Action.Gives

variable {ε α β : Type} {P : α → Prop} {Q : β → Prop}

theorem succeed {a : α} (h : P a) : Gives P (Action.succeed a : Action δ ε α) := by
  rintro w _ _ ⟨⟩
  exact h

theorem fail (e : ε) : Gives P (Action.fail e : Action δ ε α) := nofun

theorem bind {x : Action δ ε α} {f : α → Action δ ε β} (hx : Gives P x)
    (hf : ∀ a, P a → Gives Q (f a)) : Gives Q (x >>= f) := by
  intro w b w' h
  rw [bind_apply] at h
  cases first : x w with
  | mk r v =>
    rw [first] at h
    cases r with
    | error e => cases h
    | ok a => exact hf a (hx w a v first) v b w' h

theorem behind {x : Action δ ε α} {f : α → Action δ ε β} (hf : ∀ a, Gives Q (f a)) :
    Gives Q (x >>= f) :=
  bind (P := fun _ => True) (fun _ _ _ _ => trivial) fun a _ => hf a

end Action.Gives

namespace Session

variable {s : Session} {name : String}

def after (s : Session) : Engine.Result → Session
  | .ok (.databaseChanged name) => s.select name
  | .ok (.databaseDropped name) => s.leave name
  | _ => s

theorem database_leave (other : String) :
    (s.leave other).database = some name ↔ s.database = some name ∧ other ≠ name := by
  rw [leave]
  split
  · rename_i current
    simp [current]
  · rename_i current
    constructor
    · intro start
      refine ⟨start, ?_⟩
      rintro rfl
      exact current start
    · exact And.left

theorem database_after {r : Engine.Result} : (s.after r).database = some name ↔
    r = .ok (.databaseChanged name) ∨ s.database = some name ∧
      (∀ other, r ≠ .ok (.databaseChanged other)) ∧ r ≠ .ok (.databaseDropped name) := by
  unfold after
  split
  · simp [select]
  · simp [database_leave]
  · rename_i changed dropped
    constructor
    · exact fun start => .inr ⟨start, changed, dropped name⟩
    · rintro (eq | ⟨start, -⟩)
      · exact absurd eq (changed name)
      · exact start

end Session

def Outcome.Keeps (outcome : Outcome) : Prop := ∀ s : Session, s.after (.ok outcome) = s

namespace Engine

open RowStore.Action (Gives)

section Outcomes

variable (c : Catalog δ) (s : Session)

theorem createDatabase_gives (name : String) : Gives Outcome.Keeps (createDatabase c name) :=
  .behind fun _ => .succeed fun _ => rfl

theorem createTable_gives (schema : TableSchema) : Gives Outcome.Keeps (createTable c s schema) := by
  refine .behind fun database => .behind fun _ => .behind fun answer => ?_
  cases answer with
  | ok u => exact .behind fun _ => .succeed fun _ => rfl
  | error e => exact .behind fun _ => .fail _

theorem dropTable_gives (name : String) : Gives Outcome.Keeps (dropTable c s name) :=
  .behind fun _ => .behind fun _ => .succeed fun _ => rfl

theorem showNames_gives (target : Sql.ShowTarget) : Gives Outcome.Keeps (showNames c s target) := by
  cases target with
  | databases => exact .behind fun _ => .succeed fun _ => rfl
  | tables => exact .behind fun _ => .behind fun _ => .succeed fun _ => rfl

theorem addRow_gives (table : String) (literals : List Sql.Literal) (f : TableFile)
    (content : Content) : Gives Outcome.Keeps (addRow table literals f content : Act δ Outcome) := by
  refine .behind fun row => ?_
  rcases f.append row content with ⟨added, longer⟩
  refine .behind fun _ => ?_
  cases added with
  | ok g => exact .succeed fun _ => rfl
  | error e => exact .fail _

theorem insert_gives (table : String) (columns : Option Sql.Columns) (literals : List Sql.Literal) :
    Gives Outcome.Keeps (insert c s table columns literals) := by
  refine .behind fun database => .behind fun schema => ?_
  have rest : Gives Outcome.Keeps (openTable c database schema >>= fun p =>
      addRow table literals p.1 p.2) := .behind fun p => addRow_gives table literals p.1 p.2
  split
  · split
    · exact .behind fun _ => rest
    · exact rest
  · exact .fail _

theorem select_gives (columns : Sql.Columns) (table : String) (filter : Option Sql.Filter) :
    Gives Outcome.Keeps (select c s columns table filter) := by
  refine .behind fun database => .behind fun schema => .behind fun p => .behind fun opened => ?_
  dsimp only
  split
  · exact .behind fun _ => .succeed fun _ => rfl
  · exact .fail _

def Follows (x : Turn δ Outcome) : Prop := ∀ w, (x s w).2.1 = s.after (x s w).1

theorem Follows.within {x : Session → Act δ Outcome} (h : Gives Outcome.Keeps (x s)) :
    Follows s (.within x) := by
  intro w
  rw [Turn.within, Turn.onWorld]
  cases answer : x s w with
  | mk r w' =>
    cases r with
    | error e => rfl
    | ok outcome => exact (h w outcome w' answer s).symm

theorem useDatabase_follows (name : String) : Follows s (useDatabase c name) := by
  -- The database is looked up before the session moves to it.
  intro w
  rw [useDatabase, Turn.bind_apply, Turn.onWorld]
  rcases requireDatabase c name w with ⟨_ | _, w'⟩ <;> rfl

theorem dropDatabase_follows (name : String) : Follows s (dropDatabase c name) := by
  -- The database is gone before the session leaves it.
  intro w
  rw [dropDatabase, Turn.bind_apply, Turn.onWorld]
  rcases inCatalog (c.dropDatabase name) w with ⟨_ | _, w'⟩
  · rfl
  · dsimp only
    rw [Turn.bind_apply, Turn.leave]
    dsimp only
    split <;> rfl

theorem execute_follows (stmt : Sql.Statement) : Follows s (execute c stmt) := by
  cases stmt with
  | createDatabase name => exact .within s (createDatabase_gives c name.name)
  | createTable name columns => exact .within s (createTable_gives c s (schemaOf name columns))
  | dropDatabase name => exact dropDatabase_follows c s name.name
  | dropTable name => exact .within s (dropTable_gives c s name.name)
  | useDatabase name => exact useDatabase_follows c s name.name
  | showNames target => exact .within s (showNames_gives c s target)
  | insert table columns literals => exact .within s (insert_gives c s table.name columns literals)
  | select columns table filter => exact .within s (select_gives c s columns table.name filter)

theorem runParsed_after (w : World δ) (p : Sql.Parsed) :
    (runParsed c s w p).2.1 = s.after (runParsed c s w p).1 := by
  cases p with
  | error e => rfl
  | ok stmt => exact execute_follows c s stmt w

theorem runAll_after (w : World δ) (ps : List Sql.Parsed) :
    (runAll c s w ps).2.1 = (runAll c s w ps).1.foldl Session.after s := by
  induction ps generalizing s w with
  | nil => rfl
  | cons p ps ih =>
    rw [runAll, List.foldl_cons, ← runParsed_after c s w p]
    exact ih _ _

end Outcomes

structure Submission (δ : Type) where
  catalog : Catalog δ
  world : World δ
  parsed : Sql.Parsed

/-- The results of statements that share nothing but the session, and the session after them. Each may
meet another world, so anything may happen to the disk and to the directory service in between. -/
def runEach (s : Session) : List (Submission δ) → List Result × Session
  | [] => ([], s)
  | x :: xs =>
    let (r, s', _) := runParsed x.catalog s x.world x.parsed
    let (rs, s'') := runEach s' xs
    (r :: rs, s'')

theorem runEach_after (s : Session) (xs : List (Submission δ)) :
    (runEach s xs).2 = (runEach s xs).1.foldl Session.after s := by
  induction xs generalizing s with
  | nil => rfl
  | cons x xs ih =>
    rw [runEach, List.foldl_cons, ← runParsed_after x.catalog s x.world x.parsed]
    exact ih _

def Stays (name : String) (rs : List Result) : Prop :=
  ∀ r ∈ rs, (∀ other, r ≠ .ok (.databaseChanged other)) ∧ r ≠ .ok (.databaseDropped name)

/-- The last of the results that switches to a database switches to this one, or none does and this one
was selected at the start; and no later result drops it. -/
def Selects (start : Option String) (rs : List Result) (name : String) : Prop :=
  (start = some name ∧ Stays name rs) ∨
    ∃ former later, rs = former ++ .ok (.databaseChanged name) :: later ∧ Stays name later

section Selected

variable {s : Session} {name : String}

theorem selects_cons {r : Result} {rs : List Result} :
    Selects s.database (r :: rs) name ↔ Selects (s.after r).database rs name := by
  constructor
  · rintro (⟨start, stays⟩ | ⟨former, later, eq, stays⟩)
    · obtain ⟨kept, stays⟩ := List.forall_mem_cons.1 stays
      exact .inl ⟨Session.database_after.2 (.inr ⟨start, kept⟩), stays⟩
    · cases former with
      | nil =>
        cases eq
        exact .inl ⟨rfl, stays⟩
      | cons r' former =>
        cases eq
        exact .inr ⟨former, later, rfl, stays⟩
  · rintro (⟨start, stays⟩ | ⟨former, later, rfl, stays⟩)
    · rcases Session.database_after.1 start with rfl | ⟨start, kept⟩
      · exact .inr ⟨[], rs, rfl, stays⟩
      · exact .inl ⟨start, List.forall_mem_cons.2 ⟨kept, stays⟩⟩
    · exact .inr ⟨r :: former, later, rfl, stays⟩

theorem foldl_after (rs : List Result) :
    (rs.foldl Session.after s).database = some name ↔ Selects s.database rs name := by
  induction rs generalizing s with
  | nil =>
    constructor
    · intro h
      exact .inl ⟨h, nofun⟩
    · rintro (⟨start, -⟩ | ⟨former, later, eq, -⟩)
      · exact start
      · simp at eq
  | cons r rs ih => rw [List.foldl_cons, ih, selects_cons]

end Selected

section Unselected

variable {s : Session}

theorem currentDatabase_bind {α : Type} (none_ : s.database = none)
    (f : String → Act δ α) : (currentDatabase s >>= f) = Action.fail .noDatabaseSelected := by
  rw [currentDatabase, none_]
  rfl

theorem execute_eq_fail (c : Catalog δ) (none_ : s.database = none) {stmt : Sql.Statement}
    (tables : stmt.OnTables) (w : World δ) :
    execute c stmt s w = (.error .noDatabaseSelected, s, w) := by
  have fails : ∃ x : Session → Act δ Outcome,
      execute c stmt = .within x ∧ x s = Action.fail .noDatabaseSelected := by
    cases stmt with
    | createTable name columns | dropTable name | insert table columns values
    | select columns table filter => exact ⟨_, rfl, currentDatabase_bind none_ _⟩
    | showNames target =>
      cases target with
      | tables => exact ⟨_, rfl, currentDatabase_bind none_ _⟩
      | databases => cases tables
    | createDatabase name | dropDatabase name | useDatabase name => cases tables
  obtain ⟨x, whole, failed⟩ := fails
  rw [whole, Turn.within, Turn.onWorld, failed]
  rfl

end Unselected

/-- A session has selected the database of the last switch that succeeded, unless that was dropped
since. Failures change nothing, and while nothing is selected, statements about tables are refused
without any access to the disk. -/
theorem database_iff_selects (s : Session) :
    (∀ (xs : List (Submission δ)) (name : String),
      (runEach s xs).2.database = some name ↔ Selects s.database (runEach s xs).1 name) ∧
    ∀ (c : Catalog δ) (w : World δ),
      (∀ ps name, (runAll c s w ps).2.1.database = some name ↔
        Selects s.database (runAll c s w ps).1 name) ∧
      (∀ p e, (runParsed c s w p).1 = .error e → (runParsed c s w p).2.1 = s) ∧
      (s.database = none → ∀ stmt : Sql.Statement, stmt.OnTables →
        runParsed c s w (.ok stmt) = (.error .noDatabaseSelected, s, w)) := by
  refine ⟨?_, fun c w => ⟨?_, ?_, ?_⟩⟩
  · intro xs name
    rw [runEach_after, foldl_after]
  · intro ps name
    rw [runAll_after, foldl_after]
  · intro p e failed
    rw [runParsed_after, failed]
    rfl
  · intro none_ stmt tables
    exact execute_eq_fail c none_ tables w

def flickering : Directory Bool :=
  { Directory.void with directoryExists := fun _ d => (d.state, ⟨d.files, !d.state⟩) }

theorem database_iff_selects_flickering :
    let c : Catalog Bool := ⟨⟨"/r"⟩, flickering⟩
    let w := World.ofFiles ⟨.directory [], []⟩ true
    let use : Sql.Parsed := .ok (.useDatabase ⟨"d", ⟨0, 0⟩⟩)
    let drop : Sql.Parsed := .ok (.dropDatabase ⟨"d", ⟨0, 0⟩⟩)
    let (rs, s, v) := runAll c .fresh w [use, use, drop]
    rs = [.ok (.databaseChanged "d"), .error (.noSuchDatabase "d"), .ok (.databaseDropped "d")] ∧
      (runAll c .fresh w [use, use]).2.1.database = some "d" ∧
      runParsed c s v (.ok (.showNames .tables)) = (.error .noDatabaseSelected, s, v) := by
  intro c w use drop
  refine ⟨rfl, ?_, ?_⟩
  · refine (((database_iff_selects .fresh).2 c w).1 [use, use] "d").2 ?_
    exact .inr ⟨[], [.error (.noSuchDatabase "d")], rfl, by simp [Stays]⟩
  · exact ((database_iff_selects _).2 c _).2.2 rfl (.showNames .tables) trivial

end Engine

end RowStore
