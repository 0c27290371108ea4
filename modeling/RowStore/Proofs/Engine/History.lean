import Mathlib.Algebra.Group.Nat.Defs
import Mathlib.Logic.Function.Basic
import RowStore.Engine
import RowStore.Proofs.Disk.Tree
import RowStore.Proofs.Query.Select

namespace RowStore

inductive Event (ι : Type)
  | text (user : ι) (sql : String)
  | opening
  deriving DecidableEq, Repr

inductive Reply
  | results (rs : List Engine.Result)
  | opened (r : Except CatalogError Unit)
  deriving DecidableEq

namespace Engine

variable {δ ι : Type} [DecidableEq ι]

def serve (c : Catalog δ) (sessions : ι → Session) (w : World δ) : List (Event ι) → List Reply
  | [] => []
  | .text user sql :: events =>
    let (rs, s, w') := run c (sessions user) w sql
    .results rs :: serve c (Function.update sessions user s) w' events
  | .opening :: events =>
    let (r, w') := c.prepare w
    .opened r :: serve c sessions w' events

def worlds (c : Catalog δ) (s : Session) (w : World δ) : List Sql.Parsed → List (World δ)
  | [] => []
  | p :: ps =>
    let (_, s', w') := runParsed c s w p
    w' :: worlds c s' w' ps

def history (c : Catalog δ) (sessions : ι → Session) (w : World δ) :
    List (Event ι) → List (World δ)
  | [] => []
  | .text user sql :: events =>
    let (_, s, w') := run c (sessions user) w sql
    worlds c (sessions user) w (Sql.parse sql)
      ++ history c (Function.update sessions user s) w' events
  | .opening :: events =>
    let (_, w') := c.prepare w
    w' :: history c sessions w' events

end Engine

section Sizes

def tableContents (fs : List (String × Tree)) : List Content :=
  fs.filterMap fun file => match file.2 with
    | .file content =>
      if (Path.stem? Catalog.tableExtension file.1).isSome then some content else none
    | .directory _ => none

def allTableContents (root : Path) (f : Files) : List Content :=
  match f.list root with
  | .error _ => []
  | .ok es => es.flatMap fun database => match database.2 with
    | .directory fs => tableContents fs
    | .file _ => []

/-- No table counts as many rows as its header can tell. -/
def Roomy (root : Path) (f : Files) : Prop :=
  ∀ content ∈ allTableContents root f, TableFile.counted content < 2 ^ 32 - 1

instance (root : Path) (f : Files) : Decidable (Roomy root f) :=
  inferInstanceAs (Decidable (∀ content ∈ allTableContents root f,
    TableFile.counted content < 2 ^ 32 - 1))

theorem mem_tableContents {table : String} {content : Content} {fs : List (String × Tree)}
    {name : String}
    (stem : Path.stem? Catalog.tableExtension table = some name)
    (file : Entries.get? table fs = some (.file content)) : content ∈ tableContents fs := by
  refine List.mem_filterMap.2 ⟨_, Entries.mem_of_get? file, ?_⟩
  simp [stem]

theorem mem_allTableContents {root : Path} {f : Files} {es fs : List (String × Tree)}
    {database : String} {content : Content} (list : f.list root = .ok es)
    (entry : Entries.get? database es = some (.directory fs)) (mem : content ∈ tableContents fs) :
    content ∈ allTableContents root f := by
  rw [allTableContents, list]
  exact List.mem_flatMap.2 ⟨_, Entries.mem_of_get? entry, mem⟩

end Sizes

end RowStore
