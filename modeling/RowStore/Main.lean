import RowStore.CommandLine
import RowStore.Disk.Change
import RowStore.Disk.Edit
import RowStore.Disk.Mount

namespace RowStore.Program

partial def load (p : Path) : IO (Option Tree) := do
  let .ok place ← (IO.FS.realPath p.text).toBaseIO | return none
  if ← place.isDir then
    let mut entries := []
    for e in ← place.readDir do
      if let some t ← load (p.join e.fileName) then entries := (e.fileName, t) :: entries
    return some (.directory entries)
  else
    return some (.file (.ofBytes (← IO.FS.readBinFile place).toList))

def loadData (here : Location) (s : Spine) (c : Catalog Unit) : IO Tree := do
  let mut t := Tree.empty.putDirectory here
  for (l, p) in s do
    if (t.at? l).isNone then
      if let .ok place ← (IO.FS.realPath p.text).toBaseIO then
        t := t.putAt l (if ← place.isDir then .empty else .file [])
  match ← load c.root with
  | some databases => return t.putAt (s.last ++ ["databases"]) databases
  | none => return t

def perform (s : Spine) : Change → IO Unit
  | .delete l => do
    let place ← IO.FS.realPath (s.pathTo l).text
    if ← place.isDir then IO.FS.removeDirAll place else IO.FS.removeFile place
  | .makeDirectory l => IO.FS.createDir (s.pathTo l).text
  | .write l content => IO.FS.writeBinFile (s.pathTo l).text ⟨content.bytes.toArray⟩

def settle (s : Spine) (verbose : Bool) (before after : World Unit) : IO Unit := do
  for change in Tree.changes [] (some before.tree) after.tree do perform s change
  IO.eprint (CommandLine.logText verbose (after.notices.drop before.notices.length))

def tell (text : String) : IO Unit := do
  IO.print text
  (← IO.getStdout).flush

partial def readLine (input : IO.FS.Stream) : IO Bytes := do
  let bs := (← input.read 1).toList
  if bs = [] ∨ bs = [10] then return bs else return bs ++ (← readLine input)

def play (s : Spine) (verbose : Bool) (c : Catalog Unit) (r : Repl.State Unit)
    (turns : List Repl.Turn) : IO (Repl.State Unit) := do
  let (text, r') := Repl.play c r turns
  settle s verbose r.world r'.world
  tell text
  return r'

partial def converse (s : Spine) (verbose : Bool) (c : Catalog Unit) (buffer : List Char)
    (r : Repl.State Unit) : IO UInt32 := do
  match Text.byteLines (← readLine (← IO.getStdin)) with
  | [] =>
    let _ ← play s verbose c r (Repl.finish buffer)
    return 0
  | line :: _ => match Text.decode? line with
    | none =>
      IO.eprint (CommandLine.inputFailure .notText)
      return 2
    | some line => match Repl.react buffer line with
      | none => return 0
      | some (turns, buffer') => converse s verbose c buffer' (← play s verbose c r turns)

def leave (e : CommandLine.Exit) : IO UInt32 := do
  IO.eprint e.err
  tell e.out
  return UInt32.ofNat e.code

def work (s : Spine) (options : CommandLine.Options) (c : Catalog Unit) (w : World Unit) :
    IO UInt32 := do
  if options.command.isSome then
    let (e, w') := CommandLine.perform c options [] w
    settle s options.verbose w w'
    leave { e with err := "" }
  else
    converse s options.verbose c [] (← play s options.verbose c ⟨.fresh, w⟩ [.prompt false])

def run (arguments : List String) : IO UInt32 := do
  match CommandLine.parse arguments with
  | .error r => leave (CommandLine.refused r)
  | .ok options =>
    let data := CommandLine.dataPath options (← IO.getEnv CommandLine.dataVariable)
    let c := CommandLine.catalogOf data
    let here := Path.steps ⟨(← IO.currentDir).toString⟩
    let s := Spine.ofPath here data
    let w := World.ofFiles ⟨← loadData here s c, here⟩ ()
    let (prepared, w') := c.prepare w
    settle s options.verbose w w'
    match prepared with
    | .error e => leave ⟨2, "", CommandLine.openFailure data e⟩
    | .ok () => work s options c w'

end RowStore.Program

def main (arguments : List String) : IO UInt32 := RowStore.Program.run arguments
