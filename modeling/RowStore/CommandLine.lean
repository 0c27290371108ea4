import RowStore.Console.Repl

namespace RowStore.CommandLine

structure Options where
  dataDirectory : Option String
  command : Option String
  verbose : Bool
  deriving DecidableEq, Repr

def Options.none : Options := ⟨.none, .none, false⟩

inductive Refusal
  | help
  | misuse (argument : String)
  deriving DecidableEq, Repr

inductive Valued
  | dataDirectory
  | command
  deriving DecidableEq, Repr

inductive Request
  | verbose
  | help
  | put (o : Valued) (value : String)
  | await (o : Valued)
  | unknown
  deriving DecidableEq, Repr

def letter : Char → Request
  | 'd' => .await .dataDirectory
  | 'c' => .await .command
  | 'v' => .verbose
  | 'h' => .help
  | _ => .unknown

def word (name : List Char) : Request :=
  if name = "data_dir".toList then .await .dataDirectory
  else if name = "command".toList then .await .command
  else if name = "verbose".toList then .verbose
  else if name = "help".toList then .help
  else .unknown

/-- Letters after one hyphen. The first that takes a value takes the rest, after an equals sign if
there is one. -/
def letters : List Char → List Request
  | [] => []
  | c :: cs => match letter c, cs with
    | .await o, '=' :: value => [.put o (String.ofList value)]
    | .await o, v :: value => [.put o (String.ofList (v :: value))]
    | r, _ => r :: letters cs

def longRequest (cs : List Char) : Request :=
  match word (cs.takeWhile (· ≠ '=')), cs.dropWhile (· ≠ '=') with
  | r, [] => r
  | .await o, _ :: value => .put o (String.ofList value)
  | _, _ :: _ => .unknown

def requests (argument : String) : List Request :=
  match argument.toList with
  | '-' :: '-' :: cs => [longRequest cs]
  | '-' :: c :: cs => letters (c :: cs)
  | _ => [.unknown]

def startsOption (argument : String) : Bool :=
  match argument.toList with
  | '-' :: _ :: _ => true
  | _ => false

/-- Each option may be given once. -/
def give (o : Valued) (value : String) (options : Options) : Option Options :=
  match o with
  | .dataDirectory =>
    if options.dataDirectory.isSome then .none
    else some { options with dataDirectory := some value }
  | .command =>
    if options.command.isSome then .none else some { options with command := some value }

def take (argument : String) (options : Options) :
    List Request → Except Refusal (Options × Option Valued)
  | [] => .ok (options, .none)
  | .verbose :: rs =>
    if options.verbose then .error (.misuse argument)
    else take argument { options with verbose := true } rs
  | .help :: _ => .error .help
  | .put o value :: rs => match give o value options with
    | some options' => take argument options' rs
    | .none => .error (.misuse argument)
  | .await o :: _ => .ok (options, some o)
  | .unknown :: _ => .error (.misuse argument)

def endOfOptions : String := "--"

def parseOperands (options : Options) : List String → Except Refusal Options
  | [] => .ok options
  | operand :: _ => .error (.misuse operand)

def parseFrom (options : Options) : List String → Except Refusal Options
  | [] => .ok options
  | argument :: rest =>
    if argument = endOfOptions then parseOperands options rest
    else match take argument options (requests argument) with
      | .error r => .error r
      | .ok (options', .none) => parseFrom options' rest
      | .ok (options', some o) => match rest with
        | [] => .error (.misuse argument)
        | value :: rest' =>
          if startsOption value then .error (.misuse argument)
          else match give o value options' with
            | some options'' => parseFrom options'' rest'
            | .none => .error (.misuse argument)

def parse (arguments : List String) : Except Refusal Options := parseFrom Options.none arguments

def dataVariable : String := "BRANCHDB_DATADIR"

def dataPath (options : Options) (variable_ : Option String) : Path :=
  ⟨options.dataDirectory.getD (variable_.getD ".")⟩

def usage : String :=
  "Usage: branchdb [OPTIONS]\n\n" ++
  "Options:\n" ++
  "  -d, --data_dir <PATH>  data directory, defaults to $BRANCHDB_DATADIR or the working directory\n" ++
  "  -c, --command <SQL>    run the statements and exit\n" ++
  "  -v, --verbose          log every statement\n" ++
  "  -h, --help             Print help\n"

structure Exit where
  code : Nat
  out : String
  err : String
  deriving DecidableEq, Repr

def refused : Refusal → Exit
  | .help => ⟨0, usage, ""⟩
  | .misuse argument => ⟨2, "", s!"error: unexpected argument '{argument}'\n\n" ++ usage⟩

def noticeLine (n : Notice) : String :=
  String.ofList (List.replicate (5 - n.level.text.length) ' ') ++ n.level.text ++ " " ++ n.text ++ "\n"

def logText (verbose : Bool) (notices : List Notice) : String :=
  String.join ((notices.filter fun n => verbose || n.level == .warn).map noticeLine)

def catalogOf (data : Path) : Catalog Unit := Catalog.ofDataDirectory data Directory.onFiles

def openFailure (data : Path) (e : CatalogError) : String :=
  s!"cannot open data directory {data.text}: {e.message}\n"

def inputFailure (e : Fault) : String := s!"terminal i/o failed: {e.message}\n"

def perform (c : Catalog Unit) (options : Options) (input : Bytes) (w : World Unit) :
    Exit × World Unit :=
  match options.command with
  | some sql =>
    let (rs, _, w') := Engine.run c .fresh w sql
    (⟨0, Report.results rs, logText options.verbose w'.notices⟩, w')
  | .none =>
    let (text, complete, w') := Repl.run c w input
    let log := logText options.verbose w'.notices
    if complete then (⟨0, text, log⟩, w') else (⟨2, text, log ++ inputFailure .notText⟩, w')

def run (arguments : List String) (variable_ : Option String) (input : Bytes) (f : Files) :
    Exit × Files :=
  match parse arguments with
  | .error r => (refused r, f)
  | .ok options =>
    let data := dataPath options variable_
    let c := catalogOf data
    match c.prepare (World.ofFiles f ()) with
    | (.error e, w) => (⟨2, "", openFailure data e⟩, w.files)
    | (.ok (), w) =>
      let (exit, w') := perform c options input w
      (exit, w'.files)

end RowStore.CommandLine
