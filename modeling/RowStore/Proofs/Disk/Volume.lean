import RowStore.Disk.Directory
import RowStore.Proofs.Disk.Path
import RowStore.Proofs.Disk.Tree

namespace RowStore

namespace Files

section Located

variable {f : Files} {p : Path} {l : Location} {es : List (String × Tree)} {content : Content}

theorem follow_eq_ok {steps : List String} : f.follow p steps = .ok l ↔
    '\x00' ∉ p.text.toList ∧ p.text.utf8ByteSize < pathLimit ∧
      f.tree.walk (f.start p) steps = .ok l := by
  rw [follow]
  split
  · simp [*]
  · split
    · rename_i long
      simp [Nat.not_lt.2 long]
    · rename_i free short
      simp [free, Nat.lt_of_not_le short]

theorem locate_long (free : '\x00' ∉ p.text.toList) (long : pathLimit ≤ p.text.utf8ByteSize) :
    f.locate p = .error .nameTooLong := by
  rw [locate, follow, if_neg free, if_pos long]

theorem locate_of_stay {tree : Tree} (stay : f.tree.DirectoriesStay tree) (h : f.locate p = .ok l) :
    (⟨tree, f.here⟩ : Files).locate p = .ok l := by
  obtain ⟨free, short, way⟩ := follow_eq_ok.1 h
  exact follow_eq_ok.2 ⟨free, short, Tree.walk_of_stay stay way⟩

theorem locate_join {name : String} (h : f.locate p = .ok l)
    (directory : f.tree.at? l = some (.directory es)) (plain : Path.Plain name)
    (short : (p.join name).text.utf8ByteSize < pathLimit) :
    f.locate (p.join name) = .ok (l ++ [name]) := by
  obtain ⟨free, -, way⟩ := follow_eq_ok.1 h
  have start : f.start (p.join name) = f.start p := by
    rw [Files.start, Files.start, Path.isAbsolute_join plain]
  refine follow_eq_ok.2 ⟨Path.nul_not_mem_join plain free, short, ?_⟩
  rw [start, Path.steps_join plain, Tree.walk_append, way]
  simp only [Except.bind, Tree.walk, directory, if_neg plain.dot, if_neg plain.dots,
    if_neg (Nat.not_lt.2 plain.short)]

theorem find_directory (h : f.locate p = .ok l) (at_ : f.tree.at? l = some (.directory es)) :
    f.find p = .ok (.directory es) := by
  simp only [find, h, at_, bind, Except.bind]

theorem find_none (h : f.locate p = .ok l) (at_ : f.tree.at? l = none) :
    f.find p = .error .notFound := by
  simp only [find, h, at_, bind, Except.bind]

theorem find_file (h : f.locate p = .ok l) (file : p.namesDirectory = false)
    (at_ : f.tree.at? l = some (.file content)) : f.find p = .ok (.file content) := by
  simp [find, h, at_, file, bind, Except.bind]

theorem fileLocation_eq (h : f.locate p = .ok l) (file : p.namesDirectory = false) :
    f.fileLocation p = .ok l := by
  simp [fileLocation, file, h]

theorem isDirectory_of_directory (h : f.locate p = .ok l)
    (at_ : f.tree.at? l = some (.directory es)) : f.isDirectory p = true := by
  simp only [isDirectory, find_directory h at_]

theorem isDirectory_of_none (h : f.locate p = .ok l) (at_ : f.tree.at? l = none) :
    f.isDirectory p = false := by
  simp only [isDirectory, find_none h at_]

theorem isFile_iff : f.isFile p = true ↔ p.namesDirectory = false ∧
    ∃ l content, f.locate p = .ok l ∧ f.tree.at? l = some (.file content) := by
  rw [isFile, find]
  cases located : f.locate p with
  | error e => simp [bind, Except.bind]
  | ok l =>
    simp only [bind, Except.bind]
    cases stand : f.tree.at? l with
    | none => simp [stand]
    | some t =>
      cases t with
      | directory es => simp [stand]
      | file content => cases p.namesDirectory <;> simp [stand]

theorem list_directory (h : f.locate p = .ok l) (at_ : f.tree.at? l = some (.directory es)) :
    f.list p = .ok es := by
  simp only [list, find_directory h at_, bind, Except.bind]

theorem read_file (h : f.locate p = .ok l) (file : p.namesDirectory = false)
    (at_ : f.tree.at? l = some (.file content)) : f.read p = .ok content := by
  simp only [read, find_file h file at_, bind, Except.bind]

theorem read_none (h : f.locate p = .ok l) (at_ : f.tree.at? l = none) :
    f.read p = .error .notFound := by
  simp only [read, find_none h at_, bind, Except.bind]

theorem write_eq (h : f.locate p = .ok l) (file : p.namesDirectory = false)
    (at_ : ∀ es, f.tree.at? l ≠ some (.directory es)) (content : Content) :
    f.write content p = .ok (f.putAt l (.file content)) := by
  simp only [write, fileLocation_eq h file, bind, Except.bind]

theorem writeNew_none (h : f.locate p = .ok l) (file : p.namesDirectory = false)
    (at_ : f.tree.at? l = none) (content : Content) :
    f.writeNew content p = .ok (f.putAt l (.file content)) := by
  simp only [writeNew, fileLocation_eq h file, at_, bind, Except.bind]

theorem writeNew_some {t : Tree} (h : f.locate p = .ok l) (file : p.namesDirectory = false)
    (at_ : f.tree.at? l = some t) (content : Content) :
    f.writeNew content p = .error .alreadyExists := by
  simp only [writeNew, fileLocation_eq h file, at_, bind, Except.bind]

theorem makeDirectory_none (h : f.locate p = .ok l) (at_ : f.tree.at? l = none) :
    f.makeDirectory p = .ok (f.putAt l .empty) := by
  simp only [makeDirectory, h, at_, bind, Except.bind]

theorem makeDirectory_some {t : Tree} (h : f.locate p = .ok l) (at_ : f.tree.at? l = some t) :
    f.makeDirectory p = .error .alreadyExists := by
  simp only [makeDirectory, h, at_, bind, Except.bind]

theorem deleteFile_file (h : f.locate p = .ok l) (file : p.namesDirectory = false)
    (at_ : f.tree.at? l = some (.file content)) : f.deleteFile p = .ok (f.eraseAt l) := by
  simp [deleteFile, h, at_, file, bind, Except.bind]

theorem deleteFile_none (h : f.locate p = .ok l) (at_ : f.tree.at? l = none) :
    f.deleteFile p = .error .notFound := by
  simp only [deleteFile, h, at_, bind, Except.bind]

theorem deleteDirectory_eq (h : f.locate p = .ok l) (at_ : f.tree.at? l = some (.directory es))
    (still : (f.putAt l .empty).locate p = .ok l) (last : p.steps.getLast? ≠ some ".") :
    f.deleteDirectory p = (.ok (), (f.putAt l .empty).eraseAt l) := by
  -- A directory is emptied first; its path still has to lead there then.
  simp only [deleteDirectory, h, at_, deleteEmptied, still, if_neg last]

section Refused

variable {e : Fault} (h : f.locate p = .error e)

include h

theorem find_refused : f.find p = .error e := by
  simp only [find, h, bind, Except.bind]

theorem isDirectory_refused : f.isDirectory p = false := by
  simp only [isDirectory, find_refused h]

theorem list_refused : f.list p = .error e := by
  simp only [list, find_refused h, bind, Except.bind]

theorem read_refused : f.read p = .error e := by
  simp only [read, find_refused h, bind, Except.bind]

theorem makeDirectory_refused : f.makeDirectory p = .error e := by
  simp only [makeDirectory, h, bind, Except.bind]

theorem deleteFile_refused : f.deleteFile p = .error e := by
  simp only [deleteFile, h, bind, Except.bind]

variable (file : p.namesDirectory = false) (content : Content)

include file

theorem fileLocation_refused : f.fileLocation p = .error e := by
  simp [fileLocation, file, h]

theorem write_refused : f.write content p = .error e := by
  simp only [write, fileLocation_refused h file, bind, Except.bind]

theorem writeNew_refused : f.writeNew content p = .error e := by
  simp only [writeNew, fileLocation_refused h file, bind, Except.bind]

end Refused

end Located

end Files

structure Volume where
  base : Files
  root : Path
  here : Location
  located : base.locate root = .ok here
  hollow : base.tree.at? here = some (.directory [])

/-- A volume with a root so short that the paths to all files of a database lead somewhere. -/
structure NearVolume extends Volume where
  room : root.text.utf8ByteSize + 135 < Files.pathLimit

namespace Volume

def holding (v : Volume) (es : List (String × Tree)) : Files := v.base.putAt v.here (.directory es)

variable (v : Volume) {es fs : List (String × Tree)} {database file : String}

theorem locate_root (es : List (String × Tree)) : (v.holding es).locate v.root = .ok v.here :=
  Files.locate_of_stay (.putAt v.hollow (.of_nil es)) v.located

theorem holding_nil : v.holding [] = v.base := by
  rw [holding, Files.putAt, Tree.putAt_self v.hollow]

theorem at?_holding (es : List (String × Tree)) (l : Location) :
    (v.holding es).tree.at? (v.here ++ l) = (Tree.directory es).at? l := by
  have top : (v.holding es).tree.at? v.here = some (.directory es) :=
    Tree.at?_putAt_self _ v.hollow
  rw [Tree.at?_append, top, Option.bind_some]

theorem at?_root (es : List (String × Tree)) :
    (v.holding es).tree.at? v.here = some (.directory es) := by
  simpa [Tree.at?] using v.at?_holding es []

theorem at?_database (es : List (String × Tree)) (database : String) :
    (v.holding es).tree.at? (v.here ++ [database]) = Entries.get? database es := by
  rw [at?_holding, Tree.at?_singleton]

theorem at?_file (h : Entries.get? database es = some (.directory fs)) (file : String) :
    (v.holding es).tree.at? (v.here ++ [database] ++ [file]) = Entries.get? file fs := by
  rw [List.append_assoc, at?_holding, List.singleton_append, Tree.at?, h]
  exact Tree.at?_singleton file fs

theorem putAt_holding (es : List (String × Tree)) (l : Location) (new : Tree) :
    (v.holding es).putAt (v.here ++ l) new = v.base.putAt v.here ((Tree.directory es).putAt l new) := by
  rw [Files.putAt, Tree.putAt_append _ _ (v.at?_root es), holding, Files.putAt, Files.putAt,
    Tree.putAt_putAt_self _ _ v.hollow]

theorem putAt_database (es : List (String × Tree)) (database : String) (new : Tree) :
    (v.holding es).putAt (v.here ++ [database]) new = v.holding (Entries.put database new es) :=
  v.putAt_holding es [database] new

theorem putAt_file (h : Entries.get? database es = some (.directory fs)) (file : String) (new : Tree) :
    (v.holding es).putAt (v.here ++ [database] ++ [file]) new
      = v.holding (Entries.put database (.directory (Entries.put file new fs)) es) := by
  rw [List.append_assoc, putAt_holding, List.singleton_append, Tree.putAt_cons _ _ h]
  rfl

theorem eraseAt_holding (es : List (String × Tree)) {l : Location} (some_ : l ≠ []) :
    (v.holding es).eraseAt (v.here ++ l) = v.base.putAt v.here ((Tree.directory es).eraseAt l) := by
  rw [Files.eraseAt, Tree.eraseAt_append (v.at?_root es) some_, holding, Files.putAt, Files.putAt,
    Tree.putAt_putAt_self _ _ v.hollow]

theorem eraseAt_database (es : List (String × Tree)) (database : String) :
    (v.holding es).eraseAt (v.here ++ [database]) = v.holding (Entries.erase database es) :=
  v.eraseAt_holding es (List.cons_ne_nil _ _)

theorem eraseAt_file (h : Entries.get? database es = some (.directory fs)) (file : String) :
    (v.holding es).eraseAt (v.here ++ [database] ++ [file])
      = v.holding (Entries.put database (.directory (Entries.erase file fs)) es) := by
  rw [List.append_assoc, List.singleton_append, eraseAt_holding _ _ (List.cons_ne_nil _ _)]
  simp only [Tree.eraseAt, h]
  rfl

end Volume

end RowStore
