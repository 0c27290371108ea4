import RowStore.Proofs.Catalog.OnVolume

namespace RowStore

namespace Files

variable {f : Files} {p : Path} {l : Location}

theorem locate_respelled (some_ : p.steps ≠ []) (h : f.locate p = .ok l) :
    f.locate p.respelled = .ok l := by
  obtain ⟨free, short, way⟩ := follow_eq_ok.1 h
  have start : f.start p.respelled = f.start p := by
    rw [Files.start, Files.start, Path.isAbsolute_respelled some_]
  refine follow_eq_ok.2 ⟨Path.nul_not_mem_respelled free,
    Nat.lt_of_le_of_lt (Path.utf8ByteSize_respelled_le some_) short, ?_⟩
  rw [start, Path.steps_respelled some_]
  exact way

theorem makeDirectories_eq (some_ : p.steps ≠ []) (h : f.locate p = .ok l) {f' : Files}
    (made : f.makeDirectory p.respelled = .ok f' ∨
      f.makeDirectory p.respelled = .error .alreadyExists ∧ f.isDirectory p.respelled = true ∧
        f' = f) :
    f.makeDirectories p = (.ok (), f') := by
  obtain ⟨free, short, -⟩ := follow_eq_ok.1 h
  have first : f.follow p [] = .ok (f.start p) := follow_eq_ok.2 ⟨free, short, rfl⟩
  obtain ⟨step, above, steps⟩ := List.exists_cons_of_ne_nil (List.reverse_ne_nil_iff.2 some_)
  have spelled : (⟨p.lead ++ "/".intercalate (step :: above).reverse⟩ : Path) = p.respelled := by
    rw [← steps, List.reverse_reverse]
    rfl
  rcases made with made | ⟨refused, found, rfl⟩
  · simp only [makeDirectories, first, steps, makeDirectoriesUp, spelled, made]
  · simp only [makeDirectories, first, steps, makeDirectoriesUp, spelled, refused, found, if_true]

end Files

/-- A data directory that is there and empty. The path to a file of a database adds `/databases`, two
slashes, the name of the database and the name of the file, and is not too long to lead somewhere. -/
structure Vacant (data : Path) (f : Files) : Prop where
  empty : f.find data = .ok (.directory [])
  room : data.text.utf8ByteSize + 145 < Files.pathLimit

def vacantFiles : Files := ⟨.directory [("r", .directory [])], []⟩

theorem vacant_vacantFiles : Vacant ⟨"/r"⟩ vacantFiles := ⟨rfl, by decide⟩

namespace Volume

def inner (v : Volume) {name : String} (plain : Path.Plain name)
    (short : (v.root.join name).text.utf8ByteSize < Files.pathLimit) : Volume where
  base := v.holding [(name, .directory [])]
  root := v.root.join name
  here := v.here ++ [name]
  located := Files.locate_join (v.locate_root _) (v.at?_root _) plain short
  hollow := by rw [v.at?_database, Entries.get?, if_pos rfl]

theorem exists_of_find {data : Path} {f : Files} (empty : f.find data = .ok (.directory [])) :
    ∃ v : Volume, v.base = f ∧ v.root = data := by
  rw [Files.find] at empty
  cases located : f.locate data with
  | error e =>
    rw [located] at empty
    cases empty
  | ok l =>
    simp only [located, bind, Except.bind] at empty
    split at empty
    · rename_i es at_
      cases empty
      exact ⟨⟨f, data, l, located, at_⟩, rfl, rfl⟩
    · split at empty <;> cases empty
    · cases empty

end Volume

section Preparation

variable {δ : Type}

theorem plain_databases : Path.Plain "databases" :=
  Sql.IsName.plain ⟨by decide, List.all_eq_true.1 (by decide), by decide⟩

theorem steps_databases (data : Path) : (data.join "databases").steps ≠ [] := by
  rw [Path.steps_join plain_databases]
  exact List.append_ne_nil_of_right_ne_nil _ (List.cons_ne_nil _ _)

theorem Volume.ofDataDirectory_eq {v : Volume} {data : Path} (root : v.root = data.join "databases") :
    (Catalog.ofDataDirectory data .onFiles : Catalog δ) = v.catalog δ :=
  congrArg (fun p => (⟨p, .onFiles⟩ : Catalog δ)) root.symm

theorem prepare_yields {c : Catalog δ} {d : Disk δ} {files : Files}
    (made : d.files.makeDirectories c.root = (.ok (), files)) :
    c.prepare.Yields d (.ok ()) { d with files := files } := by
  have change := (Action.Yields.changePartly (d := d) (·.makeDirectories c.root)).mapError
    (CatalogError.io c.root)
  rw [made] at change
  exact .bind (.record _) change

theorem exists_prepare_yields {data : Path} {f : Files} (empty : f.find data = .ok (.directory []))
    (short : (data.join "databases").text.utf8ByteSize < Files.pathLimit) (state : δ) :
    ∃ v : Volume, v.root = data.join "databases" ∧
      (v.catalog δ).prepare.Yields ⟨f, state⟩ (.ok ()) (v.disk state []) := by
  obtain ⟨outer, rfl, rfl⟩ := Volume.exists_of_find empty
  have way : (outer.holding []).locate (outer.root.join "databases")
      = .ok (outer.here ++ ["databases"]) :=
    Files.locate_join (outer.locate_root []) (outer.at?_root []) plain_databases short
  have nothing := outer.at?_database [] "databases"
  have made := Files.makeDirectory_none (Files.locate_respelled (steps_databases _) way) nothing
  have opened := Files.makeDirectories_eq (steps_databases _) way (.inl made)
  rw [outer.putAt_database, outer.holding_nil] at opened
  refine ⟨outer.inner plain_databases short, rfl, ?_⟩
  have held : (outer.inner plain_databases short).disk state []
      = ⟨outer.holding [("databases", .directory [])], state⟩ := by
    rw [Volume.disk, Volume.holding_nil]
    rfl
  rw [held]
  exact prepare_yields (d := ⟨outer.base, state⟩) opened

theorem Vacant.prepare_yields {data : Path} {f : Files} (h : Vacant data f) (state : δ) :
    ∃ v : NearVolume, v.root = data.join "databases" ∧
      (v.catalog δ).prepare.Yields ⟨f, state⟩ (.ok ()) (v.disk state []) := by
  have size := Path.utf8ByteSize_join plain_databases data
  have length : "databases".utf8ByteSize = 9 := by decide
  have room := h.room
  obtain ⟨v, root, opened⟩ := exists_prepare_yields h.empty (by omega) state
  exact ⟨⟨v, by rw [root]; omega⟩, root, opened⟩

theorem Volume.prepare_yields (v : Volume) (some_ : v.root.steps ≠ []) (state : δ)
    (es : List (String × Tree)) :
    (v.catalog δ).prepare.Yields (v.disk state es) (.ok ()) (v.disk state es) := by
  have located := Files.locate_respelled some_ (v.locate_root es)
  have refused := Files.makeDirectory_some located (v.at?_root es)
  have found := Files.isDirectory_of_directory located (v.at?_root es)
  exact RowStore.prepare_yields (d := v.disk state es)
    (Files.makeDirectories_eq some_ (v.locate_root es) (.inr ⟨refused, found, rfl⟩))

end Preparation

end RowStore
