import RowStore.Proofs.Disk.Volume

namespace RowStore

namespace Tree

/-- What a place shows apart from what is below it: the content of a file, or that it is a directory. -/
def face : Tree → Option Content
  | .file content => some content
  | .directory _ => none

theorem face_putAt_file {t : Tree} {l other : Location} {old : Content} (new : Content)
    (file : t.at? l = some (.file old)) (away : other ≠ l) :
    ((t.putAt l (.file new)).at? other).map face = (t.at? other).map face := by
  induction l generalizing t other with
  | nil =>
    cases file
    cases other with
    | nil => exact absurd rfl away
    | cons name other => rfl
  | cons name l ih =>
    obtain ⟨es, t', rfl, entry, below⟩ := exists_of_at?_cons file
    rw [putAt_cons _ _ entry]
    -- The other place is above the file, in the same entry, or off the way.
    cases other with
    | nil => rfl
    | cons other rest =>
      by_cases same : other = name
      · cases same
        simp only [at?, Entries.get?_put_self, entry]
        exact ih below fun eq => away (congrArg _ eq)
      · simp only [at?, Entries.get?_put_of_ne same]

end Tree

namespace Files

variable {f f' : Files} {p : Path} {l : Location} {content : Content}

theorem exists_of_isDirectory (h : f.isDirectory p = true) :
    ∃ l es, f.locate p = .ok l ∧ f.tree.at? l = some (.directory es) := by
  rw [isDirectory, find] at h
  cases located : f.locate p with
  | error e => simp [located, bind, Except.bind] at h
  | ok l =>
    simp only [located, bind, Except.bind] at h
    split at h
    · rename_i found
      split at found
      · rename_i stand
        exact ⟨l, _, rfl, stand⟩
      · split at found <;> cases found
      · cases found
    · cases h

theorem exists_of_read (h : f.read p = .ok content) :
    ∃ l, f.locate p = .ok l ∧ p.namesDirectory = false ∧ f.tree.at? l = some (.file content) := by
  rw [read, find] at h
  cases located : f.locate p with
  | error e => simp [located, bind, Except.bind] at h
  | ok l =>
    simp only [located, bind, Except.bind] at h
    cases stand : f.tree.at? l with
    | none => simp [stand] at h
    | some t =>
      cases t with
      | directory es => simp [stand] at h
      | file found =>
        by_cases slash : p.namesDirectory = true
        · simp [stand, slash] at h
        · simp only [stand, if_neg slash] at h
          cases h
          exact ⟨l, rfl, Bool.eq_false_iff.2 slash, stand⟩

theorem isDirectory_of_stay (here : f'.here = f.here) (stay : f.tree.DirectoriesStay f'.tree)
    (h : f.isDirectory p = true) : f'.isDirectory p = true := by
  obtain ⟨l, es, located, stand⟩ := exists_of_isDirectory h
  obtain ⟨es', stands⟩ := stay l es stand
  have located' := locate_of_stay stay located
  rw [← here] at located'
  exact isDirectory_of_directory located' stands

theorem read_of_writeNew {name : String} (plain : Path.Plain name)
    (above : f.isDirectory p = true) (h : f.writeNew content (p.join name) = .ok f') :
    f'.isDirectory p = true ∧ f'.read (p.join name) = .ok content := by
  have file := Path.namesDirectory_join plain p
  obtain ⟨l, es, located, stand⟩ := exists_of_isDirectory above
  cases place : f.locate (p.join name) with
  | error e => simp [writeNew, fileLocation, file, place, bind, Except.bind] at h
  | ok l' =>
    have room := (follow_eq_ok.1 place).2.1
    have eq := place.symm.trans (locate_join located stand plain room)
    cases eq
    have entry : f.tree.at? (l ++ [name]) = Entries.get? name es := by
      rw [Tree.at?_append, stand, Option.bind_some, Tree.at?_singleton]
    cases old : f.tree.at? (l ++ [name]) with
    | some t =>
      rw [writeNew_some place file old] at h
      cases h
    | none =>
      rw [writeNew_none place file old] at h
      cases h
      rw [entry] at old
      have tree : (f.putAt (l ++ [name]) (.file content)).tree
          = f.tree.putAt l (.directory (Entries.put name (.file content) es)) :=
        Tree.putAt_append [name] (.file content) stand
      have stay : f.tree.DirectoriesStay (f.putAt (l ++ [name]) (.file content)).tree := by
        rw [tree]
        exact .putAt stand (.of_put (fun ds eq => by rw [old] at eq; cases eq) _)
      refine ⟨isDirectory_of_stay (f := f) rfl stay above,
        read_file (locate_of_stay stay place) file ?_⟩
      rw [tree, Tree.at?_append, Tree.at?_putAt_self _ stand, Option.bind_some, Tree.at?_singleton,
        Entries.get?_put_self]

/-- The files `f'` are `f` with another content of the file to which a path leads. -/
structure Rewritten (p : Path) (old new : Content) (f f' : Files) : Prop where
  here : f'.here = f.here
  place : ∃ l, f.locate p = .ok l ∧ f'.locate p = .ok l ∧
    f.tree.at? l = some (.file old) ∧ f'.tree.at? l = some (.file new) ∧
    ∀ other, other ≠ l → (f'.tree.at? other).map Tree.face = (f.tree.at? other).map Tree.face

namespace Rewritten

variable {old new : Content} {q : Path} {l' : Location} (h : Rewritten p old new f f')

include h

theorem stay : f.tree.DirectoriesStay f'.tree := by
  obtain ⟨l, -, -, before, -, others⟩ := h.place
  intro other es stand
  have away : other ≠ l := by
    rintro rfl
    cases stand.symm.trans before
  have face := others other away
  rw [stand] at face
  obtain ⟨t, there, shows⟩ := Option.map_eq_some_iff.1 face
  cases t with
  | file content => cases shows
  | directory es' => exact ⟨es', there⟩

theorem locate (located : f.locate q = .ok l') : f'.locate q = .ok l' := by
  have same := locate_of_stay h.stay located
  rwa [← h.here] at same

theorem read_self (file : p.namesDirectory = false) : f'.read p = .ok new := by
  obtain ⟨l, -, located, -, after, -⟩ := h.place
  exact read_file located file after

theorem read_other (away : f.locate q ≠ f.locate p) (read : f.read q = .ok content) :
    f'.read q = .ok content := by
  obtain ⟨l, located, -, -, -, others⟩ := h.place
  obtain ⟨m, place, file, stand⟩ := exists_of_read read
  have face := others m fun eq => away (by rw [place, located, eq])
  rw [stand] at face
  obtain ⟨t, there, shows⟩ := Option.map_eq_some_iff.1 face
  cases t with
  | file other =>
    cases shows
    exact read_file (h.locate place) file there
  | directory es => cases shows

end Rewritten

theorem exists_write_of_read (h : f.read p = .ok content) (new : Content) :
    ∃ f', f.write new p = .ok f' ∧ Rewritten p content new f f' := by
  obtain ⟨l, located, file, stand⟩ := exists_of_read h
  have other : ∀ es, f.tree.at? l ≠ some (.directory es) := by
    intro es eq
    rw [stand] at eq
    cases eq
  have stay : f.tree.DirectoriesStay (f.putAt l (.file new)).tree :=
    .putAt stand (.of_file content _)
  exact ⟨f.putAt l (.file new), write_eq located file other new, rfl, l, located,
    locate_of_stay stay located, stand, Tree.at?_putAt_self _ stand,
    fun _ away => Tree.face_putAt_file new stand away⟩

end Files

end RowStore
