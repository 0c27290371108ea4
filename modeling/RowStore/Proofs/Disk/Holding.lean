import RowStore.Proofs.Disk.Writing

namespace RowStore

namespace Tree

variable {t : Tree} {l other : Location} {es fs : List (String × Tree)}

theorem DirectoriesStay.of_get?
    (keeps : ∀ name ds, Entries.get? name es = some (.directory ds) →
      Entries.get? name fs = some (.directory ds)) :
    DirectoriesStay (.directory es) (.directory fs) := by
  intro l ds at_
  cases l with
  | nil => exact ⟨fs, rfl⟩
  | cons name l =>
    obtain ⟨_, u, ⟨⟩, entry, below⟩ := exists_of_at?_cons at_
    cases u with
    | file content => cases l <;> cases below
    | directory inner =>
      refine ⟨ds, ?_⟩
      rw [at?, keeps name inner entry]
      exact below

theorem face_putAt_directory (stand : t.at? l = some (.directory es))
    (same : ∀ name rest, other = l ++ name :: rest →
      ((directory fs).at? (name :: rest)).map face
        = ((directory es).at? (name :: rest)).map face) :
    ((t.putAt l (.directory fs)).at? other).map face = (t.at? other).map face := by
  induction l generalizing t other with
  | nil =>
    cases stand
    cases other with
    | nil => rfl
    | cons name rest => exact same name rest rfl
  | cons top l ih =>
    obtain ⟨us, u, rfl, entry, below⟩ := exists_of_at?_cons stand
    rw [putAt_cons _ _ entry]
    cases other with
    | nil => rfl
    | cons name rest =>
      by_cases on_way : name = top
      · cases on_way
        simp only [at?, Entries.get?_put_self, entry]
        exact ih below fun inner more eq => same inner more (congrArg _ eq)
      · simp only [at?, Entries.get?_put_of_ne on_way]

theorem at?_cons_cons_of_flat {name next : String} {rest : List String}
    (flat : ∀ ds, Entries.get? name es ≠ some (.directory ds)) :
    (directory es).at? (name :: next :: rest) = none := by
  rw [at?]
  cases entry : Entries.get? name es with
  | none => rfl
  | some u =>
    cases u with
    | file content => rfl
    | directory ds => exact absurd entry (flat ds)

theorem face_putAt_entries {changed : List String} (stand : t.at? l = some (.directory es))
    (others : ∀ name, name ∉ changed → Entries.get? name fs = Entries.get? name es)
    (flat : ∀ name ∈ changed, ∀ ds, Entries.get? name es ≠ some (.directory ds) ∧
      Entries.get? name fs ≠ some (.directory ds))
    (away : ∀ name ∈ changed, other ≠ l ++ [name]) :
    ((t.putAt l (.directory fs)).at? other).map face = (t.at? other).map face := by
  refine face_putAt_directory stand fun name rest place => ?_
  by_cases mem : name ∈ changed
  · cases rest with
    | nil => exact absurd place (away name mem)
    | cons next rest =>
      rw [at?_cons_cons_of_flat fun ds => (flat name mem ds).1,
        at?_cons_cons_of_flat fun ds => (flat name mem ds).2]
  · rw [at?, at?, others name mem]

end Tree

namespace Files

/-- A path leads to a directory with these entries. -/
structure Holds (f : Files) (p : Path) (l : Location) (es : List (String × Tree)) : Prop where
  located : f.locate p = .ok l
  stands : f.tree.at? l = some (.directory es)

namespace Holds

variable {f : Files} {p : Path} {l : Location} {es fs : List (String × Tree)} {name : String}
  {content : Content}

theorem of_isDirectory (h : f.isDirectory p = true) : ∃ l es, f.Holds p l es := by
  obtain ⟨l, es, located, stand⟩ := exists_of_isDirectory h
  exact ⟨l, es, located, stand⟩

theorem of_list (h : f.list p = .ok es) : ∃ l, f.Holds p l es := by
  rw [list, find] at h
  cases located : f.locate p with
  | error e => simp [located, bind, Except.bind] at h
  | ok l =>
    simp only [located, bind, Except.bind] at h
    refine ⟨l, located, ?_⟩
    cases stand : f.tree.at? l with
    | none => simp [stand] at h
    | some t =>
      cases t with
      | directory ds => simpa [stand] using h
      | file content => cases slash : p.namesDirectory <;> simp [stand, slash] at h

theorem isDirectory (h : f.Holds p l es) : f.isDirectory p = true :=
  isDirectory_of_directory h.located h.stands

theorem at?_name (h : f.Holds p l es) (name : String) :
    f.tree.at? (l ++ [name]) = Entries.get? name es := by
  rw [Tree.at?_append, h.stands, Option.bind_some, Tree.at?_singleton]

theorem replaced (h : f.Holds p l es)
    (keeps : ∀ name ds, Entries.get? name es = some (.directory ds) →
      Entries.get? name fs = some (.directory ds)) :
    (f.putAt l (.directory fs)).Holds p l fs where
  located := locate_of_stay (.putAt h.stands (.of_get? keeps)) h.located
  stands := Tree.at?_putAt_self _ h.stands

theorem putAt_putAt (h : f.Holds p l es) (new newer : Tree) :
    (f.putAt l new).putAt l newer = f.putAt l newer :=
  congrArg (fun tree => (⟨tree, f.here⟩ : Files)) (Tree.putAt_putAt_self new newer h.stands)

theorem putAt_self (h : f.Holds p l es) : f.putAt l (.directory es) = f :=
  congrArg (fun tree => (⟨tree, f.here⟩ : Files)) (Tree.putAt_self h.stands)

theorem putAt_name (h : f.Holds p l es) (name : String) (new : Tree) :
    f.putAt (l ++ [name]) new = f.putAt l (.directory (Entries.put name new es)) :=
  congrArg (fun tree => (⟨tree, f.here⟩ : Files)) (Tree.putAt_append [name] new h.stands)

theorem eraseAt_name (h : f.Holds p l es) (name : String) :
    f.eraseAt (l ++ [name]) = f.putAt l (.directory (Entries.erase name es)) :=
  congrArg (fun tree => (⟨tree, f.here⟩ : Files))
    (Tree.eraseAt_append h.stands (List.cons_ne_nil name []))

section Named

variable (h : f.Holds p l es) (plain : Path.Plain name)
  (short : (p.join name).text.utf8ByteSize < pathLimit)

include h plain short

theorem locate_name : f.locate (p.join name) = .ok (l ++ [name]) :=
  locate_join h.located h.stands plain short

theorem read_name (file : Entries.get? name es = some (.file content)) :
    f.read (p.join name) = .ok content :=
  read_file (h.locate_name plain short) (Path.namesDirectory_join plain p)
    ((h.at?_name name).trans file)

theorem write_name (flat : ∀ ds, Entries.get? name es ≠ some (.directory ds))
    (content : Content) : f.write content (p.join name)
      = .ok (f.putAt l (.directory (Entries.put name (.file content) es))) := by
  rw [write_eq (h.locate_name plain short) (Path.namesDirectory_join plain p)
    (fun ds => (h.at?_name name).symm ▸ flat ds)]
  exact congrArg Except.ok (h.putAt_name name _)

theorem write_directory {ds : List (String × Tree)}
    (directory : Entries.get? name es = some (.directory ds)) (content : Content) :
    f.write content (p.join name) = .error .isDirectory := by
  rw [write, fileLocation_eq (h.locate_name plain short) (Path.namesDirectory_join plain p)]
  simp only [bind, Except.bind, (h.at?_name name).trans directory]

theorem writeNew_name (missing : Entries.get? name es = none) (content : Content) :
    f.writeNew content (p.join name)
      = .ok (f.putAt l (.directory (Entries.put name (.file content) es))) := by
  rw [writeNew_none (h.locate_name plain short) (Path.namesDirectory_join plain p)
    ((h.at?_name name).trans missing)]
  exact congrArg Except.ok (h.putAt_name name _)

theorem writeNew_exists {t : Tree} (entry : Entries.get? name es = some t) (content : Content) :
    f.writeNew content (p.join name) = .error .alreadyExists :=
  writeNew_some (h.locate_name plain short) (Path.namesDirectory_join plain p)
    ((h.at?_name name).trans entry) content

theorem deleteFile_name (file : Entries.get? name es = some (.file content)) :
    f.deleteFile (p.join name) = .ok (f.putAt l (.directory (Entries.erase name es))) := by
  rw [deleteFile_file (h.locate_name plain short) (Path.namesDirectory_join plain p)
    ((h.at?_name name).trans file)]
  exact congrArg Except.ok (h.eraseAt_name name)

end Named

end Holds

/-- The same is to be seen at all places but some. -/
structure Same (f f' : Files) (changed : List Location) : Prop where
  here : f'.here = f.here
  face : ∀ l, l ∉ changed → (f'.tree.at? l).map Tree.face = (f.tree.at? l).map Tree.face

theorem Holds.same {f : Files} {p : Path} {l : Location} {es fs : List (String × Tree)}
    (holds : f.Holds p l es) (changed : List String)
    (others : ∀ name, name ∉ changed → Entries.get? name fs = Entries.get? name es)
    (flat : ∀ name ∈ changed, ∀ ds, Entries.get? name es ≠ some (.directory ds) ∧
      Entries.get? name fs ≠ some (.directory ds)) :
    f.Same (f.putAt l (.directory fs)) (changed.map fun name => l ++ [name]) where
  here := rfl
  face _ away := Tree.face_putAt_entries holds.stands others flat
    fun _ mem eq => away (eq ▸ List.mem_map_of_mem mem)

end Files

end RowStore
