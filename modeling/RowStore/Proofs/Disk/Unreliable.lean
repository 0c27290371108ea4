import RowStore.Disk.Directory
import RowStore.Proofs.Disk.Writing

namespace RowStore

namespace Tree

variable {t u : Tree} {l other : Location} {es : List (String × Tree)} {name : String}

theorem eraseAt_file (content : Content) (name : String) (l : Location) :
    (file content).eraseAt (name :: l) = file content := by
  cases l <;> rfl

theorem eraseAt_missing (missing : Entries.get? name es = none) (l : Location) :
    (directory es).eraseAt (name :: l) = directory es := by
  cases l with
  | nil => exact congrArg directory (Entries.erase_of_get? missing)
  | cons next l => simp only [eraseAt, missing]

theorem eraseAt_cons (entry : Entries.get? name es = some t) (below : l ≠ []) :
    (directory es).eraseAt (name :: l) = directory (Entries.put name (t.eraseAt l) es) := by
  cases l with
  | nil => exact absurd rfl below
  | cons next l => simp only [eraseAt, entry]

theorem exists_of_at?_eraseAt (below : l ≠ []) (h : (t.eraseAt l).at? other = some u) :
    other ≠ l ∧ ∃ v, t.at? other = some v ∧ v.face = u.face := by
  induction l generalizing t other with
  | nil => exact absurd rfl below
  | cons name l ih =>
    cases t with
    | file content =>
      rw [eraseAt_file] at h
      refine ⟨?_, u, h, rfl⟩
      rintro rfl
      cases h
    | directory es =>
      cases entry : Entries.get? name es with
      | none =>
        rw [eraseAt_missing entry] at h
        refine ⟨?_, u, h, rfl⟩
        rintro rfl
        rw [at?, entry] at h
        cases h
      | some t =>
        cases other with
        | nil =>
          refine ⟨(List.cons_ne_nil _ _).symm, directory es, rfl, ?_⟩
          cases l <;> simp only [eraseAt, entry] at h <;> cases h <;> rfl
        | cons next rest =>
          by_cases same : next = name
          · cases same
            cases l with
            | nil => simp [eraseAt, at?] at h
            | cons x l =>
              rw [eraseAt_cons entry (List.cons_ne_nil x l)] at h
              simp only [at?, Entries.get?_put_self] at h
              obtain ⟨away, v, there, face⟩ := ih (List.cons_ne_nil x l) h
              refine ⟨fun eq => away (List.cons.inj eq).2, v, ?_, face⟩
              rw [at?, entry]
              exact there
          · refine ⟨fun eq => same (List.cons.inj eq).1, u, ?_, rfl⟩
            cases l with
            | nil => simpa only [eraseAt, at?, Entries.get?_erase_of_ne same] using h
            | cons x l => simpa only [eraseAt, entry, at?, Entries.get?_put_of_ne same] using h

theorem DirectoriesStay.of_eraseAt (below : l ≠ []) : DirectoriesStay (t.eraseAt l) t := by
  intro other ds at_
  obtain ⟨-, v, there, face⟩ := exists_of_at?_eraseAt below at_
  cases v with
  | file content => cases face
  | directory es => exact ⟨es, there⟩

end Tree

namespace Files

variable {f f' : Files} {p q : Path}

theorem exists_of_deleteFile (h : f.deleteFile p = .ok f') : f.isFile p = true ∧
    ∃ l, f.locate p = .ok l ∧ f' = f.eraseAt l := by
  rw [deleteFile] at h
  cases located : f.locate p with
  | error e => simp [located, bind, Except.bind] at h
  | ok l =>
    simp only [located, bind, Except.bind] at h
    split at h
    · rename_i content stand
      split at h
      · cases h
      · rename_i slash
        cases h
        exact ⟨isFile_iff.2 ⟨Bool.eq_false_iff.2 slash, l, content, located, stand⟩, l, rfl, rfl⟩
    · cases h
    · cases h

theorem isFile_of_deleteFile (h : f.deleteFile p = .ok f') (file : f'.isFile q = true) :
    q ≠ p ∧ f.isFile q = true := by
  obtain ⟨-, l, located, rfl⟩ := exists_of_deleteFile h
  obtain ⟨plain, other, content, way, stand⟩ := isFile_iff.1 file
  cases l with
  | nil =>
    -- Nothing but the top is left then, and it is a directory.
    cases other <;> cases stand
  | cons name l =>
    obtain ⟨away, v, there, face⟩ := Tree.exists_of_at?_eraseAt (List.cons_ne_nil name l) stand
    have before : f.locate q = .ok other :=
      locate_of_stay (f := f.eraseAt (name :: l)) (.of_eraseAt (List.cons_ne_nil name l)) way
    refine ⟨?_, ?_⟩
    · rintro rfl
      rw [located] at before
      exact away (Except.ok.inj before).symm
    · cases v with
      | directory es => cases face
      | file old => exact isFile_iff.2 ⟨plain, other, old, before, there⟩

end Files

namespace Directory

variable {δ : Type}

/-- A service that may refuse any call with any fault, and then leaves the files alone. What it
lists is there, in any order, and what it says it deleted is deleted. -/
structure Unreliable (service : Directory δ) : Prop where
  directoryExists : ∀ p d, (service.directoryExists p d).2.files = d.files
  listFiles : ∀ ext p d, (service.listFiles ext p d).2.files = d.files ∧
    ∀ names, (service.listFiles ext p d).1 = .ok names →
      ∃ stems, fileStems ext p d.files = .ok stems ∧ names.Perm stems
  deleteFile : ∀ p d,
    (∃ e, (service.deleteFile p d).1 = .error e ∧ (service.deleteFile p d).2.files = d.files) ∨
      (service.deleteFile p d).1 = .ok () ∧
        d.files.deleteFile p = .ok (service.deleteFile p d).2.files

theorem unreliable_onFiles : (onFiles : Directory δ).Unreliable where
  directoryExists p d := rfl
  listFiles ext p d := ⟨rfl, fun names answer => ⟨names, answer, .refl names⟩⟩
  deleteFile p d := by
    cases gone : d.files.deleteFile p with
    | error e => exact .inl ⟨e, by simp [onFiles, changing, gone]⟩
    | ok files => exact .inr (by simp [onFiles, changing, gone])

theorem Unreliable.scripted {behind : Directory δ} (unreliable : behind.Unreliable)
    {script : Call → Option Answer} (faults : ∀ c a, script c = some a → ∃ e, a = .fault e) :
    (scripted script behind).Unreliable where
  directoryExists p d := by
    cases answer : script (.directoryExists p) with
    | none => simpa [Directory.scripted, scriptedFlag, answer] using unreliable.directoryExists p d
    | some a =>
      obtain ⟨e, rfl⟩ := faults _ a answer
      simp [Directory.scripted, scriptedFlag, answer]
  listFiles ext p d := by
    cases answer : script (.listFiles ext p) with
    | none => simpa [Directory.scripted, scriptedNames, answer] using unreliable.listFiles ext p d
    | some a =>
      obtain ⟨e, rfl⟩ := faults _ a answer
      simp [Directory.scripted, scriptedNames, answer]
  deleteFile p d := by
    cases answer : script (.deleteFile p) with
    | none => simpa [Directory.scripted, scriptedUnit, answer] using unreliable.deleteFile p d
    | some a =>
      obtain ⟨e, rfl⟩ := faults _ a answer
      simp [Directory.scripted, scriptedUnit, answer]

end Directory

end RowStore
