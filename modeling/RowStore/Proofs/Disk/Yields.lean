import RowStore.Disk.Directory

namespace RowStore

variable {δ ε ε' α β : Type}

namespace Directory

variable {d : Disk δ} {files : Files}

theorem changing_ok {f : Files → Except Fault Files} (h : f d.files = .ok files) :
    changing f d = (.ok (), { d with files := files }) := by
  simp only [changing, h]

theorem changing_error {f : Files → Except Fault Files} {e : Fault} (h : f d.files = .error e) :
    changing f d = (.error e, d) := by
  simp only [changing, h]

theorem changingPartly_ok {f : Files → Except Fault Unit × Files}
    (h : f d.files = (.ok (), files)) : changingPartly f d = (.ok (), { d with files := files }) := by
  simp only [changingPartly, h]

end Directory

namespace Action

/-- On every world with the disk `d` the action answers `r` and leaves the disk `d'`. -/
def Yields (x : Action δ ε α) (d : Disk δ) (r : Except ε α) (d' : Disk δ) : Prop :=
  ∀ w : World δ, w.disk = d → (x w).1 = r ∧ (x w).2.disk = d'

namespace Yields

variable {d d' d'' : Disk δ}

theorem succeed (a : α) : (Action.succeed a : Action δ ε α).Yields d (.ok a) d :=
  fun _ h => ⟨rfl, h⟩

theorem fail (e : ε) : (Action.fail e : Action δ ε α).Yields d (.error e) d :=
  fun _ h => ⟨rfl, h⟩

theorem pure (a : α) : (Pure.pure a : Action δ ε α).Yields d (.ok a) d := succeed a

theorem bind {x : Action δ ε α} {f : α → Action δ ε β} {a : α} {r : Except ε β}
    (hx : x.Yields d (.ok a) d') (hf : (f a).Yields d' r d'') : (x >>= f).Yields d r d'' := by
  intro w hw
  obtain ⟨answer, disk⟩ := hx w hw
  rw [bind_apply]
  cases eq : x w with
  | mk r' w' =>
    rw [eq] at answer disk
    cases answer
    exact hf w' disk

theorem bind_error {x : Action δ ε α} {f : α → Action δ ε β} {e : ε}
    (hx : x.Yields d (.error e) d') : (x >>= f).Yields d (.error e) d' := by
  intro w hw
  obtain ⟨answer, disk⟩ := hx w hw
  rw [bind_apply]
  cases eq : x w with
  | mk r' w' =>
    rw [eq] at answer disk
    cases answer
    exact ⟨rfl, disk⟩

theorem mapError {x : Action δ ε α} {r : Except ε α} (f : ε → ε') (hx : x.Yields d r d') :
    (x.mapError f).Yields d (r.mapError f) d' := by
  intro w hw
  obtain ⟨answer, disk⟩ := hx w hw
  rw [Action.mapError]
  cases eq : x w with
  | mk r' w' =>
    rw [eq] at answer disk
    cases answer
    cases r' <;> exact ⟨rfl, disk⟩

theorem attempt {x : Action δ ε α} {r : Except ε α} (hx : x.Yields d r d') :
    (x.attempt : Action δ ε' (Except ε α)).Yields d (.ok r) d' := by
  intro w hw
  obtain ⟨answer, disk⟩ := hx w hw
  exact ⟨congrArg Except.ok answer, disk⟩

theorem ofExcept (r : Except ε α) : (Action.ofExcept r : Action δ ε α).Yields d r d := by
  cases r with
  | ok a => exact succeed a
  | error e => exact fail e

theorem notify (level : Level) (text : String) :
    (Action.notify level text : Action δ ε Unit).Yields d (.ok ()) d :=
  fun _ h => ⟨rfl, h⟩

theorem record (a : Access) : (Action.record a : Action δ ε Unit).Yields d (.ok ()) d :=
  fun _ h => ⟨rfl, h⟩

theorem inspect (f : Files → Except ε α) :
    (Action.inspect f : Action δ ε α).Yields d (f d.files) d := by
  rintro w rfl
  exact ⟨rfl, rfl⟩

theorem change {f : Files → Except ε Files} {files : Files} (h : f d.files = .ok files) :
    (Action.change f).Yields d (.ok ()) { d with files := files } := by
  rintro w rfl
  simp only [Action.change, World.files, h]
  exact ⟨trivial, rfl⟩

theorem change_error {f : Files → Except ε Files} {e : ε} (h : f d.files = .error e) :
    (Action.change f).Yields d (.error e) d := by
  rintro w rfl
  simp only [Action.change, World.files, h, and_self]

theorem changePartly (f : Files → Except ε Unit × Files) :
    (Action.changePartly f).Yields d (f d.files).1 { d with files := (f d.files).2 } := by
  rintro w rfl
  exact ⟨rfl, rfl⟩

theorem read (p : Path) : (FileAccess.read p).Yields d (d.files.read p) d :=
  (record _).bind (inspect _)

theorem write {p : Path} {content : Content} {files : Files}
    (h : d.files.write content p = .ok files) :
    (FileAccess.write p content).Yields d (.ok ()) { d with files := files } :=
  (record _).bind (change h)

theorem write_error {p : Path} {content : Content} {e : Fault}
    (h : d.files.write content p = .error e) : (FileAccess.write p content).Yields d (.error e) d :=
  (record _).bind (change_error h)

theorem writeNew {p : Path} {content : Content} {files : Files}
    (h : d.files.writeNew content p = .ok files) :
    (FileAccess.writeNew p content).Yields d (.ok ()) { d with files := files } :=
  (record _).bind (change h)

theorem writeNew_error {p : Path} {content : Content} {e : Fault}
    (h : d.files.writeNew content p = .error e) :
    (FileAccess.writeNew p content).Yields d (.error e) d :=
  (record _).bind (change_error h)

theorem ask {c : Call} {f : Disk δ → Except ε α × Disk δ} {r : Except ε α}
    (h : f d = (r, d')) : (Directory.ask c f).Yields d r d' := by
  rintro w rfl
  simp only [Directory.ask, h, and_self]

theorem askFlag {c : Call} {f : Disk δ → Bool × Disk δ} {b : Bool} (h : f d = (b, d')) :
    (Directory.askFlag c f : Action δ ε Bool).Yields d (.ok b) d' := by
  apply ask
  simp only [h]

end Yields

end Action

end RowStore
