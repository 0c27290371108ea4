import RowStore.Disk.Directory

namespace RowStore

variable {δ ε ε' α β : Type}

def Call.path : Call → Path
  | .listSubdirectories p | .listFiles _ p | .directoryExists p | .fileExists p
  | .createDirectory p | .deleteDirectory p | .deleteFile p => p

def Access.path : Access → Path
  | .directory c => c.path
  | .file p => p

namespace Action

theorem eq_ok_of_mapError {x : Action δ ε α} {f : ε → ε'} {w w' : World δ} {a : α}
    (h : x.mapError f w = (.ok a, w')) : x w = (.ok a, w') := by
  rw [mapError] at h
  cases first : x w with
  | mk r w'' =>
    rw [first] at h
    cases r with
    | error e => cases h
    | ok b =>
      cases h
      rfl

def Touches (P : Path → Prop) (x : Action δ ε α) (w : World δ) : Prop :=
  ∀ access ∈ (x w).2.accesses, access ∈ w.accesses ∨ P access.path

namespace Touches

variable {P : Path → Prop} {w : World δ}

theorem quiet {x : Action δ ε α} (h : (x w).2.accesses = w.accesses) : Touches P x w :=
  fun _ mem => .inl (h ▸ mem)

theorem succeed (a : α) : Touches P (Action.succeed a : Action δ ε α) w := quiet rfl

theorem fail (e : ε) : Touches P (Action.fail e : Action δ ε α) w := quiet rfl

theorem ofExcept (r : Except ε α) : Touches P (Action.ofExcept r : Action δ ε α) w := by
  cases r with
  | ok a => exact succeed a
  | error e => exact fail e

theorem notify (level : Level) (text : String) :
    Touches P (Action.notify level text : Action δ ε Unit) w :=
  quiet rfl

theorem inspect (f : Files → Except ε α) : Touches P (Action.inspect f : Action δ ε α) w :=
  quiet rfl

theorem change (f : Files → Except ε Files) : Touches P (Action.change f : Action δ ε Unit) w := by
  refine quiet ?_
  rw [Action.change]
  split <;> rfl

theorem changePartly (f : Files → Except ε Unit × Files) : Touches P (Action.changePartly f) w :=
  quiet rfl

theorem added {x : Action δ ε α} {a : Access} (h : P a.path)
    (log : (x w).2.accesses = w.accesses ++ [a]) : Touches P x w := by
  intro access mem
  rw [log] at mem
  rcases List.mem_append.1 mem with old | new
  · exact .inl old
  · rw [List.mem_singleton.1 new]
    exact .inr h

theorem record {a : Access} (h : P a.path) : Touches P (Action.record a : Action δ ε Unit) w :=
  added h rfl

theorem ask {c : Call} (f : Disk δ → Except ε α × Disk δ) (h : P c.path) :
    Touches P (Directory.ask c f) w :=
  added (a := .directory c) h rfl

theorem askFlag {c : Call} (f : Disk δ → Bool × Disk δ) (h : P c.path) :
    Touches P (Directory.askFlag c f : Action δ ε Bool) w :=
  ask _ h

theorem bind {x : Action δ ε α} {f : α → Action δ ε β} (hx : Touches P x w)
    (hf : ∀ a w', x w = (.ok a, w') → Touches P (f a) w') : Touches P (x >>= f) w := by
  rw [Touches, bind_apply]
  rw [Touches] at hx
  cases first : x w with
  | mk r w' =>
    rw [first] at hx
    cases r with
    | error e => exact hx
    | ok a => exact fun access mem => (hf a w' first access mem).elim (hx access) .inr

theorem mapError {x : Action δ ε α} (f : ε → ε') (hx : Touches P x w) :
    Touches P (x.mapError f) w := by
  rw [Touches, Action.mapError]
  rw [Touches] at hx
  cases first : x w with
  | mk r w' =>
    rw [first] at hx
    cases r <;> exact hx

theorem attempt {x : Action δ ε α} (hx : Touches P x w) :
    Touches P (x.attempt : Action δ ε' (Except ε α)) w :=
  hx

variable {p : Path}

theorem read (h : P p) : Touches P (FileAccess.read p) w :=
  (record h).bind fun _ _ _ => inspect _

theorem write (h : P p) (content : Content) : Touches P (FileAccess.write p content) w :=
  (record h).bind fun _ _ _ => change _

theorem writeNew (h : P p) (content : Content) : Touches P (FileAccess.writeNew p content) w :=
  (record h).bind fun _ _ _ => change _

end Touches

end Action

end RowStore
