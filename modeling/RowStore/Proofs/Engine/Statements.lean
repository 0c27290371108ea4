import RowStore.Engine
import RowStore.Proofs.Catalog.Lookup

namespace RowStore.Engine.Turn

variable {δ α β : Type}

def Yields (x : Turn δ α) (s : Session) (d : Disk δ) (r : Except EngineError α) (s' : Session)
    (d' : Disk δ) : Prop :=
  ∀ w : World δ, w.disk = d → (x s w).1 = r ∧ (x s w).2.1 = s' ∧ (x s w).2.2.disk = d'

theorem bind_apply (x : Turn δ α) (f : α → Turn δ β) (s : Session) (w : World δ) :
    (x >>= f) s w = match x s w with
      | (.ok a, s', w') => f a s' w'
      | (.error e, s', w') => (.error e, s', w') := rfl

namespace Yields

variable {s s' s'' : Session} {d d' d'' : Disk δ} {name : String}

theorem pure (a : α) : (Pure.pure a : Turn δ α).Yields s d (.ok a) s d :=
  fun _ h => ⟨rfl, rfl, h⟩

theorem bind {x : Turn δ α} {f : α → Turn δ β} {a : α} {r : Except EngineError β}
    (hx : x.Yields s d (.ok a) s' d') (hf : (f a).Yields s' d' r s'' d'') :
    (x >>= f).Yields s d r s'' d'' := by
  intro w hw
  obtain ⟨answer, session, disk⟩ := hx w hw
  rw [bind_apply]
  cases eq : x s w with
  | mk r' rest =>
    rw [eq] at answer session disk
    cases answer
    cases session
    exact hf rest.2 disk

theorem bind_error {x : Turn δ α} {f : α → Turn δ β} {e : EngineError}
    (hx : x.Yields s d (.error e) s' d') : (x >>= f).Yields s d (.error e) s' d' := by
  intro w hw
  obtain ⟨answer, session, disk⟩ := hx w hw
  rw [bind_apply]
  cases eq : x s w with
  | mk r' rest =>
    rw [eq] at answer session disk
    cases answer
    exact ⟨rfl, session, disk⟩

theorem onWorld {x : Act δ α} {r : Except EngineError α} (hx : x.Yields d r d') :
    (Turn.onWorld x).Yields s d r s d' :=
  fun w hw => ⟨(hx w hw).1, rfl, (hx w hw).2⟩

theorem within {x : Session → Act δ α} {r : Except EngineError α} (hx : (x s).Yields d r d') :
    (Turn.within x).Yields s d r s d' :=
  onWorld hx

theorem select : (Turn.select name).Yields s d (.ok ()) (s.select name) d :=
  fun _ h => ⟨rfl, rfl, h⟩

theorem leave :
    (Turn.leave name).Yields s d (.ok (decide (s.database = some name))) (s.leave name) d :=
  fun _ h => ⟨rfl, rfl, h⟩

end Yields

end RowStore.Engine.Turn

namespace RowStore.Engine

variable {δ : Type} {c : Catalog δ} {s : Session} {d d' : Disk δ} {name : String}

theorem useDatabase_yields (found : c.Finds d name) :
    (useDatabase c name).Yields s d (.ok (.databaseChanged name)) (s.select name) d :=
  .bind (.onWorld (.bind (.askFlag found) (.pure _)))
    (.bind .select (.bind (.onWorld (.notify _ _)) (.pure _)))

theorem useDatabase_yields_error (missed : c.Misses d name) :
    (useDatabase c name).Yields s d (.error (.noSuchDatabase name)) s d :=
  .bind_error (.onWorld (.bind (.askFlag missed) (.fail _)))

theorem dropDatabase_yields (dropped : (c.dropDatabase name).Yields d (.ok ()) d') :
    (dropDatabase c name).Yields s d (.ok (.databaseDropped name)) (s.leave name) d' := by
  -- The session leaves a database once it is gone.
  refine .bind (.onWorld (.mapError EngineError.ofCatalog dropped)) (.bind .leave ?_)
  split
  · exact .bind (.onWorld (.notify _ _)) (.pure _)
  · exact .pure _

theorem dropDatabase_yields_error {e : CatalogError}
    (refused : (c.dropDatabase name).Yields d (.error e) d) :
    (dropDatabase c name).Yields s d (.error (.ofCatalog e)) s d :=
  .bind_error (.onWorld (.mapError EngineError.ofCatalog refused))

end RowStore.Engine
