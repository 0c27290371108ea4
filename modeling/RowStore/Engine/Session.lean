namespace RowStore

structure Session where
  database : Option String
  deriving DecidableEq, Repr

namespace Session

def fresh : Session := ⟨none⟩

def select (name : String) (_ : Session) : Session := ⟨some name⟩

def leave (name : String) (s : Session) : Session :=
  if s.database = some name then ⟨none⟩ else s

end Session

end RowStore
