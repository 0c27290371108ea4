import RowStore.Bytes

namespace RowStore

structure IndexHeader where
  degree : Nat
  nodeCount : Nat
  deriving DecidableEq, Repr

namespace IndexHeader

def initial : IndexHeader := ⟨3, 0⟩

def content (h : IndexHeader) : Bytes := Bytes.ofNat 4 h.degree ++ Bytes.ofNat 4 h.nodeCount

theorem content_initial : initial.content = [3, 0, 0, 0, 0, 0, 0, 0] := by decide

end IndexHeader

end RowStore
