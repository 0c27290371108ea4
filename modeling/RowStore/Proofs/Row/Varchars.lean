import RowStore.Proofs.Row.RoundTrip
import RowStore.Proofs.Sql.Grammar
import RowStore.Proofs.Text.Boundary

namespace RowStore

namespace Text

theorem toList_clipped (s : String) : (clipped s).toList = clip clipLimit s.toList :=
  String.toList_ofList

@[simp] theorem clipped_clipped (s : String) : clipped (clipped s) = clipped s := by
  rw [clipped, toList_clipped, clip_clip, ← clipped]

def untilNul (s : String) : String := String.ofList (s.toList.takeWhile (· ≠ '\x00'))

theorem clipped_untilNul (s : String) : clipped (untilNul s) = untilNul (clipped s) := by
  rw [clipped, untilNul, untilNul, String.toList_ofList, toList_clipped, clip_takeWhile]

end Text

namespace Value

theorem encode_clipped (s : String) :
    (varchar (Text.clipped s)).encode = (varchar s).encode := by
  rw [encode, encode, varcharBytes, varcharBytes, Text.toList_clipped, Text.clip_clip]

theorem ofSlot_encode_varchar (s : String) :
    ofSlot (varchar s).encode .varchar = .varchar (Text.untilNul (Text.clipped s)) := by
  have read := ofSlot_encode (varchar s)
  rw [type, kept, ← Text.toList_clipped] at read
  exact read

end Value

open Text

/-- Both ways to cut a text come to an end between characters, and leave the same: the longest initial
part that fits. Cutting again takes nothing away, before or behind the cut at the first NUL, so a row keeps
of a cut literal what it keeps of the whole one. -/
theorem cuts_eq_clipped (s : String) :
    cutFromEnd? 63 s = some (clipped s) ∧ cutLong? 63 s = some (clipped s) ∧
    Sql.Grammar.Cut s.toList (clipped s).toList ∧
    IsGreatest {e | Between s e ∧ e ≤ 63} (clipped s).utf8ByteSize ∧
    (63 < s.utf8ByteSize → 60 ≤ (clipped s).utf8ByteSize) ∧
    clipped (clipped s) = clipped s ∧ clipped (untilNul s) = untilNul (clipped s) ∧
    Value.ofLiteral? .varchar (clipped s) = Value.ofLiteral? .varchar s ∧
    (Value.varchar (clipped s)).encode = (Value.varchar s).encode ∧
    Value.ofSlot (Value.varchar s).encode .varchar = .varchar (untilNul (clipped s)) := by
  have cut : Sql.Grammar.Cut s.toList (clipped s).toList := by
    rw [toList_clipped]
    exact Sql.Grammar.cut_clip s.toList
  have size : (clipped s).utf8ByteSize = byteSize (clip 63 s.toList) := by
    rw [utf8ByteSize_eq, toList_clipped]
    rfl
  refine ⟨cutFromEnd?_eq 63 s, cutLong?_eq 63 s, cut, ?_, fun long => ?_, clipped_clipped s,
    clipped_untilNul s, ?_, Value.encode_clipped s, Value.ofSlot_encode_varchar s⟩
  · rw [size]
    exact isGreatest_byteSize_clip 63 s
  · rcases clip_eq_or_lt 63 s.toList with whole | room
    · have fits := byteSize_clip_le 63 s.toList
      rw [whole, ← utf8ByteSize_eq] at fits
      omega
    · omega
  · rw [Value.ofLiteral?, Value.ofLiteral?, clipped_clipped]

def wideEnd : String := String.ofList (List.replicate 60 'a' ++ ['😀'])

theorem cuts_eq_clipped_wideEnd :
    63 < wideEnd.utf8ByteSize ∧ cutFromEnd? 63 wideEnd = some (clipped wideEnd) ∧
      60 ≤ (clipped wideEnd).utf8ByteSize := by
  have long : 63 < wideEnd.utf8ByteSize := by decide +kernel
  obtain ⟨fromEnd, -, -, -, wide, -⟩ := cuts_eq_clipped wideEnd
  exact ⟨long, fromEnd, wide long⟩

end RowStore
