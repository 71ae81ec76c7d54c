import StackReferenceMonitor.Foundations.CString

/-!
# Buffers of bounded size

A buffer is the list of its bytes. A write that does not stay within it has no result: it is `none`.

## Main definitions

* `Buffer.store`: bytes that are written at an offset.
* `Buffer.sprintf`: a formatted text and its terminator, at an offset.

## Main results

* `Buffer.store_append`, `Buffer.store_singleton`: a write within the buffer replaces the bytes that
  were there;
* `Buffer.sprintf_append`: so does a text that is written where another one ends.
-/

namespace Buffer

/-- The bytes `data`, written from the offset `off` on. -/
def store (buf : List UInt8) (off : ℕ) (data : List UInt8) : Option (List UInt8) :=
  if off + data.length ≤ buf.length then
    some (buf.take off ++ data ++ buf.drop (off + data.length))
  else none

/-- A write within the buffer replaces the bytes that were there. -/
theorem store_append (front : List UInt8) {old data : List UInt8} (rest : List UInt8)
    (h : old.length = data.length) :
    store (front ++ old ++ rest) front.length data = some (front ++ data ++ rest) := by
  rw [store, if_pos (by simp only [List.length_append]; omega), ← h, ← List.length_append,
    List.drop_left, List.append_assoc front old, List.take_left]

/-- A write of one byte. -/
theorem store_singleton (front : List UInt8) (old b : UInt8) (rest : List UInt8) :
    store (front ++ old :: rest) front.length [b] = some (front ++ b :: rest) := by
  have hlen : [old].length = [b].length := rfl
  simpa using store_append front rest hlen

/-- `sprintf(buf + off, …)`, with the text that it formats. -/
def sprintf (buf : List UInt8) (off : ℕ) (s : List UInt8) : Option (List UInt8) :=
  store buf off (s ++ [0])

/-- A text that is written right after `front`. -/
theorem sprintf_append (front : List UInt8) {old s : List UInt8} (rest : List UInt8)
    (h : old.length = s.length + 1) :
    sprintf (front ++ old ++ rest) front.length s = some (front ++ s ++ 0 :: rest) := by
  rw [sprintf, store_append front rest (by rw [h, List.length_append, List.length_singleton])]
  simp

end Buffer
