import Mathlib.Algebra.Group.Int.Defs
import Mathlib.Algebra.Group.Nat.Defs
import StackReferenceMonitor.Errno
import StackReferenceMonitor.Foundations.LinkedList
import StackReferenceMonitor.Foundations.UserMemory

/-!
# The blacklist

The singly linked list of protected paths of `utils/blacklist.c`, with the fields
`blacklist_head` and `blacklist_size` of `struct reference_monitor` and the memory its nodes live
in. `addToBlacklist` and `removeFromBlacklist` follow the source branch by branch.

What the functions take from their environment is a parameter: the user memory they copy from, the
outcome of each `kmalloc`, the contents of the memory it returns and the bytes that follow it. A
call that dereferences `NULL` or a wild pointer, or whose loop never ends, returns nothing: its
result is `none`.

The loops are bounded by the number of allocated nodes. A chain that reaches `NULL` meets no node
twice (`LinkedList.Chain.nodup`), so a loop that exceeds the bound is one that does not end.
-/

namespace StackReferenceMonitor

/-! ### Sizes -/

/-- `PATH_MAX`: the bytes of a path, its terminator included. -/
def pathMax : ℕ := 4096

/-- The value an `int` holds after an operation whose result is `x`. -/
def toInt32 (x : ℤ) : ℤ :=
  x.bmod (2 ^ 32)

/-- A result in the range of an `int` is kept. -/
theorem toInt32_of_mem {x : ℤ} (hlo : -2 ^ 31 ≤ x) (hhi : x < 2 ^ 31) : toInt32 x = x := by
  apply Int.bmod_eq_of_le <;> omega

theorem toInt32_lt (x : ℤ) : toInt32 x < 2 ^ 31 := by
  have h := Int.bmod_lt (x := x) (m := 2 ^ 32) (by decide)
  simpa [toInt32] using h

/-- `struct blacklist_node`: the path is the cell's value. -/
abbrev BlacklistNode := Cell CStr

/-- `blacklist_head` and `blacklist_size`, and the memory of the nodes. -/
structure Blacklist where
  /-- `blacklist_head`. -/
  head : Option ℕ
  /-- `blacklist_size`, an `int`. -/
  size : ℤ
  /-- The nodes allocated so far, linked or not. -/
  nodes : List BlacklistNode
  deriving DecidableEq

namespace Blacklist

/-- The blacklist as `init_module` leaves it. -/
def empty : Blacklist :=
  { head := none, size := 0, nodes := [] }

/-- What one call of `add_to_blacklist` meets. -/
structure AddEnv where
  /-- The memory of the calling process. -/
  mem : UserMem
  /-- `kmalloc` of `kernel_rel_path`: `NULL`, or the bytes that follow the buffer. -/
  kernelRelPath : Option (List UInt8)
  /-- `kmalloc` of the node: `NULL`, or the contents of its `next` field. -/
  new : Option (Option ℕ)
  /-- Whether `kmalloc` of `new->path` succeeds; the source does not check. -/
  newPath : Bool

/-- What one call of `remove_from_blacklist` meets. -/
structure RemoveEnv where
  /-- The memory of the calling process. -/
  mem : UserMem
  /-- `kmalloc` of `kernel_path`: `NULL`, or the bytes that follow the buffer. -/
  kernelPath : Option (List UInt8)

/-- The loop of `add_to_blacklist` over `curr->next != NULL`, with the comparison after it: the
last node, or `none` when a node already has the path. -/
def addScan (nodes : List BlacklistNode) (kernelRelPath : CStr) :
    ℕ → ℕ → Option (Option ℕ)
  | 0, _ => none
  | fuel + 1, curr => do
    let node ← nodes[curr]?
    match node.next with
    | some next =>
      -- inside the loop: the last node is not compared here
      if CString.strcmp node.val.bytes kernelRelPath.bytes = 0 then return none
      else addScan nodes kernelRelPath fuel next
    | none =>
      -- after the loop: `curr->next` is `NULL`
      if CString.strcmp node.val.bytes kernelRelPath.bytes = 0 then return none
      else return some curr

/-- The locked section of `add_to_blacklist`. The node is allocated before it, at the next free
address, and stays allocated when its path is a duplicate. -/
def addLocked (bl : Blacklist) (new : BlacklistNode) : Option (ℤ × Blacklist) :=
  let addr := bl.nodes.length
  let nodes := LinkedList.alloc bl.nodes new
  -- `new->next` is not written in any branch
  match bl.head with
  | none => some (0, { head := some addr, size := toInt32 (bl.size + 1), nodes })
  | some curr => do
    let node ← nodes[curr]?
    match node.next with
    | none =>
      if CString.strcmp node.val.bytes new.val.bytes = 0 then
        return (-EEXIST, { bl with nodes })
      else
        return (0, { bl with
          size := toInt32 (bl.size + 1)
          nodes := LinkedList.setNext nodes curr (some addr) })
    | some _ =>
      match ← addScan nodes new.val nodes.length curr with
      | none => return (-EEXIST, { bl with nodes })
      | some last =>
        return (0, { bl with
          size := toInt32 (bl.size + 1)
          nodes := LinkedList.setNext nodes last (some addr) })

/-- `add_to_blacklist`. `copy_from_user` returns a count, so its `-1` branch is never taken; the
copy is used whatever was left uncopied. -/
def addToBlacklist (env : AddEnv) (path : ℕ) (bl : Blacklist) : Option (ℤ × Blacklist) :=
  match env.kernelRelPath with
  | none => some (-ENOMEM, bl)
  | some after =>
    let (buffer, ret) := env.mem.copyFromUser path pathMax
    if (ret : ℤ) = -1 then some (-EAGAIN, bl)
    else
      match env.new with
      | none => some (-ENOMEM, bl)
      | some next =>
        -- `strcpy` to a `NULL` `new->path` does not return
        if env.newPath then addLocked bl ⟨CString.ofMem (buffer ++ after), next⟩
        else none

/-- The loop of `remove_from_blacklist`: `prev` and `curr` when it ends. -/
def removeScan (nodes : List BlacklistNode) (kernelPath : CStr) :
    ℕ → Option ℕ → Option ℕ → Option (Option ℕ × Option ℕ)
  | 0, _, _ => none
  | _ + 1, prev, none => some (prev, none)
  | fuel + 1, prev, some curr => do
    let node ← nodes[curr]?
    if CString.strcmp node.val.bytes kernelPath.bytes ≠ 0 then
      removeScan nodes kernelPath fuel (some curr) node.next
    else
      return (prev, some curr)

/-- The locked section of `remove_from_blacklist`. Unlinking the head decrements the size,
unlinking another node does not. -/
def removeLocked (bl : Blacklist) (kernelPath : CStr) : Option (ℤ × Blacklist) :=
  match bl.head with
  | none => some (-EINVAL, bl)
  | some curr => do
    let node ← bl.nodes[curr]?
    if CString.strcmp node.val.bytes kernelPath.bytes = 0 then
      return (0, { bl with head := node.next, size := toInt32 (bl.size - 1) })
    else
      -- the loop starts at the head again, so `prev` is set when it finds the path
      match ← removeScan bl.nodes kernelPath (bl.nodes.length + 1) none (some curr) with
      | (_, none) => return (-EINVAL, bl)
      | (prev, some found) =>
        let prev ← prev
        let node ← bl.nodes[found]?
        return (0, { bl with nodes := LinkedList.setNext bl.nodes prev node.next })

/-- `remove_from_blacklist`. -/
def removeFromBlacklist (env : RemoveEnv) (path : ℕ) (bl : Blacklist) :
    Option (ℤ × Blacklist) :=
  match env.kernelPath with
  | none => some (-ENOMEM, bl)
  | some after =>
    let (buffer, ret) := env.mem.copyFromUser path pathMax
    if (ret : ℤ) = -1 then some (-EAGAIN, bl)
    else removeLocked bl (CString.ofMem (buffer ++ after))

end Blacklist

end StackReferenceMonitor
