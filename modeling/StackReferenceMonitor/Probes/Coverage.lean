import StackReferenceMonitor.Probes.Handlers

/-!
# Calls on covered paths

A mediated call with an operand at or below an entry of the list is found by the look-ups of its
entry handler while the monitor enforces. The byte that `get_path_from_dentry` leaves unwritten
after the path may lengthen the string that is looked up, and a longer string is still covered.

## Main results

* `anyBlacklisted_of_covered`: for each of the ten probed functions;
* `not_covers_of_entryHandler`: conversely, a mediated call that is let through has no operand that
  an entry covers, whatever allocation failed on the way.
-/

namespace StackReferenceMonitor

open LinkedList Blacklist
open PathString (render)

/-- The paths on the list. -/
def Blacklist.HasEntry (bl : Blacklist) (entry : CStr) : Prop :=
  ∃ xs, bl.Lists xs ∧ entry ∈ xs.map Prod.snd

/-- The allocations of a path succeed. -/
structure PathEnv.Succeeds (env : PathEnv) : Prop where
  /-- `__get_free_page`. -/
  page : env.page = true
  /-- `kmalloc`, whatever its memory held. -/
  fullPath : env.fullPath.isSome

/-- The allocations of both paths succeed. -/
structure HandlerEnv.Succeeds (env : HandlerEnv) : Prop where
  /-- The first path. -/
  first : env.first.Succeeds
  /-- The second path. -/
  second : env.second.Succeeds

instance (env : PathEnv) : Decidable env.Succeeds :=
  decidable_of_iff (env.page = true ∧ env.fullPath.isSome)
    ⟨fun h => ⟨h.1, h.2⟩, fun h => ⟨h.1, h.2⟩⟩

instance (env : HandlerEnv) : Decidable env.Succeeds :=
  decidable_of_iff (env.first.Succeeds ∧ env.second.Succeeds)
    ⟨fun h => ⟨h.1, h.2⟩, fun h => ⟨h.1, h.2⟩⟩

section Lookup

variable {rf : ReferenceMonitor} {xs : List (ℕ × CStr)} {env : PathEnv} {dentry : Dentry}

/-- On a chain that ends, the lookup of a path that was computed ends. -/
theorem isBlacklisted_isSome (hxs : rf.blacklist.Lists xs) (path : List UInt8) :
    (isBlacklisted rf (some path)).isSome := by
  unfold isBlacklisted
  split_ifs
  · rfl
  · rfl
  · rw [walk_eq path hxs]
    rfl

/-- A path is computed when its allocations succeed and it fits. -/
theorem PathEnv.Succeeds.path (henv : env.Succeeds)
    (hraw : (dentryPathRaw dentry pathMax).isSome) :
    (render dentry).length < pathMax ∧ ∃ path, getPathFromDentry env dentry = some path := by
  have hlen : (render dentry).length < pathMax := by
    by_contra hlong
    simp [dentryPathRaw, if_neg hlong] at hraw
  obtain ⟨junk, hjunk⟩ := Option.isSome_iff_exists.mp henv.fullPath
  exact ⟨hlen, _, getPathFromDentry_eq henv.page hjunk hlen⟩

/-- A path that was computed had its allocations succeed, and it fits. -/
theorem succeeds_of_getPathFromDentry {path : List UInt8}
    (h : getPathFromDentry env dentry = some path) :
    env.Succeeds ∧ (render dentry).length < pathMax := by
  unfold getPathFromDentry at h
  simp only [Option.bind_eq_bind, Option.bind_eq_some_iff] at h
  obtain ⟨_, hpage, ret, hraw, junk, hjunk, -⟩ := h
  refine ⟨⟨(Option.guard_eq_some' _).mp hpage, by simp [hjunk]⟩, ?_⟩
  by_contra hlong
  simp [dentryPathRaw, if_neg hlong] at hraw

/-- On a list that is not empty, a monitor that enforces lets no `NULL` through. -/
theorem isBlacklisted_null (hrf : rf.Enforcing) (hxs : rf.blacklist.Counted xs) (hne : xs ≠ [])
    {ret : ℤ} (h : isBlacklisted rf none = some ret) : ret = 1 := by
  rw [isBlacklisted_eq_walk hrf hxs hne] at h
  obtain ⟨⟨a, v⟩, xs, rfl⟩ := List.exists_cons_of_ne_nil hne
  rw [walk_null hxs.lists] at h
  split_ifs at h
  exact (Option.some.inj h).symm

/-- What a monitor that enforces lets through is not covered by any entry. -/
theorem not_covers_of_isBlacklisted (hrf : rf.Enforcing) (hxs : rf.blacklist.Counted xs) {ret : ℤ}
    (h : isBlacklisted rf (getPathFromDentry env dentry) = some ret) (hret : ret ≠ 1) :
    ∀ x ∈ xs, ¬Covers x.2 (render dentry) := by
  intro x hx hcov
  cases hpath : getPathFromDentry env dentry with
  | none =>
    -- a path that could not be computed
    rw [hpath] at h
    exact hret (isBlacklisted_null hrf hxs (List.ne_nil_of_mem hx) h)
  | some path =>
    obtain ⟨henv, hlen⟩ := succeeds_of_getPathFromDentry hpath
    rw [isBlacklisted_getPathFromDentry hrf hxs henv.page henv.fullPath hlen ⟨x, hx, hcov⟩] at h
    exact hret (Option.some.inj h).symm

end Lookup

/-- One of the operands has a path that equals an entry, less at most one trailing slash, or lies
below it. -/
def ProbedCall.Covered (call : ProbedCall) (bl : Blacklist) : Prop :=
  ∃ dentry ∈ call.operands, ∃ entry, bl.HasEntry entry ∧ InOrBelow entry.bytes (render dentry)

/-- The path of each operand is computed in one of the two environments. -/
theorem ProbedCall.mem_paths {call : ProbedCall} {env : HandlerEnv} {path : Option (List UInt8)}
    (h : path ∈ call.paths env) :
    ∃ penv ∈ [env.first, env.second], ∃ dentry ∈ call.operands,
      path = getPathFromDentry penv dentry := by
  rw [ProbedCall.paths, ← List.map_uncurry_zip_eq_zipWith] at h
  obtain ⟨⟨penv, dentry⟩, hmem, rfl⟩ := List.mem_map.mp h
  obtain ⟨hpenv, hdentry⟩ := List.of_mem_zip hmem
  exact ⟨penv, hpenv, dentry, hdentry, rfl⟩

/-- Every operand has its path computed. -/
theorem ProbedCall.exists_path {call : ProbedCall} (env : HandlerEnv) {dentry : Dentry}
    (h : dentry ∈ call.operands) :
    ∃ penv ∈ [env.first, env.second], getPathFromDentry penv dentry ∈ call.paths env := by
  -- there is an environment for each of at most two operands
  have htwo : call.operands.length ≤ 2 := by
    cases call <;> simp [ProbedCall.operands]
  obtain ⟨i, hi, rfl⟩ := List.mem_iff_getElem.mp h
  have henv : i < [env.first, env.second].length := by
    simp only [List.length_cons, List.length_nil]
    omega
  refine ⟨_, List.getElem_mem henv, ?_⟩
  rw [ProbedCall.paths, List.mem_iff_getElem]
  exact ⟨i, by simp only [List.length_zipWith]; omega, List.getElem_zipWith⟩

/-- A mediated call that is let through has no operand that an entry covers. -/
theorem not_covers_of_entryHandler {rf : ReferenceMonitor} (hrf : rf.Enforcing)
    {xs : List (ℕ × CStr)} (hxs : rf.blacklist.Counted xs) {env : HandlerEnv} {call : ProbedCall}
    (hcall : call.mediated = true) {ret : ℤ} {data : ProbeData}
    (h : call.entryHandler rf env = some (ret, data)) (hret : ret ≠ 0) :
    ∀ dentry ∈ call.operands, ∀ x ∈ xs, ¬Covers x.2 (render dentry) := by
  have hverdict : (call.entryHandler rf env).map Prod.fst =
      (anyBlacklisted rf (call.paths env)).map verdict := entryHandler_eq hcall
  rw [h, Option.map_some, eq_comm, Option.map_eq_some_iff] at hverdict
  obtain ⟨found, hfound, hv⟩ := hverdict
  have hnone : found = false := by
    cases found with
    | true => exact absurd hv.symm hret
    | false => rfl
  subst hnone
  intro dentry hdentry
  obtain ⟨penv, -, hpath⟩ := ProbedCall.exists_path env hdentry
  obtain ⟨v, hv, hne⟩ := anyBlacklisted_eq_false hfound _ hpath
  exact not_covers_of_isBlacklisted hrf hxs hv hne

/-- With allocations and `dentry_path_raw` that succeed, an operand at or below an entry is found
among the paths of the call. -/
theorem anyBlacklisted_of_covered {rf : ReferenceMonitor} (hrf : rf.Enforcing)
    (hlist : Reachable rf.blacklist) {env : HandlerEnv} (henv : env.Succeeds) {call : ProbedCall}
    (hraw : ∀ dentry ∈ call.operands, (dentryPathRaw dentry pathMax).isSome)
    (hcov : call.Covered rf.blacklist) : anyBlacklisted rf (call.paths env) = some true := by
  obtain ⟨xs, hxs⟩ := hlist.counted
  have hsucc : ∀ penv ∈ [env.first, env.second], penv.Succeeds := by
    simp [henv.first, henv.second]
  refine anyBlacklisted_of_mem ?_ ?_
  · -- no lookup faults
    intro path hpath
    obtain ⟨penv, hpenv, dentry, hdentry, rfl⟩ := ProbedCall.mem_paths hpath
    obtain ⟨-, mem, hmem⟩ := (hsucc penv hpenv).path (hraw dentry hdentry)
    rw [hmem]
    exact isBlacklisted_isSome hxs.lists mem
  · -- and the one of the covered operand finds its entry
    obtain ⟨dentry, hdentry, entry, ⟨ys, hys, hentry⟩, hin⟩ := hcov
    obtain rfl := hys.unique hxs.lists
    obtain ⟨x, hx, rfl⟩ := List.mem_map.mp hentry
    obtain ⟨penv, hpenv, hpath⟩ := ProbedCall.exists_path env hdentry
    have hlen := ((hsucc penv hpenv).path (hraw dentry hdentry)).1
    exact ⟨_, hpath, isBlacklisted_getPathFromDentry hrf hxs (hsucc penv hpenv).page
      (hsucc penv hpenv).fullPath hlen ⟨x, hx, Covers.of_inOrBelow hin⟩⟩

/-- A mediated call with a blacklisted path is answered with `0`. -/
theorem entryHandler_of_anyBlacklisted {rf : ReferenceMonitor} {env : HandlerEnv}
    {call : ProbedCall} (hcall : call.mediated = true)
    (h : anyBlacklisted rf (call.paths env) = some true) :
    ∃ data, call.entryHandler rf env = some (0, data) := by
  have hverdict : (call.entryHandler rf env).map Prod.fst = some 0 := by
    rw [entryHandler_eq hcall, h]
    rfl
  obtain ⟨⟨ret, data⟩, hentry, hret⟩ := Option.map_eq_some_iff.mp hverdict
  obtain rfl : ret = 0 := hret
  exact ⟨data, hentry⟩

/-- The name `a`. -/
def nameA : Name := ⟨[97], by decide, by decide, by decide, by decide, by decide⟩

/-- The name `b`. -/
def nameB : Name := ⟨[98], by decide, by decide, by decide, by decide, by decide⟩

/-- A list with one entry. -/
def Blacklist.listOf (p : CStr) : Blacklist :=
  { head := some 0, size := 1, nodes := [⟨p, none⟩] }

/-- A first addition leads to it. -/
theorem Blacklist.listOf_reachable {p : CStr} (hp : p.bytes.length < pathMax) :
    Reachable (listOf p) := by
  have hstep : Blacklist.step Blacklist.empty (addOf p) = listOf p := by
    simp only [Blacklist.step, respond, run_addOf _ hp]
    rfl
  rw [← hstep]
  exact .call .empty (addOf_zeroed p) fun _ _ _ => by decide

theorem Blacklist.listOf_lists (p : CStr) : (listOf p).Lists [(0, p)] :=
  ⟨rfl, none, rfl, rfl⟩

/-- Its only entry. -/
theorem Blacklist.eq_of_hasEntry_listOf {p entry : CStr} (h : (listOf p).HasEntry entry) :
    entry = p := by
  obtain ⟨xs, hxs, hmem⟩ := h
  rw [hxs.unique (listOf_lists p)] at hmem
  simpa using hmem

/-- The monitor in ON with one path on its list. -/
def monitorOf (p : CStr) : ReferenceMonitor :=
  { state := rfOn, password := none, blacklist := listOf p }

/-- Both paths are allocated, each with the letter `b` in the byte that is not written. -/
def strayEnv : HandlerEnv :=
  { first := ⟨true, some fun _ => 98⟩, second := ⟨true, some fun _ => 98⟩, kstrdup := true }

end StackReferenceMonitor
