import StackReferenceMonitor.Vfs.Denial
import StackReferenceMonitor.Vfs.Effects

/-!
# Protected objects over whole runs

Runs of operations, each performed exactly when the entry handler of its probe lets it through. An
object that a path of the list names stays the same object, with the same subtree and contents,
unless an operation harms it without having it among its operands. There are two such ways: a
directory above the object is renamed, and a file of the object is written to or truncated under
another of its names. The handlers compare the paths of the operands with the entries, and these
paths lie outside.

## Main definitions

* `guardedStep`: an operation, with its handler deciding whether it is performed.
* `StillNames`: a path names the same object as in another file system.
* `Harmless`: an operation does not rename a directory above an object, nor reach a file of it.

## Main results

* `Intact.step`, `protected_object_intact`: an object on the list stays intact along every run
  whose operations are harmless to it.
-/

namespace StackReferenceMonitor

open Blacklist
open PathString (slash render)

/-- One operation with its probe armed, in an environment of the handler. A call that is denied, or
whose handler faults, has no effect. -/
def guardedStep (rf : ReferenceMonitor) (fs : FileSystem) (a : HandlerEnv × VfsOp) : FileSystem :=
  match a.2.call fs with
  | none => fs
  | some call =>
    match call.entryHandler rf a.1 with
    | none => fs
    | some (ret, _) => if ret = 0 then fs else (fs.perform a.2).2

/-- The object at `dentry` in `fs` is the one at `dentry₀` in `fs₀`, with the same subtree and the
same contents. -/
def SameObject (fs₀ : FileSystem) (dentry₀ : Dentry) (fs : FileSystem) (dentry : Dentry) : Prop :=
  ∀ below, fs.lookup (dentry ++ below) = fs₀.lookup (dentry₀ ++ below) ∧
    ∀ ino, fs₀.lookup (dentry₀ ++ below) = some ino → fs.inodes[ino]? = fs₀.inodes[ino]?

/-- If the path names an object in `fs₀`, it names the same object in `fs`. -/
def StillNames (path : List UInt8) (fs₀ fs : FileSystem) : Prop :=
  ∀ dentry₀, fs₀.resolve path = some dentry₀ →
    ∃ dentry, fs.resolve path = some dentry ∧ SameObject fs₀ dentry₀ fs dentry

/-- The operation, if performed, does not rename a directory above the path, nor overwrite a file
at or below it. -/
def Harmless (fs : FileSystem) (path : Dentry) (op : VfsOp) : Prop :=
  (∀ oldDentry newDentry, op = .rename oldDentry newDentry → oldDentry <+: path →
    fs.lookup oldDentry = fs.lookup newDentry) ∧
    ∀ ino, op.Reaches fs ino → ∀ q, path <+: q → fs.lookup q ≠ some ino

/-- If no entry of the list covers an operand of the operation, it is harmless to the path. -/
def HarmlessUncovered (rf : ReferenceMonitor) (path : Dentry) (fs : FileSystem)
    (a : HandlerEnv × VfsOp) : Prop :=
  (∀ dentry ∈ a.2.operands fs, ∀ entry, rf.blacklist.HasEntry entry →
    ¬Covers entry (render dentry)) → Harmless fs path a.2

/-- At the path, below it and above it, the names and the inodes are those of `fs₀`. -/
structure Intact (fs₀ : FileSystem) (path : Dentry) (fs : FileSystem) : Prop where
  /-- The names. -/
  lookup : ∀ q, path <+: q ∨ q <+: path → fs.lookup q = fs₀.lookup q
  /-- The inodes. -/
  inodes : ∀ q ino, path <+: q ∨ q <+: path → fs₀.lookup q = some ino →
    fs.inodes[ino]? = fs₀.inodes[ino]?

section Intact

variable {fs₀ fs fs' : FileSystem} {path q : Dentry} {op : VfsOp}

theorem Intact.node (h : Intact fs₀ path fs) (hq : path <+: q ∨ q <+: path) :
    fs.node q = fs₀.node q := by
  unfold FileSystem.node
  rw [h.lookup q hq]
  cases hino : fs₀.lookup q with
  | none => rfl
  | some ino => exact h.inodes q ino hq hino

theorem lookup_isSome_of_node {inode : Inode} (h : fs.node q = some inode) :
    (fs.lookup q).isSome := by
  simp only [FileSystem.node, Option.bind_eq_bind, Option.bind_eq_some_iff] at h
  obtain ⟨ino, hino, -⟩ := h
  simp [hino]

/-- Every path above an object is that of a directory. -/
theorem node_of_prefix (hwf : fs₀.WellFormed) (hpath : (fs₀.lookup path).isSome) (hq : q <+: path)
    (hne : q ≠ path) : fs₀.node q = some .dir := by
  obtain ⟨below, rfl⟩ := hq
  cases below with
  | nil => simp at hne
  | cons name below =>
    clear hne
    -- from the object up, one name at a time
    induction below using List.reverseRecOn with
    | nil => exact hwf.parent q name hpath
    | append_singleton below last ih =>
      refine ih (lookup_isSome_of_node (hwf.parent (q ++ name :: below) last ?_))
      simpa using hpath

/-- A path with something below it is no leaf. -/
theorem not_leaf_of_prefix (hdir : fs.node q = some .dir) (hpath : (fs.lookup path).isSome)
    (hq : q <+: path) (hne : q ≠ path) : ¬fs.Leaf q := by
  rintro (hnodir | hempty)
  · exact hnodir hdir
  · obtain ⟨ino, hino⟩ := Option.isSome_iff_exists.mp hpath
    have hmem := exists_mem_of_lookupTree hino
    have hnone : ¬(q <+: path ∧ q ≠ path) := of_decide_eq_true
      (List.all_eq_true.mp hempty (path, ino) hmem)
    exact hnone ⟨hq, hne⟩

/-- A path that starts one at, below or above `path` lies above `path`, if it is not itself at or
below it. -/
theorem prefix_of_comparable {d : Dentry} (hd : d <+: q) (hq : path <+: q ∨ q <+: path)
    (hnot : ¬path <+: d) : d <+: path := by
  rcases hq with hq | hq
  · exact (List.prefix_or_prefix_of_prefix hd hq).resolve_right hnot
  · exact hd.trans hq

/-- Nothing above the object is removed or replaced. -/
theorem Intact.not_prefix_of_leaf (h : Intact fs₀ path fs) (hwf : fs₀.WellFormed)
    (hpath : (fs₀.lookup path).isSome) {d : Dentry} (hleaf : fs.Leaf d) (hnot : ¬path <+: d)
    (hq : path <+: q ∨ q <+: path) : ¬d <+: q := by
  intro hd
  have habove := prefix_of_comparable hd hq hnot
  have hne : d ≠ path := by
    rintro rfl
    exact hnot (List.prefix_refl d)
  have hdir : fs.node d = some .dir := by
    rw [h.node (Or.inr habove)]
    exact node_of_prefix hwf hpath habove hne
  have hsome : (fs.lookup path).isSome := by
    rw [h.lookup path (Or.inl (List.prefix_refl path))]
    exact hpath
  exact not_leaf_of_prefix hdir hsome habove hne hleaf

/-- What changes neither names nor inodes keeps an object. -/
theorem Intact.kept (h : Intact fs₀ path fs) (htree : fs'.tree = fs.tree)
    (hinodes : fs'.inodes = fs.inodes) : Intact fs₀ path fs' := by
  refine ⟨fun q hq => ?_, fun q ino hq hino => ?_⟩
  · rw [FileSystem.lookup, htree]
    exact h.lookup q hq
  · rw [hinodes]
    exact h.inodes q ino hq hino

/-- One harmless operation, with no operand at or below the path. -/
theorem Intact.step (h : Intact fs₀ path fs) (hwf : fs₀.WellFormed)
    (hpath : (fs₀.lookup path).isSome) (hharmless : Harmless fs path op)
    (hoperands : ∀ dentry ∈ op.operands fs, ¬path <+: dentry)
    (heffect : TreeEffect fs op fs') : Intact fs₀ path fs' := by
  -- `lookup` and `inodes` for each kind of change
  cases heffect with
  | kept htree hinodes => exact h.kept htree hinodes
  | stored ino old new hreach hold htree hinodes =>
    refine ⟨fun q hq => ?_, fun q i hq hi => ?_⟩
    · rw [FileSystem.lookup, htree]
      exact h.lookup q hq
    · have hkept := h.inodes q i hq hi
      have hne : ino ≠ i := by
        rintro rfl
        by_cases hbelow : path <+: q
        · exact hharmless.2 ino hreach q hbelow (by rw [h.lookup q hq, hi])
        · -- above the object there are directories, and a file was overwritten
          have habove : q <+: path := hq.resolve_left hbelow
          have hdir := node_of_prefix hwf hpath habove fun heq => hbelow (heq ▸ List.prefix_refl q)
          rw [FileSystem.node, hi] at hdir
          have hfile : fs₀.inodes[ino]? = some (.file old) := hkept ▸ hold
          exact absurd (hfile.symm.trans hdir) (by simp)
      rw [hinodes, List.getElem?_set_ne hne]
      exact hkept
  | named dentry hop hfree htree hinodes =>
    -- the new name is not one of the object's, and all names above it are taken
    have hne : ∀ q, path <+: q ∨ q <+: path → q ≠ dentry := by
      rintro q hq rfl
      have habove : q <+: path := hq.resolve_left (hoperands q hop)
      have hdir := node_of_prefix hwf hpath habove fun heq =>
        hoperands q hop (heq ▸ List.prefix_refl q)
      have hsome := lookup_isSome_of_node hdir
      rw [← h.lookup q hq, hfree] at hsome
      simp at hsome
    refine ⟨fun q hq => ?_, fun q ino hq hino => ?_⟩
    · rw [htree q (hne q hq)]
      exact h.lookup q hq
    · have hkept := h.inodes q ino hq hino
      -- new inodes are appended
      have hlt : ino < fs.inodes.length := by
        have hvalid := List.getElem?_eq_getElem (hwf.valid q ino hino)
        rw [← hkept] at hvalid
        exact (List.getElem?_eq_some_iff.mp hvalid).1
      obtain ⟨new, hnew⟩ := hinodes
      rw [← hnew, List.getElem?_append_left hlt]
      exact hkept
  | removed dentry hop hleaf htree hinodes =>
    have hnot := hoperands dentry hop
    refine ⟨fun q hq => ?_, fun q ino hq hino => ?_⟩
    · rw [htree q (h.not_prefix_of_leaf hwf hpath hleaf hnot hq)]
      exact h.lookup q hq
    · rw [hinodes]
      exact h.inodes q ino hq hino
  | moved oldDentry newDentry hop hdiff hleaf htree hinodes =>
    have hmem : ∀ d ∈ [oldDentry, newDentry], d ∈ op.operands fs := by
      subst hop
      exact fun d hd => hd
    have hnotOld := hoperands oldDentry (hmem oldDentry (by simp))
    have hnotNew := hoperands newDentry (hmem newDentry (by simp))
    refine ⟨fun q hq => ?_, fun q ino hq hino => ?_⟩
    · -- neither path lies above the object: the old one by assumption, the new one is a leaf
      have hold : ¬oldDentry <+: q := fun hd =>
        hdiff (hharmless.1 oldDentry newDentry hop (prefix_of_comparable hd hq hnotOld))
      rw [htree q hold (h.not_prefix_of_leaf hwf hpath hleaf hnotNew hq)]
      exact h.lookup q hq
    · rw [hinodes]
      exact h.inodes q ino hq hino

end Intact

section Runs

variable {rf : ReferenceMonitor} {fs₀ fs : FileSystem} {path : Dentry}

/-- The spelling of a path, with or without a slash after it, covers what is at and below it. -/
theorem covers_of_canonical {entry : CStr}
    (hentry : entry.bytes = render path ∨ entry.bytes = render path ++ [slash]) {q : Dentry}
    (hq : path <+: q) : Covers entry (render q) := by
  have htrim : trimSlash entry.bytes <+: render path := by
    rcases hentry with h | h
    · rw [h]
      exact trimSlash_isPrefix _
    · simp [h, trimSlash]
  exact htrim.trans (PathString.render_prefix_render hq)

/-- What a step of a run does: nothing, or what the operation does, with its call let through. -/
theorem guardedStep_cases (a : HandlerEnv × VfsOp) :
    guardedStep rf fs a = fs ∨
      ∃ call ret data, a.2.call fs = some call ∧ call.entryHandler rf a.1 = some (ret, data) ∧
        ret ≠ 0 ∧ guardedStep rf fs a = (fs.perform a.2).2 := by
  unfold guardedStep
  split
  · exact Or.inl rfl
  case h_2 call hcall =>
    split
    · exact Or.inl rfl
    case h_2 ret data hentry =>
      split_ifs with hret
      · exact Or.inl rfl
      · exact Or.inr ⟨call, ret, data, hcall, hentry, hret, rfl⟩

/-- For an operation that a hook mediates, a step is the operation with its probe armed. A write or
a seek may have an effect although it is denied, which a step leaves out. -/
theorem guardedStep_eq_mediate (env : HandlerEnv) {op : VfsOp} (hhooked : op.hooked = true) :
    guardedStep rf fs (env, op) = ((op.mediate rf env 0 fs).map Prod.snd).getD fs := by
  unfold guardedStep
  split
  case h_1 hcall => simp [VfsOp.mediate, hcall]
  case h_2 call hcall =>
    split
    case h_1 hfault =>
      have hrun : (call.function.kretprobe rf env).call call.regs (op.body 0) fs = none := by
        simp only [Kretprobe.call, ProbedFunction.kretprobe]
        exact Option.bind_eq_none_iff.mpr fun _ h => absurd (hfault.symm.trans h) (by simp)
      simp [VfsOp.mediate, hcall, hrun]
    case h_2 ret data hentry =>
      split_ifs with hret
      · subst hret
        rw [mediate_of_denied hcall hentry]
        simp [VfsOp.body, hhooked]
      · rw [mediate_of_allowed hcall hentry hret]
        rfl

/-- An operation whose call is not mediated is an `open` that does not truncate. -/
theorem kept_of_not_mediated {op : VfsOp} {call : ProbedCall} (hcall : op.call fs = some call)
    (hmed : call.mediated = false) :
    (fs.perform op).2.tree = fs.tree ∧ (fs.perform op).2.inodes = fs.inodes := by
  cases op with
  | openFile dentry flags =>
    obtain rfl : ProbedCall.securityFileOpen ⟨dentry, flags⟩ = call := Option.some.inj hcall
    have hflags : writeFlags flags = false := hmed
    have htrunc : flags &&& oTrunc = 0 := by
      simp only [writeFlags, decide_eq_false_iff_not, not_or, not_not] at hflags
      exact hflags.2.2.2.2
    simp only [FileSystem.perform]
    split_ifs with hcheck
    · cases hlookup : fs.lookup dentry <;> simp [FileSystem.effect, hlookup, htrunc]
    · exact ⟨rfl, rfl⟩
  | write fd data =>
    obtain ⟨f, -, rfl⟩ := Option.map_eq_some_iff.mp hcall
    simp [ProbedCall.mediated] at hmed
  | llseek fd offset whence =>
    obtain ⟨f, -, rfl⟩ := Option.map_eq_some_iff.mp hcall
    simp [ProbedCall.mediated] at hmed
  | _ =>
    obtain rfl := Option.some.inj hcall
    simp [ProbedCall.mediated] at hmed

/-- One step of a run keeps an object that an entry spells. -/
theorem Intact.guardedStep (h : Intact fs₀ path fs) (hrf : rf.Enforcing)
    (hlist : Reachable rf.blacklist) (hwf : fs₀.WellFormed) (hpath : (fs₀.lookup path).isSome)
    {entry : CStr} (hentry : rf.blacklist.HasEntry entry)
    (hcanon : entry.bytes = render path ∨ entry.bytes = render path ++ [slash])
    (a : HandlerEnv × VfsOp) (ha : HarmlessUncovered rf path fs a) :
    Intact fs₀ path (guardedStep rf fs a) := by
  rcases guardedStep_cases a with hsame | ⟨call, ret, data, hcall, hlet, hret, hstep⟩
  · rw [hsame]
    exact h
  · rw [hstep]
    obtain ⟨xs, hxs⟩ := hlist.counted
    have hoperands : a.2.operands fs = call.operands := by
      rw [VfsOp.operands, hcall]
    by_cases hmed : call.mediated = true
    · have huncovered := not_covers_of_entryHandler hrf hxs hmed hlet hret
      rw [← hoperands] at huncovered
      have hentries : ∀ e, rf.blacklist.HasEntry e → ∃ x ∈ xs, x.2 = e := by
        rintro e ⟨ys, hys, he⟩
        obtain rfl := hys.unique hxs.lists
        exact List.mem_map.mp he
      have hharmless : Harmless fs path a.2 := by
        refine ha fun d hd e he hcov => ?_
        obtain ⟨x, hx, rfl⟩ := hentries e he
        exact huncovered d hd x hx hcov
      refine h.step hwf hpath hharmless (fun d hd hbelow => ?_) (perform_effect fs a.2)
      -- an operand at or below the object would be covered by its entry
      obtain ⟨x, hx, rfl⟩ := hentries entry hentry
      exact huncovered d hd x hx (covers_of_canonical hcanon hbelow)
    · obtain ⟨htree, hinodes⟩ := kept_of_not_mediated hcall (by simpa using hmed)
      exact h.kept htree hinodes

/-- An object that stays intact is still named by the path that spelled it. -/
theorem Intact.stillNames (h : Intact fs₀ path fs) (hwf : fs₀.WellFormed) {spelling : List UInt8}
    (hcanon : spelling = render path ∨ spelling = render path ++ [slash])
    (hres : fs₀.resolve spelling = some path) : StillNames spelling fs₀ fs := by
  obtain ⟨k, hsplit⟩ := PathString.splitOn_render path hcanon
  obtain ⟨inode, hnode, hlink⟩ := hwf.isObject_of_resolve hres
  have hpath := lookup_isSome_of_node hnode
  have hhead : spelling.head? = some slash := by
    by_contra hno
    simp [FileSystem.resolve, hno] at hres
  have hdirs : ∀ above name below, path = above ++ name :: below → fs₀.node above = some .dir := by
    rintro above name below rfl
    exact node_of_prefix hwf hpath (List.prefix_append _ _) (by simp)
  -- the path of the object is followed through the same directories as before
  have hsame : fs.resolve spelling = fs₀.resolve spelling := by
    rw [FileSystem.resolve_of_splitOn hhead hsplit hwf.root hdirs ⟨inode, hnode, hlink⟩]
    have hself := h.node (Or.inl (List.prefix_refl path))
    rw [← hself]
    refine FileSystem.resolve_of_splitOn hhead hsplit ?_ ?_ ⟨inode, by rw [hself, hnode], hlink⟩
    · rw [h.node (Or.inr List.nil_prefix)]
      exact hwf.root
    · intro above name below hpath
      rw [h.node (Or.inr ⟨name :: below, hpath.symm⟩)]
      exact hdirs above name below hpath
  intro dentry₀ hres₀
  obtain rfl : path = dentry₀ := Option.some.inj (hres.symm.trans hres₀)
  refine ⟨path, by rw [hsame, hres], fun below => ⟨?_, fun ino hino => ?_⟩⟩
  · exact h.lookup _ (Or.inl (List.prefix_append _ _))
  · exact h.inodes _ ino (Or.inl (List.prefix_append _ _)) hino

end Runs

/-- The monitor is in ON or REC_ON with a fixed list, and a run performs each of its operations
exactly when the entry handler lets it through. Along every run whose operations with no covered
operand are all harmless to it, an object that an entry names at the start, by the path of the
object itself with at most one slash after it, is still what the entry names, with the same subtree
and the same contents. -/
theorem protected_object_intact {rf : ReferenceMonitor} (hrf : rf.Enforcing)
    (hlist : Reachable rf.blacklist) {fs₀ : FileSystem} (hwf : fs₀.WellFormed) {entry : CStr}
    (hentry : rf.blacklist.HasEntry entry) {path : Dentry}
    (hres : fs₀.resolve entry.bytes = some path)
    (hcanon : entry.bytes = render path ∨ entry.bytes = render path ++ [slash])
    {as : List (HandlerEnv × VfsOp)}
    (has : Run.EachStep (guardedStep rf) (HarmlessUncovered rf path) fs₀ as) :
    Run.Always (guardedStep rf) (StillNames entry.bytes fs₀) fs₀ as := by
  obtain ⟨inode, hnode, -⟩ := hwf.isObject_of_resolve hres
  have hpath := lookup_isSome_of_node hnode
  have hstart : Intact fs₀ path fs₀ := ⟨fun _ _ => rfl, fun _ _ _ _ => rfl⟩
  have hintact : Run.Always (guardedStep rf) (Intact fs₀ path) fs₀ as :=
    Run.always_of_eachStep
      (fun fs a h ha => h.guardedStep hrf hlist hwf hpath hentry hcanon a ha) hstart has
  exact hintact.mono fun fs h => h.stillNames hwf hcanon hres

/-- A file system with the directory `/a` and the empty file `/a/b` in it. -/
def treeAB : FileSystem :=
  { tree := [([], 0), ([nameA], 1), ([nameA, nameB], 2)]
    inodes := [.dir, .dir, .file []]
    files := [] }

theorem treeAB_wellFormed : treeAB.WellFormed := by
  refine ⟨by decide, fun dentry name h => ?_, fun dentry ino h => ?_⟩
  · obtain ⟨ino, hino⟩ := Option.isSome_iff_exists.mp h
    have hmem := exists_mem_of_lookupTree hino
    simp only [treeAB, List.mem_cons, Prod.mk.injEq, List.not_mem_nil, or_false] at hmem
    have hparent : dentry = (dentry ++ [name]).dropLast := by simp
    rcases hmem with ⟨hroot, -⟩ | ⟨hA, -⟩ | ⟨hAB, -⟩
    · simp at hroot
    · rw [hparent, hA]
      decide
    · rw [hparent, hAB]
      decide
  · have hmem := exists_mem_of_lookupTree h
    simp only [treeAB, List.mem_cons, Prod.mk.injEq, List.not_mem_nil, or_false] at hmem
    rcases hmem with ⟨-, rfl⟩ | ⟨-, rfl⟩ | ⟨-, rfl⟩ <;> decide

/-- The path `/a/b`. -/
def pathAB : CStr := ⟨[47, 97, 47, 98], by decide⟩

/-- With `/a/b` on the list, the file can be neither removed nor replaced, and a directory can be
created beside `/a`. -/
theorem protected_object_intact_pathAB :
    Run.Always (guardedStep (monitorOf pathAB)) (StillNames pathAB.bytes treeAB) treeAB
      [(strayEnv, .unlink [nameA, nameB]), (strayEnv, .mkdir [nameB]),
        (strayEnv, .rename [nameB] [nameA, nameB])] := by
  refine protected_object_intact (Or.inl rfl) (listOf_reachable (by decide)) treeAB_wellFormed
    ⟨_, listOf_lists pathAB, by simp⟩ (show treeAB.resolve pathAB.bytes = some [nameA, nameB] by
      decide) (Or.inl rfl) ?_
  have hold : ¬[nameB] <+: [nameA, nameB] := by decide
  simp [Run.eachStep_cons, Run.eachStep_nil, HarmlessUncovered, Harmless, VfsOp.Reaches, hold]

/-- With `/a/b` on the list, `/a` can be renamed to `/b`, and then `/a/b` names nothing. -/
theorem rename_above_loses_object :
    ¬StillNames pathAB.bytes treeAB
      (Run.exec (guardedStep (monitorOf pathAB)) treeAB [(strayEnv, .rename [nameA] [nameB])]) := by
  intro h
  -- the call is let through: `/a` and `/b` are not covered by `/a/b`
  obtain ⟨dentry, hres, -⟩ := h [nameA, nameB] (by decide)
  have hnone : (Run.exec (guardedStep (monitorOf pathAB)) treeAB
      [(strayEnv, .rename [nameA] [nameB])]).resolve pathAB.bytes = none := by
    decide
  rw [hnone] at hres
  simp at hres

end StackReferenceMonitor
