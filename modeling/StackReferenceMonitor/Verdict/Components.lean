import StackReferenceMonitor.Verdict.Reachable

/-!
# The verdict and the components of paths

`is_blacklisted` compares strings, and what is to be protected is a path with all that lies inside
it. For entries as an administrator types them, canonical or with slashes after them, this module
says which paths each of them stops, in terms of components.

## Main definitions

* `Spells`: an entry is a canonical path, with or without one trailing slash.
* `slashed`, `StopsSlashed`: a path with any number of slashes after it, and what it stops.

## Main results

* `covers_iff_of_spells`: an entry stops the paths in it, and those in a sibling whose name extends
  its last component;
* `stopped_only_inside_iff`: when only protected paths are stopped;
* `covers_slashed_iff`: two slashes leave the directory itself unprotected, and three everything;
* `verdict_slashed_iff`: when the number of slashes does not matter.
-/

namespace StackReferenceMonitor

open PathString

/-! ### Entries with at most one slash after them -/

/-- The entry is the canonical path `path`, with or without one trailing slash. -/
def Spells (entry : CStr) (path : List Name) : Prop :=
  entry.bytes = render path ∨ entry.bytes = render path ++ [slash]

instance (entry : CStr) (path : List Name) : Decidable (Spells entry path) :=
  inferInstanceAs (Decidable (_ ∨ _))

/-- The last byte of the spelling of a name is not a slash. -/
theorem trimSlash_body (path : List Name) : trimSlash (body path) = body path := by
  rcases List.eq_nil_or_concat path with rfl | ⟨path, name, rfl⟩
  · rfl
  · obtain ⟨bs, b, hbytes⟩ := (List.eq_nil_or_concat name.bytes).resolve_left name.ne_nil
    have hslash : b ≠ slash := by
      rintro rfl
      exact name.slash_notMem (by rw [hbytes]; simp [slash])
    have hbody : body (path.concat name) = (body path ++ slash :: bs) ++ [b] := by
      simp [body_append, hbytes]
    rw [trimSlash, hbody, List.getLast?_concat, if_neg]
    simpa using hslash

theorem trimSlash_append_slash (s : List UInt8) : trimSlash (s ++ [slash]) = s := by
  simp [trimSlash]

/-- Every spelling starts with a slash. -/
theorem slash_prefix_render (path : List Name) : [slash] <+: render path := by
  cases path with
  | nil => exact List.prefix_refl _
  | cons name path => exact ⟨name.bytes ++ body path, rfl⟩

/-- The spelling of a path other than the root starts the spellings of the paths that
`body_prefix_body_iff` says. -/
theorem body_prefix_render_iff {path : List Name} (hpath : path ≠ []) (other : List Name) :
    body path <+: render other ↔ path <+: other ∨ ExtendsLast path other := by
  rw [← body_prefix_body_iff]
  by_cases hother : other = []
  · -- the root is one byte long, and a name makes two
    subst hother
    obtain ⟨name, rest, rfl⟩ := List.exists_cons_of_ne_nil hpath
    have hlen : 0 < name.bytes.length := List.length_pos_iff.mpr name.ne_nil
    refine iff_of_false (fun h => ?_) (by simp)
    have hle := h.length_le
    simp only [body_cons, render_nil, List.length_cons, List.length_append, List.length_nil] at hle
    omega
  · rw [render_of_ne_nil hother]

/-- Which paths an entry stops. -/
theorem covers_iff_of_spells {entry : CStr} {path : List Name} (h : Spells entry path)
    (other : List Name) :
    Covers entry (render other) ↔ path <+: other ∨ ExtendsLast path other := by
  by_cases hpath : path = []
  · -- the root, as one slash or as two, stops everything
    subst hpath
    refine iff_of_true ?_ (Or.inl List.nil_prefix)
    rcases h with h | h
    · rw [Covers, h]
      exact List.nil_prefix
    · rw [Covers, h, trimSlash_append_slash]
      exact slash_prefix_render other
  · rw [Spells, render_of_ne_nil hpath] at h
    have htrim : trimSlash entry.bytes = body path := by
      rcases h with h | h
      · rw [h, trimSlash_body]
      · rw [h, trimSlash_append_slash]
    rw [Covers, htrim, body_prefix_render_iff hpath]

variable {rf : ReferenceMonitor} {p : List Name} {path : List UInt8}

/-- In a reachable state that enforces, with canonical entries, a path is stopped only if it is an
entry or lies inside one, if and only if no entry merely has a last component that begins the
path's: where one does, another contains the path. -/
theorem stopped_only_inside_iff (hrf : rf.Reachable) (henf : rf.Enforcing)
    (hentries : ∀ entry, rf.blacklist.HasEntry entry → ∃ e, Spells entry e)
    (hpath : CString.chars path = render p) :
    (isBlacklisted rf (some path) = some 1 →
        ∃ entry e, rf.blacklist.HasEntry entry ∧ Spells entry e ∧ e <+: p) ↔
      ((∃ entry e, rf.blacklist.HasEntry entry ∧ Spells entry e ∧ ExtendsLast e p) →
        ∃ entry e, rf.blacklist.HasEntry entry ∧ Spells entry e ∧ e <+: p) := by
  rw [(isBlacklisted_of_reachable henf hrf.blacklist path).1, hpath]
  constructor
  · rintro h ⟨entry, e, hentry, hspells, hextends⟩
    exact h ⟨entry, hentry, (covers_iff_of_spells hspells p).mpr (Or.inr hextends)⟩
  · rintro h ⟨entry, hentry, hcovers⟩
    obtain ⟨e, hspells⟩ := hentries entry hentry
    rcases (covers_iff_of_spells hspells p).mp hcovers with hpre | hextends
    · exact ⟨entry, e, hentry, hspells, hpre⟩
    · exact h ⟨entry, e, hentry, hspells, hextends⟩

/-- The list of `sampleMonitor` has the entry `/a` only. -/
theorem spells_of_sampleMonitor {entry : CStr} (h : sampleMonitor.blacklist.HasEntry entry) :
    Spells entry [nameA] := by
  rw [sampleMonitor_eq.2] at h
  rw [Blacklist.eq_of_hasEntry_listOf h]
  decide

/-- `sampleMonitor` stops a path that `/a` covers. -/
theorem sampleMonitor_stops {path : List UInt8}
    (h : Covers Blacklist.pathA (CString.chars path)) :
    isBlacklisted sampleMonitor (some path) = some 1 :=
  (isBlacklisted_of_reachable sampleMonitor_enforcing sampleMonitor_reachable.blacklist
    path).1.mpr ⟨Blacklist.pathA, sampleMonitor_hasEntry, h⟩

/-- With `/a` on the list, `/a/b` is stopped, and it lies inside. -/
theorem stopped_only_inside_nested :
    isBlacklisted sampleMonitor (some (render [nameA, nameB])) = some 1 ∧
      ∃ entry e, sampleMonitor.blacklist.HasEntry entry ∧ Spells entry e ∧
        e <+: [nameA, nameB] := by
  have hstopped : isBlacklisted sampleMonitor (some (render [nameA, nameB])) = some 1 :=
    sampleMonitor_stops (by decide)
  have hinside := stopped_only_inside_iff sampleMonitor_reachable sampleMonitor_enforcing
    (fun _ h => ⟨_, spells_of_sampleMonitor h⟩)
    (show CString.chars (render [nameA, nameB]) = render [nameA, nameB] by decide)
  refine ⟨hstopped, hinside.mpr (fun _ => ?_) hstopped⟩
  exact ⟨Blacklist.pathA, [nameA], sampleMonitor_hasEntry, by decide, by simp⟩

/-- The name `ab`. -/
def nameAB : Name := ⟨[97, 98], by decide, by decide, by decide, by decide, by decide⟩

/-- With only `/a` on the list, its sibling `/ab` is stopped, which is in no entry. -/
theorem sibling_stopped :
    sampleMonitor.Reachable ∧ sampleMonitor.Enforcing ∧
      (∀ entry, sampleMonitor.blacklist.HasEntry entry → ∃ e, Spells entry e) ∧
      isBlacklisted sampleMonitor (some (render [nameAB])) = some 1 ∧
      ¬∃ entry e, sampleMonitor.blacklist.HasEntry entry ∧ Spells entry e ∧ e <+: [nameAB] := by
  refine ⟨sampleMonitor_reachable, sampleMonitor_enforcing,
    fun _ h => ⟨_, spells_of_sampleMonitor h⟩, sampleMonitor_stops (by decide), ?_⟩
  rintro ⟨entry, e, hentry, hspells, hpre⟩
  rw [sampleMonitor_eq.2] at hentry
  rw [Blacklist.eq_of_hasEntry_listOf hentry] at hspells
  -- the root and `/ab` itself are not spelled `/a`
  rcases List.prefix_cons_iff.mp hpre with rfl | ⟨e, rfl, hnil⟩
  · revert hspells
    decide
  · obtain rfl := List.prefix_nil.mp hnil
    revert hspells
    decide

/-! ### Entries with any number of slashes after them -/

/-- A path with `k` slashes after it. -/
def slashed (path : List Name) (k : ℕ) : CStr where
  bytes := render path ++ List.replicate k slash
  nul_notMem := by
    have h0 : (0 : UInt8) ≠ slash := by decide
    simp [nul_notMem_render, h0]

/-- The paths that it stops: with at most one slash those that an entry of `Spells` stops, with two
those that lie strictly inside it, and with more none. -/
def StopsSlashed (path : List Name) (k : ℕ) (other : List Name) : Prop :=
  match k with
  | 0 | 1 => path <+: other ∨ ExtendsLast path other
  | 2 => path ≠ [] ∧ path <+: other ∧ path ≠ other
  | _ + 3 => False

/-- A name does not start with a slash. -/
theorem not_slash_prefix_name (name : Name) (u v : List UInt8) :
    ¬slash :: u <+: name.bytes ++ v := by
  intro h
  obtain ⟨b, bs, hbytes⟩ := List.exists_cons_of_ne_nil name.ne_nil
  rw [hbytes, List.cons_append] at h
  obtain ⟨rfl, -⟩ := List.cons_prefix_cons.mp h
  exact name.slash_notMem (by rw [hbytes]; simp [slash])

/-- With a slash and more after it, a spelling does not start the root's. -/
theorem body_append_prefix_render_iff {path other : List Name} {u : List UInt8}
    (hlen : body path ++ u ≠ []) :
    body path ++ slash :: u <+: render other ↔
      ∃ name rest, other = path ++ name :: rest ∧ u <+: name.bytes ++ body rest := by
  by_cases hother : other = []
  · subst hother
    have hpos := List.length_pos_iff.mpr hlen
    refine iff_of_false (fun h => ?_) (by simp)
    have hle := h.length_le
    simp only [render_nil, List.length_append, List.length_cons, List.length_nil] at hle hpos
    omega
  · rw [render_of_ne_nil hother, body_append_prefix_body_iff]

/-- A spelling with a slash after it starts those of the paths below, and with two slashes none. -/
theorem append_replicate_prefix_render_iff (path other : List Name) (k : ℕ) :
    render path ++ List.replicate (k + 1) slash <+: render other ↔
      StopsSlashed path (k + 2) other := by
  by_cases hpath : path = []
  · -- the root is a slash itself, and so there are two at least
    subst hpath
    show body [] ++ slash :: (slash :: List.replicate k slash) <+: render other ↔ _
    rw [body_append_prefix_render_iff (by simp)]
    refine iff_of_false ?_ ?_
    · rintro ⟨name, rest, -, h⟩
      exact not_slash_prefix_name name _ _ h
    · cases k <;> simp [StopsSlashed]
  · have hbody : body path ++ List.replicate k slash ≠ [] := by
      obtain ⟨name, rest, rfl⟩ := List.exists_cons_of_ne_nil hpath
      simp
    rw [render_of_ne_nil hpath, List.replicate_succ, body_append_prefix_render_iff hbody]
    cases k with
    | zero =>
      simp only [List.replicate_zero, List.nil_prefix, and_true, StopsSlashed, ne_eq, hpath,
        not_false_eq_true, true_and]
      constructor
      · rintro ⟨name, rest, rfl⟩
        exact ⟨List.prefix_append _ _, by simp⟩
      · rintro ⟨⟨below, rfl⟩, hne⟩
        obtain ⟨name, rest, rfl⟩ := List.exists_cons_of_ne_nil (l := below) (by simpa using hne)
        exact ⟨name, rest, rfl⟩
    | succ k =>
      refine iff_of_false ?_ id
      rintro ⟨name, rest, -, h⟩
      exact not_slash_prefix_name name _ _ h

/-- What an entry with slashes after it stops. -/
theorem covers_slashed_iff (path other : List Name) (k : ℕ) :
    Covers (slashed path k) (render other) ↔ StopsSlashed path k other := by
  match k with
  | 0 => exact covers_iff_of_spells (Or.inl (by simp [slashed])) other
  | 1 => exact covers_iff_of_spells (Or.inr (by simp [slashed])) other
  | k + 2 =>
    have htrim : trimSlash (slashed path (k + 2)).bytes =
        render path ++ List.replicate (k + 1) slash := by
      show trimSlash (render path ++ List.replicate (k + 1 + 1) slash) = _
      rw [List.replicate_succ', ← List.append_assoc, trimSlash_append_slash]
    rw [Covers, htrim, append_replicate_prefix_render_iff]

/-- The monitor enforces, and its list, with a counter that is not behind, has these entries in this
order. -/
def ReferenceMonitor.EnforcesList (rf : ReferenceMonitor) (entries : List CStr) : Prop :=
  rf.Enforcing ∧ ∃ xs, rf.blacklist.Counted xs ∧ xs.map Prod.snd = entries

/-- Its verdict. -/
theorem ReferenceMonitor.EnforcesList.isBlacklisted {entries : List CStr}
    (h : rf.EnforcesList entries) (path : List UInt8) :
    StackReferenceMonitor.isBlacklisted rf (some path) =
      some (if ∃ e ∈ entries, Covers e (CString.chars path) then 1 else 0) := by
  obtain ⟨henf, xs, hxs, rfl⟩ := h
  rw [isBlacklisted_eq henf hxs]
  simp only [List.mem_map, exists_exists_and_eq_and]

theorem ReferenceMonitor.EnforcesList.stops_iff {entries : List CStr}
    (h : rf.EnforcesList entries) (path : List UInt8) :
    StackReferenceMonitor.isBlacklisted rf (some path) = some 1 ↔
      ∃ e ∈ entries, Covers e (CString.chars path) := by
  rw [h.isBlacklisted]
  split_ifs with hex
  · exact iff_of_true rfl hex
  · exact iff_of_false (by simp) hex

/-- Two lists give the same verdict when both have an entry that stops the path, or neither has. -/
theorem ReferenceMonitor.EnforcesList.same_verdict_iff {rf' : ReferenceMonitor}
    {entries entries' : List CStr} (h : rf.EnforcesList entries) (h' : rf'.EnforcesList entries')
    (path : List UInt8) :
    StackReferenceMonitor.isBlacklisted rf (some path) =
        StackReferenceMonitor.isBlacklisted rf' (some path) ↔
      ((∃ e ∈ entries, Covers e (CString.chars path)) ↔
        ∃ e ∈ entries', Covers e (CString.chars path)) := by
  rw [h.isBlacklisted, h'.isBlacklisted]
  split_ifs with hk hk' hk'
  · exact iff_of_true rfl (iff_of_true hk hk')
  · exact iff_of_false (by decide) fun heq => hk' (heq.mp hk)
  · exact iff_of_false (by decide) fun heq => hk (heq.mpr hk')
  · exact iff_of_true rfl (iff_of_false hk hk')

/-- Two lists that differ in the number of slashes after one of their entries give the same verdict
on a canonical path if and only if another entry stops it, or both spellings of the one do, or
neither. -/
theorem verdict_slashed_iff {rf' : ReferenceMonitor} {before after : List CStr} {c : List Name}
    {k k' : ℕ} (h : rf.EnforcesList (before ++ slashed c k :: after))
    (h' : rf'.EnforcesList (before ++ slashed c k' :: after))
    (hpath : CString.chars path = render p) :
    isBlacklisted rf (some path) = isBlacklisted rf' (some path) ↔
      (∃ e ∈ before ++ after, Covers e (render p)) ∨
        (StopsSlashed c k p ↔ StopsSlashed c k' p) := by
  have hsplit : ∀ j, (∃ e ∈ before ++ slashed c j :: after, Covers e (render p)) ↔
      (∃ e ∈ before ++ after, Covers e (render p)) ∨ StopsSlashed c j p := by
    intro j
    rw [← covers_slashed_iff]
    simp only [List.mem_append, List.mem_cons, or_and_right, exists_or, exists_eq_left]
    rw [or_assoc, or_comm (a := Covers _ _)]
  rw [h.same_verdict_iff h', hpath, hsplit k, hsplit k']
  by_cases hother : ∃ e ∈ before ++ after, Covers e (render p)
  · exact iff_of_true (iff_of_true (Or.inl hother) (Or.inl hother)) (Or.inl hother)
  · simp only [hother, false_or]

theorem monitorOf_enforcesList (entry : CStr) : (monitorOf entry).EnforcesList [entry] := by
  have hlt : (1 : ℤ) < 2 ^ 31 := by decide
  exact ⟨Or.inl rfl, _, ⟨Blacklist.listOf_lists entry, by simp, le_rfl, hlt⟩, rfl⟩

/-- With `/a/` instead of `/a` on the list, the verdict on `/a` is the same. -/
theorem verdict_slashed_one :
    isBlacklisted (monitorOf (slashed [nameA] 0)) (some (render [nameA])) =
      isBlacklisted (monitorOf (slashed [nameA] 1)) (some (render [nameA])) := by
  have hlist : ∀ k, (monitorOf (slashed [nameA] k)).EnforcesList ([] ++ slashed [nameA] k :: []) :=
    fun k => monitorOf_enforcesList _
  exact (verdict_slashed_iff (p := [nameA]) (hlist 0) (hlist 1) (by decide)).mpr (Or.inr Iff.rfl)

/-- With `/a` on the list `/a` is stopped, with `/a//` it is not. -/
theorem two_slashes_matter :
    Blacklist.Reachable (monitorOf (slashed [nameA] 0)).blacklist ∧
      Blacklist.Reachable (monitorOf (slashed [nameA] 2)).blacklist ∧
      isBlacklisted (monitorOf (slashed [nameA] 0)) (some (render [nameA])) = some 1 ∧
      isBlacklisted (monitorOf (slashed [nameA] 2)) (some (render [nameA])) = some 0 :=
  ⟨Blacklist.listOf_reachable (by decide), Blacklist.listOf_reachable (by decide),
    by decide +kernel, by decide +kernel⟩

end StackReferenceMonitor
