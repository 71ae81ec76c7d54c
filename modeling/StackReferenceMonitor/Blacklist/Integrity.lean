import StackReferenceMonitor.Blacklist.Calls

/-!
# The chain and the memory its nodes come from

`add_to_blacklist` fills the `path` of the node it allocates and never its `next` field, so what
follows the new node on the chain is whatever the memory held before. Here the contents of that
memory are arbitrary, and the chain is compared with the history of the calls: which nodes were
linked in by a successful addition and not removed since.

## Main definitions

* `Tracked`: the list with its live nodes, as the history of the calls determines them.
* `Tracked.WellFormed`: the chain reaches `NULL` and meets live nodes only.
* `LinksNull`: a call that is about to link its node got it with a `NULL` `next` field.

## Main results

* `chain_wellFormed_iff`: every state of a run is well formed exactly when every call of it meets
  `LinksNull`.
-/

namespace StackReferenceMonitor

namespace Blacklist

open LinkedList

/-- The node that `remove_from_blacklist` unlinks: where its search for the path stops. -/
def unlinkedNode (bl : Blacklist) (p : CStr) : Option ℕ :=
  (removeScan bl.nodes p (bl.nodes.length + 1) none bl.head).bind Prod.snd

/-- A list and the history of its nodes. -/
structure Tracked where
  /-- The list. -/
  list : Blacklist
  /-- The nodes linked in by a successful addition and not removed since. -/
  live : List ℕ

namespace Tracked

/-- Before the first call. -/
def init : Tracked :=
  { list := empty, live := [] }

/-- One call, and what its success adds to the history. -/
def step (s : Tracked) (c : Call) : Tracked where
  list := Blacklist.step s.list c
  live :=
    if (respond s.list c).1 = some 0 then
      match c.unlinking with
      | none => s.live ++ [s.list.nodes.length]
      | some p =>
        match unlinkedNode s.list p with
        | some a => s.live.erase a
        | none => s.live
    else s.live

/-- Following `next` from `blacklist_head` reaches `NULL`, and meets only nodes that were linked in
by a successful addition and not removed since. -/
def WellFormed (s : Tracked) : Prop :=
  ∃ xs, s.list.Lists xs ∧ ∀ x ∈ xs, x.1 ∈ s.live

/-- If the call adds a path that is not on the list, the `next` field of its node was `NULL` when
it was allocated. -/
def LinksNull (s : Tracked) (c : Call) : Prop :=
  ∀ xs, s.list.Lists xs → ∀ new, c.linking = some new → new.val ∉ xs.map Prod.snd →
    new.next = none

/-- The chain meets the live nodes, in the order of their addition. -/
private def Exact (s : Tracked) : Prop :=
  ∃ xs, s.list.Lists xs ∧ xs.map Prod.fst = s.live

end Tracked

open Tracked

variable {bl : Blacklist} {s : Tracked}

/-- The search stops at the first node with the path. -/
theorem unlinkedNode_eq {ys zs : List (ℕ × CStr)} {a : ℕ} {p : CStr}
    (h : bl.Lists (ys ++ (a, p) :: zs)) (hnot : p ∉ ys.map Prod.snd) :
    unlinkedNode bl p = some a := by
  rcases List.eq_nil_or_concat ys with rfl | ⟨ys, ⟨q, u⟩, rfl⟩
  · obtain ⟨hhead, next, hnode, -⟩ := chain_cons.mp h
    simp [unlinkedNode, removeScan, hhead, hnode]
  · rw [List.concat_eq_append] at hnot
    rw [List.concat_eq_append, List.append_assoc, List.singleton_append] at h
    have hfuel : ys.length + 1 < bl.nodes.length + 1 := by
      have hle := Chain.length_le h
      simp only [List.length_append, List.length_cons] at hle
      omega
    simp [unlinkedNode, removeScan_of_inner none h hfuel hnot]

/-- A call that meets the condition keeps the chain and the history in step. -/
private theorem Tracked.Exact.step (h : s.Exact) (c : Call) (hc : s.LinksNull c) :
    (s.step c).Exact := by
  obtain ⟨xs, hlists, hlive⟩ := h
  have heff := respond_effect hlists c
  simp only [Exact, Tracked.step, Blacklist.step]
  generalize (respond s.list c).1 = ret, (respond s.list c).2 = bl' at heff ⊢
  cases heff with
  | kept hret _ _ hlists' _ _ => exact ⟨xs, hlists', by rw [if_neg hret, hlive]⟩
  | @linked new _ hnew hnot hseg _ _ =>
    have hu := Call.unlinking_of_linking hnew
    rw [hc xs hlists new hnew hnot] at hseg
    exact ⟨_, hseg, by simp [hu, hlive]⟩
  | @unlinked p ys zs a _ hp hxs hnot hlists' _ _ =>
    subst hxs
    refine ⟨_, hlists', ?_⟩
    have hnd := Chain.nodup hlists
    rw [List.map_append, List.map_cons, List.nodup_append] at hnd
    have ha : a ∉ ys.map Prod.fst := fun hmem => hnd.2.2 a hmem a (by simp) rfl
    rw [if_pos rfl, hp, ← hlive]
    simp only [unlinkedNode_eq hlists hnot, List.map_append, List.map_cons]
    rw [List.erase_append_right _ ha, List.erase_cons_head]

/-- A call that leaves a well-formed chain meets the condition: a node linked with another `next`
field is followed by a node met before, or by one that was never linked. -/
private theorem Tracked.LinksNull.of_wellFormed (h : s.Exact) (c : Call)
    (hwf : (s.step c).WellFormed) : s.LinksNull c := by
  obtain ⟨xs, hlists, hlive⟩ := h
  intro xs' hlists' new hnew hnot
  obtain rfl := hlists.unique hlists'
  have heff := respond_effect hlists c
  obtain ⟨chain, hchain, hmem⟩ := hwf
  simp only [Tracked.step, Blacklist.step] at hchain hmem
  have hu := Call.unlinking_of_linking hnew
  generalize (respond s.list c).1 = ret, (respond s.list c).2 = bl' at heff hchain hmem
  cases heff with
  | kept _ hdup => exact absurd (hdup new hnew).1 hnot
  | unlinked hp => simp [hu] at hp
  | @linked new' _ hnew' _ hseg _ _ =>
    obtain rfl := Option.some.inj (hnew.symm.trans hnew')
    obtain ⟨zs, rfl, hzs⟩ := Chain.of_segment hseg hchain
    rw [if_pos rfl, hu, ← hlive] at hmem
    -- a first node after the new one is live, so the chain meets it a second time
    cases zs with
    | nil => exact hzs
    | cons z zs =>
      exfalso
      have hz := hmem z (by simp)
      have hnd := Chain.nodup hchain
      rw [List.map_append, List.nodup_append] at hnd
      refine hnd.2.2 z.1 ?_ z.1 (by simp) rfl
      simpa using hz

/-- In a run of calls from the empty list, whatever memory the nodes come from, every state has a
chain that reaches `NULL` through nodes linked in by a successful addition and not removed since,
if and only if each call that links its node got it with a `NULL` `next` field. -/
theorem chain_wellFormed_iff (cs : List Call) :
    Run.Always Tracked.step WellFormed init cs ↔ Run.EachStep Tracked.step LinksNull init cs := by
  have hstart : init.Exact := ⟨[], lists_empty, rfl⟩
  have hexact : ∀ s : Tracked, s.Exact → s.WellFormed := by
    rintro s ⟨xs, hlists, hlive⟩
    exact ⟨xs, hlists, fun x hx => hlive ▸ List.mem_map_of_mem hx⟩
  have hstep : ∀ (s : Tracked) c, s.Exact → s.LinksNull c → (s.step c).Exact :=
    fun _ c h hc => h.step c hc
  have hnec : ∀ (s : Tracked) c, s.Exact → (s.step c).WellFormed → s.LinksNull c :=
    fun _ c h hwf => .of_wellFormed h c hwf
  exact Run.always_iff_eachStep hexact hstep hnec hstart cs

/-- The first addition, of `/a`, to a node whose memory held the address `7` in the place of
`next`. -/
def addStale : Call :=
  .add ⟨UserMem.ofList (pathA.bytes ++ [0]), some [], some (some 7), true⟩ 0

/-- After it the chain runs into memory that is no node. -/
theorem chain_not_wellFormed_addStale :
    ¬Run.Always Tracked.step WellFormed init [addStale] := by
  intro h
  have hwf : (init.step addStale).WellFormed := h.exec
  have hread := UserMem.ofMem_copyFromUser (UserMem.hasString_ofList pathA)
    (show pathA.bytes.length < pathMax by decide) []
  rw [List.append_nil] at hread
  have hlinking : addStale.linking = some ⟨pathA, some 7⟩ := by
    simp [Call.linking, addStale, hread]
  have hstart : init.Exact := ⟨[], lists_empty, rfl⟩
  have hnull := LinksNull.of_wellFormed hstart addStale hwf [] lists_empty _ hlinking (by simp)
  simp at hnull

end Blacklist

end StackReferenceMonitor
