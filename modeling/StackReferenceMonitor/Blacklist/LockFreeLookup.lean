import StackReferenceMonitor.Blacklist.Lookup

/-!
# Looking up while the list changes

`is_blacklisted` reads `blacklist_size`, `state` and `blacklist_head` without the lock, and only
then takes it for the walk. Here these are separate steps, interleaved with additions and removals
by any number of other callers, each of them one locked step, and with switches between ON and
REC_ON. The head that a walk starts from may have been unlinked since it was read, and so may any
number of heads after it.

A node keeps its `next` field when it is unlinked. So from a head that was read, following `next`
first meets nodes that have been heads and were unlinked in turn, and then joins the list, unless
the list has been empty in the meantime (`Stale`).

## Main definitions

* `Reader`: where a call of `is_blacklisted` stands.
* `Lookups`, `Lookups.step`: the list with any number of such calls.
* `Completes`: a call that goes on during a run and returns with the step after it.

## Main results

* `Stale.step`: what a head that was read still reaches, under every addition and removal;
* `lockFree_lookup`: a call answers `1` if the list had a covering entry at every moment of it, and
  only if it had one at some moment of it.
-/

namespace StackReferenceMonitor

open LinkedList Blacklist

/-- Where a call of `is_blacklisted` stands. -/
inductive Reader where
  /-- No call has been made. -/
  | idle
  /-- Called, before the size is read. -/
  | started (path : List UInt8)
  /-- The size was not `0`. -/
  | sized (path : List UInt8)
  /-- The state was not OFF or REC_OFF. -/
  | stated (path : List UInt8)
  /-- `curr` was set to the head of that moment, and the lock is still to be taken. -/
  | headed (path : List UInt8) (curr : Option ℕ)
  /-- The call is over. -/
  | returned (path : List UInt8) (ret : Option ℤ)

/-- A call that was made and is not over. -/
def Reader.InCall (path : List UInt8) : Reader → Prop
  | .started p => p = path
  | .sized p => p = path
  | .stated p => p = path
  | .headed p _ => p = path
  | _ => False

/-- The list, the state of the monitor, and the calls of `is_blacklisted`. -/
structure Lookups where
  /-- `reference_monitor.state`. -/
  state : ℤ
  /-- The blacklist. -/
  list : Blacklist
  /-- The call of each thread. -/
  readers : ℕ → Reader

/-- A step of one of the callers. -/
inductive LookupAction where
  /-- An addition or a removal, with its lock held throughout. -/
  | change (c : ZeroedCall)
  /-- A switch between ON and REC_ON. -/
  | switch (state : { state : ℤ // state = rfOn ∨ state = rfRecOn })
  /-- A thread calls `is_blacklisted`. -/
  | invoke (t : ℕ) (path : List UInt8)
  /-- A thread takes the next step of its call. -/
  | advance (t : ℕ)

namespace Lookups

/-- `init_module`, and then a monitor in the given state. -/
def init (state : ℤ) : Lookups :=
  { state, list := Blacklist.empty, readers := fun _ => .idle }

/-- The next step of a call of `is_blacklisted`. -/
def advance (s : Lookups) : Reader → Reader
  | .started path => if s.list.size = 0 then .returned path (some 0) else .sized path
  | .sized path => if s.state = 1 ∨ s.state = 3 then .returned path (some 0) else .stated path
  | .stated path => .headed path s.list.head
  | .headed path curr => .returned path (walk s.list (some path) curr)
  | r => r

/-- One step. A thread in a call makes no other. -/
def step (s : Lookups) : LookupAction → Lookups
  | .change c => { s with list := zeroedStep s.list c }
  | .switch state => { s with state := state.1 }
  | .invoke t path =>
    match s.readers t with
    | .idle | .returned _ _ => { s with readers := Function.update s.readers t (.started path) }
    | _ => s
  | .advance t => { s with readers := Function.update s.readers t (s.advance (s.readers t)) }

/-- Some entry on the list covers the path. -/
def Listed (s : Lookups) (path : List UInt8) : Prop :=
  ∃ xs, s.list.Lists xs ∧ ∃ x ∈ xs, Covers x.2 (CString.chars path)

/-- An addition that succeeds has room for its increment. -/
def NoOverflow (s : Lookups) : LookupAction → Prop
  | .change c => Blacklist.NoOverflow s.list c.1
  | _ => True

end Lookups

/-- The call that thread `t` makes on `path` in the state `s` goes on during the whole run `as`,
and the thread's next step ends it with the answer `ret`. -/
structure Completes (s : Lookups) (t : ℕ) (path : List UInt8) (as : List LookupAction)
    (ret : Option ℤ) : Prop where
  /-- The thread is in its call at every moment of the run. -/
  inCall : Run.Always Lookups.step (fun s => (s.readers t).InCall path)
    (s.step (.invoke t path)) as
  /-- It is not in one before. -/
  notInCall : ∀ path, ¬(s.readers t).InCall path
  /-- The step that ends it. -/
  returns : ((Run.exec Lookups.step (s.step (.invoke t path)) as).step (.advance t)).readers t =
    .returned path ret

/-! ### What a head that was read still reaches -/

/-- From `curr`, a head of the list at some earlier moment, following `next` meets nodes whose
paths satisfy `was`, and then joins the list; or it meets only such nodes and the list has been
empty since. -/
def Stale (bl : Blacklist) (curr : Option ℕ) (was : CStr → Prop) (emptied : Prop) : Prop :=
  ∃ stale : List (ℕ × CStr), (∀ x ∈ stale, was x.2) ∧
    (Segment bl.nodes curr stale bl.head ∨
      emptied ∧ Chain bl.nodes curr stale ∧
        ∀ xs, bl.Lists xs → ∀ x ∈ stale, x.1 ∉ xs.map Prod.fst)

section Stale

variable {bl : Blacklist} {xs : List (ℕ × CStr)} {curr : Option ℕ} {was : CStr → Prop}
  {emptied : Prop}

/-- The head of this moment reaches the list at once. -/
theorem stale_head : Stale bl bl.head was emptied :=
  ⟨[], by simp, Or.inl rfl⟩

/-- A walk that still joins the list goes on to do so, unless the list is empty: then the next
addition starts a list that the walk does not reach. -/
private theorem Stale.step_of_joined (hlists : bl.Lists xs) {stale : List (ℕ × CStr)}
    (hstale : ∀ x ∈ stale, was x.2) (hseg : Segment bl.nodes curr stale bl.head)
    (hwas : ∀ x ∈ xs, was x.2) (hempty : xs = [] → emptied) (c : ZeroedCall) :
    Stale (zeroedStep bl c) curr was emptied := by
  have hchain : Chain bl.nodes curr (stale ++ xs) := segment_append.mpr ⟨_, hseg, hlists⟩
  have hlt : ∀ a ∈ stale.map Prod.fst, a < bl.nodes.length := fun a ha => hseg.lt_of_mem ha
  -- a chain meets no node twice, so the stale nodes are off the list
  have hoff : ∀ a ∈ stale.map Prod.fst, a ∉ xs.map Prod.fst := by
    have hnd := hchain.nodup
    rw [List.map_append, List.nodup_append] at hnd
    exact fun a ha ha' => hnd.2.2 a ha a ha' rfl
  have heff := respond_effect hlists c.1
  rw [zeroedStep, Blacklist.step]
  generalize (respond bl c.1).1 = ret, (respond bl c.1).2 = bl' at heff ⊢
  cases heff with
  | kept _ _ _ hlists' _ hframe =>
    -- the same chain, so the same head
    refine ⟨stale, hstale, Or.inl ?_⟩
    rw [Chain.eq_head? hlists', ← Chain.eq_head? hlists]
    exact hseg.congr fun a ha => hframe a (hlt a ha)
  | @linked new _ hnew hnot hlinked _ hframe =>
    rw [c.2.next_eq_none hnew] at hlinked
    have hseg' : Segment bl'.nodes curr stale bl.head :=
      hseg.congr fun a ha => hframe a (hlt a ha) (hoff a ha)
    refine ⟨stale, hstale, ?_⟩
    cases xs with
    | nil =>
      -- the list is empty here, and what was read before leads nowhere else
      have hhead : bl.head = none := hlists
      rw [hhead] at hseg'
      refine Or.inr ⟨hempty rfl, hseg', fun ys hys x hx => ?_⟩
      obtain rfl := Chain.unique hys hlinked
      have hx' := hlt x.1 (List.mem_map_of_mem hx)
      simp only [List.nil_append, List.map_cons, List.map_nil, List.mem_singleton]
      omega
    | cons x xs =>
      -- the new node comes after the last one, and the head stays
      left
      rw [Chain.eq_head? hlinked]
      rw [Chain.eq_head? hlists] at hseg'
      exact hseg'
  | @unlinked p ys zs a _ hp hxs hnot hunlinked _ hframe =>
    subst hxs
    cases ys with
    | nil =>
      -- the head itself goes: it is one more stale node, and its successor is the new head
      obtain ⟨hhead, next, hnode, hzs⟩ := chain_cons.mp hlists
      refine ⟨stale ++ [(a, p)], ?_, Or.inl ?_⟩
      · intro x hx
        rcases List.mem_append.mp hx with hx | hx
        · exact hstale x hx
        · obtain rfl := List.mem_singleton.mp hx
          exact hwas (a, p) (by simp)
      · have hold : Segment bl.nodes curr (stale ++ [(a, p)]) next :=
          segment_append.mpr ⟨_, hseg, hhead, next, hnode, rfl⟩
        rw [Chain.eq_head? hunlinked, List.nil_append, ← Chain.eq_head? hzs]
        exact hold.congr fun b hb => hframe b (hold.lt_of_mem hb) (by simp)
    | cons y ys =>
      -- a node behind the head goes: only the one before it is written to, and it is on the list
      refine ⟨stale, hstale, Or.inl ?_⟩
      rw [Chain.eq_head? hunlinked]
      rw [Chain.eq_head? hlists] at hseg
      refine hseg.congr fun b hb => hframe b (hlt b hb) fun hmem => hoff b hb ?_
      rw [List.map_append]
      exact List.mem_append_left _ hmem

/-- Nodes that no longer lead to the list are never written to. -/
private theorem Stale.step_of_detached (hlists : bl.Lists xs) {stale : List (ℕ × CStr)}
    (hstale : ∀ x ∈ stale, was x.2) (hempty : emptied) (hchain : Chain bl.nodes curr stale)
    (hoff : ∀ x ∈ stale, x.1 ∉ xs.map Prod.fst) (c : ZeroedCall) :
    Stale (zeroedStep bl c) curr was emptied := by
  have hlt : ∀ a ∈ stale.map Prod.fst, a < bl.nodes.length :=
    fun a ha => Segment.lt_of_mem hchain ha
  have hoff' : ∀ a ∈ stale.map Prod.fst, a ∉ xs.map Prod.fst := by
    intro a ha
    obtain ⟨x, hx, rfl⟩ := List.mem_map.mp ha
    exact hoff x hx
  have heff := respond_effect hlists c.1
  rw [zeroedStep, Blacklist.step]
  generalize (respond bl c.1).1 = ret, (respond bl c.1).2 = bl' at heff ⊢
  refine ⟨stale, hstale, Or.inr ⟨hempty, ?_⟩⟩
  cases heff with
  | kept _ _ _ hlists' _ hframe =>
    refine ⟨Segment.congr hchain fun a ha => hframe a (hlt a ha), fun ys hys => ?_⟩
    obtain rfl := Chain.unique hys hlists'
    exact hoff
  | @linked new _ hnew hnot hlinked _ hframe =>
    rw [c.2.next_eq_none hnew] at hlinked
    refine ⟨Segment.congr hchain fun a ha => hframe a (hlt a ha) (hoff' a ha),
      fun ys hys x hx => ?_⟩
    obtain rfl := Chain.unique hys hlinked
    have hx' := hlt x.1 (List.mem_map_of_mem hx)
    simp only [List.map_append, List.map_cons, List.map_nil, List.mem_append,
      List.mem_singleton, not_or]
    exact ⟨hoff x hx, by omega⟩
  | @unlinked p ys zs a _ hp hxs hnot hunlinked _ hframe =>
    subst hxs
    simp only [List.map_append, List.map_cons, List.mem_append, List.mem_cons, not_or] at hoff hoff'
    refine ⟨Segment.congr hchain fun b hb => hframe b (hlt b hb) (hoff' b hb).1,
      fun ws hws x hx => ?_⟩
    obtain rfl := Chain.unique hws hunlinked
    rw [List.map_append, List.mem_append, not_or]
    exact ⟨(hoff x hx).1, (hoff x hx).2.2⟩

/-- Every addition and removal keeps what a head that was read reaches: `was` is to hold of the
paths on the list before the call, and `emptied` if that list is empty. -/
theorem Stale.step (h : Stale bl curr was emptied) (hlists : bl.Lists xs)
    (hwas : ∀ x ∈ xs, was x.2) (hempty : xs = [] → emptied) (c : ZeroedCall) :
    Stale (zeroedStep bl c) curr was emptied := by
  obtain ⟨stale, hstale, hseg | ⟨hemp, hchain, hoff⟩⟩ := h
  · exact Stale.step_of_joined hlists hstale hseg hwas hempty c
  · exact Stale.step_of_detached hlists hstale hemp hchain (hoff xs hlists) c

/-- A walk from such a head answers `1` if the list has a covering entry and was never empty, and
only if some path that satisfies `was`, or one on the list, covers. -/
theorem Stale.walk_eq (h : Stale bl curr was emptied) (hlists : bl.Lists xs) (path : List UInt8) :
    ((∃ x ∈ xs, Covers x.2 (CString.chars path)) → ¬emptied →
        walk bl (some path) curr = some 1) ∧
      (walk bl (some path) curr = some 1 →
        (∃ x ∈ xs, Covers x.2 (CString.chars path)) ∨
          ∃ e, was e ∧ Covers e (CString.chars path)) := by
  obtain ⟨stale, hstale, hseg | ⟨hemp, hchain, -⟩⟩ := h
  · -- the walk goes over the stale nodes and then over the list
    have hchain : Chain bl.nodes curr (stale ++ xs) := segment_append.mpr ⟨_, hseg, hlists⟩
    rw [walk_eq_one_iff path hchain]
    constructor
    · rintro ⟨x, hx, hcov⟩ -
      exact ⟨x, List.mem_append_right _ hx, hcov⟩
    · rintro ⟨x, hx, hcov⟩
      rcases List.mem_append.mp hx with hx | hx
      · exact Or.inr ⟨x.2, hstale x hx, hcov⟩
      · exact Or.inl ⟨x, hx, hcov⟩
  · rw [walk_eq_one_iff path hchain]
    constructor
    · exact fun _ hne => absurd hemp hne
    · rintro ⟨x, hx, hcov⟩
      exact Or.inr ⟨x.2, hstale x hx, hcov⟩

/-- Such a walk ends, with one of the two answers. -/
theorem Stale.walk_zero_or_one (h : Stale bl curr was emptied) (hlists : bl.Lists xs)
    (path : List UInt8) :
    walk bl (some path) curr = some 0 ∨ walk bl (some path) curr = some 1 := by
  obtain ⟨stale, -, hseg | ⟨-, hchain, -⟩⟩ := h
  · have hchain : Chain bl.nodes curr (stale ++ xs) := segment_append.mpr ⟨_, hseg, hlists⟩
    rw [StackReferenceMonitor.walk_eq path hchain]
    split <;> simp
  · rw [StackReferenceMonitor.walk_eq path hchain]
    split <;> simp

end Stale

/-! ### Whole calls -/

section Calls

variable {s : Lookups} {t : ℕ} {path : List UInt8} {as : List LookupAction} {ret : Option ℤ}
  {state : ℤ}

@[simp]
theorem Lookups.step_invoke_list (s : Lookups) (t : ℕ) (path : List UInt8) :
    (s.step (.invoke t path)).list = s.list := by
  simp only [Lookups.step]
  split <;> rfl

/-- An invocation does not touch a thread that is in a call. -/
theorem Lookups.step_invoke_readers (hin : (s.readers t).InCall path) (t' : ℕ)
    (path' : List UInt8) : (s.step (.invoke t' path')).readers t = s.readers t := by
  by_cases ht : t = t'
  · subst ht
    cases hr : s.readers t <;> simp_all [Lookups.step, Reader.InCall]
  · simp only [Lookups.step]
    split <;> simp [Function.update_of_ne ht]

/-- Only the read of the head leaves a call about to walk. -/
theorem Lookups.advance_eq_headed {r : Reader} {curr : Option ℕ} (hin : r.InCall path)
    (h : s.advance r = .headed path curr) : curr = s.list.head := by
  cases r with
  | idle => exact hin.elim
  | returned p ret => exact hin.elim
  | started p => simp only [Lookups.advance] at h; split at h <;> simp at h
  | sized p => simp only [Lookups.advance] at h; split at h <;> simp at h
  | stated p => simp_all [Lookups.advance]
  | headed p curr' => simp [Lookups.advance] at h

/-- The monitor stays in ON or REC_ON, the list stays well formed, and its size is not behind. -/
private theorem always_counted (hstate : state = rfOn ∨ state = rfRecOn)
    (h : Run.EachStep Lookups.step Lookups.NoOverflow (Lookups.init state) as) :
    Run.Always Lookups.step
      (fun s => (s.state = rfOn ∨ s.state = rfRecOn) ∧ ∃ xs, s.list.Counted xs)
      (Lookups.init state) as := by
  refine Run.always_of_eachStep ?_ ⟨hstate, Reachable.empty.counted⟩ h
  rintro s a ⟨hstate, xs, hxs⟩ hover
  cases a with
  | change c => exact ⟨hstate, hxs.step c.2 hover⟩
  | switch state => exact ⟨state.2, xs, hxs⟩
  | invoke t path =>
    simp only [Lookups.step]
    split <;> exact ⟨hstate, xs, hxs⟩
  | advance t => exact ⟨hstate, xs, hxs⟩

/-- A call starts before the size is read. -/
private theorem Completes.started (h : Completes s t path as ret) :
    (s.step (.invoke t path)).readers t = .started path := by
  have hno := h.notInCall
  cases hr : s.readers t with
  | idle => simp [Lookups.step, hr]
  | returned p r => simp [Lookups.step, hr]
  | started p => simp [hr, Reader.InCall] at hno
  | sized p => simp [hr, Reader.InCall] at hno
  | stated p => simp [hr, Reader.InCall] at hno
  | headed p curr => simp [hr, Reader.InCall] at hno

/-- Every step keeps what the head that a call has read still reaches. -/
private theorem stale_step {was : CStr → Prop} {emptied : Prop} {xs : List (ℕ × CStr)}
    (hin : (s.readers t).InCall path) (hlists : s.list.Lists xs) (hwas : ∀ x ∈ xs, was x.2)
    (hempty : xs = [] → emptied)
    (h : ∀ curr, s.readers t = .headed path curr → Stale s.list curr was emptied)
    (a : LookupAction) :
    ∀ curr, (s.step a).readers t = .headed path curr → Stale (s.step a).list curr was emptied := by
  intro curr hhead
  cases a with
  | change c => exact (h curr hhead).step hlists hwas hempty c
  | switch state => exact h curr hhead
  | invoke t' path' =>
    rw [Lookups.step_invoke_readers hin] at hhead
    rw [Lookups.step_invoke_list]
    exact h curr hhead
  | advance t' =>
    simp only [Lookups.step] at hhead ⊢
    by_cases ht : t = t'
    · -- the step that reads the head
      subst ht
      rw [Function.update_self] at hhead
      rw [Lookups.advance_eq_headed hin hhead]
      exact stale_head
    · rw [Function.update_of_ne ht] at hhead
      exact h curr hhead

/-- Along a call, the head it has read still reaches the list, through nodes that were on the list
during the call, unless the list was empty during the call. -/
private theorem Completes.stale (h : Completes s t path as ret)
    (hlists : Run.Always Lookups.step (fun s => ∃ xs, s.list.Lists xs)
      (s.step (.invoke t path)) as) {curr : Option ℕ}
    (hhead : (Run.exec Lookups.step (s.step (.invoke t path)) as).readers t =
      .headed path curr) :
    Stale (Run.exec Lookups.step (s.step (.invoke t path)) as).list curr
      (fun e => Run.Sometime Lookups.step
        (fun u => ∃ xs, u.list.Lists xs ∧ e ∈ xs.map Prod.snd) (s.step (.invoke t path)) as)
      (Run.Sometime Lookups.step (fun u => u.list.Lists []) (s.step (.invoke t path)) as) := by
  -- `was` and `emptied` speak of the whole call, so the invariant is about its prefixes
  suffices hpre : ∀ xs, xs <+: as → ∀ curr,
      (Run.exec Lookups.step (s.step (.invoke t path)) xs).readers t = .headed path curr →
      Stale (Run.exec Lookups.step (s.step (.invoke t path)) xs).list curr _ _ from
    hpre as (List.prefix_refl as) curr hhead
  intro xs hxs
  induction xs using List.reverseRecOn with
  | nil =>
    intro curr hcurr
    rw [Run.exec_nil, h.started] at hcurr
    simp at hcurr
  | append_singleton xs a ih =>
    have hxs' : xs <+: as := (List.prefix_append xs [a]).trans hxs
    obtain ⟨ys, hys⟩ := hlists xs hxs'
    rw [Run.exec_concat]
    refine stale_step (h.inCall xs hxs') hys (fun x hx => ?_) (fun hnil => ?_) (ih hxs') a
    · exact ⟨xs, hxs', ys, hys, List.mem_map_of_mem hx⟩
    · exact ⟨xs, hxs', by rw [← hnil]; exact hys⟩

/-- The step that ends a call, in a monitor that enforces: the size was read as `0`, or the walk
is over. -/
private theorem Completes.ending (h : Completes s t path as ret)
    (hstate : (Run.exec Lookups.step (s.step (.invoke t path)) as).state = rfOn ∨
      (Run.exec Lookups.step (s.step (.invoke t path)) as).state = rfRecOn) :
    ((Run.exec Lookups.step (s.step (.invoke t path)) as).list.size = 0 ∧ ret = some 0) ∨
      ∃ curr, (Run.exec Lookups.step (s.step (.invoke t path)) as).readers t =
          .headed path curr ∧
        ret = walk (Run.exec Lookups.step (s.step (.invoke t path)) as).list (some path) curr := by
  have hin := h.inCall.exec
  have hret := h.returns
  generalize Run.exec Lookups.step (s.step (.invoke t path)) as = u at hstate hin hret ⊢
  simp only [Lookups.step, Function.update_self] at hret
  cases hr : u.readers t with
  | idle => simp [hr, Reader.InCall] at hin
  | returned p r => simp [hr, Reader.InCall] at hin
  | started p =>
    simp only [hr, Lookups.advance] at hret
    split at hret
    case isTrue hsize =>
      simp only [Reader.returned.injEq] at hret
      exact Or.inl ⟨hsize, hret.2.symm⟩
    case isFalse => simp at hret
  | sized p =>
    -- the state is neither OFF nor REC_OFF
    have hneither : ¬(u.state = 1 ∨ u.state = 3) := by
      simp only [rfOn, rfRecOn] at hstate
      omega
    simp [hr, Lookups.advance, hneither] at hret
  | stated p => simp [hr, Lookups.advance] at hret
  | headed p curr =>
    simp only [hr, Lookups.advance, Reader.returned.injEq] at hret
    obtain ⟨rfl, hret⟩ := hret
    exact Or.inr ⟨curr, rfl, hret.symm⟩

end Calls

/-- While the monitor is in ON or REC_ON, in any interleaving of calls of `is_blacklisted` with
additions and removals, for every call of `is_blacklisted` that returns:

* it answers `0` or `1`;
* it answers `1` if at every moment of the call some entry on the list covers the path, be it one
  entry throughout or not;
* it answers `1` only if at some moment of the call some entry on the list covers the path. -/
theorem lockFree_lookup (state : ℤ) (hstate : state = rfOn ∨ state = rfRecOn)
    (before as : List LookupAction) (t : ℕ) (path : List UInt8) (ret : Option ℤ)
    (hover : Run.EachStep Lookups.step Lookups.NoOverflow (Lookups.init state)
      (before ++ .invoke t path :: as))
    (hcall : Completes (Run.exec Lookups.step (Lookups.init state) before) t path as ret) :
    (ret = some 0 ∨ ret = some 1) ∧
      (Run.Always Lookups.step (fun s => s.Listed path)
        (Run.exec Lookups.step (Lookups.init state) (before ++ [.invoke t path])) as →
          ret = some 1) ∧
      (ret = some 1 → Run.Sometime Lookups.step (fun s => s.Listed path)
        (Run.exec Lookups.step (Lookups.init state) (before ++ [.invoke t path])) as) := by
  have hcount : Run.Always Lookups.step
      (fun s => (s.state = rfOn ∨ s.state = rfRecOn) ∧ ∃ xs, s.list.Counted xs)
      (Run.exec Lookups.step (Lookups.init state) (before ++ [.invoke t path])) as := by
    rw [List.append_cons] at hover
    exact (always_counted hstate hover).of_append
  rw [Run.exec_concat] at hcount ⊢
  generalize Run.exec Lookups.step (Lookups.init state) before = s at hcall hcount ⊢
  obtain ⟨hlast, xs, hxs⟩ := hcount.exec
  rcases hcall.ending hlast with ⟨hsize, rfl⟩ | ⟨curr, hhead, rfl⟩
  · -- the size is not behind the list, so no entry is on the list at the end of the call
    have hnil : xs = [] := by
      have hlen := hxs.length_le
      rw [hsize] at hlen
      exact List.eq_nil_of_length_eq_zero (by omega)
    subst hnil
    refine ⟨Or.inl rfl, fun halways => ?_, by simp⟩
    obtain ⟨ys, hys, y, hy, -⟩ := halways.exec
    obtain rfl := hys.unique hxs.lists
    simp at hy
  · have hstale := hcall.stale (hcount.mono fun u hu => hu.2.imp fun _ h => h.lists) hhead
    obtain ⟨hfound, honly⟩ := hstale.walk_eq hxs.lists path
    refine ⟨hstale.walk_zero_or_one hxs.lists path, fun halways => ?_, fun hone => ?_⟩
    · refine hfound ?_ ?_
      · obtain ⟨ys, hys, y, hy⟩ := halways.exec
        obtain rfl := hys.unique hxs.lists
        exact ⟨y, hy⟩
      · -- the list was never empty: it had a covering entry
        rintro ⟨zs, hzs, hnil⟩
        obtain ⟨ys, hys, y, hy, -⟩ := halways zs hzs
        obtain rfl := hys.unique hnil
        simp at hy
    · rcases honly hone with hnow | ⟨e, ⟨zs, hzs, ys, hys, he⟩, hcov⟩
      · exact Run.Sometime.of_exec ⟨xs, hxs.lists, hnow⟩
      · obtain ⟨y, hy, rfl⟩ := List.mem_map.mp he
        exact ⟨zs, hzs, ys, hys, y, hy, hcov⟩

/-- A call that has read the address of `/a` as the head, which is then removed: the walk starts at
the removed node and still finds `/b`. -/
theorem lockFree_lookup_removed_head :
    Run.Sometime Lookups.step (fun s => s.Listed pathB.bytes)
      (Run.exec Lookups.step (Lookups.init rfOn)
        [.change ⟨addOf pathA, addOf_zeroed _⟩, .change ⟨addOf pathB, addOf_zeroed _⟩,
          .invoke 0 pathB.bytes])
      [.advance 0, .advance 0, .advance 0, .change ⟨removeOf pathA, removeOf_zeroed _⟩] := by
  have hA : pathA.bytes.length < pathMax := by decide
  have hB : pathB.bytes.length < pathMax := by decide
  -- the list after each of the three changes
  have haddA : zeroedStep Blacklist.empty ⟨addOf pathA, addOf_zeroed _⟩ =
      ⟨some 0, 1, [⟨pathA, none⟩]⟩ := by
    simp only [zeroedStep, Blacklist.step, respond, run_addOf _ hA]
    rfl
  have haddB : zeroedStep ⟨some 0, 1, [⟨pathA, none⟩]⟩ ⟨addOf pathB, addOf_zeroed _⟩ =
      ⟨some 0, 2, [⟨pathA, some 1⟩, ⟨pathB, none⟩]⟩ := by
    simp only [zeroedStep, Blacklist.step, respond, run_addOf _ hB]
    rfl
  have hremoveA : zeroedStep ⟨some 0, 2, [⟨pathA, some 1⟩, ⟨pathB, none⟩]⟩
      ⟨removeOf pathA, removeOf_zeroed _⟩ = ⟨some 1, 1, [⟨pathA, some 1⟩, ⟨pathB, none⟩]⟩ := by
    simp only [zeroedStep, Blacklist.step, respond, run_removeOf _ hA]
    rfl
  refine (lockFree_lookup rfOn (Or.inl rfl)
    [.change ⟨addOf pathA, addOf_zeroed _⟩, .change ⟨addOf pathB, addOf_zeroed _⟩]
    [.advance 0, .advance 0, .advance 0, .change ⟨removeOf pathA, removeOf_zeroed _⟩]
    0 pathB.bytes (some 1) ?_ ⟨?_, ?_, ?_⟩).2.2 rfl
  · have hempty : Blacklist.empty.size = 0 := rfl
    simp [Run.eachStep_cons, Run.eachStep_nil, Lookups.NoOverflow, Blacklist.NoOverflow,
      Lookups.step, Lookups.init, haddA, haddB, hempty]
  · simp [Run.always_cons, Run.always_nil, Lookups.step, Lookups.init, haddA, haddB, hremoveA,
      Lookups.advance, Reader.InCall, rfOn]
  · simp [Lookups.step, Lookups.init, Reader.InCall]
  · simp only [Run.exec_cons, Run.exec_nil, Lookups.step, Lookups.init, haddA, haddB, hremoveA]
    rfl

end StackReferenceMonitor
