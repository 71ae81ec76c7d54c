import StackReferenceMonitor.Syscalls.Loading

/-!
# What the calls that come in between can do

The steps of `init_module` with calls in between, beside the machine that was loaded at once.

## Main definitions

* `Loader.Holds`: what `kprobe_array` holds, by where `init_module` stands.
* `Loading.Tracks`: the relation between the two machines that each step preserves.

## Main results

* `loading_refines`: the calls that come in between find a monitor that they cannot change until its
  digest is stored. From then on the monitor is the one that they leave when the module has been
  loaded at once. Differences are seen by the callers only: one that asks too early is told that the
  monitor is ON, and one that comes to a pointer not yet set stops there.
-/

namespace StackReferenceMonitor

/-! ### What `init_module` has done so far -/

/-- A call may have been made. -/
def Loader.entered : Loader → Bool
  | .searching | .failed _ => false
  | _ => true

/-- What `kprobe_array` holds, by where `init_module` stands. In the loop of `register_kretprobes`,
what is left of it leads to what all of it leads to. -/
def Loader.Holds (env : LoadEnv) : Loader → KprobeSlots → Prop
  | .searching, array => array = none
  | .failed ret, array => ret ≠ 0 ∧ env.initializeSyscalls = ret ∧ array = none
  | .filling i, array =>
    env.initializeSyscalls = 0 ∧ env.register.array = true ∧
      ∃ slots, array = some slots ∧ ∀ j, slots j = if j < i then some false else none
  | .registering i, array =>
    env.initializeSyscalls = 0 ∧ env.register.array = true ∧
      ∃ registered, array = some (fun j => some (registered j)) ∧
        registerKretprobes env.register.register ((List.finRange numKretprobes).drop i) registered =
          registerKretprobes env.register.register (List.finRange numKretprobes) fun _ => false
  | .loaded, array =>
    env.initializeSyscalls = 0 ∧ array = (kretprobeInit env.register).2.slots
  | _, array => env.initializeSyscalls = 0 ∧ array = none

/-- The two machines at the same point of a run. -/
structure Loading.Tracks (sha256 : List UInt8 → Vector UInt8 32) (env : LoadEnv) (password : CStr)
    (m : Loading) (u : Machine) : Prop where
  /-- Before the digest is stored, no thread gets past its password check. -/
  early : m.loader.encrypted = false →
    m.shared = m.loader.written ∧ u.shared = initModule sha256 env.encrypt password ∧
      ∀ t, (m.threads t).Unproved
  /-- From then on, the monitors are the same. -/
  later : m.loader.encrypted = true → m.shared.rf = u.shared.rf
  /-- Probes that stay registered are enabled alike. -/
  armed : env.register.Succeeds → m.shared.probes = u.shared.probes
  /-- The others are enabled, if at all, only while `register_kretprobes` goes on. -/
  unarmed : ¬env.register.Succeeds →
    (u.shared.probes = fun _ => false) ∧
      ((∀ i, m.loader ≠ .registering i) → m.shared.probes = fun _ => false)
  /-- What `init_module` has done so far. -/
  holds : m.loader.Holds env m.array
  /-- Before the table is changed, no call can be made. -/
  untouched : m.loader.entered = false → (m.table = fun _ => false) ∧ ∀ t, m.threads t = .idle
  /-- The threads. -/
  threads : ∀ t, (m.threads t).Shadows (u.threads t)

section Loader

variable {sha256 : List UInt8 → Vector UInt8 32} {env : LoadEnv} {password : CStr}

/-- The loop of `register_kretprobes` from the probe `i` on. -/
theorem drop_finRange (i : Fin numKretprobes) :
    (List.finRange numKretprobes).drop i = i :: (List.finRange numKretprobes).drop (i + 1) := by
  rw [List.drop_eq_getElem_cons (by simp), List.getElem_finRange]
  rfl

/-- The array at the end, once the pointers are set. -/
theorem kretprobeInit_slots {registered : Fin numKretprobes → Bool} {ret : ℤ}
    (harray : env.register.array = true)
    (h : registerKretprobes env.register.register (List.finRange numKretprobes) (fun _ => false) =
      (ret, registered)) :
    (kretprobeInit env.register).2.slots = some fun j => some (registered j) := by
  unfold kretprobeInit
  rw [harray, h]
  rfl

/-- The last round of a loop, or another one. -/
theorem Loader.next_cases {n : ℕ} (round : Fin n → Loader) (last : Loader) (i : Fin n) :
    (∃ h : i.val + 1 < n, Loader.next round last i = round ⟨i.val + 1, h⟩) ∨
      (i.val + 1 = n ∧ Loader.next round last i = last) := by
  unfold Loader.next
  split_ifs with h
  · exact .inl ⟨h, rfl⟩
  · exact .inr ⟨by omega, rfl⟩

/-- A loop after the digest is stored does not leave that part of `init_module`. -/
theorem Loader.encrypted_next {n : ℕ} {round : Fin n → Loader} {last : Loader}
    (hround : ∀ i, (round i).encrypted = true) (hlast : last.encrypted = true) (i : Fin n) :
    (Loader.next round last i).encrypted = true := by
  rcases Loader.next_cases round last i with ⟨_, hnext⟩ | ⟨-, hnext⟩
  · rw [hnext]
    exact hround _
  · rw [hnext]
    exact hlast

/-- One step of `init_module` keeps what holds of the array. -/
theorem Loading.holds_load {m : Loading} (h : m.loader.Holds env m.array) :
    (m.load sha256 env password).loader.Holds env (m.load sha256 env password).array := by
  unfold Loading.load
  cases hloader : m.loader with
  | searching =>
    rw [hloader] at h
    dsimp only
    split_ifs with hret
    · exact ⟨hret, rfl, h⟩
    · exact ⟨not_not.mp hret, h⟩
  | installing i =>
    rw [hloader] at h
    rcases Loader.next_cases .installing .resetting i with ⟨_, hnext⟩ | ⟨-, hnext⟩ <;>
    · dsimp only
      rw [hnext]
      exact h
  | resetting =>
    rw [hloader] at h
    exact h
  | encrypting =>
    rw [hloader] at h
    exact h
  | allocating =>
    rw [hloader] at h
    dsimp only
    split_ifs with harray
    · refine ⟨h.1, ?_⟩
      unfold kretprobeInit
      rw [if_pos harray]
      rfl
    · refine ⟨h.1, by simpa using harray, _, rfl, fun j => ?_⟩
      exact (if_neg (Nat.not_lt_zero _)).symm
  | filling i =>
    rw [hloader] at h
    obtain ⟨hsyscalls, harray, slots, hslots, hset⟩ := h
    -- now the pointer `i` is set too
    have hupdated : ∀ j, Function.update slots i (some false) j =
        if j ≤ i then some false else none := by
      intro j
      by_cases hj : j = i
      · rw [hj, Function.update_self, if_pos le_rfl]
      · rw [Function.update_of_ne hj, hset j]
        exact if_congr (lt_iff_le_and_ne.trans (and_iff_left hj)) rfl rfl
    dsimp only
    rw [hslots]
    rcases Loader.next_cases .filling (.registering ⟨0, numKretprobes_pos⟩) i with
      ⟨_, hnext⟩ | ⟨hlast, hnext⟩
    · rw [hnext]
      refine ⟨hsyscalls, harray, _, rfl, fun j => (hupdated j).trans ?_⟩
      exact if_congr Nat.lt_succ_iff.symm rfl rfl
    · rw [hnext]
      refine ⟨hsyscalls, harray, fun _ => false, ?_, rfl⟩
      rw [Option.map_some]
      congr 1
      ext1 j
      rw [hupdated j, if_pos (Fin.le_def.mpr (by omega))]
  | registering i =>
    rw [hloader] at h
    obtain ⟨hsyscalls, harray, registered, hslots, hrest⟩ := h
    rw [drop_finRange, registerKretprobes] at hrest
    dsimp only
    rw [hslots]
    split_ifs at hrest ⊢ with herror
    · exact ⟨hsyscalls, (kretprobeInit_slots harray hrest.symm).symm⟩
    · have hupdated : (fun j => some (Function.update registered i true j)) =
          Function.update (fun j => some (registered j)) i (some true) :=
        Function.comp_update some registered i true
      rcases Loader.next_cases .registering .loaded i with ⟨_, hnext⟩ | ⟨hlast, hnext⟩
      · dsimp only
        rw [hnext]
        exact ⟨hsyscalls, harray, _, by rw [hupdated]; rfl, hrest⟩
      · dsimp only
        rw [hnext]
        rw [List.drop_eq_nil_of_le (by simp [hlast]), registerKretprobes] at hrest
        refine ⟨hsyscalls, ?_⟩
        rw [kretprobeInit_slots harray hrest.symm, hupdated]
        rfl
  | loaded =>
    rw [hloader] at h
    simpa only [hloader] using h
  | failed ret =>
    rw [hloader] at h
    simpa only [hloader] using h

/-- Unless all probes can be registered, none is outside `register_kretprobes`. -/
theorem Loader.Holds.not_registered {loader : Loader} {array : KprobeSlots}
    (h : loader.Holds env array) (hfails : ¬env.register.Succeeds)
    (hloader : ∀ i, loader ≠ .registering i) (i : Fin numKretprobes) :
    (array.bind fun slots => slots i) ≠ some true := by
  have hnone : array = none → (array.bind fun slots => slots i) ≠ some true := by
    rintro rfl
    simp
  cases loader with
  | searching => exact hnone h
  | installing _ => exact hnone h.2
  | resetting => exact hnone h.2
  | encrypting => exact hnone h.2
  | allocating => exact hnone h.2
  | failed ret => exact hnone h.2.2
  | registering j => exact absurd rfl (hloader j)
  | filling j =>
    obtain ⟨-, -, slots, rfl, hset⟩ := h
    rw [Option.bind_some, hset i]
    split_ifs <;> simp
  | loaded =>
    obtain ⟨-, rfl⟩ := h
    cases hinit : (kretprobeInit env.register).2 with
    | none => simp [KprobeArray.slots]
    | some registered =>
      intro hi
      exact hfails ((registered_iff hinit i).mp (Option.some.inj hi))

end Loader

/-! ### Both machines along a run -/

section Runs

variable {sha256 : List UInt8 → Vector UInt8 32} {env : LoadEnv} {password : CStr} {m : Loading}
  {u : Machine}

theorem Loading.tracks_init :
    Loading.init.Tracks sha256 env password (.init sha256 env.encrypt password) where
  early := fun _ => ⟨rfl, rfl, fun _ => trivial⟩
  later := fun h => absurd h (by decide)
  armed := fun _ => rfl
  unarmed := fun _ => ⟨rfl, fun _ => rfl⟩
  holds := rfl
  untouched := fun _ => ⟨rfl, fun _ => rfl⟩
  threads := fun _ => .idle

/-- A step of `init_module` before the digest is stored, which does not store it. -/
theorem Loading.Tracks.load_early (h : m.Tracks sha256 env password u)
    (hbefore : m.loader.encrypted = false) {m' : Loading} (hafter : m'.loader.encrypted = false)
    (hholds : m'.loader.Holds env m'.array) (hthreads : m'.threads = m.threads)
    (hshared : m'.shared = m'.loader.written)
    (htable : m'.loader.entered = false → m.loader.entered = false ∧ m'.table = m.table) :
    m'.Tracks sha256 env password u := by
  obtain ⟨-, hu, hunproved⟩ := h.early hbefore
  have hprobes : m'.shared.probes = fun _ => false := by
    rw [hshared]
    cases m'.loader <;> rfl
  refine ⟨fun _ => ⟨hshared, hu, hthreads ▸ hunproved⟩, fun hafter' => ?_, fun _ => ?_,
    fun _ => ⟨?_, fun _ => hprobes⟩, hholds, fun hentered => ?_, hthreads ▸ h.threads⟩
  · rw [hafter] at hafter'
    exact absurd hafter' Bool.false_ne_true
  · rw [hprobes, hu]
    rfl
  · rw [hu]
    rfl
  · obtain ⟨hm, hsame⟩ := htable hentered
    rw [hsame, hthreads]
    exact h.untouched hm

/-- A step of `init_module` after which the digest is stored. -/
theorem Loading.Tracks.load_later (h : m.Tracks sha256 env password u) {m' : Loading}
    (hafter : m'.loader.encrypted = true) (hholds : m'.loader.Holds env m'.array)
    (hthreads : m'.threads = m.threads) (hrf : m'.shared.rf = u.shared.rf)
    (harmed : env.register.Succeeds → m'.shared.probes = m.shared.probes)
    (hunarmed : ¬env.register.Succeeds → (∀ i, m'.loader ≠ .registering i) →
      m'.shared.probes = fun _ => false) :
    m'.Tracks sha256 env password u := by
  refine ⟨fun hafter' => ?_, fun _ => hrf, fun hok => (harmed hok).trans (h.armed hok),
    fun hfails => ⟨(h.unarmed hfails).1, hunarmed hfails⟩, hholds, fun hentered => ?_,
    hthreads ▸ h.threads⟩
  · rw [hafter] at hafter'
    exact absurd hafter' Bool.false_ne_true.symm
  · cases hloader : m'.loader <;>
      simp [hloader, Loader.encrypted, Loader.entered] at hafter hentered

/-- One step of `init_module`. -/
theorem Loading.Tracks.load (h : m.Tracks sha256 env password u) :
    (m.load sha256 env password).Tracks sha256 env password u := by
  have hholds : (m.load sha256 env password).loader.Holds env (m.load sha256 env password).array :=
    Loading.holds_load h.holds
  have hearly := h.early
  have hlater := h.later
  have hunarmed := fun hfails => (h.unarmed hfails).2
  rw [Loading.load] at hholds ⊢
  cases hloader : m.loader with
  | searching =>
    simp only [hloader] at hholds hearly ⊢
    split_ifs at hholds ⊢
    · exact h.load_early (by rw [hloader]; rfl) rfl hholds rfl (hearly rfl).1
        fun _ => ⟨by rw [hloader]; rfl, rfl⟩
    · exact h.load_early (by rw [hloader]; rfl) rfl hholds rfl (hearly rfl).1
        (by simp [Loader.entered])
  | installing i =>
    simp only [hloader] at hholds hearly ⊢
    rcases Loader.next_cases .installing .resetting i with ⟨_, hnext⟩ | ⟨-, hnext⟩ <;>
    · rw [hnext] at hholds ⊢
      exact h.load_early (by rw [hloader]; rfl) rfl hholds rfl (hearly rfl).1
        (by simp [Loader.entered])
  | resetting =>
    simp only [hloader] at hholds hearly ⊢
    refine h.load_early (by rw [hloader]; rfl) rfl hholds rfl ?_ (by simp [Loader.entered])
    dsimp only
    rw [(hearly rfl).1]
    rfl
  | encrypting =>
    simp only [hloader] at hholds hearly hunarmed ⊢
    refine h.load_later rfl hholds rfl ?_ (fun _ => rfl) fun hfails _ => hunarmed hfails (by simp)
    dsimp only
    rw [(hearly rfl).1, (hearly rfl).2.1]
    rfl
  | allocating =>
    simp only [hloader] at hholds hlater hunarmed ⊢
    split_ifs at hholds ⊢ <;>
    exact h.load_later rfl hholds rfl (hlater rfl) (fun _ => rfl)
      fun hfails _ => hunarmed hfails (by simp)
  | filling i =>
    simp only [hloader] at hholds hlater hunarmed ⊢
    exact h.load_later (Loader.encrypted_next (fun _ => rfl) rfl i) hholds rfl (hlater rfl)
      (fun _ => rfl) fun hfails _ => hunarmed hfails (by simp)
  | registering i =>
    simp only [hloader] at hholds hlater ⊢
    split_ifs at hholds ⊢ with herror
    · exact h.load_later rfl hholds rfl (hlater rfl) (fun hok => absurd (hok i) (not_le.mpr herror))
        fun _ _ => rfl
    · refine h.load_later (Loader.encrypted_next (fun _ => rfl) rfl i) hholds rfl (hlater rfl)
        (fun _ => rfl) fun hfails hnot => ?_
      -- the loop would have ended with the probe `i` registered
      obtain ⟨-, -, registered, hslots, -⟩ : Loader.Holds env (.registering i) m.array :=
        hloader ▸ h.holds
      refine absurd ?_ (hholds.not_registered hfails hnot i)
      simp [hslots]
  | loaded => simpa only [hloader] using h
  | failed ret => simpa only [hloader] using h

/-- A step of the thread `t` takes both machines on together. -/
theorem Loading.Tracks.moved (h : m.Tracks sha256 env password u) {t : ℕ} {shared shared' : Shared}
    {thread thread' : Thread} (hthread : thread.Shadows thread')
    (hearly : m.loader.encrypted = false →
      shared = m.shared ∧ shared' = u.shared ∧ thread.Unproved)
    (hlater : m.loader.encrypted = true → shared.rf = shared'.rf)
    (harmed : env.register.Succeeds → shared.probes = shared'.probes)
    (hunarmed : ¬env.register.Succeeds → shared'.probes = u.shared.probes ∧
      ((∀ i, m.loader ≠ .registering i) → shared.probes = m.shared.probes))
    (hentered : m.loader.entered = false → thread = .idle) :
    Loading.Tracks sha256 env password
      { m with shared, threads := Function.update m.threads t thread }
      { shared := shared', threads := Function.update u.threads t thread' } := by
  have hmoves := m.toMachine.moves_update shared t thread
  refine ⟨fun hbefore => ?_, hlater, harmed, fun hfails => ?_, h.holds, fun hbefore => ?_,
    fun t' => ?_⟩
  · obtain ⟨hsame, hsame', hunproved⟩ := hearly hbefore
    obtain ⟨hwritten, hu, hall⟩ := h.early hbefore
    exact ⟨hsame.trans hwritten, hsame'.trans hu, hmoves.forall hall hunproved⟩
  · obtain ⟨hu, hm⟩ := h.unarmed hfails
    obtain ⟨hsame', hsame⟩ := hunarmed hfails
    exact ⟨hsame'.trans hu, fun hnot => (hsame hnot).trans (hm hnot)⟩
  · obtain ⟨htable, hidle⟩ := h.untouched hbefore
    exact ⟨htable, hmoves.forall (P := (· = .idle)) hidle (hentered hbefore)⟩
  · by_cases ht : t' = t
    · rw [ht]
      simpa only [Function.update_self] using hthread
    · simpa only [Function.update_of_ne ht] using h.threads t'

/-- A call is made. -/
theorem Loading.Tracks.invoke (h : m.Tracks sha256 env password u) {t euid : ℕ} {call : Syscall}
    (htable : m.table call.entry = true) :
    Loading.Tracks sha256 env password
      { m with toMachine := m.toMachine.step sha256 (.invoke t euid call) }
      (u.step sha256 (.invoke t euid call)) := by
  have hentered : m.loader.entered ≠ false := by
    intro hfalse
    rw [(h.untouched hfalse).1] at htable
    exact absurd htable Bool.false_ne_true
  -- a thread that is free makes the call in both machines
  have hcalled : Loading.Tracks sha256 env password
      { m with
        shared := m.shared
        threads := Function.update m.threads t (.running euid call .called) }
      { u with threads := Function.update u.threads t (.running euid call .called) } :=
    h.moved (.running rfl) (fun _ => ⟨rfl, rfl, trivial⟩) h.later h.armed
      (fun _ => ⟨rfl, fun _ => rfl⟩) fun hfalse => absurd hfalse hentered
  have hthread := h.threads t
  simp only [Machine.step]
  generalize hold : m.threads t = thread at hthread
  generalize hold' : u.threads t = thread' at hthread
  cases hthread with
  | idle => exact hcalled
  | returned => exact hcalled
  | early => exact hcalled
  | running hpc => exact h
  | stopped => exact h

/-- The machine beside a step that comes to `next`: it stays behind a step that faults. -/
def Machine.beside (u after : Machine) : Thread → Machine
  | .oops => u
  | _ => after

/-- A step of the thread `t` faults, and leaves the other machine behind. -/
theorem Loading.Tracks.fault (h : m.Tracks sha256 env password u) {t euid : ℕ} {call : Syscall}
    {pc : Pc} (hold : u.threads t = .running euid call pc) (hentered : m.loader.entered ≠ false) :
    Loading.Tracks sha256 env password
      { m with shared := m.shared, threads := Function.update m.threads t .oops } u := by
  have hsame : u = { shared := u.shared,
                     threads := Function.update u.threads t (.running euid call pc) } := by
    rw [← hold, Function.update_eq_self]
  rw [hsame]
  exact h.moved .stopped (fun _ => ⟨rfl, rfl, trivial⟩) h.later h.armed
    (fun _ => ⟨rfl, fun _ => rfl⟩) fun hfalse => absurd hfalse hentered

/-- A step of the thread `t`, which is in a call, takes both machines on together, unless it
faults. -/
theorem Loading.Tracks.follow (h : m.Tracks sha256 env password u) {t euid : ℕ} {call : Syscall}
    {pc : Pc} (hold : u.threads t = .running euid call pc) {shared shared' : Shared}
    {next next' : Thread} (hnext : next.Trails next') (hoops : next = .oops → shared = m.shared)
    (hearly : m.loader.encrypted = false →
      shared = m.shared ∧ shared' = u.shared ∧ next.Unproved)
    (hlater : m.loader.encrypted = true → shared.rf = shared'.rf)
    (harmed : env.register.Succeeds → shared.probes = shared'.probes)
    (hunarmed : ¬env.register.Succeeds → shared'.probes = u.shared.probes ∧
      ((∀ i, m.loader ≠ .registering i) → shared.probes = m.shared.probes))
    (hentered : m.loader.entered ≠ false) :
    Loading.Tracks sha256 env password
      { m with shared, threads := Function.update m.threads t next }
      (u.beside { shared := shared', threads := Function.update u.threads t next' } next) := by
  by_cases hstops : next = .oops
  · obtain rfl := hstops
    obtain rfl := hoops rfl
    exact h.fault hold hentered
  · have hmoved := h.moved (t := t) (hnext.resolve_left hstops) hearly hlater harmed hunarmed
      fun hfalse => absurd hfalse hentered
    cases next with
    | oops => exact absurd rfl hstops
    | _ => exact hmoved

/-- What goes with the step of a thread that comes to `next`. -/
theorem Loading.exec_shadow {t : ℕ} {stepEnv : StepEnv} :
    Run.exec (Machine.step sha256) u
        (m.shadow sha256 env (.call (.advance t stepEnv))).toList =
      u.beside (u.step sha256 (.advance t
          { stepEnv with probe := m.probeLasts env.register (m.threads t) && stepEnv.probe }))
        (Loading.advance sha256 m.array stepEnv m.shared (m.threads t)).2 := by
  rw [Loading.shadow]
  cases (Loading.advance sha256 m.array stepEnv m.shared (m.threads t)).2 <;> rfl

section Threads

variable {t euid : ℕ} {call : Syscall} {pc pc' : Pc} {stepEnv : StepEnv}

/-- A step of a thread in a call, before the digest is stored. -/
theorem Loading.Tracks.advance_early (h : m.Tracks sha256 env password u)
    (hbefore : m.loader.encrypted = false) (hold : m.threads t = .running euid call pc)
    (hold' : u.threads t = .running euid call pc') (hpc : pc.forget = pc'.forget)
    (hentered : m.loader.entered ≠ false) :
    (m.step sha256 env password (.call (.advance t stepEnv))).Tracks sha256 env password
      (Run.exec (Machine.step sha256) u
        (m.shadow sha256 env (.call (.advance t stepEnv))).toList) := by
  obtain ⟨hwritten, hu, hunproved⟩ := h.early hbefore
  have hthread := hunproved t
  have hlate : m.loader.encrypted = true → False := by simp [hbefore]
  rw [Loading.exec_shadow, Loading.step, Machine.step, hold, hold']
  rw [hold] at hthread
  cases pc with
  | called =>
    cases pc' <;> simp only [Pc.forget, reduceCtorEq] at hpc
    have hfirst := firstStep_early sha256 stepEnv euid call m.loader env.encrypt password
    rw [← hwritten, ← hu] at hfirst
    exact h.follow hold' (hfirst _).2 (fun _ => rfl) (fun _ => ⟨rfl, rfl, (hfirst true).1⟩)
      (fun hafter => (hlate hafter).elim) h.armed (fun _ => ⟨rfl, fun _ => rfl⟩) hentered
  | stateChecked observed =>
    cases pc' <;> simp only [Pc.forget, reduceCtorEq] at hpc
    have hnull : m.shared.rf.password = none := by
      rw [hwritten]
      cases m.loader <;> rfl
    exact h.follow hold' (passwordStep_early hnull u.shared observed _ _).2 (fun _ => rfl)
      (fun _ => ⟨rfl, rfl, (passwordStep_early hnull u.shared observed observed true).1⟩)
      (fun hafter => (hlate hafter).elim) h.armed (fun _ => ⟨rfl, fun _ => rfl⟩) hentered
  | passwordChecked e => exact hthread.elim
  | authorised e => exact hthread.elim
  | probing i => exact hthread.elim
  | probed => exact hthread.elim

/-- A step of a thread outside the loop over the probes, after the digest is stored. -/
theorem Loading.Tracks.advance_later (h : m.Tracks sha256 env password u)
    (hafter : m.loader.encrypted = true) (hold : m.threads t = .running euid call pc)
    (hold' : u.threads t = .running euid call pc') (hpc : pc.forget = pc'.forget)
    (hprobing : ∀ i, pc ≠ .probing i) (hentered : m.loader.entered ≠ false) :
    (m.step sha256 env password (.call (.advance t stepEnv))).Tracks sha256 env password
      (Run.exec (Machine.step sha256) u
        (m.shadow sha256 env (.call (.advance t stepEnv))).toList) := by
  have hadvance : Loading.advance sha256 m.array stepEnv m.shared (.running euid call pc) =
      StackReferenceMonitor.advance sha256 stepEnv m.shared (.running euid call pc) := by
    cases pc with
    | probing i => exact absurd rfl (hprobing i)
    | _ => rfl
  obtain ⟨hnext, hoops, hrf, hprobes, hprobes'⟩ :=
    advance_trails hpc hprobing sha256 stepEnv euid call m.shared.rf m.shared.probes u.shared.probes
      (m.probeLasts env.register (.running euid call pc) && stepEnv.probe)
  have hu : u.shared = ⟨m.shared.rf, u.shared.probes⟩ := by rw [h.later hafter]
  rw [Loading.exec_shadow, Loading.step, Machine.step, hold, hold', hadvance]
  rw [← hu] at hrf hprobes' hnext
  refine h.follow hold' hnext hoops (fun hbefore => ?_) (fun _ => hrf)
    (fun hok => (hprobes.trans (h.armed hok)).trans hprobes'.symm)
    (fun _ => ⟨hprobes', fun _ => hprobes⟩) hentered
  rw [hafter] at hbefore
  exact absurd hbefore Bool.false_ne_true.symm

/-- A round of the loop over the probes. -/
theorem Loading.Tracks.advance_probing (h : m.Tracks sha256 env password u)
    {i : Fin numKretprobes} (hold : m.threads t = .running euid call (.probing i))
    (hold' : u.threads t = .running euid call (.probing i)) (hentered : m.loader.entered ≠ false) :
    (m.step sha256 env password (.call (.advance t stepEnv))).Tracks sha256 env password
      (Run.exec (Machine.step sha256) u
        (m.shadow sha256 env (.call (.advance t stepEnv))).toList) := by
  have hafter : m.loader.encrypted = true := by
    by_contra hbefore
    have hthread := (h.early (by simpa using hbefore)).2.2 t
    rw [hold] at hthread
    exact hthread
  have hbefore : ¬m.loader.encrypted = false := by simp [hafter]
  rw [Loading.exec_shadow, Loading.step, Machine.step, hold, hold']
  simp only [Loading.advance, Loading.probeLasts]
  cases hslot : m.array.bind fun slots => slots i with
  | none => exact h.fault hold' hentered
  | some registered =>
    cases call with
    | switchRfState state password' =>
      simp only [StackReferenceMonitor.advance, probeStep, Option.getD_some]
      refine h.follow hold' (.inr (.running rfl)) (fun hstops => absurd hstops (by simp))
        (fun hfalse => absurd hfalse hbefore) (fun _ => h.later hafter) (fun hok => ?_)
        (fun hfails => ⟨?_, fun hnot => ?_⟩) hentered
      · simp [hok, h.armed hok]
      · simp [hfails]
      · -- no probe is registered when all are to be unregistered
        have hregistered : registered = false := by
          have := h.holds.not_registered hfails hnot i
          rw [hslot] at this
          simpa using this
        simp [hregistered]
    | _ => exact h.fault hold' hentered

end Threads

/-- A step of a thread. -/
theorem Loading.Tracks.advance (h : m.Tracks sha256 env password u) (t : ℕ) (stepEnv : StepEnv) :
    (m.step sha256 env password (.call (.advance t stepEnv))).Tracks sha256 env password
      (Run.exec (Machine.step sha256) u
        (m.shadow sha256 env (.call (.advance t stepEnv))).toList) := by
  have hthread := h.threads t
  -- a thread that is not in a call stays as it is
  have hstays : ∀ {thread thread' : Thread}, m.threads t = thread → u.threads t = thread' →
      thread.Shadows thread' → thread.Unproved →
      Loading.Tracks sha256 env password
        { m with shared := m.shared, threads := Function.update m.threads t thread }
        { shared := u.shared, threads := Function.update u.threads t thread' } := by
    intro thread thread' hold hold' hshadows hunproved
    refine h.moved hshadows (fun _ => ⟨rfl, rfl, hunproved⟩) h.later h.armed
      (fun _ => ⟨rfl, fun _ => rfl⟩) fun hbefore => ?_
    rw [← hold, (h.untouched hbefore).2 t]
  -- one that is in a call has been let in
  have hentered : ∀ {thread : Thread}, m.threads t = thread → thread ≠ .idle →
      m.loader.entered ≠ false := by
    intro thread hold hne hbefore
    exact hne (hold.symm.trans ((h.untouched hbefore).2 t))
  generalize hold : m.threads t = thread at hthread
  generalize hold' : u.threads t = thread' at hthread
  cases hthread with
  | idle =>
    rw [Loading.exec_shadow, Loading.step, Machine.step, hold, hold']
    exact hstays hold hold' .idle trivial
  | returned =>
    rw [Loading.exec_shadow, Loading.step, Machine.step, hold, hold']
    exact hstays hold hold' .returned trivial
  | early =>
    rw [Loading.exec_shadow, Loading.step, Machine.step, hold, hold']
    exact hstays hold hold' .early trivial
  | stopped =>
    rw [Loading.exec_shadow, Loading.step, Machine.step, hold, hold']
    exact h.fault hold' (hentered hold (by simp))
  | @running euid call pc pc' hpc =>
    have hin := hentered hold (by simp)
    cases hencrypted : m.loader.encrypted with
    | false => exact h.advance_early hencrypted hold hold' hpc hin
    | true =>
      by_cases hprobing : ∃ i, pc = .probing i
      · obtain ⟨i, rfl⟩ := hprobing
        cases pc' <;> simp only [Pc.forget, reduceCtorEq, Pc.probing.injEq] at hpc
        subst hpc
        exact h.advance_probing hold hold' hin
      · exact h.advance_later hencrypted hold hold' hpc (fun i hi => hprobing ⟨i, hi⟩) hin

/-- One step of either kind. -/
theorem Loading.Tracks.step (h : m.Tracks sha256 env password u) (a : LoadAction) :
    (m.step sha256 env password a).Tracks sha256 env password
      (Run.exec (Machine.step sha256) u (m.shadow sha256 env a).toList) := by
  cases a with
  | load => exact h.load
  | call a =>
    cases a with
    | advance t stepEnv => exact h.advance t stepEnv
    | invoke t euid call =>
      rw [Loading.step, Loading.shadow]
      split_ifs with htable
      · exact h.invoke htable
      · exact h

theorem Loading.Tracks.refines (h : m.Tracks sha256 env password u) :
    m.Refines sha256 env password u where
  early hbefore := ⟨(h.early hbefore).1, (h.early hbefore).2.1⟩
  later := h.later
  loaded hloader := by
    have hholds := h.holds
    rw [hloader] at hholds
    obtain ⟨hsyscalls, harray⟩ := hholds
    have hrf := h.later (by rw [hloader]; rfl)
    have hprobes : m.shared.probes = u.shared.probes := by
      by_cases hok : env.register.Succeeds
      · exact h.armed hok
      · obtain ⟨hu, hm⟩ := h.unarmed hok
        rw [hu, hm (by simp [hloader])]
    refine ⟨?_, _, harray, ?_⟩
    · calc m.shared = ⟨m.shared.rf, m.shared.probes⟩ := rfl
        _ = u.shared := by rw [hrf, hprobes]
    · rw [loadModule, if_neg (not_not.mpr hsyscalls)]
  failed ret hloader := by
    have hholds := h.holds
    rw [hloader] at hholds
    obtain ⟨hne, rfl, -⟩ := hholds
    exact ⟨if_pos hne, (h.untouched (by rw [hloader]; rfl)).2⟩
  threads := h.threads

end Runs

/-! ### How far `init_module` has come -/

/-- The step of `init_module` itself. -/
def LoadAction.isLoad : LoadAction → Bool
  | .load => true
  | .call _ => false

section Left

variable {sha256 : List UInt8 → Vector UInt8 32} {env : LoadEnv} {password : CStr}

/-- Each step of `init_module` leaves one less, until none is left. -/
theorem Loading.left_load (m : Loading) :
    (m.load sha256 env password).loader.left ≤ m.loader.left - 1 := by
  unfold Loading.load
  cases hloader : m.loader with
  | searching =>
    dsimp only
    split_ifs
    · exact Nat.zero_le _
    · exact le_rfl
  | installing i =>
    dsimp only
    rcases Loader.next_cases .installing .resetting i with ⟨_, hnext⟩ | ⟨hlast, hnext⟩
    · rw [hnext]
      simp only [Loader.left]
      omega
    · rw [hnext]
      simp only [Loader.left, hackedEntries] at hlast ⊢
      omega
  | resetting => exact le_rfl
  | encrypting => exact le_rfl
  | allocating =>
    dsimp only
    split_ifs
    · exact Nat.zero_le _
    · exact le_rfl
  | filling i =>
    dsimp only
    rcases Loader.next_cases .filling (.registering ⟨0, numKretprobes_pos⟩) i with
      ⟨_, hnext⟩ | ⟨hlast, hnext⟩
    · rw [hnext]
      simp only [Loader.left]
      omega
    · rw [hnext]
      simp only [Loader.left, numKretprobes] at hlast ⊢
      omega
  | registering i =>
    dsimp only
    split_ifs
    · exact Nat.zero_le _
    · rcases Loader.next_cases .registering .loaded i with ⟨_, hnext⟩ | ⟨-, hnext⟩ <;>
      · rw [hnext]
        simp only [Loader.left]
        omega
  | loaded =>
    dsimp only
    rw [hloader]
    exact Nat.zero_le _
  | failed ret =>
    dsimp only
    rw [hloader]
    exact Nat.zero_le _

/-- No other step moves it. -/
theorem Loading.loader_call (m : Loading) (a : Action) :
    (m.step sha256 env password (.call a)).loader = m.loader := by
  cases a with
  | advance t stepEnv => rfl
  | invoke t euid call =>
    rw [Loading.step]
    split_ifs <;> rfl

/-- What is left after a run. -/
theorem Loading.left_exec (m : Loading) (as : List LoadAction) :
    (Run.exec (Loading.step sha256 env password) m as).loader.left ≤
      m.loader.left - as.countP LoadAction.isLoad := by
  induction as generalizing m with
  | nil => exact le_rfl
  | cons a as ih =>
    refine (ih _).trans ?_
    cases a with
    | load =>
      have hstep : (m.load sha256 env password).loader.left ≤ m.loader.left - 1 := m.left_load
      rw [List.countP_cons_of_pos rfl]
      change (m.load sha256 env password).loader.left - _ ≤ _
      omega
    | call a => rw [m.loader_call, List.countP_cons_of_neg Bool.false_ne_true]

end Left

/-- Whatever calls come in between, and in whatever order: `init_module` ends after thirty steps of
its own, and as far as it has come, the module is that of the same calls after it was loaded at
once. -/
theorem loading_refines (sha256 : List UInt8 → Vector UInt8 32) (env : LoadEnv) (password : CStr)
    (as : List LoadAction) :
    let m := Run.exec (Loading.step sha256 env password) Loading.init as
    m.loader.left ≤ 30 - as.countP LoadAction.isLoad ∧
      m.Refines sha256 env password
        (Run.exec (Machine.step sha256) (.init sha256 env.encrypt password)
          (Run.shadow (Loading.step sha256 env password) (Loading.shadow sha256 env) Loading.init
            as)) := by
  refine ⟨Loading.left_exec Loading.init as, Loading.Tracks.refines ?_⟩
  exact Run.simulation_shadow (R := Loading.Tracks sha256 env password)
    (fun m u a h => h.step a) Loading.tracks_init as

/-- Two entries are in the table: a caller is told that the monitor is ON. -/
example :
    (Run.exec (Loading.step sampleSha256 (sampleLoad fun _ => 0) ⟨[], by decide⟩) Loading.init
      ([.load, .load, .load] ++ (sampleSteps 1 .getRfState 1).map .call)).threads 1 =
        .returned rfOn := rfl

/-- The digest is stored, and there is no array yet: a switch to ON writes the state and stops. -/
example :
    let m := Run.exec (Loading.step sampleSha256 (sampleLoad fun _ => 0) ⟨[], by decide⟩)
      Loading.init
      (List.replicate 9 .load ++ (sampleSteps 1 (.switchRfState rfOn 2) 5).map .call)
    m.shared.rf.state = rfOn ∧ m.threads 1 = .oops :=
  ⟨rfl, rfl⟩

end StackReferenceMonitor
