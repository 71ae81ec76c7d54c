import StackReferenceMonitor.Log.Fingerprint
import StackReferenceMonitor.Syscalls.PrintBlacklist

/-!
# When a system call returns

Each call ends after fifteen steps of its own at most, whatever the other threads do in the
meantime. It ends with a value, unless it dereferences `NULL`: in `strcmp`, when the digest of the
caller's password could not be computed, or in `strcpy`, when there was no memory for the path of a
new node; or unless the path has no end within `PATH_MAX` bytes, so that `strcpy` leaves the block
of that path. None of these is tested for. What `sys_print_blacklist` writes outside its buffers is
not looked at here.

## Main definitions

* `Machine.boundedStep`: a step, where a thread whose `strcpy` leaves its block is stopped.
* `Thread.left`: how many steps a call has left, at most.
* `Machine.Spared`: the step does not meet one of these three failures.

## Main results

* `calls_return`: in every interleaving, no thread is ever stopped exactly when every step is
  spared, and after fifteen steps a call is over.
-/

namespace StackReferenceMonitor

open LinkedList (Chain chain_cons)

/-! ### Steps that are spared -/

/-- `password_check` comes to `encrypt_password`. -/
def PasswordEnv.Encrypts (env : PasswordEnv) (password : ℕ) : Prop :=
  env.kernelPassword ≠ none ∧ (env.mem.copyFromUser password passwLen).2 = 0

/-- The next step of the thread dereferences no `NULL`. -/
def Thread.NullFree (env : StepEnv) : Thread → Prop
  | .running _ call (.stateChecked _) =>
    ∀ password, call.password = some password → env.password.Encrypts password →
      env.password.encrypt.Succeeds
  | .running _ (.addToBlacklist _ _) (.authorised _) =>
    env.add.kernelRelPath ≠ none → env.add.new ≠ none → env.add.newPath = true
  | _ => True

/-- `strcpy` of the path to `new->path` leaves its `PATH_MAX` bytes. -/
def Blacklist.AddEnv.overruns (env : AddEnv) (path : ℕ) : Bool :=
  match env.kernelRelPath, env.new with
  | some after, some _ =>
    let kernelRelPath := CString.ofMem ((env.mem.copyFromUser path pathMax).1 ++ after)
    env.newPath && !decide (kernelRelPath.bytes.length + 1 ≤ pathMax)
  | _, _ => false

/-- The next step of the thread is an addition whose `strcpy` leaves the block. -/
def Thread.overruns (env : StepEnv) : Thread → Bool
  | .running _ (.addToBlacklist path _) (.authorised _) => env.add.overruns path
  | _ => false

/-- One step, where a thread whose `strcpy` leaves its block is stopped. -/
def Machine.boundedStep (sha256 : List UInt8 → Vector UInt8 32) (m : Machine) : Action → Machine
  | .invoke t euid call => m.step sha256 (.invoke t euid call)
  | .advance t env =>
    if (m.threads t).overruns env then
      { m with threads := Function.update m.threads t .oops }
    else m.step sha256 (.advance t env)

/-- The step meets no failure that is not tested for. -/
def Machine.Spared (m : Machine) : Action → Prop
  | .invoke _ _ _ => True
  | .advance t env => (m.threads t).NullFree env ∧ (m.threads t).overruns env = false

/-- A node that is allocated in the step comes zeroed. -/
def Action.Zeroed : Action → Prop
  | .invoke _ _ _ => True
  | .advance _ env => ∀ next, env.add.new = some next → next = none

/-- How many steps the thread has left in its call, at most. -/
def Thread.left : Thread → ℕ
  | .running _ _ .called => 15
  | .running _ _ (.stateChecked _) => 14
  | .running _ _ (.passwordChecked _) => 13
  | .running _ _ (.authorised _) => 12
  | .running _ _ (.probing i) => 11 - i
  | .running _ _ .probed => 1
  | _ => 0

/-- The thread stands where its call can have come to, and was not stopped. -/
def Thread.Fits : Thread → Prop
  | .running _ _ .called => True
  | .running _ call (.probing _) | .running _ call .probed =>
    ∃ state password, call = .switchRfState state password
  | .running _ call _ => call.password ≠ none
  | .oops => False
  | _ => True

/-- The digest is stored, the blacklist ends, and every thread stands where its call can have come
to. -/
structure Machine.Sane (m : Machine) : Prop where
  /-- The digest is stored. -/
  password : m.shared.rf.password ≠ none
  /-- The blacklist ends. -/
  lists : ∃ xs, m.shared.rf.blacklist.Lists xs
  /-- The threads. -/
  threads : ∀ t, (m.threads t).Fits

/-! ### One step -/

section Step

variable {sha256 : List UInt8 → Vector UInt8 32} {env : StepEnv} {s : Shared} {euid : ℕ}
  {call : Syscall}

theorem encryptPassword_ne_none_iff (sha256 : List UInt8 → Vector UInt8 32) (env : EncryptEnv)
    (password : CStr) :
    encryptPassword sha256 env password ≠ none ↔ env.Succeeds := by
  rw [encryptPassword_eq]
  split_ifs with henv
  · exact iff_of_true (Option.some_ne_none _) henv
  · exact iff_of_false (fun h => h rfl) henv

/-- With a stored digest, `password_check` returns unless the one of the caller's password is
`NULL`. -/
theorem passwordCheck_ne_none_iff {penv : PasswordEnv} {password : ℕ} {rf : ReferenceMonitor}
    (hstored : rf.password ≠ none) :
    passwordCheck sha256 penv password rf ≠ none ↔
      (penv.Encrypts password → penv.encrypt.Succeeds) := by
  unfold passwordCheck PasswordEnv.Encrypts
  obtain ⟨stored, hstored⟩ := Option.ne_none_iff_exists'.mp hstored
  split_ifs with hbuffer hcopy
  · simp [hbuffer]
  · simp [hcopy]
  · rw [← encryptPassword_ne_none_iff sha256 penv.encrypt (penv.copied password)]
    have hencrypts : penv.kernelPassword ≠ none ∧
        (penv.mem.copyFromUser password passwLen).2 = 0 := ⟨hbuffer, not_not.mp hcopy⟩
    simp only [hencrypts, and_self, true_implies, ne_eq, not_false_eq_true]
    cases encryptPassword sha256 penv.encrypt (penv.copied password) with
    | none => simp
    | some digest =>
      simp only [hstored, Option.bind_eq_bind, Option.bind_some]
      split_ifs <;> simp

/-- The loop of `sys_print_blacklist` ends on a list that ends. -/
theorem printScan_ne_none {penv : PrintEnv} {nodes : List BlacklistNode} {xs : List (ℕ × CStr)}
    {fuel n curr : ℕ} {entries : List UInt8} (h : Chain nodes (some curr) xs)
    (hfuel : xs.length ≤ fuel) : printScan penv nodes fuel n curr entries ≠ none := by
  induction xs generalizing fuel n curr entries with
  | nil => exact absurd h (by simp)
  | cons x xs ih =>
    obtain ⟨hcurr, next, hnode, hxs⟩ := chain_cons.mp h
    obtain rfl := Option.some.inj hcurr
    obtain ⟨fuel, rfl⟩ : ∃ k, fuel = k + 1 := ⟨fuel - 1, by simp at hfuel; omega⟩
    simp only [printScan, hnode, Option.bind_eq_bind, Option.bind_some]
    split_ifs
    · simp
    · cases next with
      | none => simp
      | some next => exact ih hxs (by simpa using hfuel)

theorem sysPrintBlacklist_ne_none {bl : Blacklist} {xs : List (ℕ × CStr)} (h : bl.Lists xs)
    (penv : PrintEnv) (size : ℤ) : sysPrintBlacklist penv bl size ≠ none := by
  unfold sysPrintBlacklist
  by_cases hsize : size ≠ bl.size
  · simp [hsize]
  by_cases hkmalloc : (!penv.kmalloc) = true
  · simp [hkmalloc]
  rw [if_neg hsize, if_neg hkmalloc]
  cases hhead : bl.head with
  | none =>
    dsimp only [Option.bind_eq_bind, Option.bind_some]
    split_ifs <;> simp
  | some curr =>
    have hchain : Chain bl.nodes (some curr) xs := hhead ▸ h
    have hscan : printScan penv bl.nodes bl.nodes.length 0 curr
        (CString.text "Blacklist elements\n") ≠ none := printScan_ne_none hchain hchain.length_le
    obtain ⟨entries, hentries⟩ := Option.ne_none_iff_exists'.mp hscan
    simp only [hentries, Option.bind_eq_bind, Option.bind_some]
    cases entries with
    | none => simp
    | some entries =>
      dsimp only
      split_ifs <;> simp

/-- The section under the lock of `add_to_blacklist` ends on a list that ends. -/
theorem addLocked_ne_none {bl : Blacklist} {xs : List (ℕ × CStr)} (h : bl.Lists xs)
    (new : BlacklistNode) : Blacklist.addLocked bl new ≠ none := by
  by_cases hmem : new.val ∈ xs.map Prod.snd
  · simp [Blacklist.addLocked_of_mem h hmem]
  · rcases List.eq_nil_or_concat xs with rfl | ⟨ys, ⟨l, v⟩, rfl⟩
    · simp [Blacklist.addLocked_nil h]
    · rw [List.concat_eq_append] at h hmem
      simp [Blacklist.addLocked_concat h hmem]

/-- So does the one of `remove_from_blacklist`. -/
theorem removeLocked_ne_none {bl : Blacklist} {xs : List (ℕ × CStr)} (h : bl.Lists xs)
    (p : CStr) : Blacklist.removeLocked bl p ≠ none := by
  by_cases hmem : p ∈ xs.map Prod.snd
  · obtain ⟨ys, a, zs, rfl, hnot⟩ := Blacklist.exists_first_of_mem hmem
    rcases List.eq_nil_or_concat ys with rfl | ⟨ys, ⟨q, u⟩, rfl⟩
    · obtain ⟨next, -, -, hrun⟩ := Blacklist.removeLocked_cons h
      simp [hrun]
    · rw [List.concat_eq_append, List.append_assoc] at h
      rw [List.concat_eq_append] at hnot
      obtain ⟨next, -, -, hrun⟩ := Blacklist.removeLocked_inner h hnot
      simp [hrun]
  · simp [Blacklist.removeLocked_of_notMem h hmem]

/-- `add_to_blacklist` returns unless there is no memory for the path of its node. -/
theorem addToBlacklist_ne_none_iff {bl : Blacklist} {xs : List (ℕ × CStr)} (h : bl.Lists xs)
    (aenv : Blacklist.AddEnv) (path : ℕ) :
    Blacklist.addToBlacklist aenv path bl ≠ none ↔
      (aenv.kernelRelPath ≠ none → aenv.new ≠ none → aenv.newPath = true) := by
  unfold Blacklist.addToBlacklist
  cases aenv.kernelRelPath with
  | none => simp
  | some after =>
    cases aenv.new with
    | none => simp
    | some next => cases aenv.newPath <;> simp [addLocked_ne_none h]

/-- `remove_from_blacklist` returns. -/
theorem removeFromBlacklist_ne_none {bl : Blacklist} {xs : List (ℕ × CStr)} (h : bl.Lists xs)
    (renv : Blacklist.RemoveEnv) (path : ℕ) :
    Blacklist.removeFromBlacklist renv path bl ≠ none := by
  unfold Blacklist.removeFromBlacklist
  cases renv.kernelPath with
  | none => simp
  | some after => simp [removeLocked_ne_none h]

/-- A call whose node comes zeroed leaves a list that ends. -/
theorem lists_of_run {bl bl' : Blacklist} {xs : List (ℕ × CStr)} (h : bl.Lists xs)
    {c : Blacklist.Call} (hz : c.Zeroed) {ret : ℤ} (hrun : c.run bl = some (ret, bl')) :
    ∃ ys, bl'.Lists ys := by
  have heffect := Blacklist.respond_effect h c
  have hrespond : Blacklist.respond bl c = (some ret, bl') := by rw [Blacklist.respond, hrun]
  rw [hrespond] at heffect
  cases heffect with
  | kept _ _ _ hlists _ _ => exact ⟨_, hlists⟩
  | linked hnew _ hseg _ _ => exact ⟨_, hz.next_eq_none hnew ▸ hseg⟩
  | unlinked _ _ _ hlists _ _ => exact ⟨_, hlists⟩

/-! ### The next step of a thread -/

theorem Thread.Over.left_eq {thread : Thread} (h : thread.Over) : thread.left = 0 := by
  cases thread with
  | running euid call pc => exact h.elim
  | _ => rfl

/-- Each step of a call leaves one less. -/
theorem left_advance (sha256 : List UInt8 → Vector UInt8 32) (env : StepEnv) (s : Shared)
    (thread : Thread) : (advance sha256 env s thread).2.left ≤ thread.left - 1 := by
  generalize hresult : advance sha256 env s thread = result
  have hspec := advance_spec sha256 env s thread
  rw [hresult] at hspec
  cases hspec with
  | stays hover => simp [hover.left_eq]
  | ends hover _ => simp [hover.left_eq]
  | stateChecked _ _ => exact le_rfl
  | passwordChecked _ => exact le_rfl
  | authorised => exact le_rfl
  | switched => exact le_rfl
  | reconfigured _ hover => simp [hover.left_eq]
  | @probed _ _ _ i =>
    simp only [nextProbe]
    split_ifs with hnext
    · simp only [Thread.left]
      omega
    · simp only [Thread.left, numKretprobes] at hnext ⊢
      omega

theorem Thread.Fits.check {ret : ℤ} {next : Thread} (h : next.Fits) :
    (Thread.check ret next).Fits := by
  unfold Thread.check
  split_ifs
  · trivial
  · exact h

theorem Thread.fits_returnState (env : StepEnv) (rf : ReferenceMonitor) :
    (returnState env rf).Fits := by
  unfold returnState
  split_ifs <;> trivial

/-- A step that is free of the failure goes on. -/
theorem goes_on {P : Prop} {next : Thread} (hP : P) (hnext : next.Fits) :
    (P → next.Fits) ∧ (¬P → next = .oops) :=
  ⟨fun _ => hnext, fun hnot => absurd hP hnot⟩

theorem fits_firstStep (env : StepEnv) {xs : List (ℕ × CStr)}
    (hlists : s.rf.blacklist.Lists xs) (euid : ℕ) (call : Syscall) :
    (firstStep env s euid call).Fits := by
  cases call with
  | switchRfState state password => exact .check (by simp [Thread.Fits, Syscall.password])
  | addToBlacklist path password => exact .check (by simp [Thread.Fits, Syscall.password])
  | removeFromBlacklist path password => exact .check (by simp [Thread.Fits, Syscall.password])
  | getRfState => exact Thread.fits_returnState _ _
  | getBlacklistSize => trivial
  | printBlacklist buffer size =>
    obtain ⟨⟨ret, text⟩, hprint⟩ :=
      Option.ne_none_iff_exists'.mp (sysPrintBlacklist_ne_none hlists env.print size)
    simp only [firstStep, hprint]
    trivial

/-- The password is compared with a digest that may be `NULL`. -/
theorem passwordStep_nullFree (sha256 : List UInt8 → Vector UInt8 32)
    (hpassword : s.rf.password ≠ none) {observed : ℤ}
    (hfits : (Thread.running euid call (.stateChecked observed)).Fits) :
    ((Thread.running euid call (.stateChecked observed)).NullFree env →
        (passwordStep sha256 env s euid call observed).Fits) ∧
      (¬(Thread.running euid call (.stateChecked observed)).NullFree env →
        passwordStep sha256 env s euid call observed = .oops) := by
  obtain ⟨password, hcall⟩ := Option.ne_none_iff_exists'.mp hfits
  have hnull : (Thread.running euid call (.stateChecked observed)).NullFree env ↔
      passwordCheck sha256 env.password password s.rf ≠ none := by
    rw [passwordCheck_ne_none_iff hpassword]
    simp [Thread.NullFree, hcall]
  rw [hnull]
  simp only [passwordStep, hcall]
  cases hcheck : passwordCheck sha256 env.password password s.rf with
  | none => exact ⟨fun hne => absurd rfl hne, fun _ => rfl⟩
  | some ret => exact goes_on (by simp) (.check hfits)

/-- In the locked section, only the path of a new node may be `NULL`. -/
theorem lockedStep_nullFree {xs : List (ℕ × CStr)} (hlists : s.rf.blacklist.Lists xs)
    {e : Evidence} (hfits : (Thread.running euid call (.authorised e)).Fits) :
    ((Thread.running euid call (.authorised e)).NullFree env →
        (lockedStep env s euid call).2.Fits) ∧
      (¬(Thread.running euid call (.authorised e)).NullFree env →
        (lockedStep env s euid call).2 = .oops) := by
  cases call with
  | switchRfState state password => exact goes_on trivial ⟨_, _, rfl⟩
  | addToBlacklist path password =>
    have hnull : (Thread.running euid (.addToBlacklist path password) (.authorised e)).NullFree
        env ↔ Blacklist.addToBlacklist env.add path s.rf.blacklist ≠ none :=
      (addToBlacklist_ne_none_iff hlists env.add path).symm
    rw [hnull]
    simp only [lockedStep]
    cases Blacklist.addToBlacklist env.add path s.rf.blacklist with
    | none => exact ⟨fun hne => absurd rfl hne, fun _ => rfl⟩
    | some result => exact goes_on (by simp) trivial
  | removeFromBlacklist path password =>
    obtain ⟨result, hremove⟩ :=
      Option.ne_none_iff_exists'.mp (removeFromBlacklist_ne_none hlists env.remove path)
    simp only [lockedStep, hremove]
    exact goes_on trivial trivial
  | _ => exact absurd rfl hfits

/-- The next step of a thread that was not stopped: without a `NULL` it goes on, otherwise it is
stopped. -/
theorem advance_nullFree (sha256 : List UInt8 → Vector UInt8 32) {thread : Thread}
    (hfits : thread.Fits) (hpassword : s.rf.password ≠ none) {xs : List (ℕ × CStr)}
    (hlists : s.rf.blacklist.Lists xs) :
    (thread.NullFree env → (advance sha256 env s thread).2.Fits) ∧
      (¬thread.NullFree env → (advance sha256 env s thread).2 = .oops) := by
  cases thread with
  | idle => exact goes_on trivial trivial
  | returned ret => exact goes_on trivial trivial
  | oops => exact hfits.elim
  | running euid call pc =>
    cases pc with
    | called => exact goes_on (by cases call <;> trivial) (fits_firstStep env hlists euid call)
    | stateChecked observed => exact passwordStep_nullFree sha256 hpassword hfits
    | passwordChecked e => exact goes_on (by cases call <;> trivial) (.check hfits)
    | authorised e => exact lockedStep_nullFree hlists hfits
    | probing i =>
      obtain ⟨state, password, rfl⟩ := hfits
      refine goes_on trivial ?_
      simp only [advance, probeStep, nextProbe]
      split_ifs <;> exact ⟨_, _, rfl⟩
    | probed => exact goes_on (by cases call <;> trivial) (Thread.fits_returnState _ _)

/-- A step whose node comes zeroed leaves a list that ends. -/
theorem lists_advance {xs : List (ℕ × CStr)} (hlists : s.rf.blacklist.Lists xs)
    (hz : ∀ next, env.add.new = some next → next = none) (thread : Thread) :
    ∃ ys, (advance sha256 env s thread).1.rf.blacklist.Lists ys := by
  have hspec : Advance sha256 env s thread
      ((advance sha256 env s thread).1, (advance sha256 env s thread).2) := advance_spec ..
  rcases hspec.blacklist_cases with hsame | ⟨euid, call, e, hcall, rfl⟩
  · exact ⟨xs, by rwa [hsame]⟩
  · cases call with
    | addToBlacklist path password =>
      simp only [advance, lockedStep]
      cases hrun : Blacklist.addToBlacklist env.add path s.rf.blacklist with
      | none => exact ⟨xs, hlists⟩
      | some result =>
        have hzeroed : (Blacklist.Call.add env.add path).Zeroed := hz
        exact lists_of_run hlists hzeroed hrun
    | removeFromBlacklist path password =>
      simp only [advance, lockedStep]
      cases hrun : Blacklist.removeFromBlacklist env.remove path s.rf.blacklist with
      | none => exact ⟨xs, hlists⟩
      | some result =>
        have hzeroed : (Blacklist.Call.remove env.remove path).Zeroed := trivial
        exact lists_of_run hlists hzeroed hrun
    | _ => exact absurd hcall (by simp [Syscall.reconfigures])

end Step

/-! ### Whole runs -/

section Runs

variable {sha256 : List UInt8 → Vector UInt8 32} {m : Machine}

/-- A call that is made changes nothing yet. -/
theorem Machine.shared_invoke (m : Machine) (sha256 : List UInt8 → Vector UInt8 32) (t euid : ℕ)
    (call : Syscall) : (m.step sha256 (.invoke t euid call)).shared = m.shared := by
  simp only [Machine.step]
  split <;> rfl

/-- A step that does not leave a block is one of the machine without bounds. -/
theorem Machine.boundedStep_of_spared {a : Action} (h : m.Spared a) :
    m.boundedStep sha256 a = m.step sha256 a := by
  cases a with
  | invoke t euid call => rfl
  | advance t env =>
    obtain ⟨-, hfits⟩ := h
    simp [Machine.boundedStep, hfits]

/-- A step that is spared, and whose node comes zeroed. -/
theorem Machine.Sane.step (h : m.Sane) {a : Action} (hz : a.Zeroed) (hspared : m.Spared a) :
    (m.boundedStep sha256 a).Sane := by
  rw [Machine.boundedStep_of_spared hspared]
  cases a with
  | invoke t euid call =>
    have hshared := m.shared_invoke sha256 t euid call
    refine ⟨by rw [hshared]; exact h.password, by rw [hshared]; exact h.lists, ?_⟩
    have hcases : m.step sha256 (.invoke t euid call) = m ∨ _ := m.step_cases _
    rcases hcases with hsame | ⟨t', euid', call', -, -, -, hmoves⟩ | ⟨_, _, _, ha, -, -⟩
    · rw [hsame]
      exact h.threads
    · exact hmoves.forall h.threads trivial
    · exact absurd ha (by simp)
  | advance t env =>
    obtain ⟨xs, hlists⟩ := h.lists
    obtain ⟨-, hmoves⟩ := m.step_advance sha256 t env
    have hspec : Advance sha256 env m.shared (m.threads t)
        ((advance sha256 env m.shared (m.threads t)).1, _) := advance_spec ..
    exact ⟨hspec.password_eq ▸ h.password, lists_advance hlists hz _, hmoves.forall h.threads
      ((advance_nullFree sha256 (h.threads t) h.password hlists).1 hspared.1)⟩

/-- A step of the thread `t`. -/
def Action.advances (t : ℕ) : Action → Bool
  | .invoke _ _ _ => false
  | .advance t' _ => t' == t

/-- One step of another thread, or of this one. -/
theorem Machine.left_boundedStep (sha256 : List UInt8 → Vector UInt8 32) (m : Machine) (a : Action)
    {t : ℕ} (hinvoke : ∀ euid call, a ≠ .invoke t euid call) :
    ((m.boundedStep sha256 a).threads t).left ≤
      (m.threads t).left - if a.advances t then 1 else 0 := by
  cases a with
  | invoke t' euid call =>
    have hne : t' ≠ t := by
      rintro rfl
      exact hinvoke euid call rfl
    have hthread : (Run.exec (Machine.step sha256) m [.invoke t' euid call]).threads t =
        m.threads t := exec_threads_of_ne (by simpa [Action.thread] using hne)
    exact (congrArg Thread.left hthread).le
  | advance t' env =>
    -- the thread is stopped, or it takes its next step
    have hmoves : ∃ thread, m.Moves (m.boundedStep sha256 (.advance t' env)) t' thread ∧
        thread.left ≤ (m.threads t').left - 1 := by
      simp only [Machine.boundedStep]
      split_ifs
      · exact ⟨.oops, m.moves_update m.shared t' .oops, Nat.zero_le _⟩
      · exact ⟨_, (m.step_advance sha256 t' env).2, left_advance sha256 env _ _⟩
    obtain ⟨thread, hmoves, hleft⟩ := hmoves
    by_cases ht : t' = t
    · subst ht
      rw [hmoves.self]
      simpa [Action.advances] using hleft
    · rw [hmoves.others t (Ne.symm ht)]
      simp [Action.advances, ht]

/-- What a thread has left of its call after a run in which it makes no other. -/
theorem Machine.left_exec (sha256 : List UInt8 → Vector UInt8 32) (m : Machine) {as : List Action}
    {t : ℕ} (hinvoke : ∀ euid call, .invoke t euid call ∉ as) :
    ((Run.exec (Machine.boundedStep sha256) m as).threads t).left ≤
      (m.threads t).left - as.countP (Action.advances t) := by
  induction as generalizing m with
  | nil => exact le_rfl
  | cons a as ih =>
    refine (ih _ fun euid call hmem => hinvoke euid call (List.mem_cons_of_mem a hmem)).trans ?_
    have hstep := m.left_boundedStep sha256 a (t := t) fun euid call heq =>
      hinvoke euid call (heq ▸ List.mem_cons_self)
    rw [List.countP_cons]
    omega

end Runs

end StackReferenceMonitor
