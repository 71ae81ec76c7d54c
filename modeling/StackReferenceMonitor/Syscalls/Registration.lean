import StackReferenceMonitor.Syscalls.Sequential

/-!
# Whether success means that the probes are armed

A switch to ON or REC_ON returns the state it has written. That the monitor then protects anything
takes more: the probes must have been registered when the module was loaded, and enabled by the
switch. `init_module` does not look at what `kretprobe_init` returns, and the loop of
`enable_kprobes` prints its errors at most.

## Main definitions

* `kretprobeInit`: `kretprobe_init`, with the loop of the kernel's `register_kretprobes`.
* `loadModule`: `init_module` with what it returns.
* `Loaded`, `Loaded.step`: the module between calls, and what the last switch has returned.
* `Armed`: all probes are registered and enabled.
* `EnablesAll`: a switch that returns ON or REC_ON has registered probes before it, and enables
  those that are not enabled.

## Main results

* `registered_iff`: the probes are registered all or none;
* `armed_iff`: in every state of a run, a last switch that has returned ON or REC_ON has left all
  probes armed, exactly when every step meets `EnablesAll`.
-/

namespace StackReferenceMonitor

/-! ### Loading the module -/

/-- What `kretprobe_init` meets. -/
structure RegisterEnv where
  /-- Whether `kmalloc` of `kprobe_array` succeeds. -/
  array : Bool
  /-- What the kernel's `register_kretprobe` returns for each probe. -/
  register : Fin numKretprobes → ℤ

/-- The loop of the kernel's `register_kretprobes` over the probes `is`. At the first error, the
probes that are registered by then are unregistered. -/
def registerKretprobes (register : Fin numKretprobes → ℤ) :
    List (Fin numKretprobes) → (Fin numKretprobes → Bool) → ℤ × (Fin numKretprobes → Bool)
  | [], registered => (0, registered)
  | i :: is, registered =>
    if register i < 0 then (register i, fun _ => false)
    else registerKretprobes register is (Function.update registered i true)

/-- `kretprobe_init`: its value, and the array it leaves. -/
def kretprobeInit (env : RegisterEnv) : ℤ × KprobeArray :=
  if !env.array then (-ENOMEM, none)
  else
    let (ret, registered) :=
      registerKretprobes env.register (List.finRange numKretprobes) fun _ => false
    -- the array stays when the registration has failed
    (ret, some registered)

/-- What `init_module` meets. -/
structure LoadEnv where
  /-- What `initialize_syscalls` returns. -/
  initializeSyscalls : ℤ
  /-- What `encrypt_password` meets. -/
  encrypt : EncryptEnv
  /-- What `kretprobe_init` meets. -/
  register : RegisterEnv

/-- `init_module`: an error, or zero and what the module then holds. -/
def loadModule (sha256 : List UInt8 → Vector UInt8 32) (env : LoadEnv) (password : CStr) :
    Except ℤ (KprobeArray × Shared) :=
  if env.initializeSyscalls ≠ 0 then .error env.initializeSyscalls
  else
    -- the value of `kretprobe_init` is not looked at
    .ok ((kretprobeInit env.register).2, initModule sha256 env.encrypt password)

/-- What the loop has registered: all of the probes, or none. -/
theorem registerKretprobes_apply {register : Fin numKretprobes → ℤ} (is : List (Fin numKretprobes))
    (registered : Fin numKretprobes → Bool) (j : Fin numKretprobes) :
    (registerKretprobes register is registered).2 j = true ↔
      (∀ i ∈ is, 0 ≤ register i) ∧ (registered j = true ∨ j ∈ is) := by
  induction is generalizing registered with
  | nil => simp [registerKretprobes]
  | cons i is ih =>
    unfold registerKretprobes
    split_ifs with herror
    · -- one error undoes all
      refine iff_of_false (by simp) fun h => ?_
      exact absurd (h.1 i List.mem_cons_self) (not_le.mpr herror)
    · rw [ih]
      by_cases hji : j = i
      · simp [hji, not_lt.mp herror]
      · simp [hji, not_lt.mp herror]

/-- After `kretprobe_init`, a probe is registered when there was no error for any. -/
theorem registered_iff {env : RegisterEnv} {registered : Fin numKretprobes → Bool}
    (h : (kretprobeInit env).2 = some registered) (i : Fin numKretprobes) :
    registered i = true ↔ ∀ j, 0 ≤ env.register j := by
  unfold kretprobeInit at h
  split_ifs at h
  rw [← Option.some.inj h, registerKretprobes_apply]
  simp

theorem kretprobeInit_ne_none_iff {env : RegisterEnv} :
    (kretprobeInit env).2 ≠ none ↔ env.array = true := by
  unfold kretprobeInit
  cases env.array <;> simp

/-! ### Calls after that -/

/-- The module between calls. -/
structure Loaded where
  /-- The monitor and the probes. -/
  shared : Shared
  /-- What the last switch has returned, if there was one and it has returned. -/
  lastSwitch : Option ℤ

/-- One call, from its beginning to its end. -/
def Loaded.step (sha256 : List UInt8 → Vector UInt8 32) (array : KprobeArray) (m : Loaded)
    (c : Invocation) : Loaded where
  shared := (c.run sha256 array m.shared).2
  lastSwitch := match c.call with
    | .switchRfState _ _ => (c.run sha256 array m.shared).1
    | _ => m.lastSwitch

/-- All probes are registered and enabled. -/
def Armed (array : KprobeArray) (probes : Fin numKretprobes → Bool) : Prop :=
  ∃ registered, array = some registered ∧ ∀ i, registered i = true ∧ probes i = true

/-- If the last switch has returned ON or REC_ON, the probes are armed. -/
def SuccessMeansArmed (array : KprobeArray) (m : Loaded) : Prop :=
  ∀ ret, m.lastSwitch = some ret → ret = rfOn ∨ ret = rfRecOn → Armed array m.shared.probes

/-- If the call is a switch that passes its checks, has memory for the string and asks for ON or
REC_ON, and there is an array to loop over, then no registration has failed and each probe is
enabled, by the call or already. -/
def EnablesAll (sha256 : List UInt8 → Vector UInt8 32) (env : RegisterEnv) (m : Loaded)
    (c : Invocation) : Prop :=
  ∀ state password, c.call = .switchRfState state password → state = rfOn ∨ state = rfRecOn →
    passwordCheck sha256 c.env.password password m.shared.rf = some 0 → c.euid = 0 →
    c.env.stateString = true → env.array = true →
    (∀ i, 0 ≤ env.register i) ∧ ∀ i, c.env.probe i = true ∨ m.shared.probes i = true

section Steps

variable {sha256 : List UInt8 → Vector UInt8 32} {env : RegisterEnv} {m : Loaded} {c : Invocation}

/-- `ON` and `REC_ON` are the states that have the probes enabled. -/
theorem arms_of_enforcing {state : ℤ} (h : state = rfOn ∨ state = rfRecOn) : arms state = true := by
  rcases h with rfl | rfl <;> decide

/-- A call that is not a switch leaves the probes alone. -/
theorem probes_of_not_switch (array : KprobeArray)
    (h : ∀ state password, c.call ≠ .switchRfState state password) :
    (c.run sha256 array m.shared).2.probes = m.shared.probes := by
  obtain ⟨euid, call, callEnv⟩ := c
  -- the checks touch no probe
  have hchecks : ∀ password body, body.2.probes = m.shared.probes →
      (checked sha256 callEnv euid m.shared (isRfRec m.shared.rf) password body).2.probes =
        m.shared.probes := by
    intro password body hbody
    exact checked_elim (P := fun result => result.2.probes = m.shared.probes) (isRfRec_nonpos _)
      (fun _ _ => rfl) fun _ _ _ => hbody
  cases call with
  | switchRfState state password => exact absurd rfl (h state password)
  | addToBlacklist path password =>
    refine hchecks password _ ?_
    cases Blacklist.addToBlacklist callEnv.add path m.shared.rf.blacklist <;> rfl
  | removeFromBlacklist path password =>
    refine hchecks password _ ?_
    cases Blacklist.removeFromBlacklist callEnv.remove path m.shared.rf.blacklist <;> rfl
  | _ => rfl

/-- A switch to ON or REC_ON past its checks leaves the probes armed exactly when none is
missing. -/
theorem armed_setKprobes_iff {registered succeeds probes probes' : Fin numKretprobes → Bool}
    (hregistered : (kretprobeInit env).2 = some registered)
    (h : setKprobes (some registered) succeeds true probes = some probes') :
    Armed (kretprobeInit env).2 probes' ↔
      (∀ i, 0 ≤ env.register i) ∧ ∀ i, succeeds i = true ∨ probes i = true := by
  constructor
  · rintro ⟨_, hsame, harmed⟩
    obtain rfl := Option.some.inj (hregistered.symm.trans hsame)
    -- one probe that is registered says that no registration has failed
    refine ⟨(registered_iff hregistered ⟨0, by decide⟩).mp (harmed _).1, fun i => ?_⟩
    have hi := (harmed i).2
    rw [setKprobes_apply h] at hi
    split_ifs at hi with hset
    · exact Or.inl hset.2
    · exact Or.inr hi
  · rintro ⟨hall, henabled⟩
    refine ⟨registered, hregistered, fun i => ?_⟩
    have hi := (registered_iff hregistered i).mpr hall
    refine ⟨hi, ?_⟩
    rw [setKprobes_apply h]
    split_ifs with hset
    · rfl
    · rcases henabled i with hok | hold
      · exact absurd ⟨hi, hok⟩ hset
      · exact hold

/-- A switch to ON or REC_ON that passes its checks and has memory for the string returns that
state, armed or not. -/
theorem sysSwitchRfState_armed_iff {callEnv : CallEnv} {s : Shared} {state : ℤ} {password : ℕ}
    (hon : state = rfOn ∨ state = rfRecOn)
    (hpassword : passwordCheck sha256 callEnv.password password s.rf = some 0)
    (hstring : callEnv.stateString = true) (harray : env.array = true) :
    (sysSwitchRfState sha256 (kretprobeInit env).2 callEnv 0 s state password).1 = some state ∧
      (Armed (kretprobeInit env).2
          (sysSwitchRfState sha256 (kretprobeInit env).2 callEnv 0 s state password).2.probes ↔
        (∀ i, 0 ≤ env.register i) ∧ ∀ i, callEnv.probe i = true ∨ s.probes i = true) := by
  obtain ⟨registered, hregistered⟩ :=
    Option.ne_none_iff_exists'.mp (kretprobeInit_ne_none_iff.mpr harray)
  have hstate : 0 ≤ state ∧ state ≤ 3 := by
    rcases hon with rfl | rfl <;> decide
  obtain ⟨probes, hprobes, hrun⟩ := sysSwitchRfState_eq registered hstate hpassword
  have hresult : sysSwitchRfState sha256 (kretprobeInit env).2 callEnv 0 s state password =
      (some state, ⟨{ s.rf with state }, probes⟩) := by
    rw [hregistered, hrun, hstring]
    rfl
  rw [hresult]
  rw [arms_of_enforcing hon] at hprobes
  exact ⟨rfl, armed_setKprobes_iff hregistered hprobes⟩

/-- One call keeps the property, if it meets the condition. -/
theorem SuccessMeansArmed.step (h : SuccessMeansArmed (kretprobeInit env).2 m)
    (hc : EnablesAll sha256 env m c) :
    SuccessMeansArmed (kretprobeInit env).2 (m.step sha256 (kretprobeInit env).2 c) := by
  intro ret hret hon
  by_cases hswitch : ∃ state password, c.call = .switchRfState state password
  · obtain ⟨euid, call, callEnv⟩ := c
    obtain ⟨state, password, rfl⟩ := hswitch
    change (sysSwitchRfState sha256 _ callEnv euid m.shared state password).1 = some ret at hret
    -- ON and REC_ON are not errors, so the switch has passed its checks
    have hnonneg : 0 ≤ ret := by
      rcases hon with rfl | rfl <;> decide
    obtain ⟨hpassword, rfl, hstring, harray, rfl⟩ := sysSwitchRfState_returned hret hnonneg
    rw [kretprobeInit_ne_none_iff] at harray
    exact (sysSwitchRfState_armed_iff hon hpassword hstring harray).2.mpr
      (hc state password rfl hon hpassword rfl hstring harray)
  · have hother : ∀ state password, c.call ≠ .switchRfState state password :=
      fun state password heq => hswitch ⟨state, password, heq⟩
    have hlast : (m.step sha256 (kretprobeInit env).2 c).lastSwitch = m.lastSwitch := by
      unfold Loaded.step
      cases hcall : c.call with
      | switchRfState state password => exact absurd hcall (hother state password)
      | _ => rfl
    rw [hlast] at hret
    show Armed _ (c.run sha256 (kretprobeInit env).2 m.shared).2.probes
    rw [probes_of_not_switch _ hother]
    exact h ret hret hon

/-- A switch that does not meet the condition returns ON or REC_ON with a probe missing. -/
theorem EnablesAll.of_armed
    (h : SuccessMeansArmed (kretprobeInit env).2 (m.step sha256 (kretprobeInit env).2 c)) :
    EnablesAll sha256 env m c := by
  obtain ⟨euid, call, callEnv⟩ := c
  rintro state password rfl hon hpassword rfl hstring harray
  obtain ⟨hret, harmed⟩ := sysSwitchRfState_armed_iff hon hpassword hstring harray
  exact harmed.mp (h state hret hon)

end Steps

/-- For every outcome of the registration, and every run of calls one at a time after `init_module`
has returned zero: whenever the last switch has returned ON or REC_ON, all probes are registered and
enabled, exactly when every call of the run meets `EnablesAll`. -/
theorem armed_iff (sha256 : List UInt8 → Vector UInt8 32) (env : LoadEnv) (password : CStr)
    {array : KprobeArray} {s : Shared} (h : loadModule sha256 env password = .ok (array, s))
    (cs : List Invocation) :
    Run.Always (Loaded.step sha256 array) (SuccessMeansArmed array) ⟨s, none⟩ cs ↔
      Run.EachStep (Loaded.step sha256 array) (EnablesAll sha256 env.register) ⟨s, none⟩ cs := by
  unfold loadModule at h
  split_ifs at h
  obtain ⟨rfl, rfl⟩ := Prod.mk.inj (Except.ok.inj h)
  have hstart : SuccessMeansArmed (kretprobeInit env.register).2
      ⟨initModule sha256 env.encrypt password, none⟩ := by
    intro ret hret
    exact absurd hret (by simp)
  exact Run.always_iff_eachStep (fun _ hm => hm) (fun _ _ hm hc => hm.step hc)
    (fun _ _ _ hnext => .of_armed hnext) hstart cs

/-! ### Switching to ON -/

/-- `init_module` with an empty password, and with these values of `register_kretprobe`. -/
def sampleLoad (register : Fin numKretprobes → ℤ) : LoadEnv where
  initializeSyscalls := 0
  encrypt := sampleEncrypt
  register := ⟨true, register⟩

theorem loadModule_sampleLoad {register : Fin numKretprobes → ℤ} (h : ∀ i, 0 ≤ register i) :
    loadModule sampleSha256 (sampleLoad register) ⟨[], by decide⟩ =
      .ok (some fun _ => true, sampleInit.shared) := by
  have harray : (kretprobeInit ⟨true, register⟩).2 = some fun _ => true := by
    have hne : (kretprobeInit ⟨true, register⟩).2 ≠ none := kretprobeInit_ne_none_iff.mpr rfl
    obtain ⟨registered, hregistered⟩ := Option.ne_none_iff_exists'.mp hne
    rw [hregistered, Option.some.injEq]
    ext i
    rw [(registered_iff hregistered i).mpr h]
  show Except.ok ((kretprobeInit ⟨true, register⟩).2, sampleInit.shared) = _
  rw [harray]

/-- Root asks for ON, with the right password, and with these outcomes of `enable_kretprobe`. -/
def switchOn (probe : Fin numKretprobes → Bool) : Invocation :=
  ⟨0, .switchRfState rfOn 2, { sampleCallEnv with probe }⟩

/-- The registration and every `enable_kretprobe` succeed. -/
theorem armed_iff_switchOn :
    Run.Always (Loaded.step sampleSha256 (some fun _ => true))
      (SuccessMeansArmed (some fun _ => true)) ⟨sampleInit.shared, none⟩
      [switchOn fun _ => true] := by
  refine (armed_iff sampleSha256 (sampleLoad fun _ => 0) ⟨[], by decide⟩
    (loadModule_sampleLoad fun _ => le_rfl) _).mpr ?_
  refine Run.eachStep_cons.mpr ⟨?_, Run.eachStep_nil⟩
  intro state password _ _ _ _ _ _
  exact ⟨fun _ => le_rfl, fun _ => Or.inl rfl⟩

/-- One registration fails, or one `enable_kretprobe` does: `init_module` returns zero, the switch
returns ON, and not all probes are armed. -/
theorem switched_on_not_armed :
    (loadModule sampleSha256 (sampleLoad fun i => if i.val = 9 then -EINVAL else 0)
          ⟨[], by decide⟩ = .ok (some fun _ => false, sampleInit.shared) ∧
        ¬Run.Always (Loaded.step sampleSha256 (some fun _ => false))
          (SuccessMeansArmed (some fun _ => false)) ⟨sampleInit.shared, none⟩
          [switchOn fun _ => true]) ∧
      loadModule sampleSha256 (sampleLoad fun _ => 0) ⟨[], by decide⟩ =
          .ok (some fun _ => true, sampleInit.shared) ∧
        ¬Run.Always (Loaded.step sampleSha256 (some fun _ => true))
          (SuccessMeansArmed (some fun _ => true)) ⟨sampleInit.shared, none⟩
          [switchOn fun i => i.val ≠ 9] := by
  refine ⟨⟨rfl, fun h => ?_⟩, loadModule_sampleLoad fun _ => le_rfl, fun h => ?_⟩
  · obtain ⟨registered, hregistered, harmed⟩ := h.exec rfOn (by decide +kernel) (Or.inl rfl)
    obtain rfl := Option.some.inj hregistered
    exact absurd (harmed ⟨9, by decide⟩).1 (by decide)
  · obtain ⟨registered, -, harmed⟩ := h.exec rfOn (by decide +kernel) (Or.inl rfl)
    exact absurd (harmed ⟨9, by decide⟩).2 (by decide +kernel)

end StackReferenceMonitor
