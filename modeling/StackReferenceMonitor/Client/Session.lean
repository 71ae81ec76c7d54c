import StackReferenceMonitor.Client.Home
import StackReferenceMonitor.SyscallTable.Discoverer
import StackReferenceMonitor.Syscalls.Policy

/-!
# Sessions with the client

What an administrator types at the menu, what the client makes of it, and what becomes of the
monitor. Each thing that the administrator wants has its text: the number of an option, a path, a
password, and a key to go on. The client reads these texts back, makes the system calls that they
ask for, and reports what the policy answers.

That the system calls get to the monitor takes that the entries which it has got of the table are
the numbers of `client.h`.

The memory of the client is not cleared between two rounds, so that behind a path or a password the
rest of a longer one may still be there. Nobody reads it.

## Main definitions

* `Intent`: what may be wanted at the menu, `Intent.typed` its text.
* `Intent.serve`: what a policy makes of it.
* `Intent.Available`: the menu has the option, and the strings can be typed.
* `Host.Installed`: the monitor has got the entries that the client calls.

## Main results

* `homeRound_refines`: one round;
* `session_refines_policy`: whole sessions.
-/

namespace StackReferenceMonitor

namespace Client

open Stdin (isSpace scanInt scanWord skipLine skipKey lineFeed)

/-! ### What may be wanted -/

/-- What an administrator may want of the menu. -/
inductive Intent where
  /-- To switch to a mode. -/
  | switch (mode : Mode) (password : CStr)
  /-- To see the mode. -/
  | seeMode
  /-- To protect a path. -/
  | add (p password : CStr)
  /-- To protect a path no longer. -/
  | remove (p password : CStr)
  /-- An option that there is not. -/
  | unknown (n : ℕ)
  /-- To leave the menu. -/
  | leave

/-- The number of a mode in the menu. -/
def modeNumber : Mode → ℕ
  | .on => 0
  | .off => 1
  | .reconfOn => 2
  | .reconfOff => 3

/-- The string that is printed for a mode. -/
def modeString : Mode → StateString
  | .on => .on
  | .off => .off
  | .reconfOn => .reconfOn
  | .reconfOff => .reconfOff

/-- A text and the key that ends it. -/
def line (text : List UInt8) : List UInt8 :=
  text ++ [lineFeed]

namespace Intent

/-- The number of the option, which depends on the menu. -/
def number (mode : Mode) : Intent → ℕ
  | switch _ _ => 1
  | seeMode => 2
  | add _ _ => 3
  | remove _ _ => 4
  | unknown n => n
  | leave => if mode.reconfigurable then 6 else 3

/-- What is typed after the number of the option, up to the next menu. -/
def answers : Intent → List UInt8
  | switch mode password =>
    line (Printf.decimal (modeNumber mode)) ++ line password.bytes ++ line []
  | seeMode => line []
  | add p password => line p.bytes ++ line password.bytes ++ line []
  | remove p password => line p.bytes ++ line password.bytes ++ line []
  | unknown _ => line [] ++ line []
  | leave => []

/-- What is typed. -/
def typed (mode : Mode) (i : Intent) : List UInt8 :=
  line (Printf.decimal (i.number mode)) ++ i.answers

/-- A password that can be typed and is kept. -/
structure TypablePassword (w : CStr) : Prop where
  /-- An empty one is refused. -/
  nonempty : w.bytes ≠ []
  /-- What does not fit is cut. -/
  short : w.bytes.length < maxPassLen
  /-- A newline ends it. -/
  newline : newlineChar ∉ w.bytes
  /-- DEL takes a character back. -/
  del : del ∉ w.bytes

/-- A path that can be typed and is read whole. -/
structure TypablePath (p : CStr) : Prop where
  /-- It is a word. -/
  nonempty : p.bytes ≠ []
  /-- It fits `path`. -/
  short : p.bytes.length < pathMax
  /-- A space ends it. -/
  noSpace : ∀ c ∈ p.bytes, isSpace c = false

/-- The menu of this mode has the option, and its strings can be typed. -/
def Available (mode : Mode) : Intent → Prop
  | switch _ password => TypablePassword password
  | seeMode => True
  | add p password => mode.reconfigurable = true ∧ TypablePath p ∧ TypablePassword password
  | remove p password => TypablePath p ∧ TypablePassword password
  | unknown n => 6 ≤ n ∧ n < 2 ^ 31 ∧ n ≠ exitValue ∧ (n = 6 → mode.reconfigurable = false)
  | leave => True

/-! ### What the policy makes of it -/

/-- The report of a switch. -/
def switchReport (ret : ℤ) : Report :=
  if ret = -EACCES then .invalidPassword EACCES
  else if ret = -EPERM then .wrongEuid EPERM
  else .stateIs (stateString ret)

/-- The report of an addition. -/
def addReport (p : CStr) (ret : ℤ) : Report :=
  if ret < 0 then .unexpectedError (-ret) else .added p.bytes

/-- The report of a removal. -/
def removeReport (p : CStr) (ret : ℤ) : Report :=
  if ret < 0 then .unexpectedError (-ret)
  else if ret = 1 then .notFound p.bytes
  else .removed p.bytes

/-- The policy after it, and the report. -/
def serve (accepts : CStr → Bool) (euid : ℕ) (policy : Policy) : Intent → Policy × List Report
  | switch mode password =>
    let (ret, policy) := policy.serve accepts ⟨euid, password, .switch mode.toInt⟩
    (policy, [switchReport ret])
  | seeMode => (policy, [.stateIs (modeString policy.mode)])
  | add p password =>
    let (ret, policy) := policy.serve accepts ⟨euid, password, .add p⟩
    (policy, [addReport p ret])
  | remove p password =>
    let (ret, policy) := policy.serve accepts ⟨euid, password, .remove p⟩
    (policy, [removeReport p ret])
  | unknown _ => (policy, [])
  | leave => (policy, [])

/-- Where the client is after it. -/
def place : Intent → Place
  | leave => .modules
  | _ => .home

end Intent

/-! ### Reading what was typed -/

theorem line_append (text rest : List UInt8) : line text ++ rest = text ++ lineFeed :: rest := by
  rw [line, List.append_assoc, List.singleton_append]

theorem isSpace_newline : isSpace lineFeed = true := by decide

theorem isSpace_of_mem_newline {c : UInt8} (h : c ∈ [lineFeed]) : isSpace c = true :=
  List.mem_singleton.mp h ▸ isSpace_newline

/-- The loop of `getpasswd` keeps a line that fits, and reads the newline behind it. -/
theorem readLoop_line (mask : ℤ) {sz : ℕ} {w : List UInt8} (hnewline : newlineChar ∉ w)
    (hdel : del ∉ w) (rest : List UInt8) {kept free : List UInt8} (tail stdout : List UInt8)
    (hroom : kept.length + w.length ≤ sz - 1) (hfree : w.length ≤ free.length) :
    ∃ free' stdout' : List UInt8,
      readLoop mask sz (w ++ lineFeed :: rest) ⟨kept ++ free ++ tail, kept.length, stdout⟩ =
        some ((lineFeed.toNat : ℤ), rest,
          ⟨kept ++ w ++ free' ++ tail, (kept ++ w).length, stdout'⟩) ∧
      free'.length + w.length = free.length := by
  induction w generalizing kept free stdout with
  | nil =>
    refine ⟨free, stdout, ?_, rfl⟩
    have hstop : ¬again sz kept.length lineFeed.toNat = true := by
      rw [again_of_ne_del (by decide) (by simpa using hroom)]
      exact not_not_intro (Or.inl rfl)
    rw [List.nil_append, readLoop, if_neg hstop, List.append_nil]
  | cons c w ih =>
    rw [List.mem_cons, not_or] at hnewline hdel
    rw [List.length_cons] at hroom hfree
    have hc : c ≠ del := fun heq => hdel.1 heq.symm
    have hagain : again sz kept.length c.toNat = true := by
      rw [again_of_ne_del hc (by omega)]
      rintro (heq | hfull)
      · exact hnewline.1 heq.symm
      · omega
    obtain ⟨free₁, stdout₁, hkey, hlen⟩ := @keystroke_eq mask c kept free tail stdout
      (fun _ => List.ne_nil_of_length_pos (by omega))
    rw [if_neg hc, List.length_append, List.length_singleton] at hlen
    obtain ⟨free', stdout', hloop, hfree'⟩ := @ih hnewline.2 hdel.2 (kept ++ [c]) free₁ stdout₁
      (by rw [List.length_append, List.length_singleton]; omega) (by omega)
    refine ⟨free', stdout', ?_, ?_⟩
    · rw [List.cons_append, readLoop, if_pos hagain, hkey, if_neg hc, Option.bind_some, hloop,
        List.append_assoc kept [c], List.singleton_append]
    · rw [List.length_cons]
      omega

/-- A password that was typed is in `psw`, and is read with its newline. -/
theorem readPassword_eq {env : RoundEnv} (henv : env.terminal.Works) {s : Session}
    (hpsw : s.psw.length = maxPassLen) {w : CStr} (hw : Intent.TypablePassword w)
    {rest : List UInt8} (hinput : s.input = w.bytes ++ lineFeed :: rest) :
    ∃ after : List UInt8, (w.bytes ++ 0 :: after).length = maxPassLen ∧
      readPassword env s = some ((w.bytes.length : ℤ),
        { s with input := rest, psw := w.bytes ++ 0 :: after }) := by
  have hshort := hw.short
  obtain ⟨free, stdout, hloop, hfree⟩ := @readLoop_line 42 maxPassLen w.bytes hw.newline hw.del rest
    [] s.psw [] [] (by rw [List.length_nil]; omega) (by omega)
  rw [List.nil_append, List.nil_append, List.append_nil, List.append_nil, List.length_nil] at hloop
  -- the terminator goes behind the line
  obtain ⟨b, after, rfl⟩ := List.exists_cons_of_length_pos (show 0 < free.length by omega)
  have hstore := Buffer.store_singleton w.bytes b 0 after
  refine ⟨after, ?_, ?_⟩
  · rw [List.length_cons] at hfree
    rw [List.length_append, List.length_cons]
    omega
  · have hout : ∃ stdout warned, getpasswd env.terminal (some (some s.psw)) maxPassLen 42
        (some s.input) = some ⟨(w.bytes.length : ℤ), some (w.bytes ++ 0 :: after), rest, stdout,
          warned⟩ := by
      simp only [getpasswd, hinput, gt_iff_lt, lt_self_iff_false, if_false, Option.some_or,
        henv.tcgetattr, henv.tcsetattr, henv.reset, hloop, hstore, Bool.not_true,
        Bool.false_eq_true, Option.bind_eq_bind, Option.bind_some]
      rw [if_neg (by decide)]
      exact ⟨_, _, rfl⟩
    obtain ⟨stdout, warned, hout⟩ := hout
    rw [readPassword, hout]
    rfl

/-- A path that was typed is in `path`, and the rest of its line is read. -/
theorem readPath_eq {s : Session} (hpath : s.path.length = pathMax) {p : CStr}
    (hp : Intent.TypablePath p) {rest : List UInt8}
    (hinput : s.input = lineFeed :: (p.bytes ++ lineFeed :: rest)) :
    ∃ after : List UInt8, (p.bytes ++ 0 :: after).length = pathMax ∧
      readPath s = some { s with input := rest, path := p.bytes ++ 0 :: after } := by
  have hshort := hp.short
  have hword := Stdin.scanWord_append (fun _ => isSpace_of_mem_newline) hp.noSpace hp.nonempty
    isSpace_newline rest
  refine ⟨s.path.drop (p.bytes.length + 1), ?_, ?_⟩
  · rw [List.length_append, List.length_cons, List.length_drop]
    omega
  · have hstore : Buffer.store s.path 0 (p.bytes ++ [0]) =
        some (p.bytes ++ 0 :: s.path.drop (p.bytes.length + 1)) := by
      rw [Buffer.store, if_pos (by rw [List.length_append, List.length_singleton]; omega)]
      simp
    rw [List.singleton_append] at hword
    rw [readPath, hinput, hword]
    dsimp only
    rw [if_neg hp.nonempty, hstore]
    rfl

/-! ### What the kernel finds -/

/-- Memory that holds the bytes `l` from an address on. -/
theorem readable_eq {mem : UserMem} {src : ℕ} {l : List UInt8}
    (h : ∀ i < l.length, mem (src + i) = l[i]?) : mem.readable src l.length = l := by
  induction l generalizing src with
  | nil => rfl
  | cons b l ih =>
    have hfirst : mem src = some b := h 0 (Nat.succ_pos _)
    have hrest : mem.readable (src + 1) l.length = l := by
      refine ih fun i hi => ?_
      rw [Nat.add_assoc, Nat.add_comm 1 i]
      exact h (i + 1) (Nat.succ_lt_succ hi)
    rw [List.length_cons, UserMem.readable, hfirst]
    exact congrArg (b :: ·) hrest

/-- A terminated string within the bytes that can be read. -/
theorem hasString_of_readable {mem : UserMem} {src n : ℕ} {s : CStr} {after : List UInt8}
    (hn : s.bytes.length < n) (h : mem.readable src n = s.bytes ++ 0 :: after) :
    mem.HasString src s := by
  rw [UserMem.HasString, UserMem.readable_eq_take mem src (Nat.succ_le_of_lt hn), h,
    Nat.succ_eq_add_one, List.take_length_add_append]
  rfl

theorem readable_path {path : List UInt8} (h : path.length = pathMax) (psw : List UInt8) :
    (stackMem path psw).readable pathAddr pathMax = path := by
  rw [← h]
  refine readable_eq fun i hi => ?_
  rw [h] at hi
  unfold pathMax at hi
  rw [stackMem, if_pos (by unfold pathAddr pswAddr; omega), Nat.add_sub_cancel_left]

theorem readable_psw (path : List UInt8) {psw : List UInt8} (h : psw.length = maxPassLen) :
    (stackMem path psw).readable pswAddr maxPassLen = psw := by
  rw [← h]
  refine readable_eq fun i hi => ?_
  rw [stackMem, if_neg (by omega), if_pos (Nat.le_add_right _ _), Nat.add_sub_cancel_left]

/-- All allocations of a system call, its hashing and its probes succeed. -/
structure CallWorks (env : CallEnv) : Prop where
  /-- `password_check`. -/
  password : env.password.Works
  /-- `add_to_blacklist`: `kernel_rel_path`, a zeroed node, and its path. -/
  add : env.add.kernelRelPath.isSome ∧ env.add.new = some none ∧ env.add.newPath = true
  /-- `remove_from_blacklist`. -/
  remove : env.remove.kernelPath.isSome
  /-- The probes. -/
  probe : ∀ i, env.probe i = true
  /-- The string for the audit. -/
  stateString : env.stateString = true

section Kernel

variable {env : CallEnv} (henv : CallWorks env) {path psw : List UInt8}
include henv

theorem brings_psw {w : CStr} (hw : Intent.TypablePassword w) {after : List UInt8}
    (hlen : (w.bytes ++ 0 :: after).length = maxPassLen) :
    (callEnv env path (w.bytes ++ 0 :: after)).password.Brings pswAddr w := by
  have hreadable := readable_psw path hlen
  refine ⟨⟨henv.password.kernelPassword, henv.password.allocated, henv.password.hashed,
    henv.password.result⟩, hasString_of_readable hw.short hreadable, hw.short, ?_⟩
  rw [show passwLen = maxPassLen from rfl]
  exact (congrArg List.length hreadable).trans hlen

theorem carries_mode (euid : ℕ) (w : CStr) :
    Invocation.Carries ⟨euid, .getRfState, callEnv env path psw⟩ ⟨euid, w, .mode⟩ :=
  ⟨rfl, trivial, henv.probe, henv.stateString⟩

theorem carries_switch (euid : ℕ) (mode : Mode) {w : CStr} (hw : Intent.TypablePassword w)
    {after : List UInt8} (hlen : (w.bytes ++ 0 :: after).length = maxPassLen) :
    Invocation.Carries
      ⟨euid, .switchRfState mode.toInt pswAddr, callEnv env path (w.bytes ++ 0 :: after)⟩
      ⟨euid, w, .switch mode.toInt⟩ :=
  ⟨rfl, ⟨rfl, brings_psw henv hw hlen⟩, henv.probe, henv.stateString⟩

section List

variable (euid : ℕ) {p : CStr} (hp : Intent.TypablePath p) {afterPath : List UInt8}
  (hpath : (p.bytes ++ 0 :: afterPath).length = pathMax) {w : CStr}
  (hw : Intent.TypablePassword w) {after : List UInt8}
  (hlen : (w.bytes ++ 0 :: after).length = maxPassLen)
include hp hpath hw hlen

theorem carries_add :
    Invocation.Carries
      ⟨euid, .addToBlacklist pathAddr pswAddr,
        callEnv env (p.bytes ++ 0 :: afterPath) (w.bytes ++ 0 :: after)⟩
      ⟨euid, w, .add p⟩ :=
  ⟨rfl, ⟨⟨hasString_of_readable hp.short (readable_path hpath _), hp.short, henv.add⟩,
    brings_psw henv hw hlen⟩, henv.probe, henv.stateString⟩

theorem carries_remove :
    Invocation.Carries
      ⟨euid, .removeFromBlacklist pathAddr pswAddr,
        callEnv env (p.bytes ++ 0 :: afterPath) (w.bytes ++ 0 :: after)⟩
      ⟨euid, w, .remove p⟩ :=
  ⟨rfl, ⟨⟨hasString_of_readable hp.short (readable_path hpath _), hp.short, henv.remove⟩,
    brings_psw henv hw hlen⟩, henv.probe, henv.stateString⟩

end List

end Kernel

/-! ### The entries of the table -/

/-- The numbers of `client.h`, in the order of `new_sys_call_array`. -/
def Number.ofEntry (recent : Bool) (i : Fin hackedEntries) : ℕ :=
  match i with
  | 0 => switchState
  | 1 => getRfState recent
  | 2 => addToBlacklist recent
  | 3 => removeFromBlacklist recent
  | 4 => printBlacklist recent
  | 5 => getBlacklistSize recent

/-- `initialize_syscalls` has returned zero, and the entries that it has overwritten are the numbers
of `client.h`. -/
structure Host.Installed (host : Host) : Prop where
  /-- Each function of the monitor has an address of its own. -/
  distinct : Function.Injective host.newSysCallArray
  /-- The table is as `initialize_syscalls` has left it. -/
  loaded : ∃ g g' mem,
    initializeSyscalls host.table host.newSysCallArray g mem = some (0, g', host.mem) ∧
      ∀ i, g'.restore i = Number.ofEntry host.recent i

/-- Each number leads to its function. -/
theorem Host.Installed.handler_eq {host : Host} (h : host.Installed) (i : Fin hackedEntries) :
    host.handler (Number.ofEntry host.recent i) = some i := by
  obtain ⟨g, g', mem, hload, hrestore⟩ := h.loaded
  have hentry : host.mem.entry host.table (Number.ofEntry host.recent i) =
      host.newSysCallArray i := by
    rw [Memory.entry, ← hrestore i]
    exact (installed_of_initializeSyscalls hload).entries i
  -- no other function has the address that is in the entry
  have hfind : ∀ i : Fin hackedEntries,
      ((List.finRange hackedEntries).find? fun j => decide (j = i)) = some i := by decide
  rw [Host.handler, hentry, ← hfind i]
  simp only [h.distinct.eq_iff]

/-- The arguments of a switch that the client makes. -/
theorem callOf_switch (host : Host) (mode : Mode) :
    callOf (host.arg [mode.toInt, pswAddr]) 0 = .switchRfState mode.toInt pswAddr := by
  have hstate : MachineInt.signed 32 mode.toInt = mode.toInt := by cases mode <;> decide
  show Syscall.switchRfState (MachineInt.signed 32 mode.toInt) pswAddr = _
  rw [hstate]

/-! ### System calls and their reports -/

theorem toInt_range (mode : Mode) : 0 ≤ mode.toInt ∧ mode.toInt ≤ 3 := by
  cases mode <;> decide

theorem toInt_eq_modeNumber (mode : Mode) : mode.toInt = modeNumber mode := by
  cases mode <;> rfl

theorem ofInt_toInt (mode : Mode) : Mode.ofInt mode.toInt = some mode := by
  cases mode <;> rfl

/-- An error number, or an answer that is not negative. -/
def SmallReturn (ret : ℤ) : Prop :=
  -4095 ≤ ret ∧ ret ≤ 3

instance (ret : ℤ) : Decidable (SmallReturn ret) := inferInstanceAs (Decidable (_ ∧ _))

/-- The C library turns an error into `-1` and its number, and leaves other values. -/
theorem libcReturn_eq {ret : ℤ} (h : SmallReturn ret) :
    libcReturn ret = if ret < 0 then (-1, -ret) else (ret, 0) := by
  obtain ⟨hlo, hhi⟩ := h
  unfold libcReturn
  by_cases hneg : ret < 0
  · rw [if_pos ⟨hlo, hneg⟩, if_pos hneg]
  · rw [if_neg (fun h => hneg h.2), if_neg hneg, MachineInt.signed_32_of_mem (by omega) (by omega)]

/-- What holds of the two refusals and of what is granted holds of the answer. -/
theorem authorise_elim {P : ℤ → Prop} {accepts : CStr → Bool} {policy : Policy} {q : Petition}
    {granted : ℤ × Policy} (hpassword : P (-EACCES)) (heuid : P (-EPERM))
    (hgranted : P granted.1) : P (policy.authorise accepts q granted).1 := by
  unfold Policy.authorise
  split_ifs
  · exact hpassword
  · exact heuid
  · exact hgranted

/-- The answers to a switch. -/
theorem serve_switch_cases (accepts : CStr → Bool) (policy : Policy) (euid : ℕ) (w : CStr)
    (mode : Mode) :
    let answer := (policy.serve accepts ⟨euid, w, .switch mode.toInt⟩).1
    answer = -EACCES ∨ answer = -EPERM ∨ answer = mode.toInt := by
  unfold Policy.serve
  dsimp only
  rw [ofInt_toInt]
  exact authorise_elim (P := fun answer => answer = -EACCES ∨ answer = -EPERM ∨ answer = mode.toInt)
    (Or.inl rfl) (Or.inr (Or.inl rfl)) (Or.inr (Or.inr rfl))

theorem smallReturn_serve_add (accepts : CStr → Bool) (policy : Policy) (euid : ℕ) (w p : CStr) :
    SmallReturn (policy.serve accepts ⟨euid, w, .add p⟩).1 := by
  have hadd : SmallReturn (policy.add p).1 := by
    unfold Policy.add
    split_ifs <;> dsimp only <;> decide
  unfold Policy.serve
  dsimp only
  split_ifs
  · exact authorise_elim (by decide) (by decide) hadd
  · exact (by decide : SmallReturn (-EPERM))

theorem smallReturn_serve_remove (accepts : CStr → Bool) (policy : Policy) (euid : ℕ)
    (w p : CStr) : SmallReturn (policy.serve accepts ⟨euid, w, .remove p⟩).1 := by
  have hremove : SmallReturn (policy.remove p).1 := by
    unfold Policy.remove
    split_ifs <;> dsimp only <;> decide
  unfold Policy.serve
  dsimp only
  split_ifs
  · exact authorise_elim (by decide) (by decide) hremove
  · exact (by decide : SmallReturn (-EPERM))

section Refines

variable {host : Host} {secret : CStr} {shared : Shared} {policy : Policy} {env : CallEnv}
  (hhost : host.Installed) (harray : host.array = some fun _ => true)
  (h : Enacts host.sha256 secret shared policy) (hroom : policy.count + 1 < 2 ^ 31)
include hhost harray h hroom

/-- A system call that brings a petition, and the report of its answer. -/
theorem reported_refines (i : Fin hackedEntries) (args : List ℤ) {q : Petition}
    (hcarries : Invocation.Carries ⟨host.euid, callOf (host.arg args) i, env⟩ q)
    {outcome : ℤ → ℤ → ℤ × List Report} {ret : ℤ} {report : Report}
    (houtcome : (fun r => outcome (libcReturn r).1 (libcReturn r).2)
      (policy.serve (sameDigest host.sha256 secret) q).1 = (ret, [report])) :
    ∃ shared', reported host env shared (Number.ofEntry host.recent i) args outcome =
        some (ret, [report], shared') ∧
      Enacts host.sha256 secret shared' (policy.serve (sameDigest host.sha256 secret) q).2 := by
  obtain ⟨hret, hafter⟩ := enacts_run h hcarries hroom
  refine ⟨_, ?_, hafter⟩
  change (Syscall.run host.sha256 (some fun _ => true) env host.euid shared
    (callOf (host.arg args) i)).1 = _ at hret
  dsimp only at houtcome
  unfold reported syscall
  rw [hhost.handler_eq i, harray]
  dsimp only
  rw [hret, Option.map_some, Option.bind_eq_bind, Option.bind_some]
  dsimp only
  rw [houtcome]
  rfl

theorem getRfState_refines (henv : CallWorks env) (path psw : List UInt8) :
    ∃ shared', getRfState host (callEnv env path psw) shared =
        some (policy.mode.toInt, [.stateIs (modeString policy.mode)], shared') ∧
      Enacts host.sha256 secret shared' policy := by
  have houtcome : ∀ mode : Mode, stateOutcome (libcReturn mode.toInt).1 (libcReturn mode.toInt).2 =
      (mode.toInt, [.stateIs (modeString mode)]) := by
    intro mode
    cases mode <;> decide
  exact reported_refines hhost harray h hroom 1 [] (carries_mode henv host.euid secret)
    (houtcome policy.mode)

theorem changeState_refines (henv : CallWorks env) (path : List UInt8) {w : CStr}
    (hw : Intent.TypablePassword w) {after : List UInt8}
    (hlen : (w.bytes ++ 0 :: after).length = maxPassLen) (mode : Mode) :
    let served := policy.serve (sameDigest host.sha256 secret)
      ⟨host.euid, w, .switch mode.toInt⟩
    ∃ shared' ret, changeState host (callEnv env path (w.bytes ++ 0 :: after)) shared mode.toInt
        pswAddr = some (ret, [Intent.switchReport served.1], shared') ∧
      ¬(ret ≠ 0 ∧ ret ≠ wrongEuidValue ∧ ret ≠ homeValue) ∧
      Enacts host.sha256 secret shared' served.2 := by
  intro served
  have houtcome : ∃ ret, ¬(ret ≠ 0 ∧ ret ≠ wrongEuidValue ∧ ret ≠ homeValue) ∧
      switchOutcome (libcReturn served.1).1 (libcReturn served.1).2 =
        (ret, [Intent.switchReport served.1]) := by
    obtain hpassword | heuid | hgranted : served.1 = -EACCES ∨ served.1 = -EPERM ∨
        served.1 = mode.toInt := serve_switch_cases _ policy _ w mode
    · rw [hpassword]
      exact ⟨homeValue, by decide, by decide⟩
    · rw [heuid]
      exact ⟨wrongEuidValue, by decide, by decide⟩
    · rw [hgranted]
      refine ⟨0, by decide, ?_⟩
      cases mode <;> decide
  obtain ⟨ret, hplace, houtcome⟩ := houtcome
  have hcarries : Invocation.Carries
      ⟨host.euid, .switchRfState mode.toInt pswAddr, callEnv env path (w.bytes ++ 0 :: after)⟩
      ⟨host.euid, w, .switch mode.toInt⟩ := carries_switch henv host.euid mode hw hlen
  rw [← callOf_switch host mode] at hcarries
  obtain ⟨shared', hcall, hafter⟩ := reported_refines hhost harray h hroom 0 _ hcarries houtcome
  have hmode := toInt_range mode
  refine ⟨shared', ret, ?_, hplace, hafter⟩
  rw [changeState, if_neg (by omega)]
  exact hcall

section List

variable (henv : CallWorks env) {p : CStr} (hp : Intent.TypablePath p) {afterPath : List UInt8}
  (hpath : (p.bytes ++ 0 :: afterPath).length = pathMax) {w : CStr}
  (hw : Intent.TypablePassword w) {after : List UInt8}
  (hlen : (w.bytes ++ 0 :: after).length = maxPassLen)
include henv hp hpath hw hlen

theorem addToBlacklist_refines :
    let served := policy.serve (sameDigest host.sha256 secret) ⟨host.euid, w, .add p⟩
    ∃ shared' ret, addToBlacklist host
        (callEnv env (p.bytes ++ 0 :: afterPath) (w.bytes ++ 0 :: after)) shared p.bytes pathAddr
        pswAddr = some (ret, [Intent.addReport p served.1], shared') ∧
      Enacts host.sha256 secret shared' served.2 := by
  intro served
  have hsmall : SmallReturn served.1 := smallReturn_serve_add _ policy _ w p
  have houtcome : ∃ ret, addOutcome p.bytes (libcReturn served.1).1 (libcReturn served.1).2 =
      (ret, [Intent.addReport p served.1]) := by
    rw [libcReturn_eq hsmall]
    unfold addOutcome Intent.addReport
    split_ifs <;> first | exact ⟨_, rfl⟩ | omega
  obtain ⟨ret, houtcome⟩ := houtcome
  obtain ⟨shared', hcall, hafter⟩ := reported_refines hhost harray h hroom 2
    [pathAddr, pswAddr] (carries_add henv host.euid hp hpath hw hlen) houtcome
  exact ⟨shared', ret, hcall, hafter⟩

theorem removeFromBlacklist_refines :
    let served := policy.serve (sameDigest host.sha256 secret) ⟨host.euid, w, .remove p⟩
    ∃ shared' ret, removeFromBlacklist host
        (callEnv env (p.bytes ++ 0 :: afterPath) (w.bytes ++ 0 :: after)) shared p.bytes pathAddr
        pswAddr = some (ret, [Intent.removeReport p served.1], shared') ∧
      Enacts host.sha256 secret shared' served.2 := by
  intro served
  have hsmall : SmallReturn served.1 := smallReturn_serve_remove _ policy _ w p
  have houtcome : ∃ ret, removeOutcome p.bytes (libcReturn served.1).1 (libcReturn served.1).2 =
      (ret, [Intent.removeReport p served.1]) := by
    rw [libcReturn_eq hsmall]
    unfold removeOutcome Intent.removeReport
    split_ifs <;> first | exact ⟨_, rfl⟩ | omega
  obtain ⟨ret, houtcome⟩ := houtcome
  obtain ⟨shared', hcall, hafter⟩ := reported_refines hhost harray h hroom 3
    [pathAddr, pswAddr] (carries_remove henv host.euid hp hpath hw hlen) houtcome
  exact ⟨shared', ret, hcall, hafter⟩

end List

end Refines

/-! ### One round -/

/-- What one round meets does not fail. -/
structure RoundEnv.Works (env : RoundEnv) : Prop where
  /-- The system call of the menu. -/
  menu : CallWorks env.menu
  /-- The system call of the option. -/
  call : CallWorks env.call
  /-- The terminal. -/
  terminal : env.terminal.Works

/-- The arrays of the client have their sizes, and the kernel enacts the policy. -/
structure Session.Follows (host : Host) (secret : CStr) (s : Session) (policy : Policy) : Prop where
  /-- `path`. -/
  path : s.path.length = pathMax
  /-- `psw`. -/
  psw : s.psw.length = maxPassLen
  /-- The kernel. -/
  enacts : Enacts host.sha256 secret s.shared policy

/-- The number that the menu returns. -/
def Intent.chosen (mode : Mode) : Intent → ℤ
  | .leave => exitValue
  | i => i.number mode

theorem Intent.Available.number_lt {mode : Mode} {i : Intent} (h : i.Available mode) :
    1 ≤ i.number mode ∧ i.number mode < 2 ^ 31 := by
  cases i with
  | unknown n =>
    obtain ⟨hlo, hhi, -⟩ := h
    exact ⟨le_trans (by decide) hlo, hhi⟩
  | leave => cases mode <;> decide
  | _ => simp [number]

theorem Intent.Available.chosen_ne {mode : Mode} {i : Intent} (h : i.Available mode) :
    i.chosen mode ≠ -1 := by
  have hnumber := h.number_lt
  cases i with
  | leave => exact (by decide : exitValue ≠ -1)
  | _ => exact (by omega : (Intent.number mode _ : ℤ) ≠ -1)

theorem Intent.Available.menuChoice {mode : Mode} {i : Intent} (h : i.Available mode) :
    menuChoice mode.toInt (i.number mode) = i.chosen mode := by
  cases i with
  | unknown n =>
    obtain ⟨hlo, -, -, hsix⟩ := h
    change Client.menuChoice mode.toInt n = n
    unfold Client.menuChoice
    rw [if_neg (by omega), if_neg]
    rintro ⟨hn, hstate⟩
    have hmode : mode.reconfigurable = true := mode.toInt_reconfigurable.mpr (by omega)
    rw [hsix (by exact_mod_cast hn)] at hmode
    exact Bool.false_ne_true hmode
  | leave => cases mode <;> decide
  | add p password =>
    have hmode := mode.toInt_reconfigurable.mp h.1
    change Client.menuChoice mode.toInt 3 = 3
    unfold Client.menuChoice
    rw [if_neg (by omega), if_neg (by omega)]
  | switch _ _ | seeMode | remove _ _ => cases mode <;> rfl

section Round

variable {host : Host} {secret : CStr} {policy : Policy} {env : RoundEnv} {s : Session}
  (hhost : host.Installed) (harray : host.array = some fun _ => true) (henv : env.Works)
  (hs : s.Follows host secret policy) (hroom : policy.count + 1 < 2 ^ 31)
include hhost harray henv hs hroom

/-- The menu reads the number of an option that it has. -/
theorem getFunctionNumber_refines {i : Intent} (hi : i.Available policy.mode) {rest : List UInt8}
    (hinput : s.input = line (Printf.decimal (i.number policy.mode)) ++ rest) :
    ∃ shared', getFunctionNumber host env s = some (i.chosen policy.mode,
        { s with
          input := lineFeed :: rest
          shared := shared'
          reports := s.reports ++ [.stateIs (modeString policy.mode)] }) ∧
      Enacts host.sha256 secret shared' policy := by
  obtain ⟨shared', hstate, hafter⟩ :=
    getRfState_refines hhost harray hs.enacts hroom henv.menu s.path s.psw
  obtain ⟨hpos, hlt⟩ := hi.number_lt
  refine ⟨shared', ?_, hafter⟩
  have hscan : scanInt s.input = (some (i.number policy.mode : ℤ), lineFeed :: rest) := by
    rw [hinput, line_append]
    exact @Stdin.scanInt_decimal [] (by simp) _ hlt _ (by decide) rest
  rw [getFunctionNumber, hstate, Option.bind_eq_bind, Option.bind_some]
  dsimp only
  rw [hscan]
  dsimp only
  rw [Option.getD_some, if_neg (by omega)]
  dsimp only
  rw [hi.menuChoice]
  rfl

/-- Option 1: a mode, a password and a key. -/
theorem switchOption_refines (mode : Mode) {w : CStr} (hw : Intent.TypablePassword w)
    {rest : List UInt8} (hinput : s.input = lineFeed :: ((Intent.switch mode w).answers ++ rest)) :
    let served := (Intent.switch mode w).serve (sameDigest host.sha256 secret) host.euid policy
    ∃ s', switchOption host env s = some (.home, s') ∧ s'.Follows host secret served.1 ∧
      s'.input = rest ∧ s'.reports = s.reports ++ served.2 := by
  intro served
  rw [Intent.answers, List.append_assoc, List.append_assoc, line_append, line_append, line_append,
    List.nil_append] at hinput
  have hmode := toInt_range mode
  have hscan : scanInt s.input =
      (some mode.toInt, lineFeed :: (w.bytes ++ lineFeed :: lineFeed :: rest)) := by
    rw [hinput, toInt_eq_modeNumber]
    exact Stdin.scanInt_decimal (fun _ => isSpace_of_mem_newline) (by cases mode <;> decide)
      (by decide) _
  obtain ⟨after, hlen, hpassword⟩ := @readPassword_eq env henv.terminal
    { s with input := w.bytes ++ lineFeed :: lineFeed :: rest, rfState := mode.toInt } hs.psw w hw
    (lineFeed :: rest) rfl
  obtain ⟨shared, ret, hcall, hret, hafter⟩ :=
    changeState_refines hhost harray hs.enacts hroom henv.call s.path hw hlen mode
  have hne : ¬(w.bytes.length : ℤ) = 0 := by
    have := List.length_pos_iff.mpr hw.nonempty
    omega
  refine ⟨{ s with
    input := rest, psw := w.bytes ++ 0 :: after, rfState := mode.toInt, shared
    reports := s.reports ++ served.2 }, ?_, ⟨hs.path, hlen, hafter⟩, rfl, rfl⟩
  rw [switchOption, hscan]
  dsimp only [Option.getD_some]
  rw [if_neg (by omega)]
  simp only [Stdin.skipLine, if_true, Option.bind_eq_bind, Option.bind_some, hpassword, if_neg hne,
    hcall, if_neg hret]
  rfl

omit hhost harray hroom in
/-- Options 3 and 4: a path, a password and a key. -/
theorem listOption_refines {p w : CStr} (hp : Intent.TypablePath p)
    (hw : Intent.TypablePassword w) {rest : List UInt8}
    (hinput : s.input = lineFeed :: (line p.bytes ++ line w.bytes ++ line [] ++ rest))
    {call : CallEnv → Shared → List UInt8 → ℕ → ℕ → Option (ℤ × List Report × Shared)}
    {served : Policy} {report : Report}
    (hcall : ∀ afterPath after : List UInt8, (p.bytes ++ 0 :: afterPath).length = pathMax →
      (w.bytes ++ 0 :: after).length = maxPassLen →
      ∃ shared' ret, call (callEnv env.call (p.bytes ++ 0 :: afterPath) (w.bytes ++ 0 :: after))
          s.shared p.bytes pathAddr pswAddr = some (ret, [report], shared') ∧
        Enacts host.sha256 secret shared' served) :
    ∃ s', listOption env s call = some (.home, s') ∧ s'.Follows host secret served ∧
      s'.input = rest ∧ s'.reports = s.reports ++ [report] := by
  rw [List.append_assoc, List.append_assoc, line_append, line_append, line_append,
    List.nil_append] at hinput
  obtain ⟨afterPath, hpath, hread⟩ := readPath_eq hs.path hp hinput
  obtain ⟨after, hlen, hpassword⟩ := @readPassword_eq env henv.terminal
    { s with input := w.bytes ++ lineFeed :: lineFeed :: rest, path := p.bytes ++ 0 :: afterPath }
    hs.psw w hw (lineFeed :: rest) rfl
  obtain ⟨shared, ret, hcall, hafter⟩ := hcall afterPath after hpath hlen
  have hne : ¬(w.bytes.length : ℤ) = 0 := by
    have := List.length_pos_iff.mpr hw.nonempty
    omega
  refine ⟨{ s with
    input := rest, path := p.bytes ++ 0 :: afterPath, psw := w.bytes ++ 0 :: after, shared
    reports := s.reports ++ [report] }, ?_, ⟨hpath, hlen, hafter⟩, rfl, rfl⟩
  have hchars : CString.chars (p.bytes ++ 0 :: afterPath) = p.bytes := by
    rw [CString.chars_append_zero, CString.chars_bytes]
  simp only [listOption, hread, Option.bind_eq_bind, Option.bind_some, hpassword, if_neg hne,
    hchars, hcall]
  rfl

/-- The option of an intent, with what was typed after its number. -/
theorem homeOption_refines {i : Intent} (hi : i.Available policy.mode) {rest : List UInt8}
    (hinput : s.input = lineFeed :: (i.answers ++ rest)) :
    let served := i.serve (sameDigest host.sha256 secret) host.euid policy
    ∃ s', homeOption host env s (i.chosen policy.mode) = some (i.place, s') ∧
      s'.Follows host secret served.1 ∧ s'.input = rest ∧ s'.reports = s.reports ++ served.2 := by
  have hskip : skipLine s.input = some (i.answers ++ rest) := by rw [hinput]; rfl
  cases i with
  | switch mode password => exact switchOption_refines hhost harray henv hs hroom mode hi hinput
  | seeMode =>
    obtain ⟨shared, hstate, hafter⟩ :=
      getRfState_refines hhost harray hs.enacts hroom henv.call s.path s.psw
    refine ⟨{ s with input := rest, shared, reports := s.reports ++ _ }, ?_,
      ⟨hs.path, hs.psw, hafter⟩, rfl, rfl⟩
    show homeOption host env s 2 = _
    rw [homeOption, if_neg (by decide), if_pos rfl, hstate, hskip]
    rfl
  | add p password =>
    obtain ⟨-, hp, hw⟩ := hi
    exact listOption_refines henv hs hp hw hinput fun _ _ hpath hlen =>
      addToBlacklist_refines hhost harray hs.enacts hroom henv.call hp hpath hw hlen
  | remove p password =>
    obtain ⟨hp, hw⟩ := hi
    exact listOption_refines henv hs hp hw hinput fun _ _ hpath hlen =>
      removeFromBlacklist_refines hhost harray hs.enacts hroom henv.call hp hpath hw hlen
  | unknown n =>
    obtain ⟨hlo, -, hexit, -⟩ := hi
    refine ⟨{ s with input := rest }, ?_, ⟨hs.path, hs.psw, hs.enacts⟩, rfl,
      (List.append_nil _).symm⟩
    show homeOption host env s n = _
    rw [homeOption, if_neg (by omega), if_neg (by omega), if_neg (by omega), if_neg (by omega),
      if_neg (by omega), if_neg hexit, hskip]
    rfl
  | leave =>
    refine ⟨{ s with input := rest }, ?_, ⟨hs.path, hs.psw, hs.enacts⟩, rfl,
      (List.append_nil _).symm⟩
    show homeOption host env s exitValue = _
    rw [homeOption, if_neg (by decide), if_neg (by decide), if_neg (by decide), if_neg (by decide),
      if_neg (by decide), if_pos rfl, hskip]
    rfl

/-- One round: what was typed for an intent is read, the kernel enacts what the policy makes of it,
and the policy's answer is reported. -/
theorem homeRound_refines {i : Intent} (hi : i.Available policy.mode) {rest : List UInt8}
    (hinput : s.input = i.typed policy.mode ++ rest) :
    let served := i.serve (sameDigest host.sha256 secret) host.euid policy
    ∃ s', homeRound host env s = some (i.place, s') ∧ s'.Follows host secret served.1 ∧
      s'.input = rest ∧
      s'.reports = s.reports ++ .stateIs (modeString policy.mode) :: served.2 := by
  rw [Intent.typed, List.append_assoc] at hinput
  obtain ⟨shared, hmenu, hshared⟩ := getFunctionNumber_refines hhost harray henv hs hroom hi hinput
  obtain ⟨s', hoption, hfollows, hrest, hreports⟩ := @homeOption_refines host secret policy env
    { s with
      input := lineFeed :: (i.answers ++ rest), shared
      reports := s.reports ++ [.stateIs (modeString policy.mode)] }
    hhost harray henv ⟨hs.path, hs.psw, hshared⟩ hroom i hi rest rfl
  refine ⟨s', ?_, hfollows, hrest, hreports.trans (List.append_assoc _ _ _)⟩
  rw [homeRound, hmenu, Option.bind_eq_bind, Option.bind_some]
  dsimp only
  rw [if_neg hi.chosen_ne, hoption]

end Round

/-! ### Whole sessions -/

section Script

variable (accepts : CStr → Bool) (euid : ℕ)

/-- The policy after what was wanted, and all reports, with those of the menus. -/
def serveAll : Policy → List Intent → Policy × List Report
  | policy, [] => (policy, [])
  | policy, i :: is =>
    let (after, reports) := i.serve accepts euid policy
    let (last, more) := serveAll after is
    (last, .stateIs (modeString policy.mode) :: reports ++ more)

/-- All that is typed. -/
def typedAll : Policy → List Intent → List UInt8
  | _, [] => []
  | policy, i :: is => i.typed policy.mode ++ typedAll (i.serve accepts euid policy).1 is

/-- Each option is there when it is chosen, and only the last one leaves the menu. -/
def AvailableAll : Policy → List Intent → Prop
  | _, [] => True
  | policy, i :: is =>
    i.Available policy.mode ∧ (is ≠ [] → i.place = .home) ∧
      AvailableAll (i.serve accepts euid policy).1 is

/-- Where the client is after all of it. -/
def lastPlace (is : List Intent) : Place :=
  is.getLast?.elim .home Intent.place

theorem Intent.count_serve_le (policy : Policy) (i : Intent) :
    (i.serve accepts euid policy).1.count ≤ policy.count + 1 := by
  cases i with
  | switch mode w => exact policy.count_serve_le accepts ⟨euid, w, .switch mode.toInt⟩
  | add p w => exact policy.count_serve_le accepts ⟨euid, w, .add p⟩
  | remove p w => exact policy.count_serve_le accepts ⟨euid, w, .remove p⟩
  | seeMode | unknown _ | leave => exact Int.le_add_one le_rfl

end Script

theorem lastPlace_cons (i : Intent) {is : List Intent} (h : is ≠ []) :
    lastPlace (i :: is) = lastPlace is := by
  rw [lastPlace, List.getLast?_cons_of_ne_nil h]
  rfl

/-- Every session at the menu, on a host on which the monitor has got the entries of `client.h`. If
what was typed are the texts of intents that the menus offer, the client reads them all, and leaves
the rest of the input. The kernel is then in the state of the policy that the intents lead to, so
that `is_blacklisted` finds what that policy stops, and the reports are those of the policy's
answers. -/
theorem session_refines_policy (host : Host) (hhost : host.Installed)
    (harray : host.array = some fun _ => true) (secret : CStr) (is : List Intent)
    (envs : List RoundEnv) (henvs : List.Forall₂ (fun env _ => RoundEnv.Works env) envs is)
    (policy : Policy) (s : Session)
    (hs : s.Follows host secret policy) (hroom : policy.count + is.length < 2 ^ 31)
    (his : AvailableAll (sameDigest host.sha256 secret) host.euid policy is) (rest : List UInt8)
    (hinput : s.input = typedAll (sameDigest host.sha256 secret) host.euid policy is ++ rest) :
    let served := serveAll (sameDigest host.sha256 secret) host.euid policy is
    ∃ s', homeRun host envs s = some (lastPlace is, s') ∧ s'.Follows host secret served.1 ∧
      Behaves s'.shared served.1 ∧ s'.input = rest ∧ s'.reports = s.reports ++ served.2 := by
  induction henvs generalizing policy s with
  | nil =>
    exact ⟨s, rfl, hs, ⟨hs.enacts.isBlacklisted, hs.enacts.probes⟩, hinput,
      (List.append_nil _).symm⟩
  | @cons env i envs is henv henvs ih =>
    obtain ⟨hi, hplace, his⟩ := his
    rw [List.length_cons] at hroom
    push_cast at hroom
    rw [typedAll, List.append_assoc] at hinput
    obtain ⟨s₁, hround, hs₁, hinput₁, hreports₁⟩ :=
      homeRound_refines hhost harray henv hs (by omega) hi hinput
    have hcount := i.count_serve_le (sameDigest host.sha256 secret) host.euid policy
    obtain ⟨s₂, hrun, hs₂, hbehaves, hinput₂, hreports₂⟩ := ih _ s₁ hs₁ (by omega) his hinput₁
    refine ⟨s₂, ?_, hs₂, hbehaves, hinput₂, ?_⟩
    · by_cases hlast : is = []
      · subst hlast
        cases henvs
        obtain rfl : s₁ = s₂ := congrArg Prod.snd (Option.some.inj hrun)
        rw [homeRun, hround]
        cases i <;> rfl
      · rw [homeRun, hround, hplace hlast, lastPlace_cons i hlast]
        exact hrun
    · rw [hreports₂, hreports₁, List.append_assoc]
      rfl

/-- The password `x`. -/
def samplePassword : CStr := ⟨[120], by decide⟩

/-- What the rounds of the sample meet. -/
def sampleRound : RoundEnv where
  menu := sampleCallEnv
  call := sampleCallEnv
  terminal := ⟨true, true, true, true⟩
  inputNumber := 0

/-- A session that begins with this input, after `init_module` with the password `x`. -/
def sampleSession (input : List UInt8) : Session where
  input
  path := List.replicate pathMax 0
  psw := List.replicate maxPassLen 0
  rfState := 0
  shared := initModule sampleSha256 sampleEncrypt samplePassword
  reports := []

/-- The free entries of a kernel that has no `sysctl` system call. -/
def freeOfRecent : List ℕ := [134, 156, 174, 177, 178, 180, 181, 182, 183, 214, 215, 236]

/-- Its memory before the load. -/
def freeMemory : Memory :=
  memoryOf tableAddr (tableOfFree freeOfRecent)

/-- Root on such a kernel, after the load. -/
def sampleHost : Host where
  sha256 := sampleSha256
  array := some fun _ => true
  euid := 0
  recent := true
  table := tableAddr
  newSysCallArray := moduleText
  mem := ((initializeSyscalls tableAddr moduleText noEntries freeMemory).map
    fun loaded => loaded.2.2).getD freeMemory
  other := fun _ _ => some (-ENOSYS)
  registers := fun _ => 0
  malloc := []

/-- The load gets the first six of the free entries. -/
theorem installed_sampleHost : sampleHost.Installed := by
  have hentry : freeMemory.entry tableAddr = tableOfFree freeOfRecent := entry_memoryOf _ _
  have haccepted : Accepted (freeMemory.entry tableAddr) 0xffffffff81000000 := by
    rw [hentry]
    decide +kernel
  have hrepeats : RepeatsAfterFree (freeMemory.entry tableAddr) 0xffffffff81000000 := by
    rw [hentry]
    exact repeatsAfterFree_tableOfFree freeOfRecent
  obtain ⟨g, mem, hload, -, hrestore⟩ :=
    haccepted.hijacksPublished (by decide) hrepeats moduleText noEntries
  -- evaluated on the list that is published: `get_entries` compares all pairs of words
  have hfree : (freeEntries (tableOfFree freeOfRecent) 0xffffffff81000000).take hackedEntries =
      List.ofFn (Number.ofEntry true) := by decide +kernel
  rw [hentry, hfree, List.map_ofFn] at hrestore
  have hmem : sampleHost.mem = mem := by
    simp only [sampleHost, hload, Option.map_some, Option.getD_some]
  refine ⟨moduleText_injective, noEntries, g, freeMemory, ?_,
    congrFun (List.ofFn_injective hrestore)⟩
  rw [hmem]
  exact hload

/-- Root switches to REC_ON, adds `/a`, adds it again, and leaves the menu. -/
theorem session_refines_policy_pathA :
    ∃ s', homeRun sampleHost (List.replicate 4 sampleRound)
        (sampleSession (CString.text "1\n2\nx\n\n3\n/a\nx\n\n3\n/a\nx\n\n6\n")) =
          some (.modules, s') ∧
      s'.reports = [.stateIs .off, .stateIs .reconfOn, .stateIs .reconfOn,
        .added (CString.text "/a"), .stateIs .reconfOn, .unexpectedError EEXIST,
        .stateIs .reconfOn] := by
  have hworks : CallWorks sampleCallEnv :=
    ⟨⟨by decide, by decide, by decide, by decide⟩, by decide, by decide, fun _ => rfl, rfl⟩
  have hround : sampleRound.Works := ⟨hworks, hworks, ⟨rfl, rfl, rfl⟩⟩
  have hpassword : Intent.TypablePassword samplePassword :=
    ⟨by decide, by decide, by decide, by decide⟩
  have hpath : Intent.TypablePath Blacklist.pathA :=
    ⟨by decide, by decide, by simp [Blacklist.pathA, isSpace]⟩
  obtain ⟨s', hrun, -, -, -, hreports⟩ := session_refines_policy sampleHost installed_sampleHost rfl
    samplePassword
    [.switch .reconfOn samplePassword, .add Blacklist.pathA samplePassword,
      .add Blacklist.pathA samplePassword, .leave]
    (List.replicate 4 sampleRound)
    (.cons hround (.cons hround (.cons hround (.cons hround .nil)))) .initial
    (sampleSession (CString.text "1\n2\nx\n\n3\n/a\nx\n\n3\n/a\nx\n\n6\n"))
    ⟨List.length_replicate, List.length_replicate, enacts_initModule _ _ (by decide)⟩ (by decide)
    ⟨hpassword, fun _ => rfl, ⟨by decide, hpath, hpassword⟩, fun _ => rfl,
      ⟨by decide, hpath, hpassword⟩, fun _ => rfl, trivial, fun h => absurd rfl h, trivial⟩
    [] (by decide +kernel)
  exact ⟨s', hrun, hreports.trans (by decide +kernel)⟩

end Client

end StackReferenceMonitor
