import StackReferenceMonitor.Client.Getpasswd
import StackReferenceMonitor.Foundations.Stdin
import StackReferenceMonitor.SyscallTable.Defs
import StackReferenceMonitor.Syscalls.Sequential

/-!
# The client at its main menu

The part of `main` of `client.c` that begins at the label `HOME`, with the functions that it calls:
it shows the menu, reads the number of an option, reads what the option needs, makes a system call
and reports its outcome.

The numbers of the system calls are fixed in `client.h`. Which function a number leads to is up to
the system call table of the kernel: one of the monitor if `initialize_syscalls` has stored its
address there, and another one of the kernel otherwise.

The input is the list of the characters that are still to come. A read of a number that finds none
leaves the variable as it was, and a local variable that was not assigned has some value. A path is
read without a bound.

A client that faults, or that waits for a character that never comes, has no next state.

## Main definitions

* `Number`: the numbers of `client.h`.
* `Host.handler`, `syscall`: a system call by its number.
* `changeState`, `getRfState`, `addToBlacklist`, `removeFromBlacklist`, `printBlacklist`: the
  system calls and what is reported of them.
* `getFunctionNumber`: the menu.
* `homeRound`, `homeRun`: one round of the loop, and the loop.
-/

namespace StackReferenceMonitor

namespace Client

open MachineInt (signed unsigned)
open Stdin (scanInt scanWord skipLine skipKey)

/-- `EXIT_VALUE`. -/
def exitValue : ℤ := 9999

/-- `HOME_VALUE`. -/
def homeValue : ℤ := 8888

/-- `WRONG_EUID_VALUE`. -/
def wrongEuidValue : ℤ := 7777

/-- `EXIT_FAILURE`. -/
def exitFailure : ℤ := 1

/-! ### System calls -/

/-- The string that is printed for a state. -/
inductive StateString where
  /-- `ON`. -/
  | on
  /-- `OFF`. -/
  | off
  /-- `REC_ON`. -/
  | reconfOn
  /-- `REC_OFF`. -/
  | reconfOff
  /-- An array that was not written to. -/
  | unwritten
  deriving DecidableEq

/-- The `switch` over a state. -/
def stateString (ret : ℤ) : StateString :=
  if ret = 0 then .on else if ret = 1 then .off else if ret = 2 then .reconfOn
  else if ret = 3 then .reconfOff else .unwritten

/-- What is printed of the outcome of a system call. The text of an error number is that of
`strerror`. -/
inductive Report where
  /-- `Reference monitor state is set to %s`. -/
  | stateIs (state : StateString)
  /-- `%s: Invalid Password`. -/
  | invalidPassword (errno : ℤ)
  /-- `%s: Client should be in EUID root mode`. -/
  | wrongEuid (errno : ℤ)
  /-- `Unexpected error: %s` or `%s: Unexpected error`. -/
  | unexpectedError (errno : ℤ)
  /-- `%s succesfully added to blacklist`. -/
  | added (path : List UInt8)
  /-- `%s succesfully removed from blacklist`. -/
  | removed (path : List UInt8)
  /-- `Path %s not found in blacklist`. -/
  | notFound (path : List UInt8)
  /-- The text of the blacklist. -/
  | blacklist (entries : List UInt8)
  deriving DecidableEq

/-- The kernel that the client runs on, and the user it runs as. -/
structure Host where
  /-- SHA-256. -/
  sha256 : List UInt8 → Vector UInt8 32
  /-- `kprobe_array`. -/
  array : KprobeArray
  /-- The effective user id. -/
  euid : ℕ
  /-- Whether `LINUX_VERSION_CODE` is at least that of 4.17. -/
  recent : Bool
  /-- `syscalls_table_address`. -/
  table : ℤ
  /-- `new_sys_call_array`. -/
  newSysCallArray : Fin hackedEntries → UInt64
  /-- The words of kernel memory, with the table. -/
  mem : Memory
  /-- What another function of the kernel returns, by its address and the registers, if it does. -/
  other : UInt64 → (ℕ → ℤ) → Option ℤ
  /-- The argument registers that a call does not set. -/
  registers : ℕ → ℤ
  /-- The bytes of the memory that `malloc` returns. -/
  malloc : List UInt8

namespace Number

/-- `SWITCH_STATE`. -/
def switchState : ℕ := 134

/-- `GET_RF_STATE`. -/
def getRfState (recent : Bool) : ℕ := if recent then 156 else 174

/-- `ADD_TO_BLACKLIST`. -/
def addToBlacklist (recent : Bool) : ℕ := if recent then 174 else 177

/-- `REMOVE_FROM_BLACKLIST`. -/
def removeFromBlacklist (recent : Bool) : ℕ := if recent then 177 else 178

/-- `PRINT_BLACKLIST`. -/
def printBlacklist (recent : Bool) : ℕ := if recent then 178 else 180

/-- `GET_BLACKLIST_SIZE`. -/
def getBlacklistSize (recent : Bool) : ℕ := if recent then 180 else 181

end Number

/-- The function of the monitor that an entry of the system call table leads to. -/
def Host.handler (host : Host) (number : ℕ) : Option (Fin hackedEntries) :=
  (List.finRange hackedEntries).find? fun i =>
    host.newSysCallArray i = host.mem.entry host.table number

/-- The arguments as a function of the kernel finds them. -/
def Host.arg (host : Host) (args : List ℤ) (i : ℕ) : ℤ :=
  args.getD i (host.registers i)

/-- The call that a function of `new_sys_call_array` makes of its argument registers. -/
def callOf (arg : ℕ → ℤ) (i : Fin hackedEntries) : Syscall :=
  match i with
  | 0 => .switchRfState (signed 32 (arg 0)) (unsigned 64 (arg 1)).toNat
  | 1 => .getRfState
  | 2 => .addToBlacklist (unsigned 64 (arg 0)).toNat (unsigned 64 (arg 1)).toNat
  | 3 => .removeFromBlacklist (unsigned 64 (arg 0)).toNat (unsigned 64 (arg 1)).toNat
  | 4 => .printBlacklist (unsigned 64 (arg 0)).toNat (signed 32 (arg 1))
  | 5 => .getBlacklistSize

/-- `syscall` of the C library: what it returns, as an `int`, and `errno`. -/
def libcReturn (ret : ℤ) : ℤ × ℤ :=
  if -4095 ≤ ret ∧ ret < 0 then (-1, -ret) else (signed 32 ret, 0)

/-- What `change_state` returns and prints. -/
def switchOutcome (ret errno : ℤ) : ℤ × List Report :=
  if ret = -1 then
    if errno = EACCES then (homeValue, [.invalidPassword errno])
    else if errno = EPERM then (wrongEuidValue, [.wrongEuid errno])
    else (ret, [.unexpectedError errno])
  else (0, [.stateIs (stateString ret)])

/-- What `get_rf_state` returns and prints. -/
def stateOutcome (ret errno : ℤ) : ℤ × List Report :=
  if ret = -1 then (exitFailure, [.unexpectedError errno])
  else (ret, [.stateIs (stateString ret)])

/-- What `add_to_blacklist` returns and prints. -/
def addOutcome (text : List UInt8) (ret errno : ℤ) : ℤ × List Report :=
  if ret = -1 then (exitFailure, [.unexpectedError errno])
  else (ret, [.added text])

/-- What `remove_from_blacklist` returns and prints. -/
def removeOutcome (text : List UInt8) (ret errno : ℤ) : ℤ × List Report :=
  if ret = -1 then (exitFailure, [.unexpectedError errno])
  else if ret = 1 then (ret, [.notFound text])
  else (ret, [.removed text])

section Calls

variable (host : Host) (env : CallEnv) (shared : Shared)

/-- A system call of the client. If it does not return, neither does the client. -/
def syscall (number : ℕ) (args : List ℤ) : Option ((ℤ × ℤ) × Shared) :=
  let (ret, shared) := match host.handler number with
    | some i => (callOf (host.arg args) i).run host.sha256 host.array env host.euid shared
    | none => (host.other (host.mem.entry host.table number) (host.arg args), shared)
  ret.map fun ret => (libcReturn ret, shared)

/-- A system call, and what a function of the client returns and prints of its outcome. -/
def reported (number : ℕ) (args : List ℤ) (outcome : ℤ → ℤ → ℤ × List Report) :
    Option (ℤ × List Report × Shared) := do
  let ((ret, errno), shared) ← syscall host env shared number args
  let (ret, reports) := outcome ret errno
  return (ret, reports, shared)

/-- `change_state`. The check of its argument never fails. -/
def changeState (rfState : ℤ) (password : ℕ) : Option (ℤ × List Report × Shared) :=
  if rfState < 0 ∧ rfState > 3 then some (exitFailure, [], shared)
  else reported host env shared Number.switchState [rfState, password] switchOutcome

/-- `get_rf_state`. -/
def getRfState : Option (ℤ × List Report × Shared) :=
  reported host env shared (Number.getRfState host.recent) [] stateOutcome

/-- `add_to_blacklist`, with the string that `path` holds. -/
def addToBlacklist (text : List UInt8) (path password : ℕ) : Option (ℤ × List Report × Shared) :=
  reported host env shared (Number.addToBlacklist host.recent) [path, password] (addOutcome text)

/-- `remove_from_blacklist`, with the string that `path` holds. -/
def removeFromBlacklist (text : List UInt8) (path password : ℕ) :
    Option (ℤ × List Report × Shared) :=
  reported host env shared (Number.removeFromBlacklist host.recent) [path, password]
    (removeOutcome text)

/-- The text that a call copies to the memory of the client. -/
def copiedText (number : ℕ) (args : List ℤ) : List UInt8 :=
  match (host.handler number).map (callOf (host.arg args)) with
  | some (.printBlacklist _ blacklistSize) =>
    ((sysPrintBlacklist env.print shared.rf.blacklist blacklistSize).map Prod.snd).getD []
  | _ => []

/-- The address of `blacklist`. -/
def blacklistAddr : ℕ := 0x3000

/-- `print_blacklist`. The text is copied without a terminator. Whether it fits the memory that it
is copied to is in `Syscalls.PrintBlacklist`. -/
def printBlacklist : Option (List Report × Shared) := do
  let ((size, errno), shared) ←
    syscall host env shared (Number.getBlacklistSize host.recent) []
  if size = -1 then return ([.unexpectedError errno], shared)
  else
    let number := Number.printBlacklist host.recent
    let text := copiedText host env shared number [blacklistAddr, size]
    let ((ret, errno), shared) ← syscall host env shared number [blacklistAddr, size]
    if ret = -1 then return ([.unexpectedError errno], shared)
    else return ([.blacklist (CString.chars (text ++ host.malloc.drop text.length))], shared)

end Calls

/-! ### The memory of the client -/

/-- The address of `path`. -/
def pathAddr : ℕ := 0x1000

/-- The address of `psw`. -/
def pswAddr : ℕ := 0x2000

/-- The arrays `path` and `psw` in the memory of the client. -/
def stackMem (path psw : List UInt8) : UserMem := fun a =>
  if pathAddr ≤ a ∧ a < pswAddr then path[a - pathAddr]?
  else if pswAddr ≤ a then psw[a - pswAddr]?
  else none

/-- What a system call meets of a client with this memory. -/
def callEnv (env : CallEnv) (path psw : List UInt8) : CallEnv :=
  { env with
    password := { env.password with mem := stackMem path psw }
    add := { env.add with mem := stackMem path psw }
    remove := { env.remove with mem := stackMem path psw } }

/-! ### The menu -/

/-- The state of `main` between two rounds. -/
structure Session where
  /-- What is left of the input. -/
  input : List UInt8
  /-- `path`. -/
  path : List UInt8
  /-- `psw`. -/
  psw : List UInt8
  /-- `rf_state`. -/
  rfState : ℤ
  /-- The state of the kernel. -/
  shared : Shared
  /-- What was reported so far. -/
  reports : List Report

/-- What one round meets. -/
structure RoundEnv where
  /-- The system call of the menu. -/
  menu : CallEnv
  /-- The system call of the option. -/
  call : CallEnv
  /-- The terminal. -/
  terminal : TerminalEnv
  /-- The value of `input_number` before it is assigned. -/
  inputNumber : ℤ

/-- Where `main` goes on. -/
inductive Place where
  /-- At the label `HOME`. -/
  | home
  /-- At the label `MODULE_INFO_DISPLAY`. -/
  | modules
  /-- It has returned `EXIT_FAILURE`. -/
  | failed
  deriving DecidableEq

/-- The option with a number. The menu of a state that is not one of reconfiguration is shorter. -/
def menuChoice (rfState number : ℤ) : ℤ :=
  if number = 3 ∧ (rfState = 0 ∨ rfState = 1) then exitValue
  else if number = 6 ∧ (rfState = 2 ∨ rfState = 3) then exitValue
  else number

section Menu

variable (host : Host) (env : RoundEnv) (s : Session)

/-- `get_function_number`. -/
def getFunctionNumber : Option (ℤ × Session) := do
  let (rfState, reports, shared) ←
    getRfState host (callEnv env.menu s.path s.psw) s.shared
  let (number, input) := scanInt s.input
  let number := number.getD env.inputNumber
  let (number, input) := if number < 1 then (-1, skipKey input) else (number, input)
  return (menuChoice rfState number, { s with input, shared, reports := s.reports ++ reports })

/-- The password that an option asks for: what `getpasswd` returns, and the state after it. -/
def readPassword : Option (ℤ × Session) := do
  let out ← getpasswd env.terminal (some (some s.psw)) maxPassLen 42 (some s.input)
  return (out.ret, { s with input := out.fp, psw := out.pw.getD s.psw })

/-- `scanf("%s", path)` and the rest of the line. -/
def readPath : Option Session := do
  let (word, input) := scanWord s.input
  -- without a word nothing is stored
  let path ← if word = [] then some s.path else Buffer.store s.path 0 (word ++ [0])
  let input ← skipLine input
  return { s with input, path }

/-- Option 1. -/
def switchOption : Option (Place × Session) := do
  let (rfState, input) := scanInt s.input
  let s : Session := { s with input, rfState := rfState.getD s.rfState }
  if s.rfState < 0 ∨ s.rfState > 3 then return (.home, { s with input := skipKey s.input })
  else
    let input ← skipLine s.input
    let (nchr, s) ← readPassword env { s with input }
    if nchr = 0 then return (.home, { s with input := skipKey s.input })
    else
      let (ret, reports, shared) ←
        changeState host (callEnv env.call s.path s.psw) s.shared s.rfState pswAddr
      let input := skipKey s.input
      let s : Session := { s with shared, reports := s.reports ++ reports, input }
      if ret ≠ 0 ∧ ret ≠ wrongEuidValue ∧ ret ≠ homeValue then return (.failed, s)
      else return (.home, s)

/-- Options 3 and 4, with the function that they call. -/
def listOption
    (call : CallEnv → Shared → List UInt8 → ℕ → ℕ → Option (ℤ × List Report × Shared)) :
    Option (Place × Session) := do
  let s ← readPath s
  let (nchr, s) ← readPassword env s
  if nchr = 0 then return (.home, { s with input := skipKey s.input })
  else
    let (_, reports, shared) ←
      call (callEnv env.call s.path s.psw) s.shared (CString.chars s.path) pathAddr pswAddr
    return (.home, { s with shared, reports := s.reports ++ reports, input := skipKey s.input })

/-- The `switch` over the number of an option. -/
def homeOption (number : ℤ) : Option (Place × Session) :=
  if number = 1 then switchOption host env s
  else if number = 2 then do
    let (_, reports, shared) ← getRfState host (callEnv env.call s.path s.psw) s.shared
    let input ← skipLine s.input
    return (.home, { s with shared, reports := s.reports ++ reports, input := skipKey input })
  else if number = 3 then listOption env s fun env shared => addToBlacklist host env shared
  else if number = 4 then listOption env s fun env shared => removeFromBlacklist host env shared
  else if number = 5 then do
    let (reports, shared) ← printBlacklist host (callEnv env.call s.path s.psw) s.shared
    let input ← skipLine s.input
    return (.home, { s with shared, reports := s.reports ++ reports, input := skipKey input })
  else if number = exitValue then do
    let input ← skipLine s.input
    return (.modules, { s with input })
  else do
    let input ← skipLine s.input
    return (.home, { s with input := skipKey (skipKey input) })

/-- One round from the label `HOME` on. The menu is shown again for a number below one. -/
def homeRound : Option (Place × Session) := do
  let (number, s) ← getFunctionNumber host env s
  if number = -1 then return (.home, s) else homeOption host env s number

end Menu

/-- Rounds, until one leaves the menu. -/
def homeRun (host : Host) : List RoundEnv → Session → Option (Place × Session)
  | [], s => some (.home, s)
  | env :: envs, s => do
    match ← homeRound host env s with
    | (.home, s) => homeRun host envs s
    | (place, s) => return (place, s)

end Client

end StackReferenceMonitor
