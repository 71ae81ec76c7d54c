import StackReferenceMonitor.Client.Home
import StackReferenceMonitor.Foundations.Strtok

/-!
# The client at the menu of the modules

The part of `main` of `client.c` that begins at the label `MODULE_INFO_DISPLAY`, with
`display_module_info`: it shows which modules are loaded, reads a line, cuts it into words and
installs or removes a module, goes to the main menu, or ends.

The line is read into an array of 256 bytes with a bound of 1023 characters. What the array holds
before, and what the numbers hold that are not assigned, is some value. At the end of the input
nothing is read into the array.

A client that faults, or that waits for a character that never comes, has no next state.

## Main definitions

* `displayModuleInfo`: `display_module_info`.
* `moduleRound`, `moduleRun`: one round of the loop, and the loop.
* `choose`, `menuRound`, `menuRun`: what the words of a line mean, without arrays and pointers.

## Main results

* `moduleRound_eq`: a round does what the words of its line mean;
* `moduleRun_eq_menuRun`: so do whole runs, on every input, and they are orderly.
-/

namespace StackReferenceMonitor

namespace Client

open CString (text chars strcmp strncpy)
open MachineInt (signed)
open Stdin (scanLine skipLine skipKey strtol)
open Strtok (strtok words)

/-- The delimiter of `strtok`. -/
def blank : UInt8 := 32

/-! ### The menu -/

/-- `mod_info`. -/
structure ModInfo where
  /-- `mod_number`. -/
  modNumber : ℤ
  /-- `command`. -/
  command : List UInt8

/-- What one round meets. -/
structure MenuEnv where
  /-- Whether `/sys/module/the_usctm` is there. -/
  discovererModule : Bool
  /-- Whether `/sys/module/singlefilefs` is there. -/
  fsModule : Bool
  /-- Whether `/sys/module/the_stack_reference_monitor` is there. -/
  rfModule : Bool
  /-- What `input_string` holds before it is read into. -/
  inputString : List UInt8
  /-- The value of `mod_number` before it is assigned. -/
  modNumber : ℤ
  /-- Memory for `mod_info`, with the number that it holds. -/
  malloc : Option ℤ

/-- All three modules are there. -/
def MenuEnv.allLoaded (env : MenuEnv) : Bool :=
  env.discovererModule && env.fsModule && env.rfModule

/-- `input_string` after a line was read into it. Without a character nothing is stored. -/
def MenuEnv.scanned (env : MenuEnv) (line : List UInt8) : Option (List UInt8) :=
  if line = [] then some env.inputString else Buffer.store env.inputString 0 (line ++ [0])

/-- The number of a module, which `strtok` goes on to from `save`: the value to return, the number,
`input_string` and the rest of the input. -/
def readNumber (inputString : List UInt8) (save : ℕ) (input : List UInt8) :
    Option (ℤ × ℤ × List UInt8 × List UInt8) := do
  let (number, inputString, _) ← strtok blank inputString save
  -- `strtol` reads the string that it is given, also `NULL`
  let number ← number
  let modNumber := signed 32 (strtol (chars (inputString.drop number)))
  if modNumber < 1 ∨ modNumber > 3 then return (-1, modNumber, inputString, skipKey input)
  else return (0, modNumber, inputString, input)

/-- The command is compared with the words of the menu. -/
def readCommand (env : MenuEnv) (inputString : List UInt8) (command save : ℕ)
    (input : List UInt8) : Option (ℤ × ℤ × List UInt8 × List UInt8) :=
  let word := inputString.drop command
  if strcmp word (text "exit") = 0 then some (exitValue, env.modNumber, inputString, input)
  else if env.allLoaded ∧ strcmp word (text "home") = 0 then
    some (homeValue, env.modNumber, inputString, input)
  else if strcmp word (text "install") ≠ 0 ∧ strcmp word (text "remove") ≠ 0 then
    (skipLine input).map fun input => (-1, env.modNumber, inputString, skipKey input)
  else readNumber inputString save input

/-- `display_module_info`. -/
def displayModuleInfo (env : MenuEnv) (modInfo : ModInfo) (input : List UInt8) :
    Option (ℤ × ModInfo × List UInt8) := do
  let (line, input) := scanLine 1023 input
  let inputString ← env.scanned line
  let (command, inputString, save) ← strtok blank inputString 0
  -- `strcmp` reads the command, also `NULL`
  let command ← command
  let (ret, modNumber, inputString, input) ← readCommand env inputString command save input
  -- `sizeof(command)` is the size of a pointer
  return (ret, ⟨modNumber, strncpy modInfo.command (inputString.drop command) 8⟩, input)

/-- Where `main` goes on after a round. -/
inductive MenuPlace where
  /-- At this menu. -/
  | modules
  /-- At the label `HOME`. -/
  | home
  /-- It has returned. -/
  | returned (status : ℤ)
  deriving DecidableEq

/-- The state of `main` at this menu. -/
structure ModuleMenu where
  /-- What is left of the input. -/
  input : List UInt8
  /-- `mod_info`, unless it is still to be allocated. -/
  modInfo : Option ModInfo
  /-- The commands that were given to `system`. -/
  ran : List String

/-- The command that installs a module. -/
def installCommand (modNumber : ℤ) : Option String :=
  if modNumber = 1 then some "cd ../syscall-table-discoverer/; sudo make"
  else if modNumber = 2 then some "cd ../log-filesystem/; sudo make"
  else if modNumber = 3 then some "cd ../reference-monitor/; sudo make"
  else none

/-- The command that removes a module. -/
def removeCommand (modNumber : ℤ) : Option String :=
  if modNumber = 1 then some "sudo rmmod the_usctm"
  else if modNumber = 2 then some "sudo rmmod singlefilefs"
  else if modNumber = 3 then some "sudo rmmod the_stack_reference_monitor"
  else none

/-- A command is run, and `main` goes back to the label. A number without a command ends it. -/
def runCommand (ran : List String) (input : List UInt8) (command : Option String) :
    Option (MenuPlace × ModuleMenu) :=
  match command with
  | some command => do
    let input ← skipLine input
    return (.modules, { input := skipKey input, modInfo := none, ran := ran ++ [command] })
  | none => some (.returned exitFailure, { input, modInfo := none, ran })

/-- The `switch` over the value of `display_module_info`, after the loop that repeats it. -/
def menuSwitch (ran : List String) (ret : ℤ) (modInfo : ModInfo) (input : List UInt8) :
    Option (MenuPlace × ModuleMenu) :=
  if ret = -1 then some (.modules, { input, modInfo := some modInfo, ran })
  else if ret = 0 then
    if strcmp modInfo.command (text "install") = 0 then
      runCommand ran input (installCommand modInfo.modNumber)
    else if strcmp modInfo.command (text "remove") = 0 then
      runCommand ran input (removeCommand modInfo.modNumber)
    else some (.returned exitFailure, { input := skipKey input, modInfo := none, ran })
  else if ret = homeValue then some (.home, { input, modInfo := none, ran })
  else if ret = exitValue then some (.returned 0, { input, modInfo := none, ran })
  else (skipLine input).map fun input => (.returned exitFailure, { input, modInfo := none, ran })

/-- `mod_info`, which is allocated at the label and has its command cleared there. -/
def MenuEnv.allocated (env : MenuEnv) : Option ModInfo → Option ModInfo
  | some modInfo => some modInfo
  | none => env.malloc.map fun modNumber => ⟨modNumber, List.replicate 16 0⟩

/-- One round: one call of `display_module_info`, and what `main` makes of its value. -/
def moduleRound (env : MenuEnv) (s : ModuleMenu) : Option (MenuPlace × ModuleMenu) := do
  let modInfo ← env.allocated s.modInfo
  let (ret, modInfo, input) ← displayModuleInfo env modInfo s.input
  menuSwitch s.ran ret modInfo input

/-- Rounds, until one leaves the menu. -/
def moduleRun : List MenuEnv → ModuleMenu → Option (MenuPlace × ModuleMenu)
  | [], s => some (.modules, s)
  | env :: envs, s => do
    match ← moduleRound env s with
    | (.modules, s) => moduleRun envs s
    | (place, s) => return (place, s)

/-! ### What the words mean -/

/-- What a line asks for. -/
inductive Choice where
  /-- To end. -/
  | exit
  /-- To go to the main menu. -/
  | home
  /-- To run a command. -/
  | run (command : String)
  /-- Another number than those of the modules. -/
  | invalidNumber
  /-- Another word than those of the menu. -/
  | invalidCommand
  deriving DecidableEq

/-- What a word asks for that stands where the number of a module is expected. -/
def Choice.ofNumber (command : ℤ → Option String) (word : List UInt8) : Choice :=
  (command (signed 32 (strtol word))).elim .invalidNumber .run

/-- What the words of a line ask for. A line without words, and one that lacks the number, makes the
client read a string at `NULL`. -/
def choose (allLoaded : Bool) : List (List UInt8) → Option Choice
  | [] => none
  | word :: rest =>
    if word = text "exit" then some .exit
    else if allLoaded ∧ word = text "home" then some .home
    else if word = text "install" then rest.head?.map (.ofNumber installCommand)
    else if word = text "remove" then rest.head?.map (.ofNumber removeCommand)
    else some .invalidCommand

/-- What is done for a choice, with the rest of the input and the commands so far. -/
def Choice.act (input : List UInt8) (ran : List String) :
    Choice → Option (MenuPlace × List UInt8 × List String)
  | exit => some (.returned 0, input, ran)
  | home => some (.home, input, ran)
  | run command => (skipLine input).map fun input => (.modules, skipKey input, ran ++ [command])
  | invalidNumber => some (.modules, skipKey input, ran)
  | invalidCommand => (skipLine input).map fun input => (.modules, skipKey input, ran)

/-- The string that the client cuts into words: the line, or at the end of the input what the array
held. A line that does not fit has none. -/
def MenuEnv.lineOf (env : MenuEnv) (line : List UInt8) : Option (List UInt8) :=
  if line = [] then some (chars env.inputString)
  else if line.length < 256 then some (chars line)
  else none

/-- A round, by the words of its line. -/
def menuRound (env : MenuEnv) (input : List UInt8) (ran : List String) :
    Option (MenuPlace × List UInt8 × List String) := do
  let (line, input) := scanLine 1023 input
  let choice ← choose env.allLoaded (words blank (← env.lineOf line))
  choice.act input ran

/-- Rounds, until one leaves the menu. -/
def menuRun : List MenuEnv → List UInt8 → List String →
    Option (MenuPlace × List UInt8 × List String)
  | [], input, ran => some (.modules, input, ran)
  | env :: envs, input, ran => do
    match ← menuRound env input ran with
    | (.modules, input, ran) => menuRun envs input ran
    | (place, input, ran) => return (place, input, ran)

/-- There is memory, and the array has its size and holds a NUL somewhere. -/
structure MenuEnv.Ready (env : MenuEnv) : Prop where
  /-- `mod_info`. -/
  malloc : env.malloc.isSome
  /-- The size of `input_string`. -/
  length : env.inputString.length = 256
  /-- Without a NUL `strtok` may leave the array. -/
  terminated : 0 ∈ env.inputString

/-! ### One round -/

/-- The array after the line was read, and the string in it. -/
theorem scanned_cases {env : MenuEnv} (henv : env.Ready) (line : List UInt8) :
    env.scanned line = none ∧ env.lineOf line = none ∨
      ∃ s after, 0 ∉ s ∧ env.lineOf line = some s ∧
        env.scanned line = some (s ++ 0 :: after) := by
  by_cases hline : line = []
  · obtain ⟨after, hafter⟩ := CString.exists_eq_chars_append henv.terminated
    refine Or.inr ⟨_, after, CString.nul_notMem_chars env.inputString, if_pos hline, ?_⟩
    rw [← hafter]
    exact if_pos hline
  · have hlength : (line ++ [0]).length = line.length + 1 := List.length_append
    rw [MenuEnv.scanned, if_neg hline, Buffer.store, hlength, henv.length, MenuEnv.lineOf,
      if_neg hline]
    by_cases hfits : line.length < 256
    · refine Or.inr ⟨chars line, ?_⟩
      have hnul : 0 ∈ line ++ [0] := by simp
      obtain ⟨after, hafter⟩ := CString.exists_eq_chars_append hnul
      refine ⟨after ++ env.inputString.drop (line.length + 1), CString.nul_notMem_chars line,
        if_pos hfits, ?_⟩
      rw [CString.chars_append_zero] at hafter
      rw [if_pos (by omega), List.take_zero, List.nil_append, Nat.zero_add, hafter]
      simp
    · exact Or.inl ⟨if_neg (by omega), if_neg hfits⟩

theorem blank_ne_zero : blank ≠ 0 := by decide

/-- `strcmp` with a word of the menu. -/
theorem strcmp_eq_zero_iff_eq {mem w v : List UInt8} (hmem : chars mem = w) (hv : 0 ∉ v) :
    strcmp mem v = 0 ↔ w = v := by
  rw [CString.strcmp_eq_zero_iff, hmem, CString.chars_eq_self hv]

theorem readCommand_eq (env : MenuEnv) {mem w : List UInt8} {command : ℕ}
    (hword : chars (mem.drop command) = w) (save : ℕ) (input : List UInt8) :
    readCommand env mem command save input =
      if w = text "exit" then some (exitValue, env.modNumber, mem, input)
      else if env.allLoaded ∧ w = text "home" then some (homeValue, env.modNumber, mem, input)
      else if w ≠ text "install" ∧ w ≠ text "remove" then
        (skipLine input).map fun input => (-1, env.modNumber, mem, skipKey input)
      else readNumber mem save input := by
  have hcmp : ∀ v : List UInt8, 0 ∉ v → (strcmp (mem.drop command) v = 0 ↔ w = v) :=
    fun v => strcmp_eq_zero_iff_eq hword
  simp only [readCommand, hcmp (text "exit") (by decide +kernel), ne_eq,
    hcmp (text "home") (by decide +kernel), hcmp (text "install") (by decide +kernel),
    hcmp (text "remove") (by decide +kernel)]

/-- A word that `strtok` has ended. -/
theorem chars_word {w gap s : List UInt8} (hw : 0 ∉ w) (hgap : gap = [0] ∨ gap = [] ∧ s = [])
    (after : List UInt8) : chars (w ++ gap ++ (s ++ 0 :: after)) = w := by
  obtain rfl | ⟨rfl, rfl⟩ := hgap
  · rw [List.append_assoc, List.singleton_append, CString.chars_append_zero,
      CString.chars_eq_self hw]
  · rw [List.append_nil, List.nil_append, CString.chars_append_zero, CString.chars_eq_self hw]

theorem readNumber_missing {s : List UInt8} (hwords : words blank s = [])
    (before after input : List UInt8) :
    readNumber (before ++ (s ++ 0 :: after)) before.length input = none := by
  obtain ⟨mem, pos, hstrtok⟩ := Strtok.strtok_of_nil blank_ne_zero before after hwords
  simp only [readNumber, hstrtok, Option.bind_eq_bind, Option.bind_some, Option.bind_none]

/-- The number is read, and the memory before it stays. -/
theorem readNumber_of_cons {s : List UInt8} (hs : 0 ∉ s) {v : List UInt8}
    {ws : List (List UInt8)} (hwords : words blank s = v :: ws) (before after input : List UInt8) :
    let modNumber := signed 32 (strtol v)
    ∃ mem, readNumber (before ++ (s ++ 0 :: after)) before.length input =
      some (if modNumber < 1 ∨ modNumber > 3 then (-1, modNumber, before ++ mem, skipKey input)
        else (0, modNumber, before ++ mem, input)) := by
  intro modNumber
  obtain ⟨more, gap, s', hv, -, -, hgap, hstrtok⟩ :=
    Strtok.strtok_of_cons blank_ne_zero before after hs hwords
  refine ⟨more ++ v ++ gap ++ (s' ++ 0 :: after), ?_⟩
  have hmem : before ++ more ++ v ++ gap ++ (s' ++ 0 :: after) =
      before ++ (more ++ v ++ gap ++ (s' ++ 0 :: after)) := by
    simp only [List.append_assoc]
  have hnumber : chars ((before ++ more ++ v ++ gap ++ (s' ++ 0 :: after)).drop
      (before ++ more).length) = v := by
    rw [List.append_assoc (before ++ more) v, List.append_assoc (before ++ more), List.drop_left,
      chars_word hv hgap]
  simp only [readNumber, hstrtok, Option.bind_eq_bind, Option.bind_some, hnumber]
  rw [hmem]
  split_ifs <;> rfl

section Round

variable {env : MenuEnv} {input rest line s after : List UInt8}
  (hscan : scanLine 1023 input = (line, rest)) (hread : env.scanned line = some (s ++ 0 :: after))
include hscan hread

theorem displayModuleInfo_blank (hwords : words blank s = []) (modInfo : ModInfo) :
    displayModuleInfo env modInfo input = none := by
  obtain ⟨mem, pos, hstrtok⟩ := Strtok.strtok_of_nil blank_ne_zero [] after hwords
  rw [List.nil_append, List.length_nil] at hstrtok
  simp only [displayModuleInfo, hscan, hread, hstrtok, Option.bind_eq_bind, Option.bind_some,
    Option.bind_none]

/-- The first word is the command. -/
theorem displayModuleInfo_of_cons (hs : 0 ∉ s) {w : List UInt8} {ws : List (List UInt8)}
    (hwords : words blank s = w :: ws) :
    ∃ blanks gap s', 0 ∉ w ∧ 0 ∉ s' ∧ words blank s' = ws ∧ (gap = [0] ∨ gap = [] ∧ s' = []) ∧
      ∀ modInfo, displayModuleInfo env modInfo input =
        (readCommand env (blanks ++ w ++ gap ++ (s' ++ 0 :: after)) blanks.length
          (blanks ++ w ++ gap).length rest).map fun r =>
            (r.1, ⟨r.2.1, strncpy modInfo.command (r.2.2.1.drop blanks.length) 8⟩, r.2.2.2) := by
  obtain ⟨blanks, gap, s', hw, hs', hws, hgap, hstrtok⟩ :=
    Strtok.strtok_of_cons blank_ne_zero [] after hs hwords
  rw [List.nil_append, List.nil_append, List.length_nil] at hstrtok
  refine ⟨blanks, gap, s', hw, hs', hws, hgap, fun modInfo => ?_⟩
  simp only [displayModuleInfo, hscan, hread, hstrtok, Option.bind_eq_bind, Option.bind_some]
  exact Option.map_eq_bind.symm

end Round

/-- What is seen of the menu: the place, the rest of the input and the commands. -/
def seen (r : MenuPlace × ModuleMenu) : MenuPlace × List UInt8 × List String :=
  (r.1, r.2.input, r.2.ran)

theorem installCommand_eq_none_iff (modNumber : ℤ) :
    installCommand modNumber = none ↔ modNumber < 1 ∨ modNumber > 3 := by
  unfold installCommand
  split_ifs <;> simp <;> omega

theorem removeCommand_eq_none_iff (modNumber : ℤ) :
    removeCommand modNumber = none ↔ modNumber < 1 ∨ modNumber > 3 := by
  unfold removeCommand
  split_ifs <;> simp <;> omega

/-- The command that was read, compared again in `main`. -/
theorem strcmp_strncpy {mem w v : List UInt8} (hmem : chars mem = w) (hw : w.length < 8)
    (dst : List UInt8) (hv : 0 ∉ v) : strcmp (strncpy dst mem 8) v = 0 ↔ w = v := by
  refine strcmp_eq_zero_iff_eq ?_ hv
  rw [CString.chars_strncpy dst (by rwa [CString.strlen, hmem]), hmem]

/-- A command that takes the number of a module. -/
theorem menuSwitch_number {blanks w gap s after : List UInt8} (hs : 0 ∉ s)
    (hgap : gap = [0] ∨ gap = [] ∧ s = []) (hw : 0 ∉ w) (hlen : w.length < 8)
    {command : ℤ → Option String}
    (hnone : ∀ modNumber, command modNumber = none ↔ modNumber < 1 ∨ modNumber > 3)
    {ran : List String} {rest : List UInt8}
    (hcommand : ∀ modInfo : ModInfo, (∀ v, 0 ∉ v → (strcmp modInfo.command v = 0 ↔ w = v)) →
      menuSwitch ran 0 modInfo rest = runCommand ran rest (command modInfo.modNumber))
    (dst : List UInt8) :
    (((readNumber (blanks ++ w ++ gap ++ (s ++ 0 :: after)) (blanks ++ w ++ gap).length rest).map
        fun r => (r.1, (⟨r.2.1, strncpy dst (r.2.2.1.drop blanks.length) 8⟩ : ModInfo),
          r.2.2.2)).bind fun r => menuSwitch ran r.1 r.2.1 r.2.2).map seen =
      ((words blank s).head?.map (.ofNumber command)).bind (Choice.act rest ran) := by
  cases hwords : words blank s with
  | nil =>
    rw [readNumber_missing hwords]
    rfl
  | cons v ws =>
    -- the word is not the last one, so that a NUL was written behind it
    obtain rfl : gap = [0] := hgap.resolve_right fun h => by
      rw [h.2, Strtok.words_nil] at hwords
      exact List.cons_ne_nil v ws hwords.symm
    obtain ⟨mem, hnumber⟩ := readNumber_of_cons hs hwords (blanks ++ w ++ [0]) after rest
    rw [hnumber, List.head?_cons, Option.map_some, Option.map_some, Option.bind_some,
      Option.bind_some, Choice.ofNumber]
    by_cases hrange : signed 32 (strtol v) < 1 ∨ signed 32 (strtol v) > 3
    · rw [if_pos hrange, (hnone _).mpr hrange]
      rfl
    · have hword : chars ((blanks ++ w ++ [0] ++ mem).drop blanks.length) = w := by
        rw [List.append_assoc blanks, List.append_assoc blanks, List.drop_left, List.append_assoc,
          List.singleton_append, CString.chars_append_zero, CString.chars_eq_self hw]
      obtain ⟨c, hc⟩ := Option.ne_none_iff_exists'.mp (mt (hnone _).mp hrange)
      rw [if_neg hrange]
      dsimp only
      rw [hcommand _ fun v hv => strcmp_strncpy hword hlen dst hv, hc]
      dsimp only [runCommand, Option.elim, Choice.act]
      cases skipLine rest <;> rfl

/-- What `main` makes of the call is what the words ask for. -/
theorem menuSwitch_eq {env : MenuEnv} {input rest line s after : List UInt8}
    (hscan : scanLine 1023 input = (line, rest))
    (hread : env.scanned line = some (s ++ 0 :: after)) (hs : 0 ∉ s) (modInfo : ModInfo)
    (ran : List String) :
    ((displayModuleInfo env modInfo input).bind fun r =>
        menuSwitch ran r.1 r.2.1 r.2.2).map seen =
      (choose env.allLoaded (words blank s)).bind (Choice.act rest ran) := by
  cases hwords : words blank s with
  | nil =>
    rw [displayModuleInfo_blank hscan hread hwords]
    rfl
  | cons w ws =>
    obtain ⟨blanks, gap, s', hw, hs', rfl, hgap, hdisplay⟩ :=
      displayModuleInfo_of_cons hscan hread hs hwords
    have hword : chars ((blanks ++ w ++ gap ++ (s' ++ 0 :: after)).drop blanks.length) = w := by
      rw [List.append_assoc blanks, List.append_assoc blanks, List.drop_left,
        chars_word hw hgap]
    rw [hdisplay, readCommand_eq env hword, choose]
    by_cases hexit : w = text "exit"
    · rw [if_pos hexit, if_pos hexit]
      rfl
    rw [if_neg hexit, if_neg hexit]
    by_cases hhome : env.allLoaded ∧ w = text "home"
    · rw [if_pos hhome, if_pos hhome]
      rfl
    rw [if_neg hhome, if_neg hhome]
    by_cases hinstall : w = text "install"
    · rw [if_neg (fun h => h.1 hinstall), if_pos hinstall]
      refine menuSwitch_number hs' hgap hw (by rw [hinstall]; decide +kernel)
        installCommand_eq_none_iff (fun modInfo hcmp => ?_) modInfo.command
      rw [menuSwitch, if_neg (by decide), if_pos rfl,
        if_pos ((hcmp _ (by decide +kernel)).mpr hinstall)]
    by_cases hremove : w = text "remove"
    · rw [if_neg (fun h => h.2 hremove), if_neg hinstall, if_pos hremove]
      refine menuSwitch_number hs' hgap hw (by rw [hremove]; decide +kernel)
        removeCommand_eq_none_iff (fun modInfo hcmp => ?_) modInfo.command
      rw [menuSwitch, if_neg (by decide), if_pos rfl,
        if_neg (mt (hcmp _ (by decide +kernel)).mp hinstall),
        if_pos ((hcmp _ (by decide +kernel)).mpr hremove)]
    rw [if_pos ⟨hinstall, hremove⟩, if_neg hinstall, if_neg hremove]
    dsimp only [Option.bind_some, Choice.act]
    cases skipLine rest <;> rfl

/-- A round does what the words of its line mean. -/
theorem moduleRound_eq {env : MenuEnv} (henv : env.Ready) (m : ModuleMenu) :
    (moduleRound env m).map seen = menuRound env m.input m.ran := by
  obtain ⟨modInfo, hmodInfo⟩ : ∃ modInfo, env.allocated m.modInfo = some modInfo := by
    obtain ⟨modNumber, hmalloc⟩ := Option.isSome_iff_exists.mp henv.malloc
    cases hm : m.modInfo with
    | some modInfo => exact ⟨modInfo, rfl⟩
    | none => exact ⟨_, congrArg (Option.map _) hmalloc⟩
  rcases hscan : scanLine 1023 m.input with ⟨line, rest⟩
  rw [moduleRound, menuRound, hmodInfo, hscan, Option.bind_eq_bind, Option.bind_some]
  obtain ⟨hread, hline⟩ | ⟨s, after, hs, hline, hread⟩ := scanned_cases henv line
  · simp only [displayModuleInfo, hscan, hread, hline, Option.bind_eq_bind, Option.bind_none,
      Option.map_none]
  · simp only [hline, Option.bind_eq_bind, Option.bind_some]
    exact menuSwitch_eq hscan hread hs modInfo m.ran

/-! ### Whole runs -/

/-- The run ends in the round that meets `env`: the rounds before it have come back to the menu. -/
def LeavesAt (envs : List MenuEnv) (input : List UInt8) (ran : List String) (env : MenuEnv)
    (r : MenuPlace × List UInt8 × List String) : Prop :=
  ∃ before after input' ran', envs = before ++ env :: after ∧
    menuRun before input ran = some (.modules, input', ran') ∧ menuRound env input' ran' = some r

/-- What a run of the menu may end with: it is left only for the main menu, in a round with all
modules loaded, or with success, and nothing but the commands for the modules was run. -/
structure Orderly (envs : List MenuEnv) (input : List UInt8) (ran : List String)
    (r : MenuPlace × List UInt8 × List String) : Prop where
  /-- The place. -/
  place : r.1 = .modules ∨ r.1 = .home ∨ r.1 = .returned 0
  /-- The main menu. -/
  home : r.1 = .home → ∃ env, LeavesAt envs input ran env r ∧ env.allLoaded
  /-- The commands. -/
  commands : ∀ c ∈ r.2.2, c ∈ ran ∨ ∃ modNumber,
    installCommand modNumber = some c ∨ removeCommand modNumber = some c

theorem Choice.ofNumber_cases (command : ℤ → Option String) (word : List UInt8) :
    ofNumber command word = invalidNumber ∨
      ∃ modNumber c, command modNumber = some c ∧ ofNumber command word = run c := by
  unfold ofNumber
  cases hc : command (signed 32 (strtol word)) with
  | none => exact Or.inl rfl
  | some c => exact Or.inr ⟨_, c, hc, rfl⟩

/-- The main menu and the commands are chosen by words of the menu only. -/
theorem choose_cases {allLoaded : Bool} {ws : List (List UInt8)} {choice : Choice}
    (h : choose allLoaded ws = some choice) :
    choice = .exit ∨ (choice = .home ∧ allLoaded = true) ∨ choice = .invalidNumber ∨
      choice = .invalidCommand ∨ ∃ modNumber c, choice = .run c ∧
        (installCommand modNumber = some c ∨ removeCommand modNumber = some c) := by
  cases ws with
  | nil => exact absurd h (by simp [choose])
  | cons word rest =>
    rw [choose] at h
    split_ifs at h with hexit hhome hinstall hremove
    · exact Or.inl (Option.some.inj h).symm
    · exact Or.inr (Or.inl ⟨(Option.some.inj h).symm, hhome.1⟩)
    · obtain ⟨v, -, rfl⟩ := Option.map_eq_some_iff.mp h
      obtain hv | ⟨modNumber, c, hc, hv⟩ := Choice.ofNumber_cases installCommand v
      · exact Or.inr (Or.inr (Or.inl hv))
      · exact Or.inr (Or.inr (Or.inr (Or.inr ⟨modNumber, c, hv, Or.inl hc⟩)))
    · obtain ⟨v, -, rfl⟩ := Option.map_eq_some_iff.mp h
      obtain hv | ⟨modNumber, c, hc, hv⟩ := Choice.ofNumber_cases removeCommand v
      · exact Or.inr (Or.inr (Or.inl hv))
      · exact Or.inr (Or.inr (Or.inr (Or.inr ⟨modNumber, c, hv, Or.inr hc⟩)))
    · exact Or.inr (Or.inr (Or.inr (Or.inl (Option.some.inj h).symm)))

/-- A round that leaves for the main menu has all modules loaded. -/
theorem orderly_menuRound {env : MenuEnv} {input : List UInt8} {ran : List String}
    {r : MenuPlace × List UInt8 × List String} (h : menuRound env input ran = some r) :
    Orderly [env] input ran r := by
  have hleaves : LeavesAt [env] input ran env r := ⟨[], [], input, ran, rfl, rfl, h⟩
  obtain ⟨s, -, h⟩ := Option.bind_eq_some_iff.mp h
  obtain ⟨choice, hchoice, hact⟩ := Option.bind_eq_some_iff.mp h
  obtain rfl | ⟨rfl, hall⟩ | rfl | rfl | ⟨modNumber, c, rfl, hc⟩ := choose_cases hchoice
  · obtain rfl := Option.some.inj hact
    exact ⟨Or.inr (Or.inr rfl), nofun, fun _ hc => Or.inl hc⟩
  · obtain rfl := Option.some.inj hact
    exact ⟨Or.inr (Or.inl rfl), fun _ => ⟨env, hleaves, hall⟩, fun _ hc => Or.inl hc⟩
  · obtain rfl := Option.some.inj hact
    exact ⟨Or.inl rfl, nofun, fun _ hc => Or.inl hc⟩
  · obtain ⟨rest, -, rfl⟩ := Option.map_eq_some_iff.mp hact
    exact ⟨Or.inl rfl, nofun, fun _ hc => Or.inl hc⟩
  · obtain ⟨rest, -, rfl⟩ := Option.map_eq_some_iff.mp hact
    refine ⟨Or.inl rfl, nofun, fun c' hc' => ?_⟩
    obtain hran | rfl := List.mem_append.mp hc' |>.imp_right List.mem_singleton.mp
    · exact Or.inl hran
    · exact Or.inr ⟨modNumber, hc⟩

theorem orderly_menuRun {envs : List MenuEnv} {input : List UInt8} {ran : List String}
    {r : MenuPlace × List UInt8 × List String} (h : menuRun envs input ran = some r) :
    Orderly envs input ran r := by
  induction envs generalizing input ran with
  | nil =>
    obtain rfl := Option.some.inj h
    exact ⟨Or.inl rfl, nofun, fun _ hc => Or.inl hc⟩
  | cons env envs ih =>
    obtain ⟨⟨place, input', ran'⟩, hround, hrest⟩ := Option.bind_eq_some_iff.mp h
    have horderly := orderly_menuRound hround
    cases place with
    | modules =>
      have hlater := ih hrest
      refine ⟨hlater.place, fun hplace => ?_, fun c hc => ?_⟩
      · -- the round that leaves is a later one
        obtain ⟨env', ⟨before, after, input'', ran'', rfl, hbefore, hleaves⟩, hall⟩ :=
          hlater.home hplace
        have hcons : menuRun (env :: before) input ran = some (.modules, input'', ran'') := by
          rw [menuRun, hround]
          exact hbefore
        exact ⟨env', ⟨env :: before, after, input'', ran'', rfl, hcons, hleaves⟩, hall⟩
      · exact (hlater.commands c hc).elim (horderly.commands c) Or.inr
    | home | returned status =>
      obtain rfl := Option.some.inj hrest
      refine ⟨horderly.place, fun hplace => ?_, horderly.commands⟩
      obtain ⟨env', ⟨before, after, input'', ran'', henvs, hbefore, hleaves⟩, hall⟩ :=
        horderly.home hplace
      refine ⟨env', ⟨before, after ++ envs, input'', ran'', ?_, hbefore, hleaves⟩, hall⟩
      rw [← List.cons_append, ← List.append_assoc, ← henvs, List.singleton_append]

/-- Every run of the menu, on every input, does what the words of its lines mean. In particular it
never takes a branch of `main` that reports an unexpected value. -/
theorem moduleRun_eq_menuRun (envs : List MenuEnv) (henvs : ∀ env ∈ envs, env.Ready)
    (m : ModuleMenu) :
    (moduleRun envs m).map seen = menuRun envs m.input m.ran ∧
      ∀ r, moduleRun envs m = some r → Orderly envs m.input m.ran (seen r) := by
  have heq : (moduleRun envs m).map seen = menuRun envs m.input m.ran := by
    induction envs generalizing m with
    | nil => rfl
    | cons env envs ih =>
      obtain ⟨henv, henvs⟩ := List.forall_mem_cons.mp henvs
      rw [moduleRun, menuRun, ← moduleRound_eq henv m]
      cases moduleRound env m with
      | none => rfl
      | some r =>
        obtain ⟨place, m'⟩ := r
        cases place with
        | modules => exact ih henvs m'
        | home => rfl
        | returned status => rfl
  refine ⟨heq, fun r hr => orderly_menuRun (heq.symm.trans ?_)⟩
  rw [hr, Option.map_some]

/-- A round with all modules loaded, or with none. -/
def sampleMenu (loaded : Bool) : MenuEnv where
  discovererModule := loaded
  fsModule := loaded
  rfModule := loaded
  inputString := List.replicate 256 0
  modNumber := 0
  malloc := some 0

/-- The file system is installed, and then the main menu is wanted. -/
theorem moduleRun_eq_menuRun_install :
    (moduleRun [sampleMenu false, sampleMenu true]
        ⟨text "install 2\n\nhome\n", none, []⟩).map seen =
      some (.home, text "\n", ["cd ../log-filesystem/; sudo make"]) := by
  have hready : ∀ loaded, (sampleMenu loaded).Ready := fun loaded =>
    ⟨rfl, List.length_replicate, List.mem_replicate.mpr ⟨by decide, rfl⟩⟩
  rw [(moduleRun_eq_menuRun [sampleMenu false, sampleMenu true]
    (by simp [hready]) ⟨text "install 2\n\nhome\n", none, []⟩).1]
  decide +kernel

end Client

end StackReferenceMonitor
