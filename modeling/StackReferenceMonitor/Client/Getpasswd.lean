import Mathlib.Algebra.Order.Group.Unbundled.Int
import Mathlib.Data.Nat.Basic
import StackReferenceMonitor.Foundations.Buffer

/-!
# Reading a password from the terminal

`getpasswd` of `client.c` reads characters up to a newline, the end of the input or a full buffer.
The condition of its loop reads a character, tests for the two ends and for room, and lets a DEL
through even when the buffer is full. What is left in the buffer is what a line editor would leave:
`editLine`, which knows nothing of buffers and indices.

The input is the list of the bytes that `fgetc` returns. A write outside the memory that `*pw`
points to has no result, and neither has a loop that does not end.

## Main definitions

* `getpasswd`, with its loop `readLoop`.
* `editLine`: the characters that are kept.

## Main results

* `keystroke_eq`: what one round of the loop does to the buffer;
* `readLoop_eq`: the loop ends with the edited line in the buffer;
* `getpasswd_exact`: the whole call.
-/

namespace StackReferenceMonitor

namespace Client

/-- `MAX_PASS_LEN`. -/
def maxPassLen : ℕ := 32

/-- `EOF`. -/
def eof : ℤ := -1

/-- The newline. -/
def newlineChar : UInt8 := 10

/-- DEL, which the terminal sends for a backspace. -/
def del : UInt8 := 127

/-! ### The function -/

/-- What a call meets. -/
structure TerminalEnv where
  /-- Whether `realloc` succeeds. -/
  realloc : Bool
  /-- Whether `tcgetattr` succeeds. -/
  tcgetattr : Bool
  /-- Whether the first `tcsetattr` succeeds. -/
  tcsetattr : Bool
  /-- Whether the second one does, which resets the keyboard. -/
  reset : Bool

/-- What the loop works on. -/
structure Entry where
  /-- The memory that `*pw` points to. -/
  pw : List UInt8
  /-- `idx`. -/
  idx : ℕ
  /-- What was written to `stdout`. -/
  stdout : List UInt8

/-- The condition of the loop, with the character that it has read. -/
def again (sz idx : ℕ) (c : ℤ) : Bool :=
  c ≠ newlineChar.toNat ∧ c ≠ eof ∧ idx < sz - 1 ∨ idx = sz - 1 ∧ c = del.toNat

/-- What is printed for a key, if `mask` is a printable character. -/
def echo (mask : ℤ) (s : List UInt8) : List UInt8 :=
  if 31 < mask ∧ mask < 127 then s else []

/-- The body of the loop. -/
def keystroke (mask : ℤ) (c : UInt8) (e : Entry) : Option Entry :=
  if c ≠ del then do
    let pw ← Buffer.store e.pw e.idx [c]
    return { pw, idx := e.idx + 1, stdout := e.stdout ++ echo mask [UInt8.ofNat mask.toNat] }
  else if e.idx > 0 then do
    let pw ← Buffer.store e.pw (e.idx - 1) [0]
    return { pw, idx := e.idx - 1, stdout := e.stdout ++ echo mask [8, 32, 8] }
  else return e

/-- The loop: the last character, what is left of the input, and what it worked on. -/
def readLoop (mask : ℤ) (sz : ℕ) : List UInt8 → Entry → Option (ℤ × List UInt8 × Entry)
  -- at the end of the input every further character is `EOF`
  | [], e => if again sz e.idx eof then none else some (eof, [], e)
  | c :: fp, e =>
    if again sz e.idx c.toNat then (keystroke mask c e).bind (readLoop mask sz fp)
    else some (c.toNat, fp, e)

/-- What a call leaves. -/
structure Outcome where
  /-- The return value. -/
  ret : ℤ
  /-- `*pw`: `NULL`, or the memory it points to. -/
  pw : Option (List UInt8)
  /-- What is left of the input. -/
  fp : List UInt8
  /-- What was written to `stdout`. -/
  stdout : List UInt8
  /-- Whether the warning about a truncated password was written. -/
  warned : Bool

/-- `getpasswd`. Both `pw` and `fp` may be `NULL`. -/
def getpasswd (env : TerminalEnv) (pw : Option (Option (List UInt8))) (sz : ℕ) (mask : ℤ)
    (fp : Option (List UInt8)) : Option Outcome :=
  match pw, fp with
  | some pw, some fp =>
    if sz = 0 then some ⟨-1, pw, fp, [], false⟩
    else
      let sz := if sz > maxPassLen then maxPassLen else sz
      -- without a buffer, a zeroed one is allocated
      match pw.or (if env.realloc then some (List.replicate sz 0) else none) with
      | none => some ⟨-1, none, fp, [], false⟩
      | some buf =>
        if !env.tcgetattr then some ⟨-1, some buf, fp, [], false⟩
        else if !env.tcsetattr then some ⟨-1, some buf, fp, [], false⟩
        else do
          let (c, fp, e) ← readLoop mask sz fp ⟨buf, 0, []⟩
          let buf ← Buffer.store e.pw e.idx [0]
          if !env.reset then return ⟨-1, some buf, fp, e.stdout, false⟩
          return ⟨e.idx, some buf, fp, e.stdout, e.idx = sz - 1 ∧ c ≠ newlineChar.toNat⟩
  | pw, fp => some ⟨-1, pw.join, fp.getD [], [], false⟩

/-! ### The line editor -/

/-- The characters that are kept of an input, with room for `room` of them and `kept` so far: DEL
takes the last one back, and the line ends at a newline, at the end of the input, or at another
character when there is no room. -/
def editLine (room : ℕ) : List UInt8 → List UInt8 → List UInt8
  | kept, [] => kept
  | kept, c :: input =>
    if c = del then editLine room kept.dropLast input
    else if c = newlineChar ∨ kept.length = room then kept
    else editLine room (kept ++ [c]) input

/-- Only characters of the input are kept. -/
theorem mem_editLine {room : ℕ} {kept input : List UInt8} {b : UInt8}
    (h : b ∈ editLine room kept input) : b ∈ kept ∨ b ∈ input := by
  induction input generalizing kept with
  | nil => exact Or.inl h
  | cons c input ih =>
    rw [editLine] at h
    split_ifs at h
    · rcases ih h with hkept | hinput
      · exact Or.inl (List.mem_of_mem_dropLast hkept)
      · exact Or.inr (List.mem_cons_of_mem c hinput)
    · exact Or.inl h
    · rcases ih h with hkept | hinput
      · rcases List.mem_append.mp hkept with hkept | hc
        · exact Or.inl hkept
        · exact Or.inr (List.mem_singleton.mp hc ▸ List.mem_cons_self)
      · exact Or.inr (List.mem_cons_of_mem c hinput)

/-! ### The loop -/

section Loop

variable {sz : ℕ}

/-- At the end of the input the loop ends. -/
theorem again_eof (sz idx : ℕ) : again sz idx eof = false := by
  simp [again, eof, del]

/-- A DEL always has another round. -/
theorem again_del {idx : ℕ} (h : idx ≤ sz - 1) : again sz idx del.toNat = true := by
  have hcases : idx < sz - 1 ∨ idx = sz - 1 := by omega
  rcases hcases with hlt | heq
  · simp [again, eof, del, newlineChar, hlt]
  · simp [again, heq]

/-- Another character has one if it is not a newline and there is room. -/
theorem again_of_ne_del {c : UInt8} (hc : c ≠ del) {idx : ℕ} (h : idx ≤ sz - 1) :
    again sz idx c.toNat = true ↔ ¬(c = newlineChar ∨ idx = sz - 1) := by
  have hdel : (c.toNat : ℤ) ≠ del.toNat := fun heq => hc (UInt8.toNat_inj.mp (by omega))
  have heof : (c.toNat : ℤ) ≠ eof := by
    simp only [eof]
    omega
  have hnewline : (c.toNat : ℤ) = newlineChar.toNat ↔ c = newlineChar := by
    rw [Int.natCast_inj, UInt8.toNat_inj]
  have hroom : idx < sz - 1 ↔ idx ≠ sz - 1 := by omega
  simp only [again, ne_eq, hdel, heof, hnewline, hroom, decide_eq_true_eq, not_false_eq_true,
    true_and, and_false, or_false, not_or]

/-- One round: the kept characters are those of the line editor, and the buffer is the same in all
other places. -/
theorem keystroke_eq (mask : ℤ) (c : UInt8) {kept free : List UInt8} (tail stdout : List UInt8)
    (hfree : c ≠ del → free ≠ []) :
    ∃ free' stdout',
      keystroke mask c ⟨kept ++ free ++ tail, kept.length, stdout⟩ =
        some ⟨(if c = del then kept.dropLast else kept ++ [c]) ++ free' ++ tail,
          (if c = del then kept.dropLast else kept ++ [c]).length, stdout'⟩ ∧
      (if c = del then kept.dropLast else kept ++ [c]).length + free'.length =
        kept.length + free.length := by
  by_cases hc : c = del
  · simp only [keystroke, hc, ne_eq, not_true_eq_false, if_false, if_true]
    rcases List.eq_nil_or_concat kept with rfl | ⟨front, last, rfl⟩
    · -- there is nothing to take back
      exact ⟨free, stdout, rfl, rfl⟩
    · have hidx : (front.concat last).length - 1 = front.length := by simp
      refine ⟨0 :: free, stdout ++ echo mask [8, 32, 8], ?_, by simp; omega⟩
      rw [if_pos (by simp), hidx]
      simp only [List.concat_eq_append, List.append_assoc, List.cons_append, List.nil_append,
        List.dropLast_concat, Buffer.store_singleton]
      rfl
  · obtain ⟨b, free, rfl⟩ := List.exists_cons_of_ne_nil (hfree hc)
    refine ⟨free, stdout ++ echo mask [UInt8.ofNat mask.toNat], ?_, by simp [hc]; omega⟩
    simp only [keystroke, hc, ne_eq, not_false_eq_true, if_true, if_false, List.append_assoc,
      List.cons_append, List.nil_append, Buffer.store_singleton, List.length_append,
      List.length_singleton]
    rfl

/-- From a buffer of `sz` bytes that holds the characters kept so far, the loop ends with those of
the line editor, and room for a terminator behind them. -/
theorem readLoop_eq (mask : ℤ) (input kept free tail stdout : List UInt8)
    (hkept : kept.length < sz) (hsz : kept.length + free.length = sz) :
    ∃ c fp free' stdout',
      readLoop mask sz input ⟨kept ++ free ++ tail, kept.length, stdout⟩ =
        some (c, fp, ⟨editLine (sz - 1) kept input ++ free' ++ tail,
          (editLine (sz - 1) kept input).length, stdout'⟩) ∧
      (editLine (sz - 1) kept input).length < sz ∧
      (editLine (sz - 1) kept input).length + free'.length = sz := by
  induction input generalizing kept free stdout with
  | nil =>
    refine ⟨eof, [], free, stdout, ?_, hkept, hsz⟩
    rw [readLoop, again_eof]
    rfl
  | cons c input ih =>
    -- the line editor and the loop go on under the same condition
    have hround : ∀ kept' : List UInt8,
        again sz kept.length c.toNat = true →
        kept' = (if c = del then kept.dropLast else kept ++ [c]) → kept'.length < sz →
        (c ≠ del → free ≠ []) → ∃ c' fp free' stdout',
          readLoop mask sz (c :: input) ⟨kept ++ free ++ tail, kept.length, stdout⟩ =
            some (c', fp, ⟨editLine (sz - 1) kept' input ++ free' ++ tail,
              (editLine (sz - 1) kept' input).length, stdout'⟩) ∧
          (editLine (sz - 1) kept' input).length < sz ∧
          (editLine (sz - 1) kept' input).length + free'.length = sz := by
      intro kept' hagain hkept' hlt hfree
      obtain ⟨free', stdout', hkey, hlen⟩ := keystroke_eq mask c tail stdout hfree
      rw [← hkept'] at hkey hlen
      rw [readLoop, if_pos hagain, hkey, Option.bind_some]
      exact ih kept' free' stdout' hlt (hlen.trans hsz)
    by_cases hc : c = del
    · subst hc
      rw [editLine, if_pos rfl]
      refine hround _ (again_del (by omega)) (if_pos rfl).symm ?_ fun hne => absurd rfl hne
      rw [List.length_dropLast]
      omega
    · have hroom : kept.length ≤ sz - 1 := by omega
      have hagain := again_of_ne_del hc hroom
      rw [editLine, if_neg hc]
      by_cases hstop : c = newlineChar ∨ kept.length = sz - 1
      · rw [if_pos hstop]
        refine ⟨c.toNat, input, free, stdout, ?_, hkept, hsz⟩
        rw [readLoop, if_neg fun h => hagain.mp h hstop]
      · rw [if_neg hstop]
        obtain ⟨-, hnotFull⟩ := not_or.mp hstop
        refine hround _ (hagain.mpr hstop) (if_neg hc).symm ?_ ?_
        · rw [List.length_append, List.length_singleton]
          omega
        · intro _ hnil
          rw [hnil, List.length_nil] at hsz
          omega

end Loop

/-! ### The call -/

/-- The calls on the terminal succeed. -/
structure TerminalEnv.Works (env : TerminalEnv) : Prop where
  /-- `tcgetattr`. -/
  tcgetattr : env.tcgetattr = true
  /-- The first `tcsetattr`. -/
  tcsetattr : env.tcsetattr = true
  /-- The second `tcsetattr`. -/
  reset : env.reset = true

/-- What `*pw` is before the call: memory whose first bytes are the buffer, with `tail` behind them,
or `NULL`, and then a buffer is allocated. -/
inductive Provided (env : TerminalEnv) (sz : ℕ) : Option (List UInt8) → List UInt8 → Prop
  | given {buf : List UInt8} (tail : List UInt8) (h : buf.length = min sz maxPassLen) :
    Provided env sz (some (buf ++ tail)) tail
  | allocated (h : env.realloc = true) : Provided env sz none []

/-- The buffer that the call works on. -/
theorem Provided.buffer {env : TerminalEnv} {sz : ℕ} {pw : Option (List UInt8)}
    {tail : List UInt8} (h : Provided env sz pw tail) :
    ∃ buf : List UInt8, buf.length = min sz maxPassLen ∧
      pw.or (if env.realloc then some (List.replicate (min sz maxPassLen) 0) else none) =
        some (buf ++ tail) := by
  cases h with
  | given tail hlen => exact ⟨_, hlen, rfl⟩
  | allocated hrealloc =>
    refine ⟨List.replicate (min sz maxPassLen) 0, List.length_replicate, ?_⟩
    rw [if_pos hrealloc, List.append_nil]
    rfl

/-- For every size from `1` on, cut to `MAX_PASS_LEN`, and every finite input without a NUL, with
the calls on the terminal succeeding: `getpasswd` returns the length of the edited line, and the
buffer holds that line and a terminator. It writes within the first `sz` bytes only: these may be
all that there are, and what lies behind them stays as it was. -/
theorem getpasswd_exact {env : TerminalEnv} (henv : env.Works) {sz : ℕ} (hsz : 1 ≤ sz)
    (mask : ℤ) {pw : Option (List UInt8)} {tail : List UInt8} (hpw : Provided env sz pw tail)
    {input : List UInt8} (hnul : 0 ∉ input) :
    ∃ out rest, getpasswd env (some pw) sz mask (some input) = some out ∧
      out.ret = (editLine (min sz maxPassLen - 1) [] input).length ∧
      out.pw = some (editLine (min sz maxPassLen - 1) [] input ++ 0 :: rest ++ tail) ∧
      (editLine (min sz maxPassLen - 1) [] input ++ 0 :: rest).length = min sz maxPassLen ∧
      0 ∉ editLine (min sz maxPassLen - 1) [] input := by
  have hcap : (if sz > maxPassLen then maxPassLen else sz) = min sz maxPassLen := by
    split_ifs <;> omega
  have hpos : 0 < min sz maxPassLen := by
    simp only [maxPassLen]
    omega
  obtain ⟨buf, hlen, hbuf⟩ := hpw.buffer
  obtain ⟨c, fp, free, stdout, hloop, hlt, hfree⟩ :=
    readLoop_eq mask input [] buf tail [] hpos (by simpa using hlen)
  generalize hline : editLine (min sz maxPassLen - 1) [] input = line at hloop hlt hfree
  -- the terminator goes behind the line
  obtain ⟨b, rest, rfl⟩ : ∃ b rest, free = b :: rest := by
    refine List.exists_cons_of_ne_nil fun hnil => ?_
    rw [hnil, List.length_nil] at hfree
    omega
  have hstore : Buffer.store (line ++ b :: rest ++ tail) line.length [0] =
      some (line ++ 0 :: rest ++ tail) := by
    rw [List.append_assoc, List.cons_append, Buffer.store_singleton, List.append_assoc,
      List.cons_append]
  obtain ⟨warned, hrun⟩ : ∃ warned, getpasswd env (some pw) sz mask (some input) =
      some ⟨line.length, some (line ++ 0 :: rest ++ tail), fp, stdout, warned⟩ := by
    rw [List.nil_append, List.length_nil] at hloop
    simp only [getpasswd, hcap, hbuf, henv.tcgetattr, henv.tcsetattr, henv.reset, hloop,
      if_neg (Nat.ne_of_gt hsz), Bool.not_true, Bool.false_eq_true, if_false, Option.bind_eq_bind,
      Option.bind_some, hstore]
    exact ⟨_, rfl⟩
  refine ⟨_, rest, hrun, rfl, rfl, by simpa using hfree, fun hmem => ?_⟩
  rw [← hline] at hmem
  rcases mem_editLine hmem with h | h
  · exact absurd h List.not_mem_nil
  · exact hnul h

/-- With room for two characters: `a`, DEL, `b` and `c` leave `bc`, and at `d` the buffer is
full. -/
theorem getpasswd_exact_three :
    ∃ out rest, getpasswd ⟨true, true, true, true⟩ (some none) 3 42
        (some [97, 127, 98, 99, 100, 101]) = some out ∧
      out.ret = 2 ∧ out.pw = some ((98 : UInt8) :: 99 :: 0 :: rest) ∧
      ((98 : UInt8) :: 99 :: 0 :: rest).length = 3 ∧ 0 ∉ ([98, 99] : List UInt8) := by
  have henv : TerminalEnv.Works ⟨true, true, true, true⟩ := ⟨rfl, rfl, rfl⟩
  have hpw : Provided ⟨true, true, true, true⟩ 3 none [] := .allocated rfl
  have hnul : (0 : UInt8) ∉ [97, 127, 98, 99, 100, 101] := by decide
  obtain ⟨out, rest, hout, hret, hpw, hlen, hnul⟩ :=
    getpasswd_exact henv (by decide) 42 hpw hnul
  rw [List.append_nil] at hpw
  exact ⟨out, rest, hout, hret, hpw, hlen, hnul⟩

end Client

end StackReferenceMonitor
