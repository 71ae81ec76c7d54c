import StackReferenceMonitor.Foundations.CString
import StackReferenceMonitor.Foundations.MachineInt
import StackReferenceMonitor.Foundations.Printf

/-!
# Reading from the standard input

The functions of the C library that a program reads its input with, on the list of the characters
that are left. At the end of the list every further read is `EOF`.

## Main definitions

* `Stdin.scanInt`, `Stdin.scanWord`, `Stdin.scanLine`: `scanf` with `%d`, `%s` and `%[^\n]`.
* `Stdin.skipLine`: reads characters until one is a newline.
* `Stdin.strtol`: the number that a string begins with.

## Main results

* `Stdin.scanInt_decimal`, `Stdin.scanWord_append`: a number and a word are read back.
-/

namespace Stdin

open MachineInt (signed)

/-- A newline. -/
def lineFeed : UInt8 := 10

/-- `isspace`. -/
def isSpace (c : UInt8) : Bool :=
  c = 32 ∨ 9 ≤ c ∧ c ≤ 13

/-- `isdigit`. -/
def isDigit (c : UInt8) : Bool :=
  48 ≤ c ∧ c ≤ 57

/-- The sign before a number: whether it is a minus, and what comes after it. -/
def sign : List UInt8 → Bool × List UInt8
  | [] => (false, [])
  | c :: cs => if c = 45 then (true, cs) else if c = 43 then (false, cs) else (false, c :: cs)

/-- The value of digits that have the values `ds`. -/
def value (base : ℕ) (ds : List ℕ) : ℕ :=
  ds.foldl (fun n d => base * n + d) 0

/-- The value of a decimal digit. -/
def digit (c : UInt8) : ℕ :=
  c.toNat - 48

/-- A number that `long` does not hold becomes its nearest one. -/
def toLong (x : ℤ) : ℤ :=
  max (-2 ^ 63) (min x (2 ^ 63 - 1))

/-- `scanf("%d", …)`: the number, unless there is none, and what is left. -/
def scanInt (input : List UInt8) : Option ℤ × List UInt8 :=
  let (negative, rest) := sign (input.dropWhile isSpace)
  let digits := rest.takeWhile isDigit
  if digits = [] then (none, rest)
  else
    let n : ℤ := value 10 (digits.map digit)
    (some (signed 32 (toLong (if negative then -n else n))), rest.dropWhile isDigit)

/-- `scanf("%s", …)`: the characters of a word, none at the end of the input, and what is left. -/
def scanWord (input : List UInt8) : List UInt8 × List UInt8 :=
  let input := input.dropWhile isSpace
  (input.takeWhile fun c => !isSpace c, input.dropWhile fun c => !isSpace c)

/-- `scanf(" %n[^\n]", …)`: at most `n` characters of a line, none at the end of the input, and what
is left. -/
def scanLine (n : ℕ) (input : List UInt8) : List UInt8 × List UInt8 :=
  let input := input.dropWhile isSpace
  let line := (input.takeWhile (· ≠ lineFeed)).take n
  (line, input.drop line.length)

/-- The value of a character as a digit, of any base up to 36. -/
def digitValue (c : UInt8) : ℕ :=
  if isDigit c then c.toNat - 48
  else if 97 ≤ c ∧ c ≤ 122 then c.toNat - 87
  else if 65 ≤ c ∧ c ≤ 90 then c.toNat - 55
  else 36

/-- The base that a number is written in, and its digits with what follows them. -/
def baseOf : List UInt8 → ℕ × List UInt8
  | 48 :: x :: c :: s =>
    if (x = 120 ∨ x = 88) ∧ digitValue c < 16 then (16, c :: s) else (8, 48 :: x :: c :: s)
  | 48 :: s => (8, 48 :: s)
  | s => (10, s)

/-- `strtol(s, NULL, 0)`. -/
def strtol (s : List UInt8) : ℤ :=
  let (negative, s) := sign (s.dropWhile isSpace)
  let (base, s) := baseOf s
  let n : ℤ := value base ((s.map digitValue).takeWhile (· < base))
  toLong (if negative then -n else n)

/-- `while (getchar() != '\n')`: what is left. At the end of the input it never ends. -/
def skipLine : List UInt8 → Option (List UInt8)
  | [] => none
  | c :: cs => if c = lineFeed then some cs else skipLine cs

/-- `while (!getchar())`: what is left. `EOF` is not zero. -/
def skipKey (input : List UInt8) : List UInt8 :=
  (input.dropWhile (· = 0)).tail

/-! ### What is read back -/

theorem value_decimal (n : ℕ) : value 10 ((Printf.decimal n).map digit) = n := by
  rw [Printf.decimal, List.map_map]
  have hdigits : (Nat.toDigits 10 n).map (digit ∘ fun c => UInt8.ofNat c.toNat) =
      (Nat.toDigits 10 n).map fun c => c.toNat - '0'.toNat := by
    refine List.map_congr_left fun c hc => ?_
    obtain ⟨-, hhi⟩ :=
      Printf.toNat_of_isDigit (Nat.isDigit_of_mem_toDigits (by decide) (by decide) hc)
    rw [Function.comp_apply, digit, UInt8.toNat_ofNat', Nat.mod_eq_of_lt (by omega)]
    rfl
  rw [hdigits, value, List.foldl_map]
  exact Nat.ofDigitChars_ten_toDigits

theorem isDigit_decimal {n : ℕ} {c : UInt8} (h : c ∈ Printf.decimal n) : isDigit c = true := by
  simpa [isDigit] using Printf.mem_decimal h

/-- What is taken while a condition holds, and what is left. -/
theorem takeWhile_append_cons {p : UInt8 → Bool} {xs : List UInt8} (hxs : ∀ c ∈ xs, p c = true)
    {c : UInt8} (hc : p c = false) (rest : List UInt8) :
    (xs ++ c :: rest).takeWhile p = xs ∧ (xs ++ c :: rest).dropWhile p = c :: rest := by
  rw [List.takeWhile_append_of_pos hxs, List.dropWhile_append_of_pos hxs]
  simp [hc]

/-- A number after spaces that something else than a digit ends. -/
theorem scanInt_decimal {spaces : List UInt8} (hspaces : ∀ c ∈ spaces, isSpace c = true) {n : ℕ}
    (hn : n < 2 ^ 31) {c : UInt8} (hc : isDigit c = false) (rest : List UInt8) :
    scanInt (spaces ++ (Printf.decimal n ++ c :: rest)) = (some (n : ℤ), c :: rest) := by
  have hne : Printf.decimal n ≠ [] := by
    intro hnil
    have hzero := value_decimal n
    rw [hnil] at hzero
    obtain rfl : 0 = n := hzero
    exact absurd hnil (by decide)
  obtain ⟨d, ds, hds⟩ := List.exists_cons_of_ne_nil hne
  have hd : isDigit d = true := isDigit_decimal (hds ▸ List.mem_cons_self)
  -- the first digit is neither a space nor a sign
  have hstart : isSpace d = false ∧ d ≠ 45 ∧ d ≠ 43 := by
    simp only [isDigit, isSpace, decide_eq_true_eq, decide_eq_false_iff_not,
      UInt8.le_iff_toNat_le, ne_eq, ← UInt8.toNat_inj, UInt8.reduceToNat] at hd ⊢
    omega
  have hskip : (spaces ++ (Printf.decimal n ++ c :: rest)).dropWhile isSpace =
      Printf.decimal n ++ c :: rest := by
    rw [hds, List.cons_append]
    exact (takeWhile_append_cons hspaces hstart.1 _).2
  have hsign : sign (Printf.decimal n ++ c :: rest) = (false, Printf.decimal n ++ c :: rest) := by
    rw [hds, List.cons_append, sign, if_neg hstart.2.1, if_neg hstart.2.2]
  obtain ⟨htake, hdrop⟩ := takeWhile_append_cons (fun _ => isDigit_decimal (n := n)) hc rest
  have hlong : signed 32 (toLong n) = n := by
    rw [toLong, MachineInt.signed_32_of_mem] <;> omega
  simp only [scanInt, hskip, hsign, htake, hdrop, if_neg hne, value_decimal, Bool.false_eq_true,
    if_false, hlong]

/-- A word after spaces that a space ends. -/
theorem scanWord_append {spaces : List UInt8} (hspaces : ∀ c ∈ spaces, isSpace c = true)
    {w : List UInt8} (hw : ∀ c ∈ w, isSpace c = false) (hne : w ≠ []) {c : UInt8}
    (hc : isSpace c = true) (rest : List UInt8) :
    scanWord (spaces ++ (w ++ c :: rest)) = (w, c :: rest) := by
  have hskip : (spaces ++ (w ++ c :: rest)).dropWhile isSpace = w ++ c :: rest := by
    obtain ⟨b, w, rfl⟩ := List.exists_cons_of_ne_nil hne
    exact (takeWhile_append_cons hspaces (hw b List.mem_cons_self) _).2
  have hword : ∀ b ∈ w, (!isSpace b) = true := fun b hb => by rw [hw b hb]; rfl
  obtain ⟨htake, hdrop⟩ :=
    takeWhile_append_cons (p := fun c => !isSpace c) hword (by rw [hc]; rfl) rest
  rw [scanWord, hskip, htake, hdrop]

end Stdin
