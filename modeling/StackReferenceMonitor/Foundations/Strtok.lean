import StackReferenceMonitor.Foundations.Stdin

/-!
# Words of a string

`strtok` cuts a string into its words. It works in place: the delimiter behind a word is overwritten
with a NUL, and the next call goes on behind it. Memory is the list of its bytes, and a read behind
its end has no result.

## Main definitions

* `Strtok.words`: the words of a string.
* `Strtok.strtok`: one call.

## Main results

* `Strtok.strtok_of_nil`, `Strtok.strtok_of_cons`: the calls return the words, one after the other.
-/

namespace Strtok

/-- What stands between the delimiters, without what is empty. -/
def words (delim : UInt8) (s : List UInt8) : List (List UInt8) :=
  (s.splitOn delim).filter (· ≠ [])

/-- One call of `strtok`, from the position that the last one has left: where the word begins, or
`NULL`, the memory, and the position for the next call. -/
def strtok (delim : UInt8) (mem : List UInt8) (pos : ℕ) : Option (Option ℕ × List UInt8 × ℕ) := do
  let start := pos + ((mem.drop pos).takeWhile (· = delim)).length
  let first ← mem[start]?
  if first = 0 then return (none, mem, start)
  else
    let stop := start + ((mem.drop start).takeWhile fun c => c ≠ delim ∧ c ≠ 0).length
    let last ← mem[stop]?
    if last = 0 then return (some start, mem, stop)
    else return (some start, mem.set stop 0, stop + 1)

variable {delim : UInt8}

/-! ### Words -/

theorem words_cons_self (s : List UInt8) : words delim (delim :: s) = words delim s := by
  have hsplit : (delim :: s).splitOn delim = [] :: s.splitOn delim := by
    rw [← List.nil_append (delim :: s), List.splitOn_append_cons_self,
      List.splitOn_eq_singleton List.not_mem_nil, List.singleton_append]
  rw [words, hsplit]
  simp [words]

/-- Delimiters before a string do not matter. -/
theorem words_append {blanks : List UInt8} (h : ∀ c ∈ blanks, c = delim) (s : List UInt8) :
    words delim (blanks ++ s) = words delim s := by
  induction blanks with
  | nil => rfl
  | cons c blanks ih =>
    obtain ⟨rfl, h⟩ := List.forall_mem_cons.mp h
    rw [List.cons_append, words_cons_self, ih h]

theorem words_nil : words delim [] = [] := by
  simp [words]

theorem words_of_notMem {w : List UInt8} (hw : delim ∉ w) (hne : w ≠ []) :
    words delim w = [w] := by
  rw [words, List.splitOn_eq_singleton hw]
  simp [hne]

theorem words_append_cons {w : List UInt8} (hw : delim ∉ w) (hne : w ≠ []) (s : List UInt8) :
    words delim (w ++ delim :: s) = w :: words delim s := by
  rw [words, List.splitOn_append_cons_self, List.splitOn_eq_singleton hw]
  simp [hne, words]

/-- A string up to the first character that fails a test. -/
theorem split_while (p : UInt8 → Bool) (s : List UInt8) :
    ∃ front, (∀ c ∈ front, p c = true) ∧
      (s = front ∨ ∃ c rest, p c = false ∧ s = front ++ c :: rest) := by
  induction s with
  | nil => exact ⟨[], List.forall_mem_nil _, Or.inl rfl⟩
  | cons c s ih =>
    by_cases hc : p c = true
    · obtain ⟨front, hfront, hs⟩ := ih
      refine ⟨c :: front, List.forall_mem_cons.mpr ⟨hc, hfront⟩, ?_⟩
      obtain rfl | ⟨b, rest, hb, rfl⟩ := hs
      · exact Or.inl rfl
      · exact Or.inr ⟨b, rest, hb, rfl⟩
    · exact ⟨[], List.forall_mem_nil _, Or.inr ⟨c, s, by simpa using hc, rfl⟩⟩

/-- A string is made of delimiters, and perhaps a word, and perhaps a delimiter and more. -/
theorem words_cases (delim : UInt8) (s : List UInt8) :
    ∃ blanks, (∀ c ∈ blanks, c = delim) ∧ (s = blanks ∧ words delim s = [] ∨
      ∃ w, delim ∉ w ∧ w ≠ [] ∧ (s = blanks ++ w ∧ words delim s = [w] ∨
        ∃ s', s = blanks ++ (w ++ delim :: s') ∧ words delim s = w :: words delim s')) := by
  obtain ⟨blanks, hblanks, hs⟩ := split_while (· = delim) s
  have hblanks : ∀ c ∈ blanks, c = delim := by simpa using hblanks
  refine ⟨blanks, hblanks, ?_⟩
  obtain rfl | ⟨c, rest, hc, rfl⟩ := hs
  · refine Or.inl ⟨rfl, ?_⟩
    rw [← List.append_nil s, words_append hblanks, words_nil]
  · obtain ⟨w, hw, hrest⟩ := split_while (· ≠ delim) rest
    have hcw : delim ∉ c :: w := by
      rw [List.mem_cons, not_or]
      refine ⟨fun h => by simp [h] at hc, fun h => by simpa using hw delim h⟩
    refine Or.inr ⟨c :: w, hcw, List.cons_ne_nil c w, ?_⟩
    rw [words_append hblanks]
    obtain rfl | ⟨d, s', hd, rfl⟩ := hrest
    · exact Or.inl ⟨rfl, words_of_notMem hcw (List.cons_ne_nil c rest)⟩
    · obtain rfl : d = delim := by simpa using hd
      exact Or.inr ⟨s', rfl, words_append_cons hcw (List.cons_ne_nil c w) s'⟩

/-! ### One call -/

section Call

variable (before : List UInt8) {blanks : List UInt8} (hblanks : ∀ c ∈ blanks, c = delim)
include hblanks

/-- The delimiters that a call skips. -/
theorem takeWhile_blanks {c : UInt8} (hc : c ≠ delim) (rest : List UInt8) :
    ((before ++ (blanks ++ c :: rest)).drop before.length).takeWhile (· = delim) = blanks := by
  rw [List.drop_left]
  refine (Stdin.takeWhile_append_cons (p := fun c => c = delim) ?_ ?_ rest).1
  · intro b hb
    simpa using hblanks b hb
  · simpa using hc

/-- Only delimiters are left. -/
theorem strtok_blank (hdelim : delim ≠ 0) (after : List UInt8) :
    strtok delim (before ++ (blanks ++ 0 :: after)) before.length =
      some (none, before ++ (blanks ++ 0 :: after), before.length + blanks.length) := by
  have hfirst : (before ++ (blanks ++ 0 :: after))[before.length + blanks.length]? = some 0 := by
    simp
  rw [strtok, takeWhile_blanks before hblanks (Ne.symm hdelim) after]
  dsimp only
  rw [hfirst]
  rfl

/-- A word is left, with `c` behind it. -/
theorem strtok_word {w : List UInt8} (hw : ∀ b ∈ w, b ≠ delim ∧ b ≠ 0) (hne : w ≠ []) {c : UInt8}
    (hc : c = delim ∨ c = 0) (after : List UInt8) :
    strtok delim (before ++ (blanks ++ (w ++ c :: after))) before.length =
      some (some (before.length + blanks.length),
        before ++ (blanks ++ (w ++ 0 :: after)),
        before.length + blanks.length + w.length + if c = 0 then 0 else 1) := by
  obtain ⟨b, w', rfl⟩ := List.exists_cons_of_ne_nil hne
  obtain ⟨⟨hb, hb0⟩, -⟩ := List.forall_mem_cons.mp hw
  have hfirst : (before ++ (blanks ++ (b :: w' ++ c :: after)))[before.length + blanks.length]? =
      some b := by
    simp
  have hword : ((before ++ (blanks ++ (b :: w' ++ c :: after))).drop
      (before.length + blanks.length)).takeWhile (fun c => c ≠ delim ∧ c ≠ 0) = b :: w' := by
    rw [← List.append_assoc, ← List.length_append, List.drop_left]
    refine (Stdin.takeWhile_append_cons (p := fun c => c ≠ delim ∧ c ≠ 0) ?_ ?_ after).1
    · intro b hb
      simpa using hw b hb
    · simp only [decide_eq_false_iff_not, not_and_or, not_not]
      exact hc
  have hlast : (before ++ (blanks ++ (b :: w' ++ c :: after)))[before.length + blanks.length +
      (b :: w').length]? = some c := by
    rw [← List.append_assoc, ← List.append_assoc, ← List.length_append, ← List.length_append]
    simp
  rw [strtok, List.cons_append, takeWhile_blanks before hblanks hb, ← List.cons_append]
  dsimp only
  rw [hfirst, Option.bind_eq_bind, Option.bind_some, if_neg hb0, hword, hlast, Option.bind_some]
  by_cases hc0 : c = 0
  · rw [if_pos hc0, if_pos hc0, hc0]
    rfl
  · have hset : (before ++ (blanks ++ (b :: w' ++ c :: after))).set
        (before.length + blanks.length + (b :: w').length) 0 =
          before ++ (blanks ++ (b :: w' ++ 0 :: after)) := by
      rw [← List.append_assoc, ← List.append_assoc, ← List.length_append, ← List.length_append]
      simp
    rw [if_neg hc0, if_neg hc0, hset]
    rfl

end Call

section Words

variable (hdelim : delim ≠ 0) {s : List UInt8} (before after : List UInt8)
include hdelim

/-- The call for a string without words. -/
theorem strtok_of_nil (hwords : words delim s = []) :
    ∃ mem pos,
      strtok delim (before ++ (s ++ 0 :: after)) before.length = some (none, mem, pos) := by
  obtain ⟨blanks, hblanks, ⟨rfl, -⟩ | ⟨w, -, -, ⟨-, h⟩ | ⟨s', -, h⟩⟩⟩ := words_cases delim s
  · exact ⟨_, _, strtok_blank before hblanks hdelim after⟩
  · exact absurd (h.symm.trans hwords) (List.cons_ne_nil _ _)
  · exact absurd (h.symm.trans hwords) (List.cons_ne_nil _ _)

/-- The call for a string that has a first word: it is terminated, and the rest of the string has
the other words. Behind the last word there is nothing to overwrite. -/
theorem strtok_of_cons (hs : 0 ∉ s) {w : List UInt8} {ws : List (List UInt8)}
    (hwords : words delim s = w :: ws) :
    ∃ blanks gap s', 0 ∉ w ∧ 0 ∉ s' ∧ words delim s' = ws ∧ (gap = [0] ∨ gap = [] ∧ s' = []) ∧
      strtok delim (before ++ (s ++ 0 :: after)) before.length =
        some (some (before ++ blanks).length,
          before ++ blanks ++ w ++ gap ++ (s' ++ 0 :: after),
          (before ++ blanks ++ w ++ gap).length) := by
  have hbytes : ∀ {v : List UInt8}, delim ∉ v → 0 ∉ v → ∀ b ∈ v, b ≠ delim ∧ b ≠ 0 :=
    fun hv hv0 b hb => ⟨fun h => hv (h ▸ hb), fun h => hv0 (h ▸ hb)⟩
  obtain ⟨blanks, hblanks, ⟨-, h⟩ | ⟨v, hv, hne, ⟨rfl, h⟩ | ⟨s', rfl, h⟩⟩⟩ := words_cases delim s
  · exact absurd (hwords.symm.trans h) (List.cons_ne_nil _ _)
  · -- the terminator of the string ends the word
    obtain ⟨rfl, rfl⟩ := List.cons.inj (h.symm.trans hwords)
    have hv0 : 0 ∉ v := fun hmem => hs (by simp [hmem])
    have hword := strtok_word before hblanks (hbytes hv hv0) hne (Or.inr rfl) after
    refine ⟨blanks, [], [], hv0, List.not_mem_nil, words_nil, Or.inr ⟨rfl, rfl⟩, ?_⟩
    simpa [Nat.add_assoc] using hword
  · obtain ⟨rfl, rfl⟩ := List.cons.inj (h.symm.trans hwords)
    have hv0 : 0 ∉ v := fun hmem => hs (by simp [hmem])
    have hword :=
      strtok_word before hblanks (hbytes hv hv0) hne (Or.inl rfl) (s' ++ 0 :: after)
    refine ⟨blanks, [0], s', hv0, fun hmem => hs (by simp [hmem]), rfl, Or.inl rfl, ?_⟩
    simpa [Nat.add_assoc, hdelim] using hword

end Words

end Strtok
