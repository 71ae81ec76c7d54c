import StackReferenceMonitor.Log.Defs

/-!
# What the rows say

A row is formatted into a buffer of 256 bytes, and the path in it is any string. So a row may lose
its end, and a path with a newline makes several lines of one row. If neither happens, a row is one
line with all of its fields, and the lines of the log determine the records: the numbers are read
off up to their separators, the newline ends the row, and the fingerprint before it has 64
characters, whatever the path contains.

## Main definitions

* `LogRecord`, `LogRecord.row`: a record and its row.
* `RowWhole`: the row is one line with the whole path and fingerprint.
* `LogDetermines`: this of all records of a set, and different sequences of them give different
  logs.
* `RowFits`: the condition.

## Main results

* `rowWhole_iff`: one row;
* `logDetermines_iff`: all logs.
-/

namespace StackReferenceMonitor

open CString (text)
open Printf (decimal signedDecimal snprintf)
open PathString (slash)

/-- The newline. -/
def newline : UInt8 := 10

/-- A record of a denial: the ids of the task, the absolute path of its program, and the digest. -/
@[ext]
structure LogRecord where
  /-- `tid`. -/
  tid : Int32
  /-- `tgid`. -/
  tgid : Int32
  /-- `uid`. -/
  uid : UInt32
  /-- `euid`. -/
  euid : UInt32
  /-- `exe_path`. -/
  exePath : CStr
  /-- The digest whose hexadecimal digits are `hash`. -/
  digest : Vector UInt8 32
  /-- The path is absolute. -/
  absolute : ∃ rest, exePath.bytes = slash :: rest
  /-- The path and its terminator fit in `PATH_MAX`. -/
  short : exePath.bytes.length < pathMax

namespace LogRecord

/-- `struct log_data`. -/
def data (r : LogRecord) : LogData :=
  { tid := r.tid, tgid := r.tgid, uid := r.uid, euid := r.euid, exePath := some r.exePath }

/-- The row that `deferred_work` makes of the record. -/
def row (r : LogRecord) : List UInt8 :=
  r.data.row (some (hexString r.digest))

/-- The ids, each with the separator behind it. -/
def ids (r : LogRecord) : List UInt8 :=
  signedDecimal r.tid.toInt ++ text ", " ++ signedDecimal r.tgid.toInt ++ text ", " ++
    decimal r.uid.toNat ++ text ", " ++ decimal r.euid.toNat ++ text ", "

/-- The row without its newline, before it is cut. -/
def line (r : LogRecord) : List UInt8 :=
  r.ids ++ (r.exePath.bytes ++ text ", " ++ (hexString r.digest).bytes)

/-- The characters of the ids in the row. -/
def idsLength (r : LogRecord) : ℕ :=
  (signedDecimal r.tid.toInt).length + (signedDecimal r.tgid.toInt).length +
    (decimal r.uid.toNat).length + (decimal r.euid.toNat).length

end LogRecord

/-- The row has exactly one newline, at its end, and in it the whole path, a separator and the whole
fingerprint. -/
structure RowWhole (r : LogRecord) : Prop where
  /-- There is one newline, at the end. -/
  one_newline : ∃ line, r.row = line ++ [newline] ∧ newline ∉ line
  /-- The path and the fingerprint are there. -/
  fields : ∃ front back, r.row =
    front ++ (r.exePath.bytes ++ text ", " ++ (hexString r.digest).bytes) ++ back

/-- The rows of the records of `S` are whole, and different sequences of these records give
different logs. -/
structure LogDetermines (S : Set LogRecord) : Prop where
  /-- Each row. -/
  whole : ∀ r ∈ S, RowWhole r
  /-- Each log. -/
  injective : ∀ rs ss : List LogRecord, (∀ r ∈ rs, r ∈ S) → (∀ r ∈ ss, r ∈ S) → rs ≠ ss →
    rs.flatMap LogRecord.row ≠ ss.flatMap LogRecord.row

/-- The path has no newline, and with the four ids at most 180 characters. -/
structure RowFits (r : LogRecord) : Prop where
  /-- No newline. -/
  no_newline : newline ∉ r.exePath.bytes
  /-- The separators, the fingerprint and the newline take 75 of the 255 characters. -/
  length : r.idsLength + r.exePath.bytes.length ≤ 180

/-! ### The fields of a row -/

theorem text_separator : text ", " = [44, 32] := by
  decide +kernel

theorem text_newline : text "\n" = [newline] := by
  decide +kernel

/-- No digit, sign or separator is a slash or a newline. -/
theorem LogRecord.notMem_ids (r : LogRecord) {b : UInt8} (hb : b = slash ∨ b = newline) :
    b ∉ r.ids := by
  -- the codes of `/` and of a newline are below that of `0`
  have hdecimal : ∀ n, b ∉ decimal n := by
    intro n h
    have hmem := Printf.mem_decimal h
    rcases hb with rfl | rfl
    · exact absurd hmem.1 (by decide)
    · exact absurd hmem.1 (by decide)
  have hsigned : ∀ x, b ∉ signedDecimal x := by
    intro x h
    have hmem := Printf.mem_signedDecimal h
    rcases hb with rfl | rfl
    · exact absurd hmem (by decide)
    · exact absurd hmem (by decide)
  have hseparator : b ∉ [(44 : UInt8), 32] := by
    rcases hb with rfl | rfl <;> decide
  simp only [LogRecord.ids, text_separator, List.mem_append, not_or]
  exact ⟨⟨⟨⟨⟨⟨⟨hsigned _, hseparator⟩, hsigned _⟩, hseparator⟩, hdecimal _⟩, hseparator⟩,
    hdecimal _⟩, hseparator⟩

/-- No digit of the fingerprint is a newline. -/
theorem newline_notMem_hexString (digest : Vector UInt8 32) :
    newline ∉ (hexString digest).bytes :=
  fun h => absurd (mem_hexString h) (by decide)

theorem LogRecord.length_ids (r : LogRecord) : r.ids.length = r.idsLength + 8 := by
  simp [LogRecord.ids, LogRecord.idsLength, text_separator]
  omega

theorem LogRecord.length_line (r : LogRecord) :
    r.line.length = r.idsLength + r.exePath.bytes.length + 74 := by
  simp [LogRecord.line, r.length_ids, text_separator, length_hexString]
  omega

/-- A row is the line and a newline, cut at 255 characters. -/
theorem LogRecord.row_eq (r : LogRecord) : r.row = (r.line ++ [newline]).take 255 := by
  simp [LogRecord.row, LogData.row, LogRecord.data, snprintf, rowSize, rowText, printfString,
    LogRecord.line, LogRecord.ids, text_newline, List.append_assoc]

/-- A newline in the line is one in the path. -/
theorem LogRecord.newline_mem_line (r : LogRecord) :
    newline ∈ r.line ↔ newline ∈ r.exePath.bytes := by
  have hids := r.notMem_ids (Or.inr rfl)
  have hseparator : newline ∉ [(44 : UInt8), 32] := by decide
  rw [LogRecord.line, text_separator, List.mem_append, List.mem_append, List.mem_append]
  simp only [hids, hseparator, newline_notMem_hexString, false_or, or_false]

/-- A line ends with a digit of the fingerprint. -/
theorem LogRecord.getLast?_line_ne (r : LogRecord) : r.line.getLast? ≠ some newline := by
  intro hlast
  have hne : (hexString r.digest).bytes ≠ [] := by
    intro hnil
    simpa [hnil] using length_hexString r.digest
  rw [LogRecord.line, ← List.append_assoc, List.getLast?_append_of_ne_nil _ hne] at hlast
  exact newline_notMem_hexString _ (List.mem_of_getLast? hlast)

/-- If the row fits, it is the line and a newline. -/
theorem RowFits.row_eq {r : LogRecord} (h : RowFits r) : r.row = r.line ++ [newline] := by
  have hlength := h.length
  rw [r.row_eq, List.take_of_length_le]
  rw [List.length_append, r.length_line, List.length_singleton]
  omega

theorem RowFits.newline_notMem {r : LogRecord} (h : RowFits r) : newline ∉ r.line :=
  fun hmem => h.no_newline (r.newline_mem_line.mp hmem)

/-- Where the path and the fingerprint are, the ids are in front of them: the path begins with a
slash, and the ids have none. -/
theorem LogRecord.length_ids_le (r : LogRecord) {front back : List UInt8}
    (h : r.row = front ++ (r.exePath.bytes ++ text ", " ++ (hexString r.digest).bytes) ++ back) :
    r.ids.length ≤ front.length := by
  by_contra hlt
  obtain ⟨rest, hslash⟩ := r.absolute
  -- the character behind `front` is the first one of the path
  have hget : r.row[front.length]? = some slash := by
    simp [h, hslash]
  have hids : r.ids[front.length]? = some slash := by
    rw [r.row_eq, List.getElem?_take] at hget
    split_ifs at hget with hcut
    rwa [LogRecord.line, List.append_assoc, List.getElem?_append_left (by omega)] at hget
  exact r.notMem_ids (Or.inl rfl) (List.mem_of_getElem? hids)

/-- A row is whole exactly when it fits and its path has no newline. -/
theorem rowWhole_iff (r : LogRecord) : RowWhole r ↔ RowFits r := by
  constructor
  · rintro ⟨⟨line, hline, hnewline⟩, front, back, hfields⟩
    have hfront := r.length_ids_le hfields
    have hcut : r.row.length ≤ 255 := by
      rw [r.row_eq]
      exact List.length_take_le _ _
    have hlength : r.line.length ≤ r.row.length := by
      rw [hfields]
      simp only [LogRecord.line, List.length_append]
      omega
    -- the newline is the last character, so the row is not cut right before it
    have hfits : r.line.length ≠ 255 := by
      intro hfull
      have hrow : r.row = r.line := by
        rw [r.row_eq, List.take_append_of_le_length (by omega), List.take_of_length_le (by omega)]
      rw [hline] at hrow
      refine r.getLast?_line_ne ?_
      rw [← hrow, List.getLast?_concat]
    have hlen := r.length_line
    -- with 254 characters at most, the line is in the row with its newline
    have hwhole : r.row = r.line ++ [newline] := by
      rw [r.row_eq, List.take_of_length_le]
      rw [List.length_append, List.length_singleton]
      omega
    refine ⟨fun hmem => hnewline ?_, by omega⟩
    rw [hline, List.append_cancel_right_eq] at hwhole
    rw [hwhole]
    exact r.newline_mem_line.mpr hmem
  · intro h
    refine ⟨⟨r.line, h.row_eq, h.newline_notMem⟩, r.ids, [newline], ?_⟩
    rw [h.row_eq, LogRecord.line]

/-! ### Logs -/

/-- A field that ends before a separator is read off, if it has no comma. -/
theorem separator_inj {xs ys us vs : List UInt8} (hxs : 44 ∉ xs) (hys : 44 ∉ ys)
    (h : xs ++ text ", " ++ us = ys ++ text ", " ++ vs) : xs = ys ∧ us = vs := by
  simp only [text_separator, List.append_assoc, List.cons_append, List.nil_append] at h
  obtain ⟨hfield, hrest⟩ := Printf.append_separator_inj hxs hys h
  exact ⟨hfield, (List.cons.inj hrest).2⟩

theorem comma_notMem_decimal (n : ℕ) : (44 : UInt8) ∉ decimal n :=
  fun h => absurd (Printf.mem_decimal h).1 (by decide)

theorem comma_notMem_signedDecimal (x : ℤ) : (44 : UInt8) ∉ signedDecimal x :=
  fun h => absurd (Printf.mem_signedDecimal h) (by decide)

/-- A record is determined by its line. -/
theorem LogRecord.line_injective : Function.Injective LogRecord.line := by
  intro r s h
  simp only [LogRecord.line, LogRecord.ids, List.append_assoc] at h
  simp only [← List.append_assoc _ (text ", ")] at h
  -- the four numbers have no comma, and are read off one after the other
  obtain ⟨htid, h⟩ := separator_inj (comma_notMem_signedDecimal _) (comma_notMem_signedDecimal _) h
  obtain ⟨htgid, h⟩ := separator_inj (comma_notMem_signedDecimal _) (comma_notMem_signedDecimal _) h
  obtain ⟨huid, h⟩ := separator_inj (comma_notMem_decimal _) (comma_notMem_decimal _) h
  obtain ⟨heuid, h⟩ := separator_inj (comma_notMem_decimal _) (comma_notMem_decimal _) h
  -- the path may have commas, but the fingerprint behind it has its length
  obtain ⟨hpath, hdigest⟩ := List.append_inj' h (by rw [length_hexString, length_hexString])
  rw [List.append_cancel_right_eq] at hpath
  exact LogRecord.ext (Int32.toInt_inj.mp (Printf.signedDecimal_injective htid))
    (Int32.toInt_inj.mp (Printf.signedDecimal_injective htgid))
    (UInt32.toNat_inj.mp (Printf.decimal_injective huid))
    (UInt32.toNat_inj.mp (Printf.decimal_injective heuid))
    (CStr.ext hpath) (hexString_injective (CStr.ext hdigest))

/-- The records whose rows fit are determined by the log. -/
theorem eq_of_flatMap_row_eq {rs ss : List LogRecord} (hrs : ∀ r ∈ rs, RowFits r)
    (hss : ∀ s ∈ ss, RowFits s) (h : rs.flatMap LogRecord.row = ss.flatMap LogRecord.row) :
    rs = ss := by
  induction rs generalizing ss with
  | nil =>
    cases ss with
    | nil => rfl
    | cons s ss =>
      rw [List.flatMap_nil, List.flatMap_cons, (hss s List.mem_cons_self).row_eq] at h
      simp at h
  | cons r rs ih =>
    have hr := hrs r List.mem_cons_self
    cases ss with
    | nil =>
      rw [List.flatMap_nil, List.flatMap_cons, hr.row_eq] at h
      simp at h
    | cons s ss =>
      have hs := hss s List.mem_cons_self
      rw [List.flatMap_cons, List.flatMap_cons, hr.row_eq, hs.row_eq] at h
      -- the first newline of either log ends its first row
      simp only [List.append_assoc, List.singleton_append] at h
      obtain ⟨hline, hrest⟩ := Printf.append_separator_inj hr.newline_notMem hs.newline_notMem h
      rw [LogRecord.line_injective hline, ih (fun r hr => hrs r (List.mem_cons_of_mem _ hr))
        (fun s hs => hss s (List.mem_cons_of_mem _ hs)) hrest]

/-- For every set of records: their rows are whole, and different sequences of them give different
logs, exactly when no path among them has a newline and each path has, with the four ids, at most
180 characters. -/
theorem logDetermines_iff (S : Set LogRecord) : LogDetermines S ↔ ∀ r ∈ S, RowFits r := by
  constructor
  · intro h r hr
    -- the rows alone give the condition
    exact (rowWhole_iff r).mp (h.whole r hr)
  · intro h
    refine ⟨fun r hr => (rowWhole_iff r).mpr (h r hr), fun rs ss hrs hss hne heq => hne ?_⟩
    exact eq_of_flatMap_row_eq (fun r hr => h r (hrs r hr)) (fun s hs => h s (hss s hs)) heq

/-- A record of a program with the path `/` and then `tail`. -/
def sampleRecord (tail : List UInt8) (hnul : 0 ∉ slash :: tail) (hshort : tail.length < 4095)
    (digest : Vector UInt8 32) : LogRecord where
  tid := 2
  tgid := 1
  uid := 1000
  euid := 1000
  exePath := ⟨slash :: tail, hnul⟩
  digest := digest
  absolute := ⟨tail, rfl⟩
  short := Nat.succ_lt_succ hshort

/-- A record with a path of 240 characters. -/
def longRecord (digest : Vector UInt8 32) : LogRecord :=
  sampleRecord (List.replicate 239 97) (by decide +kernel) (by decide +kernel) digest

/-- A record with a newline in its path. -/
def twoLineRecord : LogRecord :=
  sampleRecord [97, newline, 97] (by decide) (by decide) (Vector.replicate 32 0)

/-- After a long path there is no room for the fingerprint, so that two records with different
digests have the same row. A path with a newline makes a row of two lines. -/
theorem log_confuses_records :
    (longRecord (Vector.replicate 32 0)).digest ≠ (longRecord (Vector.replicate 32 1)).digest ∧
      (longRecord (Vector.replicate 32 0)).row = (longRecord (Vector.replicate 32 1)).row ∧
      twoLineRecord.row.count newline = 2 := by
  decide +kernel

end StackReferenceMonitor
