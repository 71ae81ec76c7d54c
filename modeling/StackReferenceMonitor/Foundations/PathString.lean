import Mathlib.Data.List.Basic
import Mathlib.Data.List.Infix

/-!
# Paths and their spelling

A path from the root is a list of names, and `[]` is the root itself. `PathString.render` spells it
as a string: a slash before each name, and a single slash for the root.

## Main definitions

* `Name`: a name in a directory.
* `PathString.render`: the spelling of a path.

## Main results

* `PathString.render_prefix_render`: the spelling of a path starts that of every path below it;
* `PathString.body_prefix_body_iff`: conversely, a path whose spelling another starts with is above
  it, or its last name only begins the name at its place;
* `PathString.splitOn_render`: splitting at the slashes gives the names back.
-/

/-- A name in a directory: not empty, without slash and NUL, and neither `.` nor `..`. -/
@[ext]
structure Name where
  /-- The characters of the name. -/
  bytes : List UInt8
  /-- A name has characters. -/
  ne_nil : bytes ≠ []
  /-- The separator `/` is not one of them. -/
  slash_notMem : 47 ∉ bytes
  /-- The terminator is not one of them. -/
  nul_notMem : 0 ∉ bytes
  /-- The name `.` stands for the directory itself. -/
  ne_dot : bytes ≠ [46]
  /-- The name `..` stands for its parent. -/
  ne_dotdot : bytes ≠ [46, 46]

/-- Names are equal if their characters are. -/
instance : DecidableEq Name :=
  fun _ _ => decidable_of_iff _ Name.ext_iff.symm

/-- The name with the given characters, if they are those of a name. -/
def Name.ofBytes (bytes : List UInt8) : Option Name :=
  if h : bytes ≠ [] ∧ 47 ∉ bytes ∧ 0 ∉ bytes ∧ bytes ≠ [46] ∧ bytes ≠ [46, 46] then
    some ⟨bytes, h.1, h.2.1, h.2.2.1, h.2.2.2.1, h.2.2.2.2⟩
  else none

@[simp]
theorem Name.ofBytes_bytes (name : Name) : Name.ofBytes name.bytes = some name := by
  have h : name.bytes ≠ [] ∧ 47 ∉ name.bytes ∧ 0 ∉ name.bytes ∧ name.bytes ≠ [46] ∧
      name.bytes ≠ [46, 46] :=
    ⟨name.ne_nil, name.slash_notMem, name.nul_notMem, name.ne_dot, name.ne_dotdot⟩
  rw [Name.ofBytes, dif_pos h]

namespace PathString

/-- The byte `/`. -/
def slash : UInt8 := 47

/-- Each name with a slash before it. -/
def body (path : List Name) : List UInt8 :=
  path.flatMap fun name => slash :: name.bytes

/-- The spelling of a path. -/
def render (path : List Name) : List UInt8 :=
  if path = [] then [slash] else body path

variable {path rest : List Name}

@[simp]
theorem body_nil : body [] = [] := rfl

@[simp]
theorem body_cons (name : Name) (path : List Name) :
    body (name :: path) = slash :: (name.bytes ++ body path) := rfl

theorem body_append (path rest : List Name) : body (path ++ rest) = body path ++ body rest :=
  List.flatMap_append

@[simp]
theorem render_nil : render [] = [slash] := rfl

theorem render_of_ne_nil (h : path ≠ []) : render path = body path :=
  if_neg h

/-- A spelling holds no terminator. -/
theorem nul_notMem_render (path : List Name) : 0 ∉ render path := by
  intro h
  by_cases hpath : path = []
  · subst hpath
    simp [slash] at h
  · rw [render_of_ne_nil hpath, body, List.mem_flatMap] at h
    obtain ⟨name, -, hname⟩ := h
    rcases List.mem_cons.mp hname with h0 | hmem
    · exact absurd h0 (by decide)
    · exact name.nul_notMem hmem

/-- The spelling of a path starts that of every path below it. -/
theorem render_prefix_render (h : path <+: rest) : render path <+: render rest := by
  obtain ⟨below, rfl⟩ := h
  by_cases hpath : path = []
  · subst hpath
    cases below with
    | nil => exact List.prefix_refl _
    | cons name below => exact ⟨name.bytes ++ body below, rfl⟩
  · have hrest : path ++ below ≠ [] := by simp [hpath]
    rw [render_of_ne_nil hpath, render_of_ne_nil hrest, body_append]
    exact List.prefix_append _ _

/-- Splitting at the slashes gives back what comes before the first one, and the names. -/
theorem splitOn_append_body {s : List UInt8} (hs : slash ∉ s) (path : List Name) :
    (s ++ body path).splitOn slash = s :: path.map Name.bytes := by
  induction path generalizing s with
  | nil => rw [body_nil, List.append_nil, List.splitOn_eq_singleton hs, List.map_nil]
  | cons name path ih =>
    rw [body_cons, List.splitOn_append_cons_self, List.splitOn_eq_singleton hs,
      ih name.slash_notMem, List.map_cons, List.singleton_append]

/-- The spelling of a path, with or without one more slash after it: the components are an empty
one, the names, and empty ones. -/
theorem splitOn_render (path : List Name) {s : List UInt8}
    (h : s = render path ∨ s = render path ++ [slash]) :
    ∃ k, s.splitOn slash = [] :: (path.map Name.bytes ++ List.replicate k []) := by
  have hbody : (body path).splitOn slash = [] :: path.map Name.bytes :=
    splitOn_append_body List.not_mem_nil path
  by_cases hpath : path = []
  · -- the root is a slash, or two
    subst hpath
    rcases h with rfl | rfl
    · exact ⟨1, rfl⟩
    · exact ⟨2, rfl⟩
  · rw [render_of_ne_nil hpath] at h
    rcases h with rfl | rfl
    · exact ⟨0, by rw [hbody, List.replicate_zero, List.append_nil]⟩
    · refine ⟨1, ?_⟩
      rw [List.splitOn_append_cons_self, hbody]
      rfl

/-! ### Spellings that start one another -/

/-- One string of separated parts starts another when it ends within the first part of it, or their
first parts agree and what follows starts what follows. -/
theorem append_prefix_append_iff {α : Type*} {sep : α} {s t u v : List α} (hs : sep ∉ s)
    (ht : sep ∉ t) (hu : u = [] ∨ u.head? = some sep) (hv : v = [] ∨ v.head? = some sep) :
    s ++ u <+: t ++ v ↔ u = [] ∧ s <+: t ∨ s = t ∧ u <+: v := by
  constructor
  · intro h
    induction s generalizing t with
    | nil =>
      rcases hu with rfl | hu
      · exact Or.inl ⟨rfl, List.nil_prefix⟩
      · right
        obtain ⟨u, rfl⟩ := List.head?_eq_some_iff.mp hu
        cases t with
        | nil => exact ⟨rfl, h⟩
        | cons b t =>
          obtain ⟨rfl, -⟩ := List.cons_prefix_cons.mp h
          simp at ht
    | cons a s ih =>
      cases t with
      | nil =>
        -- the second string goes on with a separator, the first with something else
        rcases hv with rfl | hv
        · simp at h
        · obtain ⟨v, rfl⟩ := List.head?_eq_some_iff.mp hv
          obtain ⟨rfl, -⟩ := List.cons_prefix_cons.mp h
          simp at hs
      | cons b t =>
        obtain ⟨rfl, hrest⟩ := List.cons_prefix_cons.mp h
        rcases ih (List.not_mem_of_not_mem_cons hs) (List.not_mem_of_not_mem_cons ht) hrest with
          ⟨hu, hst⟩ | ⟨rfl, huv⟩
        · exact Or.inl ⟨hu, List.cons_prefix_cons.mpr ⟨rfl, hst⟩⟩
        · exact Or.inr ⟨rfl, huv⟩
  · rintro (⟨rfl, hst⟩ | ⟨rfl, huv⟩)
    · rw [List.append_nil]
      exact hst.trans (List.prefix_append t v)
    · exact (List.prefix_append_right_inj s).mpr huv

theorem body_eq_nil_or (path : List Name) : body path = [] ∨ (body path).head? = some slash := by
  cases path with
  | nil => exact Or.inl rfl
  | cons name path => exact Or.inr rfl

/-- The last name of the first path properly begins the name at its place in the second, and the
names before it are the same. -/
inductive ExtendsLast : List Name → List Name → Prop
  /-- The last name. -/
  | last {n m : Name} {rest : List Name} (hpre : n.bytes <+: m.bytes) (hne : n ≠ m) :
      ExtendsLast [n] (m :: rest)
  /-- A name before it. -/
  | cons {n : Name} {path other : List Name} (h : ExtendsLast path other) :
      ExtendsLast (n :: path) (n :: other)

/-- A spelling starts another exactly when its path is above the other, or its last name begins the
name at its place. -/
theorem body_prefix_body_iff (path other : List Name) :
    body path <+: body other ↔ path <+: other ∨ ExtendsLast path other := by
  induction path generalizing other with
  | nil => simp
  | cons n path ih =>
    cases other with
    | nil =>
      refine iff_of_false (by simp) ?_
      rintro (h | h)
      · simp at h
      · cases h
    | cons m other =>
      rw [body_cons, body_cons, List.cons_prefix_cons, and_iff_right rfl,
        append_prefix_append_iff n.slash_notMem m.slash_notMem (body_eq_nil_or path)
          (body_eq_nil_or other), ih, ← Name.ext_iff, List.cons_prefix_cons]
      constructor
      · rintro (⟨hnil, hpre⟩ | ⟨rfl, h | h⟩)
        · obtain rfl : path = [] := by
            cases path with
            | nil => rfl
            | cons name path => simp at hnil
          by_cases hnm : n = m
          · exact Or.inl ⟨hnm, List.nil_prefix⟩
          · exact Or.inr (.last hpre hnm)
        · exact Or.inl ⟨rfl, h⟩
        · exact Or.inr (.cons h)
      · rintro (⟨rfl, h⟩ | h)
        · exact Or.inr ⟨rfl, Or.inl h⟩
        · cases h with
          | last hpre hne => exact Or.inl ⟨rfl, hpre⟩
          | cons h => exact Or.inr ⟨rfl, Or.inr h⟩

/-- With a slash after it, it starts the spellings of the paths below only. -/
theorem body_append_prefix_body_iff (path other : List Name) (u : List UInt8) :
    body path ++ slash :: u <+: body other ↔
      ∃ name rest, other = path ++ name :: rest ∧ u <+: name.bytes ++ body rest := by
  induction path generalizing other with
  | nil =>
    cases other with
    | nil => simp
    | cons m other =>
      rw [body_nil, List.nil_append, body_cons, List.cons_prefix_cons, and_iff_right rfl]
      constructor
      · intro h
        exact ⟨m, other, rfl, h⟩
      · rintro ⟨name, rest, heq, h⟩
        obtain ⟨rfl, rfl⟩ := List.cons.inj heq
        exact h
  | cons n path ih =>
    cases other with
    | nil => simp
    | cons m other =>
      have hsep : body path ++ slash :: u = [] ∨ (body path ++ slash :: u).head? = some slash := by
        right
        cases path <;> rfl
      rw [body_cons, body_cons, List.cons_append, List.cons_prefix_cons, and_iff_right rfl,
        List.append_assoc, append_prefix_append_iff n.slash_notMem m.slash_notMem hsep
          (body_eq_nil_or other), ih, ← Name.ext_iff]
      constructor
      · rintro (⟨hnil, -⟩ | ⟨rfl, name, rest, rfl, h⟩)
        · simp at hnil
        · exact ⟨name, rest, rfl, h⟩
      · rintro ⟨name, rest, heq, h⟩
        obtain ⟨rfl, rfl⟩ := List.cons.inj heq
        exact Or.inr ⟨rfl, name, rest, rfl, h⟩

end PathString
