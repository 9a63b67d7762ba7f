import Mathlib.Data.List.Nodup

/-!
Tables with a primary key, and the changes transactions make to their rows.
A table is the list of its rows in storage order; that no two rows share the
key is part of the type, so every table that can be written down is a legal
one.
-/

namespace Relational

variable {α κ υ φ : Type}

/-- Replace the row that has the key of `r`, or append `r`. -/
def upsert [DecidableEq κ] (key : α → κ) (r : α) : List α → List α
  | [] => [r]
  | x :: xs => if key x = key r then r :: xs else x :: upsert key r xs

section Upsert

variable [DecidableEq κ] (key : α → κ) (r : α)

theorem map_key_upsert (l : List α) :
    (upsert key r l).map key =
      if key r ∈ l.map key then l.map key else l.map key ++ [key r] := by
  induction l with
  | nil => rfl
  | cons x xs ih =>
      by_cases hx : key x = key r
      · simp [upsert, hx]
      · have hx' : key r ≠ key x := fun h => hx h.symm
        simp only [upsert, hx, if_false, List.map_cons, ih, List.mem_cons, hx', false_or]
        split <;> simp

theorem nodup_upsert {l : List α} (h : (l.map key).Nodup) :
    ((upsert key r l).map key).Nodup := by
  rw [map_key_upsert]
  split
  · exact h
  · rename_i hr
    exact List.nodup_append.2 ⟨h, List.nodup_singleton _, by
      intro a ha b hb hab
      rw [List.mem_singleton] at hb
      exact hr (hb ▸ hab ▸ ha)⟩

theorem mem_upsert {l : List α} (h : (l.map key).Nodup) {y : α} :
    y ∈ upsert key r l ↔ y = r ∨ (y ∈ l ∧ key y ≠ key r) := by
  induction l with
  | nil => simp [upsert]
  | cons x xs ih =>
      rw [List.map_cons, List.nodup_cons] at h
      by_cases hx : key x = key r
      · have hxs : ∀ z ∈ xs, key z ≠ key r := fun z hz hzr =>
          h.1 (List.mem_map.2 ⟨z, hz, hzr.trans hx.symm⟩)
        rw [upsert, if_pos hx, List.mem_cons]
        constructor
        · rintro (hy | hy)
          · exact .inl hy
          · exact .inr ⟨List.mem_cons_of_mem _ hy, hxs y hy⟩
        · rintro (hy | ⟨hy, hne⟩)
          · exact .inl hy
          · rcases List.mem_cons.1 hy with rfl | hy
            · exact absurd hx hne
            · exact .inr hy
      · rw [upsert, if_neg hx, List.mem_cons, ih h.2, List.mem_cons]
        constructor
        · rintro (rfl | hy | ⟨hy, hne⟩)
          · exact .inr ⟨.inl rfl, hx⟩
          · exact .inl hy
          · exact .inr ⟨.inr hy, hne⟩
        · rintro (hy | ⟨rfl | hy, hne⟩)
          · exact .inr (.inl hy)
          · exact .inl rfl
          · exact .inr (.inr ⟨hy, hne⟩)

/-- Replacing a row keeps the storage order. -/
theorem upsert_of_mem {l : List α} (hnodup : (l.map key).Nodup) (h : ∃ x ∈ l, key x = key r) :
    upsert key r l = l.map fun x => if key x = key r then r else x := by
  induction l with
  | nil => simp at h
  | cons x xs ih =>
      rw [List.map_cons, List.nodup_cons] at hnodup
      by_cases hx : key x = key r
      · have hxs : ∀ z ∈ xs, (if key z = key r then r else z) = z := fun z hz =>
          if_neg fun hzr => hnodup.1 (List.mem_map.2 ⟨z, hz, hzr.trans hx.symm⟩)
        rw [upsert, if_pos hx, List.map_cons, if_pos hx, List.map_congr_left hxs, List.map_id']
      · obtain ⟨y, hy, hyr⟩ := h
        rcases List.mem_cons.1 hy with rfl | hy
        · exact absurd hyr hx
        · rw [upsert, if_neg hx, List.map_cons, if_neg hx, ih hnodup.2 ⟨y, hy, hyr⟩]

end Upsert

/-- A table: its rows in storage order, no two with the same primary key. -/
structure Table (key : α → κ) where
  rows : List α
  nodup : (rows.map key).Nodup

namespace Table

variable {key : α → κ}

instance : Membership α (Table key) := ⟨fun t r => r ∈ t.rows⟩

theorem mem_def {t : Table key} {r : α} : r ∈ t ↔ r ∈ t.rows := Iff.rfl

@[simp] theorem mem_rows {t : Table key} {r : α} : r ∈ t.rows ↔ r ∈ t := Iff.rfl

/-- The table without rows. -/
def empty : Table key := ⟨[], by simp⟩

@[simp] theorem rows_empty : (empty : Table key).rows = [] := rfl

@[simp] theorem not_mem_empty (r : α) : r ∉ (empty : Table key) := List.not_mem_nil

theorem eq_of_key {t : Table key} {r r' : α} (hr : r ∈ t) (hr' : r' ∈ t)
    (h : key r = key r') : r = r' :=
  List.inj_on_of_nodup_map t.nodup hr hr' h

/-- The rows that satisfy `p`, in storage order. -/
def select (t : Table key) (p : α → Bool) : Table key where
  rows := t.rows.filter p
  nodup := (List.Sublist.map key List.filter_sublist).nodup t.nodup

@[simp] theorem rows_select (t : Table key) (p : α → Bool) :
    (t.select p).rows = t.rows.filter p := rfl

@[simp] theorem mem_select {t : Table key} {p : α → Bool} {r : α} :
    r ∈ t.select p ↔ r ∈ t ∧ p r = true := List.mem_filter

/-- Some row has `v` in column `f`. -/
def has [DecidableEq υ] (t : Table key) (f : α → υ) (v : υ) : Bool :=
  t.rows.any fun r => decide (f r = v)

@[simp] theorem has_eq_true [DecidableEq υ] {t : Table key} {f : α → υ} {v : υ} :
    t.has f v = true ↔ ∃ r ∈ t, f r = v := by
  simp [has]

@[simp] theorem has_eq_false [DecidableEq υ] {t : Table key} {f : α → υ} {v : υ} :
    t.has f v = false ↔ ∀ r ∈ t, f r ≠ v := by
  simp [has]

variable [DecidableEq κ]

/-- Write a row: replace the row with its key, or append it. -/
def put (t : Table key) (r : α) : Table key :=
  ⟨upsert key r t.rows, nodup_upsert key r t.nodup⟩

@[simp] theorem rows_put (t : Table key) (r : α) : (t.put r).rows = upsert key r t.rows := rfl

@[simp] theorem mem_put {t : Table key} {r y : α} :
    y ∈ t.put r ↔ y = r ∨ (y ∈ t ∧ key y ≠ key r) := mem_upsert key r t.nodup

/-- The row with a given primary key. -/
def find? (t : Table key) (k : κ) : Option α := t.rows.find? fun r => decide (key r = k)

theorem find?_eq_some {t : Table key} {k : κ} {r : α} :
    t.find? k = some r ↔ r ∈ t ∧ key r = k := by
  constructor
  · intro h
    exact ⟨List.mem_of_find?_eq_some h, by simpa using List.find?_some h⟩
  · rintro ⟨hr, hk⟩
    cases hf : t.find? k with
    | none =>
        have := List.find?_eq_none.1 hf r hr
        simp [hk] at this
    | some r' =>
        have hr' : r' ∈ t := List.mem_of_find?_eq_some hf
        have hk' : key r' = k := by simpa using List.find?_some hf
        rw [eq_of_key hr' hr (hk'.trans hk.symm)]

theorem find?_eq_none {t : Table key} {k : κ} :
    t.find? k = none ↔ ∀ r ∈ t, key r ≠ k := by
  simp [find?, List.find?_eq_none]

theorem find?_put {t : Table key} {r : α} {k : κ} :
    (t.put r).find? k = if key r = k then some r else t.find? k := by
  by_cases hk : key r = k
  · rw [if_pos hk, find?_eq_some, mem_put]
    exact ⟨.inl rfl, hk⟩
  · rw [if_neg hk]
    cases h : t.find? k with
    | none =>
        rw [find?_eq_none] at h ⊢
        intro x hx
        rcases mem_put.1 hx with rfl | ⟨hx, -⟩
        · exact hk
        · exact h x hx
    | some x =>
        rw [find?_eq_some] at h ⊢
        exact ⟨mem_put.2 (.inr ⟨h.1, fun hx => hk (hx.symm.trans h.2)⟩), h.2⟩

theorem rows_put_of_mem {t : Table key} {r : α} (h : ∃ x ∈ t, key x = key r) :
    (t.put r).rows = t.rows.map fun x => if key x = key r then r else x :=
  upsert_of_mem key r t.nodup h

theorem exists_key_put {t : Table key} {r : α} {k : κ} (h : ∃ x ∈ t, key x = k) :
    ∃ x ∈ t.put r, key x = k := by
  obtain ⟨x, hx, hk⟩ := h
  by_cases hr : key x = key r
  · exact ⟨r, by simp, hr.symm.trans hk⟩
  · exact ⟨x, by simp [hx, hr], hk⟩

end Table

/-- One write to a table: the row image it replaces, none for an insertion,
and the row it leaves. -/
structure Change (α : Type) where
  old : Option α
  new : α

namespace Change

/-- Two changes that row locks and unique indexes do not let proceed side by
side: the same primary key, or the same value `alt` of a second unique key. -/
def Clashes (key : α → κ) (alt : α → υ) (c c' : Change α) : Prop :=
  key c.new = key c'.new ∨ alt c.new = alt c'.new

theorem Clashes.symm {key : α → κ} {alt : α → υ} {c c' : Change α}
    (h : Clashes key alt c c') : Clashes key alt c' c :=
  h.imp Eq.symm Eq.symm

/-- The change is still good for the table: an insertion finds both its keys
unused, an update finds the image it replaces, whose keys and `fixed` columns
it keeps. -/
def Fits {key : α → κ} (alt : α → υ) (fixed : α → φ) (c : Change α) (t : Table key) : Prop :=
  match c.old with
  | none => ∀ x ∈ t, key x ≠ key c.new ∧ alt x ≠ alt c.new
  | some o => o ∈ t ∧ key o = key c.new ∧ alt o = alt c.new ∧ fixed o = fixed c.new

variable {key : α → κ} {alt : α → υ} {fixed : α → φ}

/-- Changes that do not clash neither help nor hurt each other. -/
theorem fits_put_iff [DecidableEq κ] {c c' : Change α} {t : Table key}
    (hfit : Fits alt fixed c' t) (hno : ¬Clashes key alt c c') :
    Fits alt fixed c (t.put c'.new) ↔ Fits alt fixed c t := by
  obtain ⟨hkey, halt⟩ := not_or.1 hno
  unfold Fits
  cases hold : c.old with
  | some o =>
      simp only [Table.mem_put]
      constructor
      · rintro ⟨rfl | ⟨ho, -⟩, hk, hrest⟩
        · exact absurd hk.symm hkey
        · exact ⟨ho, hk, hrest⟩
      · rintro ⟨ho, hk, hrest⟩
        exact ⟨.inr ⟨ho, fun h => hkey (hk.symm.trans h)⟩, hk, hrest⟩
  | none =>
      simp only [Table.mem_put]
      constructor
      · intro h x hx
        by_cases hxc : key x = key c'.new
        · -- `x` is the image that `c'` replaced, so it has the keys of `c'`
          have hxa : alt x = alt c'.new := by
            unfold Fits at hfit
            cases hold' : c'.old with
            | none => exact absurd hxc (by simp only [hold'] at hfit; exact (hfit x hx).1)
            | some o' =>
                simp only [hold'] at hfit
                rw [Table.eq_of_key hx hfit.1 (hxc.trans hfit.2.1.symm)]
                exact hfit.2.2.1
          exact ⟨fun hk => hkey (hk.symm.trans hxc), fun ha => halt (ha.symm.trans hxa)⟩
        · exact h x (.inr ⟨hx, hxc⟩)
      · rintro h x (rfl | ⟨hx, -⟩)
        · exact ⟨fun hk => hkey hk.symm, fun ha => halt ha.symm⟩
        · exact h x hx

/-- The rows a fitting change may replace share its `fixed` columns. -/
theorem Fits.fixed_eq {c : Change α} {t : Table key} (h : Fits alt fixed c t) {x : α}
    (hx : x ∈ t) (hk : key x = key c.new) : fixed x = fixed c.new := by
  unfold Fits at h
  cases hold : c.old with
  | none => simp only [hold] at h; exact absurd hk (h x hx).1
  | some o =>
      simp only [hold] at h
      rw [Table.eq_of_key hx h.1 (hk.trans h.2.1.symm)]
      exact h.2.2.2

/-- A second unique key stays unique under fitting changes. -/
theorem Fits.unique_put [DecidableEq κ] {c : Change α} {t : Table key}
    (h : Fits alt fixed c t) (hu : ∀ x ∈ t, ∀ y ∈ t, alt x = alt y → x = y) :
    ∀ x ∈ t.put c.new, ∀ y ∈ t.put c.new, alt x = alt y → x = y := by
  -- a row that survives the write and has the `alt` of the new row is the replaced one
  have key_of_alt : ∀ x ∈ t, alt x = alt c.new → key x = key c.new := by
    intro x hx ha
    unfold Fits at h
    cases hold : c.old with
    | none => simp only [hold] at h; exact absurd ha (h x hx).2
    | some o =>
        simp only [hold] at h
        rw [hu x hx o h.1 (ha.trans h.2.2.1.symm)]
        exact h.2.1
  intro x hx y hy ha
  rw [Table.mem_put] at hx hy
  rcases hx with rfl | ⟨hx, hxk⟩
  · rcases hy with rfl | ⟨hy, hyk⟩
    · rfl
    · exact absurd (key_of_alt y hy ha.symm) hyk
  · rcases hy with rfl | ⟨hy, -⟩
    · exact absurd (key_of_alt x hx ha) hxk
    · exact hu x hx y hy ha

end Change

namespace Table

variable {key : α → κ} {R : α → α → Prop} {t t' t'' : Table key}

/-- Every row of `t` has a successor in `t'`. -/
def Leads (R : α → α → Prop) (t t' : Table key) : Prop := ∀ x ∈ t, ∃ y ∈ t', R x y

theorem Leads.refl (hR : ∀ x, R x x) (t : Table key) : t.Leads R t := fun x hx => ⟨x, hx, hR x⟩

theorem Leads.trans (hR : ∀ x y z, R x y → R y z → R x z) (h : t.Leads R t')
    (h' : t'.Leads R t'') : t.Leads R t'' := by
  intro x hx
  obtain ⟨y, hy, hxy⟩ := h x hx
  obtain ⟨z, hz, hyz⟩ := h' y hy
  exact ⟨z, hz, hR x y z hxy hyz⟩

/-- A fitting change gives the row it replaces the new one as successor. -/
theorem Leads.put [DecidableEq κ] {alt : α → υ} {fixed : α → φ} {c : Change α}
    (hR : ∀ x, R x x) (hfit : c.Fits alt fixed t) (hc : ∀ o, c.old = some o → R o c.new) :
    t.Leads R (t.put c.new) := by
  intro x hx
  by_cases hk : key x = key c.new
  · refine ⟨c.new, by simp, ?_⟩
    unfold Change.Fits at hfit
    cases hold : c.old with
    | none => simp only [hold] at hfit; exact absurd hk (hfit x hx).1
    | some o =>
        simp only [hold] at hfit
        rw [eq_of_key hx hfit.1 (hk.trans hfit.2.1.symm)]
        exact hc o hold
  · exact ⟨x, by simp [hx, hk], hR x⟩

end Table

end Relational
