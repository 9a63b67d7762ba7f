import OpenGroupware.Relational.Table
import Mathlib.Data.List.Sort
import Mathlib.Data.List.Perm.Lattice

/-!
Tables that have the same rows in a part of the data, in whatever storage
order: what queries over that part return, and what writes do to it.
-/

namespace Relational

namespace Table

variable {α κ υ : Type} {key : α → κ} {p : α → Prop} {t t' t'' : Table key}

/-- The two tables have the same rows among those with `p`. -/
def AgreeOn (p : α → Prop) (t t' : Table key) : Prop := ∀ r, p r → (r ∈ t ↔ r ∈ t')

namespace AgreeOn

theorem refl (t : Table key) : t.AgreeOn p t := fun _ _ => Iff.rfl

theorem symm (h : t.AgreeOn p t') : t'.AgreeOn p t := fun r hr => (h r hr).symm

theorem trans (h : t.AgreeOn p t') (h' : t'.AgreeOn p t'') : t.AgreeOn p t'' :=
  fun r hr => (h r hr).trans (h' r hr)

theorem exists_iff (h : t.AgreeOn p t') {q : α → Prop} (hq : ∀ r, q r → p r) :
    (∃ r ∈ t, q r) ↔ ∃ r ∈ t', q r := by
  constructor
  · rintro ⟨r, hr, hqr⟩
    exact ⟨r, (h r (hq r hqr)).1 hr, hqr⟩
  · rintro ⟨r, hr, hqr⟩
    exact ⟨r, (h r (hq r hqr)).2 hr, hqr⟩

theorem has_eq [DecidableEq υ] (h : t.AgreeOn p t') {f : α → υ} {v : υ}
    (hp : ∀ r, f r = v → p r) : t.has f v = t'.has f v := by
  rw [Bool.eq_iff_iff, has_eq_true, has_eq_true]
  exact h.exists_iff hp

theorem filter_perm (h : t.AgreeOn p t') {q : α → Bool} (hq : ∀ r, q r = true → p r) :
    (t.rows.filter q).Perm (t'.rows.filter q) := by
  refine (List.perm_ext_iff_of_nodup (t.nodup.of_map.filter _) (t'.nodup.of_map.filter _)).2 ?_
  intro r
  simp only [List.mem_filter, mem_rows]
  exact and_congr_left fun hqr => h r (hq r hqr)

/-- Sorting by an order without ties returns the same list. -/
theorem insertionSort_eq (h : t.AgreeOn p t') {q : α → Bool} (hq : ∀ r, q r = true → p r)
    {le : α → α → Prop} [DecidableRel le] [Std.Total le] [IsTrans α le]
    (hties : ∀ a b, le a b → le b a → key a = key b) :
    (t.rows.filter q).insertionSort le = (t'.rows.filter q).insertionSort le := by
  have hperm : ((t.rows.filter q).insertionSort le).Perm
      ((t'.rows.filter q).insertionSort le) :=
    (List.perm_insertionSort le _).trans
      ((h.filter_perm hq).trans (List.perm_insertionSort le _).symm)
  refine hperm.eq_of_pairwise ?_ (List.pairwise_insertionSort le _)
    (List.pairwise_insertionSort le _)
  intro a b ha hb hab hba
  obtain ⟨ha, hqa⟩ := List.mem_filter.1 ((List.mem_insertionSort le).1 ha)
  obtain ⟨hb, -⟩ := List.mem_filter.1 ((List.mem_insertionSort le).1 hb)
  exact eq_of_key ((h a (hq a hqa)).1 ha) hb (hties a b hab hba)

variable [DecidableEq κ]

theorem find?_filter_eq (h : t.AgreeOn p t') {q : α → Bool} (hq : ∀ r, q r = true → p r)
    (k : κ) : (t.find? k).filter q = (t'.find? k).filter q := by
  refine Option.ext fun r => ?_
  rw [Option.filter_eq_some_iff, Option.filter_eq_some_iff, find?_eq_some, find?_eq_some]
  exact and_congr_left fun hqr => and_congr_left fun _ => h r (hq r hqr)

theorem find?_eq (h : t.AgreeOn p t') {k : κ} (hp : ∀ r, key r = k → p r) :
    t.find? k = t'.find? k := by
  refine Option.ext fun r => ?_
  rw [find?_eq_some, find?_eq_some]
  exact and_congr_left fun hk => h r (hp r hk)

theorem put (h : t.AgreeOn p t') (r : α) : (t.put r).AgreeOn p (t'.put r) := by
  intro x hx
  rw [mem_put, mem_put, h x hx]

/-- A write outside the part leaves it as it was. -/
theorem put_other {r : α} (hr : ¬p r) (ht : ∀ x ∈ t, key x = key r → ¬p x) :
    t.AgreeOn p (t.put r) := by
  intro x hx
  rw [mem_put]
  constructor
  · exact fun hmem => .inr ⟨hmem, fun hk => ht x hmem hk hx⟩
  · rintro (rfl | ⟨hmem, -⟩)
    · exact absurd hx hr
    · exact hmem

end AgreeOn

end Table

/-- A change to a row of another owner, where changes keep the owner. -/
theorem Change.Fits.agreeOn_put {α κ υ φ : Type} [DecidableEq κ] {key : α → κ} {alt : α → υ}
    {owner : α → φ} {T : φ} {c : Change α} {t : Table key} (h : c.Fits alt owner t)
    (hc : owner c.new ≠ T) : t.AgreeOn (fun r => owner r = T) (t.put c.new) :=
  .put_other hc fun _ hx hk => (h.fixed_eq hx hk).trans_ne hc

end Relational
