import Mathlib.Order.Lattice

/-!
Maps kept in key order. The order of the entries is part of the type. The one
update there is adds to the value of a key, or to an initial value when the
key is new; rows are grouped by it.
-/

namespace Relational

variable {α κ υ : Type} [LinearOrder κ]

/-- Change the value of a key, or give it one, in a sorted list of entries. -/
def alterEntries (k : κ) (init : υ) (f : υ → υ) : List (κ × υ) → List (κ × υ)
  | [] => [(k, f init)]
  | (x, v) :: es =>
      if k < x then (k, f init) :: (x, v) :: es
      else if k = x then (x, f v) :: es
      else (x, v) :: alterEntries k init f es

theorem mem_keys_alterEntries {k : κ} {init : υ} {f : υ → υ} {es : List (κ × υ)} {e : κ × υ}
    (h : e ∈ alterEntries k init f es) : e.1 = k ∨ ∃ v, (e.1, v) ∈ es := by
  induction es with
  | nil => exact .inl (congrArg Prod.fst (List.mem_singleton.1 h))
  | cons x es ih =>
      rw [alterEntries] at h
      split at h
      · rcases List.mem_cons.1 h with rfl | h
        · exact .inl rfl
        · exact .inr ⟨e.2, h⟩
      · split at h
        · rename_i hk
          rcases List.mem_cons.1 h with rfl | h
          · exact .inl hk.symm
          · exact .inr ⟨e.2, List.mem_cons_of_mem _ h⟩
        · rcases List.mem_cons.1 h with rfl | h
          · exact .inr ⟨x.2, List.mem_cons_self⟩
          · rcases ih h with h | ⟨v, hv⟩
            · exact .inl h
            · exact .inr ⟨v, List.mem_cons_of_mem _ hv⟩

theorem sorted_alterEntries {k : κ} {init : υ} {f : υ → υ} {es : List (κ × υ)}
    (h : es.Pairwise fun a b => a.1 < b.1) :
    (alterEntries k init f es).Pairwise fun a b => a.1 < b.1 := by
  induction es with
  | nil => exact List.pairwise_singleton _ _
  | cons x es ih =>
      have htail := (List.pairwise_cons.1 h).1
      rw [alterEntries]
      split
      · rename_i hk
        refine List.pairwise_cons.2 ⟨fun e he => ?_, h⟩
        rcases List.mem_cons.1 he with rfl | he
        · exact hk
        · exact lt_trans hk (htail e he)
      · split
        · exact List.pairwise_cons.2 ⟨fun e he => htail e he, h.of_cons⟩
        · rename_i hlt hne
          refine List.pairwise_cons.2 ⟨fun e he => ?_, ih h.of_cons⟩
          rcases mem_keys_alterEntries he with heq | ⟨v, hv⟩
          · rw [heq]
            exact lt_of_le_of_ne (not_lt.1 hlt) (Ne.symm hne)
          · exact htail (e.1, v) hv

/-- A map as its entries in key order. -/
structure Ordered (κ υ : Type) [LinearOrder κ] where
  entries : List (κ × υ)
  sorted : entries.Pairwise fun a b => a.1 < b.1

namespace Ordered

def empty : Ordered κ υ := ⟨[], List.Pairwise.nil⟩

def alter (m : Ordered κ υ) (k : κ) (init : υ) (f : υ → υ) : Ordered κ υ :=
  ⟨alterEntries k init f m.entries, sorted_alterEntries m.sorted⟩

def get (m : Ordered κ υ) (k : κ) : Option υ := m.entries.lookup k

@[simp] theorem get_empty (k : κ) : (empty : Ordered κ υ).get k = none := rfl

variable {m : Ordered κ υ} {k x : κ} {init : υ} {f : υ → υ} {v : υ}

theorem lookup_cons_if {e : κ × υ} {es : List (κ × υ)} :
    (e :: es).lookup k = if k = e.1 then some e.2 else es.lookup k := by
  rw [List.lookup_cons]
  by_cases hk : k = e.1
  · simp [hk]
  · simp [hk, beq_eq_false_iff_ne.2 hk]

theorem lookup_eq_some {es : List (κ × υ)} (h : es.Pairwise fun a b => a.1 < b.1) :
    es.lookup k = some v ↔ (k, v) ∈ es := by
  induction es with
  | nil => simp
  | cons e es ih =>
      have htail := (List.pairwise_cons.1 h).1
      rw [lookup_cons_if, List.mem_cons]
      by_cases hk : k = e.1
      · subst hk
        have hno : (e.1, v) ∉ es := fun hmem => lt_irrefl _ (htail (e.1, v) hmem)
        rw [if_pos rfl, or_iff_left hno, Option.some.injEq]
        exact ⟨fun heq => heq ▸ rfl, fun heq => (congrArg Prod.snd heq).symm⟩
      · have hne : (k, v) ≠ e := fun heq => hk (congrArg Prod.fst heq)
        rw [if_neg hk, or_iff_right hne, ih h.of_cons]

theorem get_eq_some : m.get k = some v ↔ (k, v) ∈ m.entries := lookup_eq_some m.sorted

theorem get_alter : (m.alter k init f).get x =
    if x = k then some (f ((m.get k).getD init)) else m.get x := by
  obtain ⟨es, hes⟩ := m
  change (alterEntries k init f es).lookup x =
    if x = k then some (f ((es.lookup k).getD init)) else es.lookup x
  induction es with
  | nil => rw [alterEntries, lookup_cons_if]; rfl
  | cons e es ih =>
      have htail := (List.pairwise_cons.1 hes).1
      have ih := ih hes.of_cons
      rw [alterEntries]
      split
      · rename_i hlt
        have hnone : (e :: es).lookup k = none := by
          rw [List.lookup_eq_none_iff]
          intro e' he'
          rw [bne_iff_ne]
          rcases List.mem_cons.1 he' with rfl | he'
          · exact hlt.ne
          · exact (lt_trans hlt (htail _ he')).ne
        rw [hnone, lookup_cons_if]
        rfl
      · split
        · rename_i hk
          subst hk
          simp only [lookup_cons_if, if_true, Option.getD_some]
          split
          · rfl
          · rfl
        · rename_i hne
          rw [lookup_cons_if, ih, lookup_cons_if, lookup_cons_if, if_neg hne]
          by_cases hx : x = e.1
          · have hxk : x ≠ k := fun h => hne (h.symm.trans hx)
            rw [if_pos hx, if_neg hxk, if_pos hx]
          · rw [if_neg hx, if_neg hx]

/-! ### Grouping -/

/-- Group rows by key. A group starts from what its first row says. -/
def group (key : α → κ) (init : α → υ) (add : υ → α → υ) (rows : List α) : Ordered κ υ :=
  rows.foldl (fun m r => m.alter (key r) (init r) fun v => add v r) empty

/-- A group is made of the rows with its key, in their order. -/
theorem get_group {key : α → κ} {init : α → υ} {add : υ → α → υ} {rows : List α} :
    (group key init add rows).get k =
      (rows.filter fun r => key r = k).head?.map fun r =>
        (rows.filter fun r => key r = k).foldl add (init r) := by
  have hfold : ∀ m : Ordered κ υ,
      (rows.foldl (fun m r => m.alter (key r) (init r) fun v => add v r) m).get k =
        ((m.get k).or ((rows.filter fun r => key r = k).head?.map init)).map fun v =>
          (rows.filter fun r => key r = k).foldl add v := by
    induction rows with
    | nil => simp
    | cons r rows ih =>
        intro m
        rw [List.foldl_cons, ih, get_alter]
        by_cases hk : key r = k
        · cases hm : m.get (key r) <;> simp [hk, hk ▸ hm]
        · simp [hk, Ne.symm hk]
  rw [group, hfold]
  simp [Option.map_map, Function.comp_def]

end Ordered

end Relational
