import Mathlib.Data.List.Basic

/-!
`ORDER BY … LIMIT n`: which rows of a sorted list are among the first `n`.
-/

namespace Relational

variable {α : Type} {le : α → α → Bool} {l : List α} {n : Nat}

/-- Some row with `p` is among the first `n` when fewer than `n` rows without
`p` may stand before each row with `p`. -/
theorem exists_mem_take {p : α → Bool} (hl : l.Pairwise fun a b => le a b = true)
    (hcount : ∀ x ∈ l, p x = true → l.countP (fun y => !p y && le y x) < n)
    (h : ∃ x ∈ l, p x = true) : ∃ x ∈ l.take n, p x = true := by
  obtain ⟨x, hx⟩ := Option.isSome_iff_exists.1 (List.find?_isSome.2 h)
  obtain ⟨hp, before, after, rfl, hbefore⟩ := List.find?_eq_some_iff_append.1 hx
  refine ⟨x, ?_, hp⟩
  -- all rows before the first one with `p` are counted
  have hlen : before.length < n := by
    have hall : before.countP (fun y => !p y && le y x) = before.length := by
      rw [List.countP_eq_length]
      intro y hy
      rw [Bool.and_eq_true]
      exact ⟨hbefore y hy, (List.pairwise_append.1 hl).2.2 y hy x List.mem_cons_self⟩
    have hx := hcount x (List.mem_append_right _ List.mem_cons_self) hp
    rw [List.countP_append, hall] at hx
    exact Nat.lt_of_le_of_lt (Nat.le_add_right _ _) hx
  rw [List.take_append, List.mem_append]
  refine .inr ?_
  obtain ⟨k, hk⟩ : ∃ k, n - before.length = k + 1 := ⟨n - before.length - 1, by omega⟩
  rw [hk, List.take_succ_cons]
  exact List.mem_cons_self

/-- A row is not among the first `n` when `n` rows have to stand before it. -/
theorem not_mem_take {q : α → Bool} {a : α} (hl : l.Pairwise fun a b => le a b = true)
    (hrefl : le a a = true) (hq : ∀ y ∈ l, q y = true → le a y = false)
    (hcount : n ≤ l.countP q) : a ∉ l.take n := by
  intro ha
  have hqa : ¬q a = true := fun h => by
    rw [hq a (List.mem_of_mem_take ha) h] at hrefl
    cases hrefl
  have hsplit : l.countP q = (l.take n).countP q + (l.drop n).countP q := by
    rw [← List.countP_append, List.take_append_drop]
  have hdrop : (l.drop n).countP q = 0 := by
    rw [List.countP_eq_zero]
    intro y hy hqy
    have hle : le a y = true := by
      rw [← List.take_append_drop n l] at hl
      exact (List.pairwise_append.1 hl).2.2 a ha y hy
    rw [hq y (List.mem_of_mem_drop hy) hqy] at hle
    cases hle
  have htake : (l.take n).countP q < (l.take n).length := by
    refine Nat.lt_of_le_of_ne List.countP_le_length fun h => hqa ?_
    exact List.countP_eq_length.1 h a ha
  have hlen : (l.take n).length ≤ n := List.length_take_le n l
  omega

/-- A count goes down when a row loses the property and none gains it. -/
theorem countP_map_lt {p : α → Bool} {f : α → α} (hf : ∀ x ∈ l, p (f x) = true → p x = true)
    (h : ∃ x ∈ l, p x = true ∧ p (f x) = false) : (l.map f).countP p < l.countP p := by
  rw [List.countP_map]
  induction l with
  | nil => simp at h
  | cons x xs ih =>
      have hle : xs.countP (p ∘ f) ≤ xs.countP p :=
        List.countP_mono_left fun y hy => hf y (List.mem_cons_of_mem _ hy)
      obtain ⟨y, hy, hpy, hpf⟩ := h
      rcases List.mem_cons.1 hy with rfl | hy
      · simp only [List.countP_cons, Function.comp_apply, hpy, hpf]
        simp only [if_true, Bool.false_eq_true, if_false, Nat.add_zero]
        exact Nat.lt_succ_of_le hle
      · have hlt := ih (fun z hz => hf z (List.mem_cons_of_mem _ hz)) ⟨y, hy, hpy, hpf⟩
        simp only [List.countP_cons, Function.comp_apply]
        by_cases hx : p (f x) = true
        · rw [if_pos hx, if_pos (hf x List.mem_cons_self hx)]
          exact Nat.add_lt_add_right hlt 1
        · rw [if_neg hx, Nat.add_zero]
          exact Nat.lt_add_right _ hlt

end Relational
