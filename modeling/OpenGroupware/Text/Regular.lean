import Mathlib.Computability.RegularExpressions

/-!
The regular expressions of column constraints, on top of Mathlib's: bracket
expressions, bounded and optional repetition, and what can be said of every
word an expression matches from the characters it is written with.
-/

namespace Text

open RegularExpression

/-- `[...]`. -/
def oneOf (cs : List Char) : RegularExpression Char :=
  cs.foldr (fun c P => char c + P) 0

/-- `P?`. -/
def optional (P : RegularExpression Char) : RegularExpression Char := 1 + P

/-- `P{0,n}`. -/
def upTo (n : Nat) (P : RegularExpression Char) : RegularExpression Char := optional P ^ n

/-- `P{m,n}`. -/
def between (m n : Nat) (P : RegularExpression Char) : RegularExpression Char :=
  P ^ m * upTo (n - m) P

/-- `P+`. -/
def plus (P : RegularExpression Char) : RegularExpression Char := P * star P

theorem mem_oneOf {cs : List Char} {w : List Char} :
    w ∈ (oneOf cs).matches' ↔ ∃ c ∈ cs, w = [c] := by
  induction cs with
  | nil => simp [oneOf, RegularExpression.matches']
  | cons c cs ih =>
      change w ∈ (char c + oneOf cs).matches' ↔ _
      rw [matches'_add, Language.mem_add, ih, matches'_char]
      simp only [List.mem_cons, exists_eq_or_imp]
      exact Iff.rfl

theorem mem_optional {P : RegularExpression Char} {w : List Char} :
    w ∈ (optional P).matches' ↔ w = [] ∨ w ∈ P.matches' := by
  rw [optional, matches'_add, Language.mem_add, matches'_epsilon, Language.mem_one]

theorem mem_plus {P : RegularExpression Char} {w : List Char} :
    w ∈ (plus P).matches' ↔ ∃ us : List (List Char), us ≠ [] ∧ us.flatten = w ∧
      ∀ u ∈ us, u ∈ P.matches' := by
  rw [plus, matches'_mul, Language.mem_mul]
  constructor
  · rintro ⟨u, hu, v, hv, rfl⟩
    rw [matches'_star, Language.mem_kstar] at hv
    obtain ⟨vs, rfl, hvs⟩ := hv
    refine ⟨u :: vs, List.cons_ne_nil u vs, List.flatten_cons, fun x hx => ?_⟩
    rcases List.mem_cons.1 hx with rfl | hx
    · exact hu
    · exact hvs x hx
  · rintro ⟨us, hne, rfl, hus⟩
    obtain ⟨u, vs, rfl⟩ := List.exists_cons_of_ne_nil hne
    refine ⟨u, hus u List.mem_cons_self, vs.flatten, ?_, List.flatten_cons.symm⟩
    rw [matches'_star, Language.mem_kstar]
    exact ⟨vs, rfl, fun x hx => hus x (List.mem_cons_of_mem _ hx)⟩

/-! ### Repeated bracket expressions -/

theorem mem_pow_succ {P : RegularExpression Char} {n : Nat} {w : List Char} :
    w ∈ (P ^ (n + 1)).matches' ↔ ∃ u ∈ (P ^ n).matches', ∃ v ∈ P.matches', u ++ v = w := by
  rw [matches'_pow, pow_succ, Language.mem_mul, matches'_pow]

theorem mem_oneOf_pow {cs : List Char} {n : Nat} {w : List Char} :
    w ∈ (oneOf cs ^ n).matches' ↔ w.length = n ∧ ∀ c ∈ w, c ∈ cs := by
  induction n generalizing w with
  | zero =>
      rw [matches'_pow, pow_zero, Language.mem_one, List.length_eq_zero_iff]
      constructor
      · rintro rfl
        simp
      · exact fun h => h.1
  | succ n ih =>
      rw [mem_pow_succ]
      constructor
      · rintro ⟨u, hu, v, hv, rfl⟩
        obtain ⟨hlen, hall⟩ := ih.1 hu
        obtain ⟨c, hc, rfl⟩ := mem_oneOf.1 hv
        refine ⟨by simp [hlen], fun x hx => ?_⟩
        rcases List.mem_append.1 hx with hx | hx
        · exact hall x hx
        · rwa [List.mem_singleton.1 hx]
      · rintro ⟨hlen, hall⟩
        rcases List.eq_nil_or_concat' w with rfl | ⟨u, c, rfl⟩
        · simp at hlen
        refine ⟨u, ih.2 ⟨by simpa using hlen, fun x hx => hall x (List.mem_append_left _ hx)⟩, [c],
          mem_oneOf.2 ⟨c, hall c (by simp), rfl⟩, rfl⟩

theorem mem_upTo_oneOf {cs : List Char} {n : Nat} {w : List Char} :
    w ∈ (upTo n (oneOf cs)).matches' ↔ w.length ≤ n ∧ ∀ c ∈ w, c ∈ cs := by
  induction n generalizing w with
  | zero =>
      rw [upTo, matches'_pow, pow_zero, Language.mem_one, Nat.le_zero,
        List.length_eq_zero_iff]
      constructor
      · rintro rfl
        simp
      · exact fun h => h.1
  | succ n ih =>
      rw [upTo, mem_pow_succ]
      constructor
      · rintro ⟨u, hu, v, hv, rfl⟩
        obtain ⟨hlen, hall⟩ := ih.1 hu
        rcases mem_optional.1 hv with rfl | hv
        · exact ⟨by simp; omega, by simpa using hall⟩
        · obtain ⟨c, hc, rfl⟩ := mem_oneOf.1 hv
          refine ⟨by simp [hlen], fun x hx => ?_⟩
          rcases List.mem_append.1 hx with hx | hx
          · exact hall x hx
          · rwa [List.mem_singleton.1 hx]
      · rintro ⟨hlen, hall⟩
        rcases List.eq_nil_or_concat' w with rfl | ⟨u, c, rfl⟩
        · exact ⟨[], ih.2 (by simp), [], mem_optional.2 (.inl rfl), rfl⟩
        · have hu : u.length ≤ n := by
            simp only [List.length_append, List.length_singleton] at hlen
            omega
          exact ⟨u, ih.2 ⟨hu, fun x hx => hall x (List.mem_append_left _ hx)⟩, [c],
            mem_optional.2 (.inr (mem_oneOf.2 ⟨c, hall c (by simp), rfl⟩)), rfl⟩

theorem mem_between_oneOf {cs : List Char} {m n : Nat} (hmn : m ≤ n) {w : List Char} :
    w ∈ (between m n (oneOf cs)).matches' ↔ (m ≤ w.length ∧ w.length ≤ n) ∧ ∀ c ∈ w, c ∈ cs := by
  rw [between, matches'_mul, Language.mem_mul]
  constructor
  · rintro ⟨u, hu, v, hv, rfl⟩
    obtain ⟨hulen, huall⟩ := mem_oneOf_pow.1 hu
    obtain ⟨hvlen, hvall⟩ := mem_upTo_oneOf.1 hv
    refine ⟨by rw [List.length_append]; omega, fun c hc => ?_⟩
    exact (List.mem_append.1 hc).elim (huall c) (hvall c)
  · rintro ⟨⟨hm, hn⟩, hall⟩
    refine ⟨w.take m, mem_oneOf_pow.2 ⟨by simpa using hm, fun c hc => ?_⟩, w.drop m,
      mem_upTo_oneOf.2 ⟨by rw [List.length_drop]; omega, fun c hc => ?_⟩, List.take_append_drop m w⟩
    · exact hall c (List.mem_of_mem_take hc)
    · exact hall c (List.mem_of_mem_drop hc)

theorem mem_plus_oneOf {cs : List Char} {w : List Char} :
    w ∈ (plus (oneOf cs)).matches' ↔ w ≠ [] ∧ ∀ c ∈ w, c ∈ cs := by
  rw [mem_plus]
  constructor
  · rintro ⟨us, hne, rfl, hus⟩
    obtain ⟨u, vs, rfl⟩ := List.exists_cons_of_ne_nil hne
    obtain ⟨a, -, rfl⟩ := mem_oneOf.1 (hus u List.mem_cons_self)
    refine ⟨by simp, fun c hc => ?_⟩
    obtain ⟨u, hu, hc⟩ := List.mem_flatten.1 hc
    obtain ⟨b, hb, rfl⟩ := mem_oneOf.1 (hus u hu)
    rwa [List.mem_singleton.1 hc]
  · rintro ⟨hne, hall⟩
    refine ⟨w.map fun c => [c], by simpa using hne, ?_, fun u hu => ?_⟩
    · rw [← List.flatMap_def]
      exact List.flatMap_pure_eq_map id w |>.trans (List.map_id w)
    · obtain ⟨c, hc, rfl⟩ := List.mem_map.1 hu
      exact mem_oneOf.2 ⟨c, hall c hc, rfl⟩

/-- A literal in front of an expression. -/
theorem mem_literal_mul {cs : List Char} {P : RegularExpression Char} {w : List Char} :
    w ∈ (cs.foldr (fun c p => char c * p) P).matches' ↔ ∃ v ∈ P.matches', w = cs ++ v := by
  induction cs generalizing w with
  | nil => simp
  | cons c cs ih =>
      rw [List.foldr_cons, matches'_mul, Language.mem_mul]
      constructor
      · rintro ⟨u, hu, v, hv, rfl⟩
        obtain ⟨x, hx, rfl⟩ := ih.1 hv
        rw [matches'_char] at hu
        obtain rfl : u = [c] := hu
        exact ⟨x, hx, rfl⟩
      · rintro ⟨v, hv, rfl⟩
        refine ⟨[c], ?_, cs ++ v, ih.2 ⟨v, hv, rfl⟩, rfl⟩
        rw [matches'_char]
        rfl

/-- Every word of `P` is written in characters that satisfy `p`. -/
def Over (p : Char → Prop) (P : RegularExpression Char) : Prop :=
  ∀ w ∈ P.matches', ∀ c ∈ w, p c

section Over

variable {p : Char → Prop} {P P' : RegularExpression Char}

theorem Over.oneOf {cs : List Char} (h : ∀ c ∈ cs, p c) : Over p (oneOf cs) := by
  intro w hw c hc
  obtain ⟨a, ha, rfl⟩ := mem_oneOf.1 hw
  obtain rfl := List.mem_singleton.1 hc
  exact h c ha

theorem Over.oneOf_of_all {cs ds : List Char} (h : cs.all ds.contains = true) :
    Over (· ∈ ds) (Text.oneOf cs) :=
  .oneOf fun c hc => List.contains_iff_mem.1 (List.all_eq_true.1 h c hc)

theorem Over.epsilon : Over p 1 := by
  intro w hw c hc
  rw [matches'_epsilon, Language.mem_one] at hw
  simp [hw] at hc

theorem Over.mul (h : Over p P) (h' : Over p P') : Over p (P * P') := by
  intro w hw c hc
  rw [matches'_mul, Language.mem_mul] at hw
  obtain ⟨u, hu, v, hv, rfl⟩ := hw
  exact (List.mem_append.1 hc).elim (h u hu c) (h' v hv c)

theorem Over.pow (h : Over p P) (n : Nat) : Over p (P ^ n) := by
  induction n with
  | zero => exact Over.epsilon
  | succ n ih => exact ih.mul h

theorem Over.optional (h : Over p P) : Over p (Text.optional P) := by
  intro w hw c hc
  rcases mem_optional.1 hw with rfl | hw
  · simp at hc
  · exact h w hw c hc

theorem Over.upTo (h : Over p P) (n : Nat) : Over p (Text.upTo n P) := h.optional.pow n

theorem Over.between (h : Over p P) (m n : Nat) : Over p (Text.between m n P) :=
  (h.pow m).mul (h.upTo _)

theorem Over.star (h : Over p P) : Over p (RegularExpression.star P) := by
  intro w hw c hc
  rw [matches'_star, Language.mem_kstar] at hw
  obtain ⟨ws, rfl, hws⟩ := hw
  obtain ⟨v, hv, hcv⟩ := List.mem_flatten.1 hc
  exact h v (hws v hv) c hcv

theorem Over.plus (h : Over p P) : Over p (Text.plus P) := h.mul h.star

end Over

end Text
