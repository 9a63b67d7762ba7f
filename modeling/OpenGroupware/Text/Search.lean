import Mathlib.Data.List.Basic
import Mathlib.Data.List.Forall2
import Mathlib.Data.List.Infix

/-!
Searching with simple expressions: literal characters, a dot for any
character, escaped characters, and a dollar sign for the end of the text. An
expression may match anywhere.
-/

namespace Text

inductive Piece
  | lit (c : Char)
  | any
  | stop

/-- The pieces of an expression. -/
def pieces : List Char → List Piece
  | '\\' :: c :: cs => .lit c :: pieces cs
  | '.' :: cs => .any :: pieces cs
  | '$' :: cs => .stop :: pieces cs
  | c :: cs => .lit c :: pieces cs
  | [] => []

/-- The pieces match at the beginning of the text. -/
def matchesAt : List Piece → List Char → Bool
  | [], _ => true
  | .lit c :: ps, x :: xs => c == x && matchesAt ps xs
  | .any :: ps, _ :: xs => matchesAt ps xs
  | .stop :: ps, [] => matchesAt ps []
  | _, _ => false

/-- The expression matches somewhere in the text. -/
def search (expression text : List Char) : Bool := text.tails.any (matchesAt (pieces expression))

/-- Two words of one length that agree wherever the first has no dot. -/
def DotMatch (w v : List Char) : Prop := List.Forall₂ (fun a b => a = '.' ∨ a = b) w v

theorem DotMatch.refl (w : List Char) : DotMatch w w :=
  List.forall₂_same.2 fun _ _ => .inr rfl

/-- A word of plain characters and dots, up to the end of the text. -/
theorem matchesAt_pieces {w : List Char} (h : ∀ c ∈ w, c ≠ '\\' ∧ c ≠ '$') (v : List Char) :
    matchesAt (pieces (w ++ ['$'])) v = true ↔ DotMatch w v := by
  induction w generalizing v with
  | nil =>
      cases v with
      | nil => exact iff_of_true rfl .nil
      | cons x xs => exact iff_of_false (by rintro ⟨⟩) nofun
  | cons c w ih =>
      have hc := h c List.mem_cons_self
      have ih := ih fun x hx => h x (List.mem_cons_of_mem _ hx)
      by_cases hdot : c = '.'
      · subst hdot
        have hpieces : pieces ('.' :: w ++ ['$']) = .any :: pieces (w ++ ['$']) := rfl
        rw [hpieces]
        cases v with
        | nil => exact iff_of_false (by rintro ⟨⟩) nofun
        | cons x xs =>
            rw [matchesAt, ih]
            constructor
            · exact fun hw => .cons (.inl rfl) hw
            · rintro (_ | ⟨-, hw⟩)
              exact hw
      · have hpieces : pieces (c :: w ++ ['$']) = .lit c :: pieces (w ++ ['$']) := by
          rw [List.cons_append, pieces]
          · exact fun _ _ h _ => hc.1 h
          · exact hdot
          · exact hc.2
        rw [hpieces]
        cases v with
        | nil => exact iff_of_false (by rintro ⟨⟩) nofun
        | cons x xs =>
            rw [matchesAt, Bool.and_eq_true, beq_iff_eq, ih]
            constructor
            · rintro ⟨rfl, hw⟩
              exact .cons (.inr rfl) hw
            · rintro (_ | ⟨hx, hw⟩)
              exact ⟨hx.resolve_left hdot, hw⟩

/-- An expression that begins with a character the text has once. -/
theorem search_cons {a : Char} {w u v : List Char} (ha : a ≠ '\\' ∧ a ≠ '$' ∧ a ≠ '.')
    (hw : ∀ c ∈ w, c ≠ '\\' ∧ c ≠ '$') (hu : a ∉ u) (hv : a ∉ v) :
    search (a :: w ++ ['$']) (u ++ a :: v) = true ↔ DotMatch w v := by
  have hpieces : pieces (a :: w ++ ['$']) = .lit a :: pieces (w ++ ['$']) := by
    rw [List.cons_append, pieces]
    · exact fun _ _ h _ => ha.1 h
    · exact ha.2.2
    · exact ha.2.1
  rw [search, hpieces, List.any_eq_true]
  constructor
  · rintro ⟨t, ht, hmatch⟩
    rw [List.mem_tails] at ht
    cases t with
    | nil => cases hmatch
    | cons x xs =>
        rw [matchesAt, Bool.and_eq_true, beq_iff_eq] at hmatch
        obtain ⟨rfl, hmatch⟩ := hmatch
        rw [matchesAt_pieces hw] at hmatch
        obtain ⟨t, ht⟩ := ht
        -- the character stands in one place only
        obtain ⟨-, -, rfl⟩ := (List.append_cons_inj_of_notMem hu hv).1 ht.symm
        exact hmatch
  · intro hmatch
    refine ⟨a :: v, (List.mem_tails _ _).2 (List.suffix_append u _), ?_⟩
    rw [matchesAt, beq_self_eq_true, Bool.true_and]
    exact (matchesAt_pieces hw v).2 hmatch

end Text
