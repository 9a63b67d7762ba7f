/-!
The three truth values of SQL. A condition selects a row when it is true; an
unknown condition selects as little as a false one.
-/

namespace Relational

/-- `none` is NULL, also as a truth value. -/
abbrev Truth := Option Bool

/-- `a = b`. -/
def sqlEq {α : Type} [DecidableEq α] : Option α → Option α → Truth
  | some a, some b => some (decide (a = b))
  | _, _ => none

/-- `p OR q`. -/
def sqlOr : Truth → Truth → Truth
  | some true, _ => some true
  | _, some true => some true
  | some false, some false => some false
  | _, _ => none

/-- The condition selects. -/
def Truth.holds (t : Truth) : Bool := t == some true

@[simp] theorem holds_sqlOr (p q : Truth) : (sqlOr p q).holds = (p.holds || q.holds) := by
  rcases p with _ | _ | _ <;> rcases q with _ | _ | _ <;> rfl

@[simp] theorem holds_sqlEq {α : Type} [DecidableEq α] (a b : Option α) :
    (sqlEq a b).holds = true ↔ ∃ v, a = some v ∧ b = some v := by
  rcases a with _ | a <;> rcases b with _ | b <;> simp [sqlEq, Truth.holds, eq_comm]

end Relational
