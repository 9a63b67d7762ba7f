import OpenGroupware.Types
import OpenGroupware.Text.Regular

/-!
JSON Schema, with the keywords the services use and their standard meaning. A
schema is a sequence of keywords; a value is valid when it satisfies each, and
a keyword about another kind of value says nothing.
-/

namespace OpenGroupware

inductive JsonType
  | object
  | array
  | string
  | integer
  | number

inductive Schema
  | any
  | type (t : JsonType) (rest : Schema)
  | required (names : List String) (rest : Schema)
  | property (name : String) (schema rest : Schema)
  | items (schema rest : Schema)
  | minItems (n : Nat) (rest : Schema)
  | minLength (n : Nat) (rest : Schema)
  | minimum (q : ℚ) (rest : Schema)
  /-- A pattern anchored at both ends. -/
  | pattern (p : RegularExpression Char) (rest : Schema)

/-- A number with no fractional part is an integer. -/
def Json.hasType : JsonType → Json → Bool
  | .object, .obj _ => true
  | .array, .arr _ => true
  | .string, .str _ => true
  | .integer, .int _ => true
  | .integer, .num q => decide (q.den = 1)
  | .number, .int _ => true
  | .number, .num _ => true
  | _, _ => false

/-- The value of a number. -/
def Json.number? : Json → Option ℚ
  | .int n => some n
  | .num q => some q
  | _ => none

def Json.members? : Json → Option (List (String × Json))
  | .obj members => some members
  | _ => none

def Json.items? : Json → Option (List Json)
  | .arr items => some items
  | _ => none

def Json.string? : Json → Option String
  | .str s => some s
  | _ => none

def Schema.valid : Schema → Json → Bool
  | .any, _ => true
  | .type t rest, v => v.hasType t && rest.valid v
  | .required names rest, v =>
      v.members?.all (fun ms => names.all fun name => ms.any fun m => m.1 == name) && rest.valid v
  | .property name schema rest, v =>
      v.members?.all (fun ms => ms.all fun m => m.1 != name || schema.valid m.2) && rest.valid v
  | .items schema rest, v => v.items?.all (fun vs => vs.all schema.valid) && rest.valid v
  | .minItems n rest, v => v.items?.all (fun vs => decide (n ≤ vs.length)) && rest.valid v
  | .minLength n rest, v => v.string?.all (fun s => decide (n ≤ s.length)) && rest.valid v
  | .minimum q rest, v => v.number?.all (fun x => decide (q ≤ x)) && rest.valid v
  | .pattern p rest, v => v.string?.all (fun s => p.rmatch s.toList) && rest.valid v

end OpenGroupware
