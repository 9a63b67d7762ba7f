import Mathlib.Data.Rat.Defs
import Mathlib.Algebra.Order.Ring.Unbundled.Rat
import Mathlib.Algebra.Group.Nat.Defs
import Mathlib.Algebra.GroupWithZero.Nat

/-!
Values the services pass around: identifiers, numbers, JSON, the caller of a
request and the entries of the audit trail.
-/

namespace OpenGroupware

/-- Points in time, in the resolution of the database clock. -/
abbrev Timestamp := Nat

/-! ### UUIDs -/

structure Uuid where
  bits : BitVec 128
deriving DecidableEq

/-- The last `n` hexadecimal digits of `v`, most significant first. -/
def hexDigits : Nat → Nat → List Char
  | 0, _ => []
  | n + 1, v => hexDigits n (v / 16) ++ [Nat.digitChar (v % 16)]

@[simp] theorem hexDigits_length (n v : Nat) : (hexDigits n v).length = n := by
  induction n generalizing v with
  | zero => rfl
  | succ n ih => simp [hexDigits, ih]

theorem digitChar_injective :
    ∀ a < 16, ∀ b < 16, Nat.digitChar a = Nat.digitChar b → a = b := by
  decide

theorem hexDigits_injective {n v w : Nat} (h : hexDigits n v = hexDigits n w) :
    v % 16 ^ n = w % 16 ^ n := by
  induction n generalizing v w with
  | zero => simp [Nat.mod_one]
  | succ n ih =>
      obtain ⟨hrest, hlast⟩ := List.append_inj' h rfl
      have hdigit : v % 16 = w % 16 :=
        digitChar_injective _ (Nat.mod_lt _ (by decide)) _ (Nat.mod_lt _ (by decide))
          (by simpa using hlast)
      rw [Nat.pow_succ', Nat.mod_mul, Nat.mod_mul, ih hrest, hdigit]

namespace Uuid

theorem toNat_injective : Function.Injective fun u : Uuid => u.bits.toNat := by
  rintro ⟨v⟩ ⟨w⟩ h
  exact congrArg Uuid.mk (BitVec.eq_of_toNat_eq h)

/-- The hyphenated lower-case form, as `to_string` and a cast to `text` give it. -/
def toText (u : Uuid) : String :=
  let v := u.bits.toNat
  String.ofList <|
    hexDigits 8 (v / 16 ^ 24) ++ '-' :: (hexDigits 4 (v / 16 ^ 20) ++ '-' ::
      (hexDigits 4 (v / 16 ^ 16) ++ '-' :: (hexDigits 4 (v / 16 ^ 12) ++ '-' ::
        hexDigits 12 v)))

theorem toText_injective {u u' : Uuid} (h : u.toText = u'.toText) : u = u' := by
  obtain ⟨⟨v, hv⟩⟩ := u
  obtain ⟨⟨w, hw⟩⟩ := u'
  have h := String.ofList_injective h
  simp only [BitVec.toNat_ofFin] at h
  obtain ⟨h1, h⟩ := List.append_inj h (by simp)
  obtain ⟨h2, h⟩ := List.append_inj (List.cons.inj h).2 (by simp)
  obtain ⟨h3, h⟩ := List.append_inj (List.cons.inj h).2 (by simp)
  obtain ⟨h4, h⟩ := List.append_inj (List.cons.inj h).2 (by simp)
  have h1 := hexDigits_injective h1
  have h2 := hexDigits_injective h2
  have h3 := hexDigits_injective h3
  have h4 := hexDigits_injective h4
  have h5 := hexDigits_injective (List.cons.inj h).2
  have hvw : v = w := by omega
  subst hvw
  rfl

@[simp] theorem toText_inj {u u' : Uuid} : u.toText = u'.toText ↔ u = u' :=
  ⟨toText_injective, congrArg toText⟩

theorem toText_ne_empty (u : Uuid) : u.toText ≠ "" := by
  intro h
  have h := congrArg (fun s : String => s.toList.length) h
  simp [toText] at h

end Uuid

/-! ### Numbers -/

/-- `f64` values: exact finite values, the infinities and NaN. -/
inductive F64
  | nan
  | negInf
  | fin (q : ℚ)
  | posInf
deriving DecidableEq

/-- `f32` values are among the `f64` values. -/
abbrev F32 := F64

namespace F64

def isFinite : F64 → Bool
  | .fin _ => true
  | _ => false

/-- The `<` of Rust: false when either side is NaN. -/
def lt : F64 → F64 → Bool
  | .negInf, .fin _ => true
  | .negInf, .posInf => true
  | .fin a, .fin b => decide (a < b)
  | .fin _, .posInf => true
  | _, _ => false

/-- The `<` of PostgreSQL: NaN is greater than every other value. -/
def pgLt : F64 → F64 → Bool
  | .nan, _ => false
  | _, .nan => true
  | a, b => a.lt b

/-- `format!("{:.1}")`: one decimal, half to even. -/
def toFixed1 : F64 → String
  | .nan => "NaN"
  | .negInf => "-inf"
  | .posInf => "inf"
  | .fin q =>
      let tenths := |q| * 10
      let down := tenths.floor.toNat
      let rest := tenths - down
      let n := if rest > 1 / 2 ∨ (rest = 1 / 2 ∧ down % 2 = 1) then down + 1 else down
      (if q < 0 then "-" else "") ++ toString (n / 10) ++ "." ++ toString (n % 10)

end F64

/-! ### JSON -/

/-- JSON documents. Integer literals are told apart from other numbers, and an
object keeps its members in order, repeated names included. -/
inductive Json
  | null
  | bool (b : Bool)
  | int (n : Int)
  | num (q : ℚ)
  | str (s : String)
  | arr (items : List Json)
  | obj (members : List (String × Json))

namespace Json

/-- `json!` of a float: non-finite values become null. -/
def ofF64 : F64 → Json
  | .fin q => .num q
  | _ => .null

def isNull : Json → Bool
  | .null => true
  | _ => false

end Json

/-- PostgreSQL stores no text with a zero character. -/
def textOk (s : String) : Bool := !s.toList.contains '\x00'

theorem digitChar_ne_nul : ∀ a < 16, Nat.digitChar a ≠ '\x00' := by
  decide

theorem nul_not_mem_hexDigits (n v : Nat) : '\x00' ∉ hexDigits n v := by
  induction n generalizing v with
  | zero => simp [hexDigits]
  | succ n ih =>
      simp only [hexDigits, List.mem_append, List.mem_singleton, not_or]
      exact ⟨ih _, (digitChar_ne_nul _ (Nat.mod_lt _ (by decide))).symm⟩

theorem textOk_append {s t : String} : textOk (s ++ t) = (textOk s && textOk t) := by
  simp [textOk, String.toList_append]

@[simp] theorem textOk_toText (u : Uuid) : textOk u.toText = true := by
  simp [textOk, Uuid.toText, nul_not_mem_hexDigits]

mutual

/-- The same for the strings and names inside a `jsonb` value. -/
def Json.storable : Json → Bool
  | .str s => textOk s
  | .arr items => Json.storableItems items
  | .obj members => Json.storableMembers members
  | _ => true

def Json.storableItems : List Json → Bool
  | [] => true
  | v :: rest => v.storable && Json.storableItems rest

def Json.storableMembers : List (String × Json) → Bool
  | [] => true
  | (name, v) :: rest => textOk name && v.storable && Json.storableMembers rest

end

/-! ### Callers and audit entries -/

/-- The verified caller identity extracted from a valid token. -/
structure Caller where
  subject : String
  tenantId : Option Uuid
  roles : List String

/-- Audit-actor string. -/
def Caller.actor (c : Caller) : String := c.subject

/-- A row of the audit trail, and what `record` is called with. -/
structure AuditEntry where
  tenantId : Option Uuid
  actor : String
  action : String
  entityType : String
  entityId : String
  payload : Json

end OpenGroupware
