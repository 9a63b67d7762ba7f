import OpenGroupware.Types

/-!
Typed deserialization of JSON, as derived implementations do it. A struct is
read from an object: its fields come in any order and at most once, and other
members are skipped. It is also read from an array that gives its fields by
position.
-/

namespace OpenGroupware.Serde

variable {α : Type}

def string : Json → Option String
  | .str s => some s
  | _ => none

/-- Integer literals in the range of `i64`; a float is an error. -/
def i64 : Json → Option Int
  | .int n => if -2 ^ 63 ≤ n ∧ n < 2 ^ 63 then some n else none
  | _ => none

/-- The same for `i32`. -/
def i32 : Json → Option Int
  | .int n => if -2 ^ 31 ≤ n ∧ n < 2 ^ 31 then some n else none
  | _ => none

/-- Any number; an integer becomes the float that is nearest to it. -/
def f64 (nearest : Int → F64) : Json → Option F64
  | .num q => some (.fin q)
  | .int n => some (nearest n)
  | _ => none

def option (de : Json → Option α) : Json → Option (Option α)
  | .null => some none
  | v => (de v).map some

def elements (de : Json → Option α) : List Json → Option (List α)
  | [] => some []
  | v :: vs => (de v).bind fun a => (elements de vs).map fun as => a :: as

def vec (de : Json → Option α) : Json → Option (List α)
  | .arr items => elements de items
  | _ => none

/-- The fields of a struct that a value gives, by name. -/
def fields (names : List String) : Json → Option (List (String × Json))
  | .obj members =>
      let known := members.filter fun m => names.contains m.1
      if (known.map Prod.fst).Nodup then some known else none
  | .arr items => if items.length ≤ names.length then some (names.zip items) else none
  | _ => none

def required (given : List (String × Json)) (name : String) (de : Json → Option α) : Option α :=
  (given.lookup name).bind de

/-- A field with `#[serde(default)]`: only a field that is not given takes it. -/
def defaulted (given : List (String × Json)) (name : String) (de : Json → Option α)
    (default : α) : Option α :=
  match given.lookup name with
  | some v => de v
  | none => some default

/-! ### What is read -/

theorem lookup_eq_some_iff_mem {ms : List (String × α)} {name : String} {a : α}
    (h : (ms.map Prod.fst).Nodup) : ms.lookup name = some a ↔ (name, a) ∈ ms := by
  induction ms with
  | nil => simp
  | cons m ms ih =>
      obtain ⟨x, b⟩ := m
      rw [List.map_cons, List.nodup_cons] at h
      by_cases hx : name = x
      · subst hx
        have hnot : (name, a) ∉ ms := fun hmem => h.1 (List.mem_map.2 ⟨_, hmem, rfl⟩)
        simp [hnot, eq_comm]
      · rw [List.lookup_cons, beq_eq_false_iff_ne.2 hx, ih h.2]
        simp [hx]

/-- The order of members with different names does not matter. -/
theorem lookup_perm {ms ms' : List (String × α)} (hperm : ms.Perm ms')
    (h : (ms'.map Prod.fst).Nodup) (name : String) : ms.lookup name = ms'.lookup name := by
  refine Option.ext fun a => ?_
  rw [lookup_eq_some_iff_mem ((hperm.map Prod.fst).nodup_iff.2 h), lookup_eq_some_iff_mem h]
  exact hperm.mem_iff

/-- The fields of an object are its members. -/
theorem lookup_fields {names : List String} {name : String} {members given : List (String × Json)}
    (hname : names.contains name = true) (h : fields names (.obj members) = some given) :
    given.lookup name = members.lookup name := by
  have hfilter : (members.filter fun m => names.contains m.1).lookup name =
      members.lookup name := by
    clear h
    induction members with
    | nil => rfl
    | cons m members ih =>
        obtain ⟨x, v⟩ := m
        by_cases hx : name = x
        · have hkept : names.contains x = true := hx ▸ hname
          rw [List.filter_cons, if_pos hkept, hx, List.lookup_cons_self, List.lookup_cons_self]
        · have hskip : ∀ ms : List (String × Json), ((x, v) :: ms).lookup name = ms.lookup name :=
            fun ms => by rw [List.lookup_cons, beq_eq_false_iff_ne.2 hx]
          rw [hskip, ← ih, List.filter_cons]
          split
          · exact hskip _
          · rfl
  rw [fields] at h
  split at h
  · cases h
    exact hfilter
  · cases h

theorem elements_eq_some {de : Json → Option α} {vs : List Json} {as : List α} :
    elements de vs = some as ↔ vs.map de = as.map some := by
  induction vs generalizing as with
  | nil => cases as <;> simp [elements]
  | cons v vs ih =>
      rw [elements, Option.bind_eq_some_iff, List.map_cons]
      constructor
      · rintro ⟨a, ha, hrest⟩
        obtain ⟨bs, hbs, rfl⟩ := Option.map_eq_some_iff.1 hrest
        rw [ha, ih.1 hbs, List.map_cons]
      · intro h
        cases as with
        | nil => cases h
        | cons a as =>
            obtain ⟨ha, has⟩ := List.cons.inj h
            exact ⟨a, ha, Option.map_eq_some_iff.2 ⟨as, ih.2 has, rfl⟩⟩

/-- An object with different names gives the fields it has. -/
theorem fields_obj {members : List (String × Json)} (h : (members.map Prod.fst).Nodup)
    (names : List String) : ∃ given, fields names (.obj members) = some given ∧
      ∀ name, names.contains name = true → given.lookup name = members.lookup name := by
  have hknown : ((members.filter fun m => names.contains m.1).map Prod.fst).Nodup :=
    (List.filter_sublist.map _).nodup h
  have hgiven : fields names (.obj members) =
      some (members.filter fun m => names.contains m.1) := if_pos hknown
  exact ⟨_, hgiven, fun name hname => lookup_fields hname hgiven⟩

theorem lookup_map_value {β : Type} (f : α → β) (ms : List (String × α)) (name : String) :
    (ms.map fun m => (m.1, f m.2)).lookup name = (ms.lookup name).map f := by
  induction ms with
  | nil => rfl
  | cons m ms ih =>
      rw [List.map_cons, List.lookup_cons, List.lookup_cons, ih]
      cases name == m.1 with
      | true => rfl
      | false => rfl

/-! ### Printed and read back -/

/-- The same value, with the members of objects in any order. -/
inductive Same : Json → Json → Prop
  | null : Same .null .null
  | bool (b : Bool) : Same (.bool b) (.bool b)
  | int (n : Int) : Same (.int n) (.int n)
  | num (q : ℚ) : Same (.num q) (.num q)
  | str (s : String) : Same (.str s) (.str s)
  | arr {vs vs'} : List.Forall₂ Same vs vs' → Same (.arr vs) (.arr vs')
  | obj {ms ms' ns : List (String × Json)} : ms.map Prod.fst = ms'.map Prod.fst →
      List.Forall₂ Same (ms.map Prod.snd) (ms'.map Prod.snd) → ms'.Perm ns →
      Same (.obj ms) (.obj ns)

mutual

theorem Same.refl : (v : Json) → Same v v
  | .null => .null
  | .bool b => .bool b
  | .int n => .int n
  | .num q => .num q
  | .str s => .str s
  | .arr vs => .arr (same_items vs)
  | .obj ms => .obj rfl (same_members ms) (.refl ms)

theorem same_items : (vs : List Json) → List.Forall₂ Same vs vs
  | [] => .nil
  | v :: vs => .cons (Same.refl v) (same_items vs)

theorem same_members : (ms : List (String × Json)) →
    List.Forall₂ Same (ms.map Prod.snd) (ms.map Prod.snd)
  | [] => .nil
  | (_, v) :: ms => .cons (Same.refl v) (same_members ms)

end

theorem Same.perm {ms ns : List (String × Json)} (h : ms.Perm ns) : Same (.obj ms) (.obj ns) :=
  .obj rfl (same_members ms) h

theorem Same.member {v w : Json} (name : String) (h : Same v w) :
    Same (.obj [(name, v)]) (.obj [(name, w)]) :=
  @Same.obj [(name, v)] [(name, w)] [(name, w)] rfl (.cons h .nil) (.refl _)

theorem Same.strings {ss : List String} {v : Json} (h : Same (.arr (ss.map .str)) v) :
    v = .arr (ss.map .str) := by
  cases h with
  | @arr _ vs hvs =>
      refine congrArg Json.arr ?_
      induction ss generalizing vs with
      | nil =>
          cases hvs
          rfl
      | cons s ss ih =>
          cases hvs with
          | cons hv hrest =>
              cases hv
              exact congrArg (Json.str s :: ·) (ih hrest)

theorem lookup_same {ms ms' : List (String × Json)} (hnames : ms.map Prod.fst = ms'.map Prod.fst)
    (hvalues : List.Forall₂ Same (ms.map Prod.snd) (ms'.map Prod.snd)) (name : String) :
    Option.Rel Same (ms.lookup name) (ms'.lookup name) := by
  induction ms generalizing ms' with
  | nil =>
      cases ms' with
      | nil => exact .none
      | cons m' ms' => cases hnames
  | cons m ms ih =>
      cases ms' with
      | nil => cases hnames
      | cons m' ms' =>
          obtain ⟨x, v⟩ := m
          obtain ⟨x', v'⟩ := m'
          obtain ⟨hname, hrest⟩ := List.cons.inj hnames
          obtain rfl : x = x' := hname
          cases hvalues with
          | cons hv hvalues =>
              rw [List.lookup_cons, List.lookup_cons]
              cases name == x with
              | true => exact .some hv
              | false => exact ih hrest hvalues

/-- An object that is read back gives the same fields. -/
theorem fields_same {ms : List (String × Json)} (hnodup : (ms.map Prod.fst).Nodup) {v : Json}
    (h : Same (.obj ms) v) (names : List String) :
    ∃ given, fields names v = some given ∧
      ∀ name, names.contains name = true →
        Option.Rel Same (ms.lookup name) (given.lookup name) := by
  cases h with
  | @obj _ ms' ns hnames hvalues hperm =>
      have hnodup' : (ms'.map Prod.fst).Nodup := hnames ▸ hnodup
      obtain ⟨given, hgiven, hlookup⟩ :=
        fields_obj ((hperm.map Prod.fst).nodup_iff.1 hnodup') names
      refine ⟨given, hgiven, fun name hname => ?_⟩
      rw [hlookup name hname, lookup_perm hperm.symm hnodup']
      exact lookup_same hnames hvalues name

theorem exists_lookup {given : List (String × Json)} {x : Option Json} {name : String} {v : Json}
    (h : Option.Rel Same x (given.lookup name)) (hx : x = some v) :
    ∃ w, given.lookup name = some w ∧ Same v w := by
  rw [hx] at h
  cases hlookup : given.lookup name with
  | none =>
      rw [hlookup] at h
      cases h
  | some w =>
      rw [hlookup] at h
      cases h with
      | some hw => exact ⟨w, rfl, hw⟩

end OpenGroupware.Serde
