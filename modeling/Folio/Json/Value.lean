import Folio.Json.Number

/-! JSON values. The fields of an object are kept in the order of their names, each name once.
Equality of values is decided by comparing them part by part.
-/

namespace Folio.Json

/-- A map from names to values as a list of entries in the order of the names. -/
abbrev Fields (α : Type) :=
  List (String × α)

namespace Fields

def get? (fields : Fields α) (name : String) : Option α :=
  match fields with
  | [] => none
  | (n, v) :: rest => if n = name then some v else get? rest name

/-- Puts a value under a name, in place of an earlier one. -/
def insert (fields : Fields α) (name : String) (value : α) : Fields α :=
  match fields with
  | [] => [(name, value)]
  | (n, v) :: rest =>
      if n = name then (name, value) :: rest
      else if name < n then (name, value) :: (n, v) :: rest
      else (n, v) :: insert rest name value

def erase (fields : Fields α) (name : String) : Fields α :=
  fields.filter fun entry => entry.1 ≠ name

def has (fields : Fields α) (name : String) : Bool :=
  (fields.get? name).isSome

/-- Puts a value under a name that has none. -/
def insertNew (fields : Fields α) (name : String) (value : α) : Fields α :=
  if fields.has name then fields else fields.insert name value

/-- The map of a list of entries, of which later ones replace earlier ones. -/
def ofList (entries : List (String × α)) : Fields α :=
  entries.foldl (fun fields entry => Fields.insert fields entry.1 entry.2) []

/-- Holds for fields whose names increase. -/
def Sorted (fields : Fields α) : Prop :=
  fields.Pairwise fun a b => a.1 < b.1

@[simp]
theorem get?_nil (name : String) : get? ([] : Fields α) name = none :=
  rfl

/-- A value that was put under a name is found there, and under the other names nothing changes. -/
theorem get?_insert (fields : Fields α) (name other : String) (value : α)
    : (insert fields name value).get? other
      = if name = other then some value else fields.get? other := by
  induction fields with
  | nil => simp [insert, get?]
  | cons entry rest ih =>
      obtain ⟨n, v⟩ := entry
      unfold insert
      by_cases hn : n = name
      · subst hn
        rw [if_pos rfl]
        by_cases ho : n = other <;> simp only [get?, ho, if_true, if_false]
      · rw [if_neg hn]
        by_cases hl : name < n
        · rw [if_pos hl]
          rfl
        · rw [if_neg hl]
          simp only [get?, ih]
          by_cases ho : n = other
          · rw [if_pos ho, if_neg fun h => hn (ho.trans h.symm), if_pos ho]
          · rw [if_neg ho, if_neg ho]

end Fields

/-- A JSON value. -/
inductive Value where
  | null
  | bool (value : Bool)
  | number (value : Number)
  | string (value : String)
  | array (items : List Value)
  | object (fields : List (String × Value))
deriving Inhabited

namespace Value

def asString? : Value → Option String
  | string s => some s
  | _ => none

mutual

/-- Decidable equality as a function to `Bool`. -/
def same : Value → Value → Bool
  | null, null => true
  | bool a, bool b => a == b
  | number a, number b => a == b
  | string a, string b => a == b
  | array a, array b => sameItems a b
  | object a, object b => sameFields a b
  | _, _ => false

def sameItems : List Value → List Value → Bool
  | [], [] => true
  | a :: as, b :: bs => same a b && sameItems as bs
  | _, _ => false

def sameFields : List (String × Value) → List (String × Value) → Bool
  | [], [] => true
  | (n, a) :: as, (m, b) :: bs => n == m && same a b && sameFields as bs
  | _, _ => false

end

instance : BEq Value :=
  ⟨same⟩

mutual

/-- Values of which all parts are the same are equal, by induction on the first value. -/
theorem eq_of_same (a b : Value) (h : same a b = true) : a = b := by
  cases a <;> cases b <;> simp only [same, Bool.false_eq_true, beq_iff_eq] at h
  case array.array xs ys => rw [eq_of_sameItems xs ys h]
  case object.object xs ys => rw [eq_of_sameFields xs ys h]
  all_goals simp [h]

theorem eq_of_sameItems (xs ys : List Value) (h : sameItems xs ys = true) : xs = ys := by
  match xs, ys, h with
  | [], [], _ => rfl
  | x :: xs, y :: ys, h =>
      obtain ⟨first, later⟩ := Bool.and_eq_true_iff.mp h
      rw [eq_of_same x y first, eq_of_sameItems xs ys later]

theorem eq_of_sameFields (xs ys : List (String × Value)) (h : sameFields xs ys = true)
    : xs = ys := by
  match xs, ys, h with
  | [], [], _ => rfl
  | (n, x) :: xs, (m, y) :: ys, h =>
      obtain ⟨both, later⟩ := Bool.and_eq_true_iff.mp h
      obtain ⟨name, value⟩ := Bool.and_eq_true_iff.mp both
      rw [eq_of_beq name, eq_of_same x y value, eq_of_sameFields xs ys later]

end

mutual

/-- A value is the same as itself, by induction on the value. -/
theorem same_refl (a : Value) : same a a = true := by
  match a with
  | .null => rfl
  | .bool _ | .number _ | .string _ => exact beq_self_eq_true _
  | .array xs => exact sameItems_refl xs
  | .object xs => exact sameFields_refl xs

theorem sameItems_refl (xs : List Value) : sameItems xs xs = true := by
  match xs with
  | [] => rfl
  | x :: xs => exact Bool.and_eq_true_iff.mpr ⟨same_refl x, sameItems_refl xs⟩

theorem sameFields_refl (xs : List (String × Value)) : sameFields xs xs = true := by
  match xs with
  | [] => rfl
  | (n, x) :: xs =>
      refine Bool.and_eq_true_iff.mpr ⟨Bool.and_eq_true_iff.mpr ⟨?_, same_refl x⟩, ?_⟩
      · exact beq_self_eq_true n
      · exact sameFields_refl xs

end

instance : DecidableEq Value := fun a b =>
  decidable_of_iff (same a b = true) ⟨eq_of_same a b, fun equal => equal ▸ same_refl a⟩

end Value

end Folio.Json
