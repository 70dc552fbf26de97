import Mathlib.Data.List.Basic

/-! JSON values with numbers in `N` and strings and keys in `S`. Members keep their order, and a
key may occur twice. -/
namespace JsonTrees

inductive Json (N S : Type) where
  | null
  | bool (b : Bool)
  | number (n : N)
  | string (s : S)
  | array (items : List (Json N S))
  | object (members : List (S × Json N S))
  deriving Repr

variable {N S S' S'' : Type}

theorem Json.induction {P : Json N S → Prop} (null : P .null) (bool : ∀ b, P (.bool b))
    (number : ∀ n, P (.number n)) (string : ∀ s, P (.string s))
    (array : ∀ items, (∀ j ∈ items, P j) → P (.array items))
    (object : ∀ members, (∀ m ∈ members, P m.2) → P (.object members)) (j : Json N S) : P j := by
  apply @Json.rec N S P (fun items => ∀ j ∈ items, P j) (fun members => ∀ m ∈ members, P m.2)
    (fun m => P m.2) null bool number string array object
  all_goals simp +contextual

mutual

/-- The same structure, with other strings and keys. -/
def Json.map (f : S → S') : Json N S → Json N S'
  | .null => .null
  | .bool b => .bool b
  | .number n => .number n
  | .string s => .string (f s)
  | .array items => .array (mapItems f items)
  | .object members => .object (mapMembers f members)

def mapItems (f : S → S') : List (Json N S) → List (Json N S')
  | [] => []
  | j :: js => j.map f :: mapItems f js

def mapMembers (f : S → S') : List (S × Json N S) → List (S' × Json N S')
  | [] => []
  | (k, j) :: ms => (f k, j.map f) :: mapMembers f ms

end

theorem mapItems_eq (f : S → S') (js : List (Json N S)) :
    mapItems f js = js.map fun j => j.map f := by
  induction js with
  | nil => rw [mapItems, List.map_nil]
  | cons j js ih => rw [mapItems, ih, List.map_cons]

theorem mapMembers_eq (f : S → S') (ms : List (S × Json N S)) :
    mapMembers f ms = ms.map fun m => (f m.1, m.2.map f) := by
  induction ms with
  | nil => rw [mapMembers, List.map_nil]
  | cons m ms ih => rw [mapMembers, ih, List.map_cons]

theorem Json.map_map (f : S → S') (g : S' → S'') (j : Json N S) :
    (j.map f).map g = j.map (g ∘ f) := by
  induction j using Json.induction with
  | null => simp [Json.map]
  | bool b => simp [Json.map]
  | number n => simp [Json.map]
  | string s => simp [Json.map]
  | array items ih => simpa [Json.map, mapItems_eq] using ih
  | object members ih =>
    simp only [Json.map, mapMembers_eq, List.map_map, Json.object.injEq]
    apply List.map_congr_left
    intro m hm
    simp [ih m hm]

end JsonTrees
