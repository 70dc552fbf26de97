import TonRelayer.JsonTrees
import TonRelayer.SortedEntries
import TonRelayer.ExceptRules
import Mathlib.Data.String.Basic
import Mathlib.Tactic.Ring

/-! Writing values as JSON trees and reading them back, the way derived serializers do.
A codec is lawful if what it read once, it reads back from what it writes. Readers accept more
than what writers produce: records as arrays, unknown members, missing members with a default.
A reader reports the first error in the order of the fields, not in that of the input. -/
namespace JsonCodecs

open JsonTrees SortedEntries ExceptRules

/-- A number as the reader of the text classifies it; `F` is the type of the others. -/
inductive Number (F : Type) where
  | posInt (n : UInt64)
  | negInt (n : {n : ℤ // -2 ^ 63 ≤ n ∧ n < 0})
  | float (x : F)

abbrev JsonTree (F : Type) := Json (Number F) String

structure Codec (F α : Type) where
  encode : α → JsonTree F
  decode : JsonTree F → Except String α

variable {F α β P : Type}

def Codec.ReadsBack (c : Codec F α) (a : α) : Prop := c.decode (c.encode a) = .ok a

class Codec.Lawful (c : Codec F α) : Prop where
  stable : ∀ j a, c.decode j = .ok a → c.ReadsBack a
  /-- Only null is written as null. -/
  nonNull : ∀ j a, c.decode j = .ok a → c.encode a = .null → j = .null

section Scalars

def string : Codec F String where
  encode := .string
  decode
    | .string s => .ok s
    | _ => .error "invalid type, expected a string"

def boolean : Codec F Bool where
  encode := .bool
  decode
    | .bool b => .ok b
    | _ => .error "invalid type, expected a boolean"

theorem string_readsBack (s : String) : (string (F := F)).ReadsBack s := rfl

theorem boolean_readsBack (b : Bool) : (boolean (F := F)).ReadsBack b := rfl

instance string_lawful : (string (F := F)).Lawful where
  stable := fun _ _ _ => rfl
  nonNull := by
    intro j a _ h
    cases h

instance boolean_lawful : (boolean (F := F)).Lawful where
  stable := fun _ _ _ => rfl
  nonNull := by
    intro j a _ h
    cases h

/-- A machine integer type. -/
structure IntType (α : Type) where
  low : ℤ
  high : ℤ
  toInt : α → ℤ
  ofInt : ℤ → α
  fits : -2 ^ 63 ≤ low ∧ high ≤ 2 ^ 64
  range : ∀ a, low ≤ toInt a ∧ toInt a < high
  back : ∀ a, ofInt (toInt a) = a

def i32 : IntType Int32 where
  low := -2 ^ 31
  high := 2 ^ 31
  toInt := Int32.toInt
  ofInt := Int32.ofInt
  fits := by decide
  range := fun a => ⟨a.le_toInt, a.toInt_lt⟩
  back := fun a => Int32.ofInt_toInt a

def i64 : IntType Int64 where
  low := -2 ^ 63
  high := 2 ^ 63
  toInt := Int64.toInt
  ofInt := Int64.ofInt
  fits := by decide
  range := fun a => ⟨a.le_toInt, a.toInt_lt⟩
  back := fun a => Int64.ofInt_toInt a

def u32 : IntType UInt32 where
  low := 0
  high := 2 ^ 32
  toInt := fun a => a.toNat
  ofInt := fun n => UInt32.ofNat n.toNat
  fits := by decide
  range := fun a => ⟨Int.natCast_nonneg _, by have := a.toNat_lt; omega⟩
  back := fun a => by simp

def u64 : IntType UInt64 where
  low := 0
  high := 2 ^ 64
  toInt := fun a => a.toNat
  ofInt := fun n => UInt64.ofNat n.toNat
  fits := by decide
  range := fun a => ⟨Int.natCast_nonneg _, by have := a.toNat_lt; omega⟩
  back := fun a => by simp

def Number.ofInt (n : ℤ) (h : -2 ^ 63 ≤ n ∧ n < 2 ^ 64) : Number F :=
  if hneg : n < 0 then .negInt ⟨n, h.1, hneg⟩ else .posInt (UInt64.ofNat n.toNat)

def Number.toInt : Number F → Option ℤ
  | posInt n => some n.toNat
  | negInt n => some n.val
  | float _ => none

theorem Number.toInt_ofInt (n : ℤ) (h : -2 ^ 63 ≤ n ∧ n < 2 ^ 64) :
    (ofInt n h : Number F).toInt = some n := by
  rw [ofInt]
  split
  · rfl
  · next hneg =>
    have hsmall : n.toNat < 2 ^ 64 := by omega
    rw [toInt, UInt64.toNat_ofNat_of_lt' hsmall, Int.toNat_of_nonneg (not_lt.mp hneg)]

def IntType.read (T : IntType α) (n : ℤ) : Except String α :=
  if T.low ≤ n ∧ n < T.high then .ok (T.ofInt n) else .error "number out of range"

theorem IntType.read_toInt (T : IntType α) (a : α) : T.read (T.toInt a) = .ok a := by
  rw [read, if_pos (T.range a), T.back]

def IntType.number (T : IntType α) : Codec F α where
  encode a := .number (.ofInt (T.toInt a)
    ⟨T.fits.1.trans (T.range a).1, (T.range a).2.trans_le T.fits.2⟩)
  decode
    | .number n => match n.toInt with
      | some n => T.read n
      | none => .error "invalid type, expected an integer"
    | _ => .error "invalid type, expected an integer"

theorem IntType.number_readsBack (T : IntType α) (a : α) : (T.number (F := F)).ReadsBack a := by
  simp only [Codec.ReadsBack, number, Number.toInt_ofInt, T.read_toInt]

instance IntType.number_lawful (T : IntType α) : (T.number (F := F)).Lawful where
  stable := fun _ a _ => T.number_readsBack a
  nonNull := by
    intro j a _ h
    cases h

/-- `Display` -/
def displayInt (n : ℤ) : String :=
  String.ofList ((if n < 0 then ['-'] else []) ++ Nat.toDigits 10 n.natAbs)

def digits (cs : List Char) : Except String ℕ :=
  if cs = [] then .error "cannot parse integer from empty string"
  else if cs.all Char.isDigit then .ok (Nat.ofDigitChars 10 cs 0)
  else .error "invalid digit found in string"

/-- `FromStr`; only a signed type knows a minus sign. -/
def IntType.fromStr (T : IntType α) (s : String) : Except String α :=
  match s.toList with
  | [] => .error "cannot parse integer from empty string"
  | ['+'] => .error "invalid digit found in string"
  | ['-'] => .error "invalid digit found in string"
  | '+' :: cs => do T.read (← digits cs)
  | '-' :: cs => do
    if T.low < 0 then T.read (-(← digits cs)) else .error "invalid digit found in string"
  | cs => do T.read (← digits cs)

theorem digits_toDigits (n : ℕ) : digits (Nat.toDigits 10 n) = .ok n := by
  have hall : (Nat.toDigits 10 n).all Char.isDigit = true := by
    rw [List.all_eq_true]
    exact fun c hc => Nat.isDigit_of_mem_toDigits (by decide) (by decide) hc
  rw [digits, if_neg Nat.toDigits_ne_nil, if_pos hall, Nat.ofDigitChars_ten_toDigits]

theorem IntType.fromStr_display (T : IntType α) (a : α) :
    T.fromStr (displayInt (T.toInt a)) = .ok a := by
  have hread := T.read_toInt a
  have hrange := T.range a
  generalize T.toInt a = n at hread hrange
  have hdigits := digits_toDigits n.natAbs
  have hdigit : ∀ c ∈ Nat.toDigits 10 n.natAbs, c.isDigit = true :=
    fun c hc => Nat.isDigit_of_mem_toDigits (by decide) (by decide) hc
  have hne : Nat.toDigits 10 n.natAbs ≠ [] := Nat.toDigits_ne_nil
  rw [fromStr, displayInt, String.toList_ofList]
  generalize Nat.toDigits 10 n.natAbs = cs at hdigits hdigit hne
  by_cases hneg : n < 0
  · rw [if_pos hneg, List.singleton_append]
    cases cs with
    | nil => exact absurd rfl hne
    | cons c cs =>
      have hnat : -(n.natAbs : ℤ) = n := by omega
      simp only [if_pos (lt_of_le_of_lt hrange.1 hneg), hdigits, ok_bind, hnat, hread]
  · have hnat : (n.natAbs : ℤ) = n := by omega
    rw [if_neg hneg, List.nil_append]
    split
    · exact absurd rfl hne
    · exact absurd (hdigit '+' List.mem_cons_self) (by decide)
    · exact absurd (hdigit '-' List.mem_cons_self) (by decide)
    · exact absurd (hdigit '+' List.mem_cons_self) (by decide)
    · exact absurd (hdigit '-' List.mem_cons_self) (by decide)
    · rw [hdigits, ok_bind, hnat, hread]

/-- `DisplayFromStr` -/
def displayFromStr (display : α → String) (fromStr : String → Except String α) : Codec F α where
  encode a := .string (display a)
  decode
    | .string s => fromStr s
    | _ => .error "invalid type, expected a string"

theorem displayFromStr_lawful {display : α → String} {fromStr : String → Except String α}
    (h : ∀ s a, fromStr s = .ok a → fromStr (display a) = .ok a) :
    (displayFromStr (F := F) display fromStr).Lawful where
  stable := by
    intro j a hj
    cases j with
    | string s => exact h s a hj
    | _ => cases hj
  nonNull := by
    intro j a _ hnull
    cases hnull

def IntType.text (T : IntType α) : Codec F α :=
  displayFromStr (fun a => displayInt (T.toInt a)) T.fromStr

theorem IntType.text_readsBack (T : IntType α) (a : α) : (T.text (F := F)).ReadsBack a :=
  T.fromStr_display a

instance IntType.text_lawful (T : IntType α) : (T.text (F := F)).Lawful :=
  displayFromStr_lawful fun _ a _ => T.fromStr_display a

end Scalars

section Containers

def option (c : Codec F α) : Codec F (Option α) where
  encode
    | none => .null
    | some a => c.encode a
  decode
    | .null => .ok none
    | j => (c.decode j).map some

theorem option_decode {c : Codec F α} {j : JsonTree F} (h : j ≠ .null) :
    (option c).decode j = (c.decode j).map some := by
  cases j with
  | null => exact absurd rfl h
  | _ => rfl

theorem option_none_readsBack (c : Codec F α) : (option c).ReadsBack none := rfl

instance option_lawful {c : Codec F α} [hc : c.Lawful] : (option c).Lawful where
  stable := by
    intro j a hj
    by_cases hnull : j = .null
    · subst hnull
      cases hj
      rfl
    · rw [option_decode hnull, map_eq_ok] at hj
      obtain ⟨x, hx, rfl⟩ := hj
      have hencode : c.encode x ≠ .null := fun h => hnull (hc.nonNull j x hx h)
      have hback : (option c).decode (c.encode x) = .ok (some x) := by
        rw [option_decode hencode, hc.stable j x hx]
        rfl
      exact hback
  nonNull := by
    intro j a hj hencode
    by_cases hnull : j = .null
    · exact hnull
    · rw [option_decode hnull, map_eq_ok] at hj
      obtain ⟨x, hx, rfl⟩ := hj
      exact hc.nonNull j x hx hencode

def list (c : Codec F α) : Codec F (List α) where
  encode l := .array (l.map c.encode)
  decode
    | .array items => items.mapM c.decode
    | _ => .error "invalid type, expected a sequence"

theorem list_reached {c : Codec F α} {j : JsonTree F} {l : List α} (h : (list c).decode j = .ok l) :
    ∀ a ∈ l, ∃ j, c.decode j = .ok a := by
  cases j with
  | array items =>
    intro a ha
    obtain ⟨j, -, hj⟩ := forall₂_mem_right (mapM_ok h) a ha
    exact ⟨j, hj⟩
  | _ => cases h

/-- A list of values that were read, one by one. -/
theorem list_readsBack {c : Codec F α} [hc : c.Lawful] {l : List α}
    (h : ∀ a ∈ l, ∃ j, c.decode j = .ok a) : (list c).ReadsBack l := by
  have hback : ∀ a ∈ l, c.decode (c.encode a) = .ok (id a) := by
    intro a ha
    obtain ⟨j, hj⟩ := h a ha
    exact hc.stable j a hj
  have hmap := mapM_map_ok hback
  rwa [List.map_id] at hmap

instance list_lawful {c : Codec F α} [c.Lawful] : (list c).Lawful where
  stable := fun _ _ hj => list_readsBack (list_reached hj)
  nonNull := by
    intro j a _ h
    cases h

mutual

/-- Objects as sorted maps: of the members with one key the last one stays. -/
def canonical : JsonTree F → JsonTree F
  | .null => .null
  | .bool b => .bool b
  | .number n => .number n
  | .string s => .string s
  | .array items => .array (canonicalItems items)
  | .object members => .object (ofEntries (canonicalMembers members))

def canonicalItems : List (JsonTree F) → List (JsonTree F)
  | [] => []
  | j :: js => canonical j :: canonicalItems js

def canonicalMembers : List (String × JsonTree F) → List (String × JsonTree F)
  | [] => []
  | (k, j) :: ms => (k, canonical j) :: canonicalMembers ms

end

theorem canonicalItems_eq (js : List (JsonTree F)) : canonicalItems js = js.map canonical := by
  induction js with
  | nil => rw [canonicalItems, List.map_nil]
  | cons j js ih => rw [canonicalItems, ih, List.map_cons]

theorem canonicalMembers_eq (ms : List (String × JsonTree F)) :
    canonicalMembers ms = ms.map fun m => (m.1, canonical m.2) := by
  induction ms with
  | nil => rw [canonicalMembers, List.map_nil]
  | cons m ms ih => rw [canonicalMembers, ih, List.map_cons]

theorem canonical_canonical (j : JsonTree F) : canonical (canonical j) = canonical j := by
  induction j using Json.induction with
  | null => simp [canonical]
  | bool b => simp [canonical]
  | number n => simp [canonical]
  | string s => simp [canonical]
  | array items ih => simpa [canonical, canonicalItems_eq] using ih
  | object members ih =>
    have hmembers : canonicalMembers (ofEntries (canonicalMembers members)) =
        ofEntries (canonicalMembers members) := by
      have hfixed : ∀ e ∈ ofEntries (canonicalMembers members), (e.1, canonical e.2) = id e := by
        intro e he
        have hmem := mem_ofEntries he
        rw [canonicalMembers_eq, List.mem_map] at hmem
        obtain ⟨m, hm, rfl⟩ := hmem
        rw [ih m hm, id]
      rw [canonicalMembers_eq (ofEntries _), List.map_congr_left hfixed, List.map_id]
    rw [canonical, canonical, hmembers, ofEntries_of_sorted (ofEntries_sorted _)]

/-- `serde_json::Value` -/
abbrev Value (F : Type) := {j : JsonTree F // canonical j = j}

def value : Codec F (Value F) where
  encode v := v.val
  decode j := .ok ⟨canonical j, canonical_canonical j⟩

instance value_lawful : (value (F := F)).Lawful where
  stable := by
    intro j v _
    exact congrArg Except.ok (Subtype.ext v.property)
  nonNull := by
    intro j v hj hnull
    cases hj
    cases j with
    | null => rfl
    | _ =>
      simp only [value, canonical] at hnull
      cases hnull

/-- The order in which a `HashMap` visits its entries. -/
structure Iteration where
  visit : ∀ {V : Type}, List (String × V) → List (String × V)
  perm : ∀ {V : Type} (l : List (String × V)), (visit l).Perm l

def entry (c : Codec F α) (m : String × JsonTree F) : Except String (String × α) :=
  (c.decode m.2).map fun a => (m.1, a)

def hashMap (I : Iteration) (c : Codec F α) : Codec F (SortedMap String α) where
  encode m := .object ((I.visit m.entries).map fun e => (e.1, c.encode e.2))
  decode
    | .object members => (members.mapM (entry c)).map SortedMap.ofList
    | _ => .error "invalid type, expected a map"

theorem hashMap_reached {I : Iteration} {c : Codec F α} {j : JsonTree F} {m : SortedMap String α}
    (h : (hashMap I c).decode j = .ok m) : ∀ e ∈ m.entries, ∃ j, c.decode j = .ok e.2 := by
  cases j with
  | object members =>
    obtain ⟨es, hes, rfl⟩ := map_eq_ok.mp h
    intro e he
    obtain ⟨j, -, hj⟩ := forall₂_mem_right (mapM_ok hes) e (mem_ofEntries he)
    obtain ⟨a, ha, rfl⟩ := map_eq_ok.mp hj
    exact ⟨j.2, ha⟩
  | _ => cases h

instance hashMap_lawful {I : Iteration} {c : Codec F α} [hc : c.Lawful] :
    (hashMap I c).Lawful where
  stable := by
    intro j m hj
    have hback : ∀ e ∈ I.visit m.entries, entry c (e.1, c.encode e.2) = .ok (id e) := by
      intro e he
      obtain ⟨j, hj⟩ := hashMap_reached hj e ((I.perm m.entries).mem_iff.mp he)
      rw [entry, hc.stable j e.2 hj]
      rfl
    have hmap := mapM_map_ok hback
    rw [List.map_id] at hmap
    simp only [Codec.ReadsBack, hashMap]
    rw [hmap]
    exact congrArg Except.ok (SortedMap.ofList_perm (I.perm m.entries))
  nonNull := by
    intro j m _ h
    cases h

end Containers

section Records

/-- What a record's reader finds for a field: nothing among the members, nothing because the
array is too short, or a value. -/
inductive Slot (F : Type) where
  | absent
  | short
  | given (j : JsonTree F)

structure Field (F α : Type) where
  name : String
  codec : Codec F α
  missing : Option α
  short : Option α

def Field.read (f : Field F α) : Slot F → Except String α
  | .absent => f.missing.elim (.error ("missing field " ++ f.name)) .ok
  | .short => f.short.elim (.error ("invalid length, expected field " ++ f.name)) .ok
  | .given j => f.codec.decode j

class Field.Lawful (f : Field F α) : Prop where
  codec : f.codec.Lawful
  missing : ∀ a ∈ f.missing, f.codec.ReadsBack a
  short : ∀ a ∈ f.short, f.codec.ReadsBack a

def required (name : String) (c : Codec F α) : Field F α := ⟨name, c, none, none⟩

/-- A field of type `Option`. -/
def optional (name : String) (c : Codec F α) : Field F (Option α) :=
  ⟨name, option c, some none, none⟩

/-- A field of type `Option` with `#[serde(default)]`. -/
def defaulted (name : String) (c : Codec F α) : Field F (Option α) :=
  ⟨name, option c, some none, some none⟩

instance required_lawful {name : String} {c : Codec F α} [hc : c.Lawful] :
    (required name c).Lawful where
  codec := hc
  missing := by simp [required]
  short := by simp [required]

instance optional_lawful {name : String} {c : Codec F α} [c.Lawful] :
    (optional name c).Lawful where
  codec := option_lawful
  missing := by simp [optional, option_none_readsBack]
  short := by simp [optional]

instance defaulted_lawful {name : String} {c : Codec F α} [c.Lawful] :
    (defaulted name c).Lawful where
  codec := option_lawful
  missing := by simp [defaulted, option_none_readsBack]
  short := by simp [defaulted, option_none_readsBack]

/-- The fields of a record, whose values are a nested product. -/
structure Fields (F P : Type) where
  names : List String
  encode : P → List (JsonTree F)
  decode : List (Slot F) → Except String P

def Fields.ReadsBack (fs : Fields F P) (p : P) : Prop :=
  fs.decode ((fs.encode p).map .given) = .ok p

class Fields.Lawful (fs : Fields F P) : Prop where
  length : ∀ p, (fs.encode p).length = fs.names.length
  stable : ∀ slots p, fs.decode slots = .ok p → fs.ReadsBack p

def noFields : Fields F Unit where
  names := []
  encode _ := []
  decode
    | [] => .ok ()
    | _ => .error "invalid length"

def Field.and (f : Field F α) (fs : Fields F P) : Fields F (α × P) where
  names := f.name :: fs.names
  encode p := f.codec.encode p.1 :: fs.encode p.2
  decode
    | [] => .error "invalid length"
    | s :: slots => do
      let a ← f.read s
      let p ← fs.decode slots
      return (a, p)

instance noFields_lawful : (noFields (F := F)).Lawful where
  length := fun _ => rfl
  stable := fun _ _ _ => rfl

theorem Field.Lawful.read {f : Field F α} (hf : f.Lawful) {s : Slot F} {a : α}
    (h : f.read s = .ok a) : f.codec.ReadsBack a := by
  cases s with
  | absent =>
    apply hf.missing
    cases hmissing : f.missing with
    | none =>
      rw [Field.read, hmissing] at h
      cases h
    | some b =>
      rw [Field.read, hmissing] at h
      cases h
      rfl
  | short =>
    apply hf.short
    cases hshort : f.short with
    | none =>
      rw [Field.read, hshort] at h
      cases h
    | some b =>
      rw [Field.read, hshort] at h
      cases h
      rfl
  | given j => exact hf.codec.stable j a h

theorem and_readsBack {f : Field F α} {fs : Fields F P} {a : α} {p : P}
    (hf : f.codec.ReadsBack a) (hfs : fs.ReadsBack p) : (f.and fs).ReadsBack (a, p) := by
  rw [Codec.ReadsBack] at hf
  rw [Fields.ReadsBack] at hfs ⊢
  simp only [Field.and, List.map_cons, Field.read, hf, ok_bind, hfs]
  rfl

theorem and_decode {f : Field F α} {fs : Fields F P} {slots : List (Slot F)} {p : α × P}
    (h : (f.and fs).decode slots = .ok p) :
    (∃ s, f.read s = .ok p.1) ∧ ∃ rest, fs.decode rest = .ok p.2 := by
  cases slots with
  | nil => cases h
  | cons s slots =>
    obtain ⟨a, ha, h⟩ := bind_eq_ok.mp h
    obtain ⟨q, hq, h⟩ := bind_eq_ok.mp h
    cases pure_eq_ok.mp h
    exact ⟨⟨s, ha⟩, slots, hq⟩

theorem required_read {name : String} {c : Codec F α} {s : Slot F} {a : α}
    (h : (required name c).read s = .ok a) : ∃ j, c.decode j = .ok a := by
  cases s with
  | given j => exact ⟨j, h⟩
  | _ => cases h

instance Field.Lawful.and {f : Field F α} {fs : Fields F P} [hf : f.Lawful] [hfs : fs.Lawful] :
    (f.and fs).Lawful where
  length := by
    intro p
    simp [Field.and, hfs.length]
  stable := by
    intro slots p h
    obtain ⟨⟨s, hs⟩, rest, hrest⟩ := and_decode h
    exact and_readsBack (hf.read hs) (hfs.stable rest p.2 hrest)

def slot (members : List (String × JsonTree F)) (name : String) : Except String (Slot F) :=
  match members.filter fun m => m.1 = name with
  | [] => .ok .absent
  | [m] => .ok (.given m.2)
  | _ => .error ("duplicate field " ++ name)

theorem slot_of_mem {members : List (String × JsonTree F)} (h : (members.map Prod.fst).Nodup)
    {m : String × JsonTree F} (hm : m ∈ members) : slot members m.1 = .ok (.given m.2) := by
  have hfilter : (members.filter fun m' => m'.1 = m.1) = [m] := by
    induction members with
    | nil => cases hm
    | cons head members ih =>
      rw [List.map_cons, List.nodup_cons] at h
      rcases List.mem_cons.mp hm with rfl | hm
      · have hnone : (members.filter fun m' => m'.1 = m.1) = [] := by
          rw [List.filter_eq_nil_iff]
          intro m' hm' heq
          apply h.1
          rw [← of_decide_eq_true heq]
          exact List.mem_map_of_mem hm'
        rw [List.filter_cons, if_pos (by simp), hnone]
      · have hhead : head.1 ≠ m.1 := by
          intro heq
          apply h.1
          rw [heq]
          exact List.mem_map_of_mem hm
        rw [List.filter_cons, if_neg (by simpa using hhead), ih h.2 hm]
  rw [slot, hfilter]

/-- The codec of a struct with the given fields. -/
def record (fs : Fields F P) (parts : α → P) (build : P → α) : Codec F α where
  encode a := .object (fs.names.zip (fs.encode (parts a)))
  decode
    | .object members => do
      let slots ← fs.names.mapM (slot members)
      (fs.decode slots).map build
    | .array items =>
      if items.length ≤ fs.names.length then
        (fs.decode (items.map .given ++
          List.replicate (fs.names.length - items.length) .short)).map build
      else .error "trailing characters"
    | _ => .error "invalid type, expected a struct"

theorem record_reached {fs : Fields F P} {parts : α → P} {build : P → α} {j : JsonTree F} {a : α}
    (h : (record fs parts build).decode j = .ok a) :
    ∃ slots p, fs.decode slots = .ok p ∧ build p = a := by
  cases j with
  | object members =>
    obtain ⟨slots, -, h⟩ := bind_eq_ok.mp h
    obtain ⟨p, hp, ha⟩ := map_eq_ok.mp h
    exact ⟨slots, p, hp, ha⟩
  | array items =>
    simp only [record] at h
    split at h
    · obtain ⟨p, hp, ha⟩ := map_eq_ok.mp h
      exact ⟨_, p, hp, ha⟩
    · cases h
  | _ => cases h

theorem record_readsBack {fs : Fields F P} (hnames : fs.names.Nodup) {parts : α → P}
    {build : P → α} {a : α} (hlength : (fs.encode (parts a)).length = fs.names.length)
    (hbuild : build (parts a) = a) (h : fs.ReadsBack (parts a)) :
    (record fs parts build).ReadsBack a := by
  have hkeys : (fs.names.zip (fs.encode (parts a))).map Prod.fst = fs.names :=
    List.map_fst_zip hlength.ge
  have hvalues : (fs.names.zip (fs.encode (parts a))).map (fun m => Slot.given m.2) =
      (fs.encode (parts a)).map .given := by
    have hsnd : (fs.names.zip (fs.encode (parts a))).map Prod.snd = fs.encode (parts a) :=
      List.map_snd_zip hlength.le
    rw [← hsnd, List.map_map]
    congr 1
    rw [hsnd]
  have hslots : fs.names.mapM (slot (fs.names.zip (fs.encode (parts a)))) =
      .ok ((fs.encode (parts a)).map .given) := by
    have hnodup : ((fs.names.zip (fs.encode (parts a))).map Prod.fst).Nodup := by
      rw [hkeys]
      exact hnames
    have hmap := mapM_map_ok fun m hm => slot_of_mem hnodup hm
    rwa [hkeys, hvalues] at hmap
  rw [Fields.ReadsBack] at h
  simp only [Codec.ReadsBack, record, hslots, ok_bind, h]
  exact congrArg Except.ok hbuild

theorem record_lawful {fs : Fields F P} [hfs : fs.Lawful] (hnames : fs.names.Nodup)
    {parts : α → P} {build : P → α} (hparts : ∀ p, parts (build p) = p) :
    (record fs parts build).Lawful where
  stable := by
    intro j a hj
    obtain ⟨slots, p, hp, rfl⟩ := record_reached hj
    apply record_readsBack hnames
    · exact hfs.length _
    · rw [hparts]
    · rw [hparts]
      exact hfs.stable slots p hp
  nonNull := by
    intro j a _ h
    cases h

end Records

end JsonCodecs
