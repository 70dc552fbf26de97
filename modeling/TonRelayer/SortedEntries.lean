import Mathlib.Order.Lattice
import Mathlib.Data.List.Perm.Basic

/-! Maps as lists of entries with increasing keys.
Entries are inserted one by one and the last one with a key stays, so the entries of a map in any
order make the same map again. -/
namespace SortedEntries

variable {K V : Type} [LinearOrder K]

def Sorted (l : List (K × V)) : Prop := l.Pairwise fun a b => a.1 < b.1

def insertEntry (k : K) (v : V) : List (K × V) → List (K × V)
  | [] => [(k, v)]
  | e :: l =>
    if k < e.1 then (k, v) :: e :: l
    else if e.1 < k then e :: insertEntry k v l
    else (k, v) :: l

def ofEntries (l : List (K × V)) : List (K × V) :=
  l.foldl (fun m e => insertEntry e.1 e.2 m) []

theorem mem_insertEntry {k : K} {v : V} {e : K × V} {l : List (K × V)}
    (h : e ∈ insertEntry k v l) : e = (k, v) ∨ e ∈ l := by
  induction l with
  | nil => exact .inl (List.mem_singleton.mp h)
  | cons head l ih =>
    rw [insertEntry] at h
    split at h
    · exact List.mem_cons.mp h
    · split at h
      · rcases List.mem_cons.mp h with rfl | h
        · exact .inr List.mem_cons_self
        · exact (ih h).imp_right (List.mem_cons_of_mem _)
      · exact (List.mem_cons.mp h).imp_right (List.mem_cons_of_mem _)

theorem insertEntry_sorted {k : K} {v : V} {l : List (K × V)} (h : Sorted l) :
    Sorted (insertEntry k v l) := by
  induction l with
  | nil => exact List.pairwise_singleton _ _
  | cons head l ih =>
    obtain ⟨hhead, hl⟩ := List.pairwise_cons.mp h
    rw [insertEntry]
    split
    · next hlt =>
      apply List.pairwise_cons.mpr ⟨?_, h⟩
      intro e he
      rcases List.mem_cons.mp he with rfl | he
      · exact hlt
      · exact lt_trans hlt (hhead e he)
    · next hnot =>
      split
      · next hlt =>
        apply List.pairwise_cons.mpr ⟨?_, ih hl⟩
        intro e he
        rcases mem_insertEntry he with rfl | he
        · exact hlt
        · exact hhead e he
      · next hnot' =>
        have heq : k = head.1 := le_antisymm (not_lt.mp hnot') (not_lt.mp hnot)
        apply List.pairwise_cons.mpr ⟨?_, hl⟩
        intro e he
        rw [heq]
        exact hhead e he

theorem insertEntry_perm {k : K} {v : V} {l : List (K × V)} (h : k ∉ l.map Prod.fst) :
    (insertEntry k v l).Perm ((k, v) :: l) := by
  induction l with
  | nil => exact .refl _
  | cons head l ih =>
    rw [List.map_cons, List.mem_cons, not_or] at h
    rw [insertEntry]
    split
    · exact .refl _
    · next hnot =>
      rw [if_pos (lt_of_le_of_ne (not_lt.mp hnot) (Ne.symm h.1))]
      exact ((ih h.2).cons head).trans (.swap _ _ _)

theorem foldl_insert_sorted (l : List (K × V)) {m : List (K × V)} (h : Sorted m) :
    Sorted (l.foldl (fun m e => insertEntry e.1 e.2 m) m) := by
  induction l generalizing m with
  | nil => exact h
  | cons e l ih => exact ih (insertEntry_sorted h)

theorem mem_foldl_insert {e : K × V} (l : List (K × V)) {m : List (K × V)}
    (h : e ∈ l.foldl (fun m e => insertEntry e.1 e.2 m) m) : e ∈ l ∨ e ∈ m := by
  induction l generalizing m with
  | nil => exact .inr h
  | cons head l ih =>
    rcases ih h with hl | hm
    · exact .inl (List.mem_cons_of_mem _ hl)
    · rcases mem_insertEntry hm with rfl | hm
      · exact .inl List.mem_cons_self
      · exact .inr hm

theorem foldl_insert_perm (l : List (K × V)) {m : List (K × V)}
    (h : ((m ++ l).map Prod.fst).Nodup) :
    (l.foldl (fun m e => insertEntry e.1 e.2 m) m).Perm (m ++ l) := by
  induction l generalizing m with
  | nil => rw [List.append_nil, List.foldl_nil]
  | cons e l ih =>
    have hmiddle : (m ++ e :: l).Perm (e :: m ++ l) := List.perm_middle
    have hnodup := (hmiddle.map Prod.fst).nodup_iff.mp h
    rw [List.cons_append, List.map_cons, List.nodup_cons, List.map_append, List.mem_append,
      not_or] at hnodup
    have hinsert : (insertEntry e.1 e.2 m).Perm (e :: m) := insertEntry_perm hnodup.1.1
    have hrest : (insertEntry e.1 e.2 m ++ l).Perm (m ++ e :: l) :=
      (hinsert.append_right l).trans hmiddle.symm
    exact (ih ((hrest.map Prod.fst).nodup_iff.mpr h)).trans hrest

theorem ofEntries_sorted (l : List (K × V)) : Sorted (ofEntries l) :=
  foldl_insert_sorted l .nil

theorem mem_ofEntries {e : K × V} {l : List (K × V)} (h : e ∈ ofEntries l) : e ∈ l :=
  (mem_foldl_insert l h).resolve_right (List.not_mem_nil)

theorem Sorted.keys_nodup {l : List (K × V)} (h : Sorted l) : (l.map Prod.fst).Nodup :=
  List.pairwise_map.mpr (h.imp ne_of_lt)

/-- The entries of a map, in any order, make the map. -/
theorem ofEntries_perm {l m : List (K × V)} (hm : Sorted m) (h : l.Perm m) : ofEntries l = m := by
  have hnodup := (h.map Prod.fst).nodup_iff.mpr hm.keys_nodup
  have hperm : (ofEntries l).Perm l := foldl_insert_perm l hnodup
  apply (hperm.trans h).eq_of_pairwise _ (ofEntries_sorted l) hm
  intro a b _ _ hab hba
  exact absurd (lt_trans hab hba) (lt_irrefl _)

theorem ofEntries_of_sorted {m : List (K × V)} (hm : Sorted m) : ofEntries m = m :=
  ofEntries_perm hm (.refl _)

/-- A `BTreeMap`, and a `HashMap` up to the order in which it visits its entries. -/
structure SortedMap (K V : Type) [LinearOrder K] where
  entries : List (K × V)
  sorted : Sorted entries

def SortedMap.ofList (l : List (K × V)) : SortedMap K V := ⟨ofEntries l, ofEntries_sorted l⟩

def SortedMap.get (m : SortedMap K V) (k : K) : Option V :=
  (m.entries.find? fun e => e.1 = k).map Prod.snd

theorem SortedMap.ofList_perm {m : SortedMap K V} {l : List (K × V)} (h : l.Perm m.entries) :
    ofList l = m := by
  obtain ⟨entries, sorted⟩ := m
  simp only [ofList, mk.injEq]
  exact ofEntries_perm sorted h

theorem SortedMap.mem_of_get {m : SortedMap K V} {k : K} {v : V} (h : m.get k = some v) :
    ∃ k', (k', v) ∈ m.entries := by
  rw [get, Option.map_eq_some_iff] at h
  obtain ⟨⟨k', v'⟩, hfind, rfl⟩ := h
  exact ⟨k', List.mem_of_find?_eq_some hfind⟩

end SortedEntries
