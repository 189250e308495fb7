import Mathlib.Data.List.Basic
import Mathlib.Order.Lattice

/-!
# Association lists sorted by key

An ordered map as the list of its entries in increasing order of the keys, which is how a
`std::map` is iterated. Insertion keeps the order and replaces the value of a key that is present.
-/

namespace SortedAssoc

variable {Key Value : Type*} [LinearOrder Key]

def find? (k : Key) : List (Key × Value) → Option Value
  | [] => none
  | (k', v) :: rest => if k = k' then some v else find? k rest

def insert (k : Key) (v : Value) : List (Key × Value) → List (Key × Value)
  | [] => [(k, v)]
  | (k', v') :: rest =>
      if k < k' then (k, v) :: (k', v') :: rest
      else if k = k' then (k, v) :: rest
      else (k', v') :: insert k v rest

theorem insert_nil (k : Key) (v : Value) : insert k v [] = [(k, v)] := rfl

theorem insert_cons_of_lt {k k' : Key} (h : k < k') (v v' : Value) (rest : List (Key × Value)) :
    insert k v ((k', v') :: rest) = (k, v) :: (k', v') :: rest := if_pos h

theorem insert_cons_of_gt {k k' : Key} (h : k' < k) (v v' : Value) (rest : List (Key × Value)) :
    insert k v ((k', v') :: rest) = (k', v') :: insert k v rest := by
  rw [insert, if_neg (not_lt_of_gt h), if_neg (ne_of_gt h)]

/-- The keys increase strictly. -/
def Sorted (l : List (Key × Value)) : Prop := l.Pairwise fun p q => p.1 < q.1

theorem find?_cons_self (k : Key) (v : Value) (rest : List (Key × Value)) :
    find? k ((k, v) :: rest) = some v := if_pos rfl

theorem find?_cons_of_ne {k k' : Key} (h : k ≠ k') (v : Value) (rest : List (Key × Value)) :
    find? k ((k', v) :: rest) = find? k rest := if_neg h

theorem mem_of_find? {k : Key} {v : Value} {l : List (Key × Value)} (h : find? k l = some v) :
    (k, v) ∈ l := by
  induction l with
  | nil => simp only [find?, reduceCtorEq] at h
  | cons p rest ih =>
      obtain ⟨k', v'⟩ := p
      rw [find?] at h
      split at h
      · rename_i heq
        rw [Option.some.injEq] at h
        exact heq ▸ h ▸ List.mem_cons_self
      · exact List.mem_cons_of_mem _ (ih h)

theorem find?_insert_self (k : Key) (v : Value) (l : List (Key × Value)) :
    find? k (insert k v l) = some v := by
  induction l with
  | nil => simp only [insert, find?, if_true]
  | cons p rest ih =>
      obtain ⟨k', v'⟩ := p
      rw [insert]
      split
      · simp only [find?, if_true]
      · split
        · simp only [find?, if_true]
        · rename_i hne
          rw [find?, if_neg hne, ih]

theorem find?_insert_of_ne {k k₀ : Key} (hne : k₀ ≠ k) (v : Value) (l : List (Key × Value)) :
    find? k₀ (insert k v l) = find? k₀ l := by
  induction l with
  | nil => simp only [insert, find?, if_neg hne]
  | cons p rest ih =>
      obtain ⟨k', v'⟩ := p
      rw [insert]
      split
      · rw [find?, if_neg hne]
      · split
        · rename_i heq
          subst heq
          rw [find?, if_neg hne, find?, if_neg hne]
        · rw [find?, find?, ih]

theorem mem_insert {k : Key} {v : Value} {l : List (Key × Value)} {p : Key × Value}
    (h : p ∈ insert k v l) : p = (k, v) ∨ p ∈ l := by
  induction l with
  | nil => exact Or.inl (List.mem_singleton.mp h)
  | cons q rest ih =>
      obtain ⟨k', v'⟩ := q
      rw [insert] at h
      split at h
      · exact List.mem_cons.mp h
      · split at h
        · exact (List.mem_cons.mp h).imp_right (List.mem_cons_of_mem _)
        · rcases List.mem_cons.mp h with h | h
          · exact Or.inr (h ▸ List.mem_cons_self)
          · exact (ih h).imp_right (List.mem_cons_of_mem _)

theorem Sorted.insert {l : List (Key × Value)} (h : Sorted l) (k : Key) (v : Value) :
    Sorted (insert k v l) := by
  induction l with
  | nil => exact List.pairwise_singleton _ _
  | cons p rest ih =>
      obtain ⟨k', v'⟩ := p
      obtain ⟨hhead, htail⟩ := List.pairwise_cons.mp h
      rw [SortedAssoc.insert]
      split
      · rename_i hlt
        refine List.pairwise_cons.mpr ⟨fun q hq => ?_, h⟩
        rcases List.mem_cons.mp hq with rfl | hq
        · exact hlt
        · exact hlt.trans (hhead q hq)
      · split
        · rename_i heq
          exact List.pairwise_cons.mpr ⟨fun q hq => heq ▸ hhead q hq, htail⟩
        · rename_i hnlt hne
          refine List.pairwise_cons.mpr ⟨fun q hq => ?_, ih htail⟩
          rcases mem_insert hq with rfl | hq
          · exact lt_of_le_of_ne (not_lt.mp hnlt) (Ne.symm hne)
          · exact hhead q hq

theorem insert_eq_append {k : Key} {l : List (Key × Value)} (h : ∀ p ∈ l, p.1 < k) (v : Value) :
    insert k v l = l ++ [(k, v)] := by
  induction l with
  | nil => rfl
  | cons p rest ih =>
      obtain ⟨k', v'⟩ := p
      have hlt : k' < k := h (k', v') List.mem_cons_self
      rw [insert_cons_of_gt hlt, ih fun q hq => h q (List.mem_cons_of_mem _ hq), List.cons_append]

/-- The map that holds the entries of a list, of which a later one replaces an earlier one. -/
def ofList (l : List (Key × Value)) : List (Key × Value) :=
  l.foldl (fun m p => insert p.1 p.2 m) []

theorem foldl_insert_of_sorted {m l : List (Key × Value)} (h : Sorted (m ++ l)) :
    l.foldl (fun m p => insert p.1 p.2 m) m = m ++ l := by
  induction l generalizing m with
  | nil => rw [List.foldl_nil, List.append_nil]
  | cons p rest ih =>
      have hlast : ∀ q ∈ m, q.1 < p.1 := fun q hq =>
        (List.pairwise_append.mp h).2.2 q hq p List.mem_cons_self
      have hassoc : m ++ p :: rest = (m ++ [p]) ++ rest := by
        rw [List.append_assoc, List.singleton_append]
      rw [List.foldl_cons, insert_eq_append hlast, ih (hassoc ▸ h), ← hassoc]

theorem ofList_of_sorted {l : List (Key × Value)} (h : Sorted l) : ofList l = l :=
  foldl_insert_of_sorted (m := []) h

theorem foldl_insert_sorted {m : List (Key × Value)} (h : Sorted m) (l : List (Key × Value)) :
    Sorted (l.foldl (fun m p => insert p.1 p.2 m) m) := by
  induction l generalizing m with
  | nil => exact h
  | cons p rest ih => exact ih (h.insert p.1 p.2)

theorem sorted_ofList (l : List (Key × Value)) : Sorted (ofList l) :=
  foldl_insert_sorted List.Pairwise.nil l

theorem mem_foldl_insert {m l : List (Key × Value)} {p : Key × Value}
    (h : p ∈ l.foldl (fun m p => insert p.1 p.2 m) m) : p ∈ m ∨ p ∈ l := by
  induction l generalizing m with
  | nil => exact Or.inl h
  | cons q rest ih =>
      rcases ih h with h | h
      · rcases mem_insert h with rfl | h
        · exact Or.inr List.mem_cons_self
        · exact Or.inl h
      · exact Or.inr (List.mem_cons_of_mem _ h)

theorem mem_of_mem_ofList {l : List (Key × Value)} {p : Key × Value} (h : p ∈ ofList l) : p ∈ l :=
  (mem_foldl_insert h).resolve_left List.not_mem_nil

end SortedAssoc
