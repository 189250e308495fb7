import Mathlib.Order.Lattice
import Mathlib.Data.List.Nodup

/-!
# Logs of keyed records

A log to which records are appended and in which a record is looked up by its key. Nothing keeps two
records from having the same key; the lookup then answers with the earlier one, so that what it has
once found it finds for good. Keys are not given out by the log: whoever appends takes one above the
largest, which no record of the log has.
-/

namespace KeyedLog

variable {Record Key : Type*} (key : Record → Key)

def Distinct (log : List Record) : Prop := (log.map key).Nodup

variable {key} in
theorem distinct_concat_iff {log : List Record} {r : Record} :
    Distinct key (log ++ [r]) ↔ Distinct key log ∧ ∀ r' ∈ log, key r' ≠ key r := by
  simp only [Distinct, List.map_append, List.map_cons, List.map_nil, List.nodup_append,
    List.nodup_singleton, List.mem_map, List.mem_singleton, forall_eq, forall_exists_index, and_imp,
    forall_apply_eq_imp_iff₂, true_and]

variable [LinearOrder Key]

def lookup (k : Key) (log : List Record) : Option Record := log.find? fun r => key r = k

/-- The largest of `floor` and the keys. -/
def largest (floor : Key) (log : List Record) : Key := log.foldl (fun m r => max m (key r)) floor

variable {key}

theorem lookup_cons_of_eq {k : Key} {r : Record} (h : key r = k) (log : List Record) :
    lookup key k (r :: log) = some r := by
  rw [lookup, List.find?_cons, decide_eq_true h]

theorem lookup_cons_of_ne {k : Key} {r : Record} (h : key r ≠ k) (log : List Record) :
    lookup key k (r :: log) = lookup key k log := by
  rw [lookup, List.find?_cons, decide_eq_false h, lookup]

theorem key_of_lookup {k : Key} {log : List Record} {r : Record}
    (h : lookup key k log = some r) : key r = k :=
  of_decide_eq_true (List.find?_some h :)

theorem mem_of_lookup {k : Key} {log : List Record} {r : Record}
    (h : lookup key k log = some r) : r ∈ log := List.mem_of_find?_eq_some h

theorem lookup_append_of_some {k : Key} {log : List Record} {r : Record}
    (h : lookup key k log = some r) (rest : List Record) :
    lookup key k (log ++ rest) = some r := by
  rw [lookup] at h ⊢
  rw [List.find?_append, h, Option.some_or]

theorem lookup_eq_none_iff {k : Key} {log : List Record} :
    lookup key k log = none ↔ ∀ r ∈ log, key r ≠ k := by
  simp only [lookup, List.find?_eq_none, decide_eq_true_eq, ne_eq]

theorem lookup_concat_of_none {r : Record} {log : List Record}
    (h : lookup key (key r) log = none) : lookup key (key r) (log ++ [r]) = some r := by
  have hself : lookup key (key r) [r] = some r := lookup_cons_of_eq rfl []
  rw [lookup] at h hself ⊢
  rw [List.find?_append, h, Option.none_or, hself]

/-! ### The largest key -/

theorem largest_concat (floor : Key) (log : List Record) (r : Record) :
    largest key floor (log ++ [r]) = max (largest key floor log) (key r) := by
  rw [largest, List.foldl_append, List.foldl_cons, List.foldl_nil, largest]

theorem floor_le_largest (floor : Key) (log : List Record) : floor ≤ largest key floor log := by
  induction log generalizing floor with
  | nil => exact le_rfl
  | cons r log ih => exact (le_max_left floor (key r)).trans (ih (max floor (key r)))

theorem key_le_largest (floor : Key) {log : List Record} {r : Record} (h : r ∈ log) :
    key r ≤ largest key floor log := by
  induction log generalizing floor with
  | nil => exact absurd h List.not_mem_nil
  | cons r' log ih =>
      rcases List.mem_cons.mp h with rfl | h
      · exact (le_max_right floor (key r)).trans (floor_le_largest _ log)
      · exact ih (max floor (key r')) h

theorem key_ne_of_largest_lt {floor k : Key} {log : List Record} (h : largest key floor log < k)
    {r : Record} (hr : r ∈ log) : key r ≠ k :=
  ((key_le_largest floor hr).trans_lt h).ne

theorem lookup_concat_of_largest_lt {floor : Key} {log : List Record} {r : Record}
    (h : largest key floor log < key r) : lookup key (key r) (log ++ [r]) = some r :=
  lookup_concat_of_none (lookup_eq_none_iff.mpr fun _ hr => key_ne_of_largest_lt h hr)

/-! ### Keys that are taken before their records are appended

Whoever takes a key may append its record later, and others may take the same key in between. Once a
record with the key is in the log nobody takes it any more, so that no more records have it than
were taken and not yet appended at one time. -/

variable (key) in
def copies (k : Key) (log : List Record) : Nat := log.countP fun r => key r = k

theorem copies_concat (k : Key) (log : List Record) (r : Record) :
    copies key k (log ++ [r]) = copies key k log + copies key k [r] := List.countP_append

theorem copies_cons (k : Key) (r : Record) (log : List Record) :
    copies key k (r :: log) = copies key k log + copies key k [r] := by
  rw [← List.singleton_append, copies, List.countP_append, Nat.add_comm]
  rfl

theorem copies_le_length (k : Key) (log : List Record) : copies key k log ≤ log.length :=
  List.countP_le_length

theorem copies_singleton_of_ne {k : Key} {r : Record} (h : key r ≠ k) : copies key k [r] = 0 := by
  rw [copies, List.countP_singleton, decide_eq_false h]
  rfl

theorem copies_eq_zero_of_largest_lt {floor k : Key} {log : List Record}
    (h : largest key floor log < k) : copies key k log = 0 := by
  rw [copies, List.countP_eq_zero]
  intro r hr
  rw [decide_eq_true_eq]
  exact key_ne_of_largest_lt h hr

theorem copies_le_one {log : List Record} (h : Distinct key log) (k : Key) :
    copies key k log ≤ 1 := by
  have hcount : copies key k log = (log.map key).count k := by
    rw [copies, List.count, List.countP_map]
    rfl
  rw [hcount]
  exact List.nodup_iff_count_le_one.mp h k

variable (key) in
/-- No key is that of more than `n` records in the log and among those to be appended. -/
def SharedAtMost (n : Nat) (log taken : List Record) : Prop :=
  ∀ k, copies key k log + copies key k taken ≤ n

theorem SharedAtMost.take {n : Nat} {log taken : List Record} (h : SharedAtMost key n log taken)
    {floor : Key} {r : Record} (hnew : largest key floor log < key r)
    (hlength : (r :: taken).length ≤ n) : SharedAtMost key n log (r :: taken) := by
  intro k
  by_cases hk : key r = k
  · rw [copies_eq_zero_of_largest_lt (hk ▸ hnew), Nat.zero_add]
    exact (copies_le_length k _).trans hlength
  · rw [copies_cons, copies_singleton_of_ne hk, Nat.add_zero]
    exact h k

theorem SharedAtMost.append {n : Nat} {log taken rest : List Record}
    (h : SharedAtMost key n log taken) {r : Record} (hperm : taken.Perm (r :: rest)) :
    SharedAtMost key n (log ++ [r]) rest := by
  intro k
  have hcopies : copies key k taken = copies key k (r :: rest) := hperm.countP_eq _
  have hle := h k
  rw [hcopies, copies_cons] at hle
  rw [copies_concat]
  omega

end KeyedLog
