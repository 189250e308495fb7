import Mathlib.Data.List.Basic
import Mathlib.Order.Nat

/-!
# A bounded queue that evicts its oldest entry

Number the entries of a bounded queue in the order in which they were put in. If every removal
takes the oldest entry, whether it is a removal proper or one that makes room for a new entry, then
what is in the queue is always an interval of numbers. The interval is the abstract queue of this
module: it carries its two bounds as fields, so that an interval with its ends exchanged, or with
more entries than the capacity, cannot be built. A log of everything put in gives the entries back,
and `numbered` pairs every entry of a log with its number.
-/

namespace EvictingWindow

/-- The entries in the queue are those with a number from `lo` up to, but not including, `hi`. -/
structure Window (capacity : Nat) where
  lo : Nat
  hi : Nat
  lo_le_hi : lo ≤ hi
  size_le : hi - lo ≤ capacity

namespace Window

variable {capacity : Nat}

def empty (capacity : Nat) : Window capacity := ⟨0, 0, Nat.le_refl _, Nat.zero_le _⟩

/-- A further entry; the oldest one goes when there is no room. -/
def insert (w : Window capacity) (hcapacity : 0 < capacity) : Window capacity :=
  if hfull : capacity ≤ w.hi - w.lo then
    ⟨w.lo + 1, w.hi + 1, by have := w.lo_le_hi; omega, by have := w.size_le; omega⟩
  else
    ⟨w.lo, w.hi + 1, by have := w.lo_le_hi; omega, by have := w.lo_le_hi; omega⟩

/-- The oldest entry goes. -/
def remove (w : Window capacity) (hnonempty : w.lo < w.hi) : Window capacity :=
  ⟨w.lo + 1, w.hi, hnonempty, by have := w.size_le; omega⟩

@[simp] theorem insert_hi (w : Window capacity) (hcapacity : 0 < capacity) :
    (w.insert hcapacity).hi = w.hi + 1 := by
  unfold insert
  split <;> rfl

theorem insert_lo_of_full (w : Window capacity) (hcapacity : 0 < capacity)
    (hfull : capacity ≤ w.hi - w.lo) : (w.insert hcapacity).lo = w.lo + 1 := by
  rw [insert, dif_pos hfull]

theorem insert_lo_of_room (w : Window capacity) (hcapacity : 0 < capacity)
    (hroom : ¬ capacity ≤ w.hi - w.lo) : (w.insert hcapacity).lo = w.lo := by
  rw [insert, dif_neg hroom]

theorem lo_le_insert_lo (w : Window capacity) (hcapacity : 0 < capacity) :
    w.lo ≤ (w.insert hcapacity).lo := by
  by_cases hfull : capacity ≤ w.hi - w.lo
  · rw [insert_lo_of_full w hcapacity hfull]
    exact Nat.le_succ _
  · exact Nat.le_of_eq (insert_lo_of_room w hcapacity hfull).symm

theorem insert_nonempty (w : Window capacity) (hcapacity : 0 < capacity) :
    (w.insert hcapacity).lo < (w.insert hcapacity).hi := by
  have := w.lo_le_hi
  by_cases hfull : capacity ≤ w.hi - w.lo
  · rw [insert_lo_of_full w hcapacity hfull, insert_hi]
    omega
  · rw [insert_lo_of_room w hcapacity hfull, insert_hi]
    omega

@[simp] theorem remove_lo (w : Window capacity) (hnonempty : w.lo < w.hi) :
    (w.remove hnonempty).lo = w.lo + 1 := rfl

end Window

/-! ### Logs and their numbers -/

/-- An entry with its place in the order of insertion. -/
structure Numbered (Entry : Type*) where
  number : Nat
  value : Entry
  deriving DecidableEq

variable {Entry : Type*}

def numbered (log : List Entry) : List (Numbered Entry) := log.mapIdx fun i x => ⟨i, x⟩

@[simp] theorem length_numbered (log : List Entry) : (numbered log).length = log.length :=
  List.length_mapIdx

theorem numbered_concat (log : List Entry) (x : Entry) :
    numbered (log ++ [x]) = numbered log ++ [⟨log.length, x⟩] :=
  List.mapIdx_concat

theorem getElem_numbered (log : List Entry) (i : Nat) (hi : i < (numbered log).length) :
    (numbered log)[i] = ⟨i, log.get ⟨i, by rwa [length_numbered] at hi⟩⟩ :=
  List.getElem_mapIdx

theorem mem_numbered_iff {log : List Entry} {x : Numbered Entry} :
    x ∈ numbered log ↔ log[x.number]? = some x.value := by
  rw [numbered, List.mem_mapIdx]
  constructor
  · rintro ⟨i, hi, rfl⟩
    exact List.getElem?_eq_getElem hi
  · intro hx
    obtain ⟨hi, hvalue⟩ := List.getElem?_eq_some_iff.mp hx
    exact ⟨x.number, hi, by rw [hvalue]⟩

theorem number_lt_of_mem_numbered {log : List Entry} {x : Numbered Entry}
    (hx : x ∈ numbered log) : x.number < log.length :=
  (List.getElem?_eq_some_iff.mp (mem_numbered_iff.mp hx)).1

theorem mem_numbered_concat_of_mem {log : List Entry} {x : Numbered Entry} {y : Entry}
    (hx : x ∈ numbered log) : x ∈ numbered (log ++ [y]) := by
  rw [numbered_concat]
  exact List.mem_append_left _ hx

theorem eq_of_mem_numbered {log : List Entry} {x y : Numbered Entry} (hx : x ∈ numbered log)
    (hy : y ∈ numbered log) (hnumber : x.number = y.number) : x = y := by
  rw [mem_numbered_iff] at hx hy
  rw [hnumber, hy, Option.some.injEq] at hx
  cases x
  cases y
  simp_all

/-! ### A queue as a list

A list stands for a window of a log when it holds the numbered entries from `lo` on. -/

/-- The list is what a queue with this window holds after the insertions of the log. -/
structure Represents {capacity : Nat} (queue : List (Numbered Entry)) (log : List Entry)
    (w : Window capacity) : Prop where
  hi_eq : w.hi = log.length
  queue_eq : queue = (numbered log).drop w.lo

namespace Represents

variable {capacity : Nat} {queue : List (Numbered Entry)} {log : List Entry} {w : Window capacity}

theorem empty (capacity : Nat) :
    Represents ([] : List (Numbered Entry)) [] (Window.empty capacity) :=
  ⟨rfl, rfl⟩

theorem length_eq (h : Represents queue log w) : queue.length = w.hi - w.lo := by
  rw [h.queue_eq, List.length_drop, length_numbered, h.hi_eq]

theorem length_le (h : Represents queue log w) : queue.length ≤ capacity :=
  h.length_eq ▸ w.size_le

theorem mem_log (h : Represents queue log w) {x : Numbered Entry} (hx : x ∈ queue) :
    x ∈ numbered log := by
  rw [h.queue_eq] at hx
  exact List.mem_of_mem_drop hx

/-- The front of the list is the entry that has number `lo`. -/
theorem of_cons {x : Numbered Entry} {rest : List (Numbered Entry)}
    (h : Represents (x :: rest) log w) :
    x.number = w.lo ∧ w.lo < w.hi ∧ rest = (numbered log).drop (w.lo + 1) := by
  have hlength := h.length_eq
  rw [List.length_cons] at hlength
  have hlt : w.lo < w.hi := by omega
  have hlo : w.lo < (numbered log).length := by rw [length_numbered, ← h.hi_eq]; exact hlt
  have hqueue := h.queue_eq
  rw [List.drop_eq_getElem_cons hlo, getElem_numbered, List.cons.injEq] at hqueue
  exact ⟨by rw [hqueue.1], hlt, hqueue.2⟩

theorem ne_nil_iff (h : Represents queue log w) : queue ≠ [] ↔ w.lo < w.hi := by
  rw [← List.length_pos_iff, h.length_eq]
  omega

theorem remove {x : Numbered Entry} {rest : List (Numbered Entry)}
    (h : Represents (x :: rest) log w) : Represents rest log (w.remove h.of_cons.2.1) :=
  ⟨h.hi_eq, h.of_cons.2.2⟩

theorem insert_of_room (h : Represents queue log w) (hcapacity : 0 < capacity)
    (hroom : ¬ capacity ≤ queue.length) (x : Entry) :
    Represents (queue ++ [⟨log.length, x⟩]) (log ++ [x]) (w.insert hcapacity) := by
  rw [h.length_eq] at hroom
  refine ⟨by rw [Window.insert_hi, h.hi_eq, List.length_append, List.length_singleton], ?_⟩
  have hle : w.lo ≤ (numbered log).length := by rw [length_numbered, ← h.hi_eq]; exact w.lo_le_hi
  rw [Window.insert_lo_of_room w hcapacity hroom, numbered_concat,
    List.drop_append_of_le_length hle, ← h.queue_eq]

/-- Putting in an entry when the queue is full: the front of the list goes. -/
theorem insert_of_full {front : Numbered Entry} {rest : List (Numbered Entry)}
    (h : Represents (front :: rest) log w) (hcapacity : 0 < capacity)
    (hfull : capacity ≤ (front :: rest).length) (x : Entry) :
    Represents (rest ++ [⟨log.length, x⟩]) (log ++ [x]) (w.insert hcapacity) := by
  obtain ⟨_, hlt, hrest⟩ := h.of_cons
  rw [h.length_eq] at hfull
  refine ⟨by rw [Window.insert_hi, h.hi_eq, List.length_append, List.length_singleton], ?_⟩
  have hle : w.lo + 1 ≤ (numbered log).length := by rw [length_numbered, ← h.hi_eq]; exact hlt
  rw [Window.insert_lo_of_full w hcapacity hfull, numbered_concat,
    List.drop_append_of_le_length hle, ← hrest]

end Represents

end EvictingWindow
