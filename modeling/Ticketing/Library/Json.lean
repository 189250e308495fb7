import Mathlib.Data.List.Forall2
import Mathlib.Data.String.Basic
import Ticketing.Library.SortedAssoc

/-!
# JSON values

The value type of `nlohmann::json` and the member functions of it that a program uses to read and
to build documents, with their failures. An object is a `std::map`, so an ordered list of entries.

The library holds an integer as `number_integer_t` or as `number_unsigned_t`. Where both can hold a
value they agree on `is_number_integer`, on every conversion and on `==`, so that only the value is
kept here. A floating-point number is a parameter: a program that never computes with one sees only
how it converts and compares.
-/

/-- What `static_cast` and `==` make of a floating-point number. -/
class Double (F : Type) where
  toInt64 : F → Int64
  toInt32 : F → Int32
  eqInt64 : F → Int64 → Bool

/-- The integers of JSON documents: those of `int64_t` and those of `uint64_t`. -/
structure JsonInteger where
  val : Int
  le_val : Int64.minValue.toInt ≤ val
  val_lt : val < UInt64.size

inductive Json (F : Type) where
  | null
  | boolean (b : Bool)
  | numberInteger (z : JsonInteger)
  | numberFloat (x : F)
  | string (s : String)
  | array (elems : List (Json F))
  | object (members : List (String × Json F))

/-- How a call of the library fails. -/
inductive JsonError where
  /-- the exception `parse_error` -/
  | parseError
  /-- the exception `type_error` with its number -/
  | typeError (id : Nat)
  /-- a failed `JSON_ASSERT` -/
  | assertion
  deriving DecidableEq

/-! ### Computations that may fail -/

namespace Except

variable {Error A B : Type}

@[simp] theorem ok_bind (a : A) (f : A → Except Error B) : (Except.ok a >>= f) = f a := rfl

@[simp] theorem error_bind (e : Error) (f : A → Except Error B) :
    (Except.error e >>= f) = Except.error e := rfl

@[simp] theorem pure_eq_ok (a : A) : (pure a : Except Error A) = Except.ok a := rfl

theorem bind_eq_ok_iff {x : Except Error A} {f : A → Except Error B} {b : B} :
    (x >>= f) = Except.ok b ↔ ∃ a, x = Except.ok a ∧ f a = Except.ok b := by
  cases x with
  | error e => simp only [error_bind, reduceCtorEq, false_and, exists_false]
  | ok a => simp only [ok_bind, Except.ok.injEq, exists_eq_left']

theorem toOption_eq_some_iff {x : Except Error A} {a : A} :
    x.toOption = some a ↔ x = Except.ok a := by
  cases x with
  | error e => simp only [Except.toOption, reduceCtorEq]
  | ok a' => simp only [Except.toOption, Option.some.injEq, Except.ok.injEq]

theorem mapM_eq_ok_iff {f : A → Except Error B} {as : List A} {bs : List B} :
    as.mapM f = Except.ok bs ↔ List.Forall₂ (fun a b => f a = Except.ok b) as bs := by
  induction as generalizing bs with
  | nil =>
      rw [List.mapM_nil, pure_eq_ok, Except.ok.injEq, List.forall₂_nil_left_iff, eq_comm]
  | cons a as ih =>
      simp only [List.mapM_cons, bind_eq_ok_iff, pure_eq_ok, Except.ok.injEq,
        List.forall₂_cons_left_iff, ih]
      constructor
      · rintro ⟨b, hb, bs', hbs, rfl⟩
        exact ⟨b, bs', hb, hbs, rfl⟩
      · rintro ⟨b, bs', hb, hbs, rfl⟩
        exact ⟨b, hb, bs', hbs, rfl⟩

theorem mapM_ok_iff {f : A → Except Error B} {as : List A} :
    (∃ bs, as.mapM f = Except.ok bs) ↔ ∀ a ∈ as, ∃ b, f a = Except.ok b := by
  simp only [mapM_eq_ok_iff]
  induction as with
  | nil => simp only [List.forall₂_nil_left_iff, exists_eq, List.not_mem_nil, false_imp_iff,
      implies_true]
  | cons a as ih =>
      rw [List.forall_mem_cons, ← ih]
      simp only [List.forall₂_cons_left_iff]
      constructor
      · rintro ⟨_, b, bs, hb, hbs, rfl⟩
        exact ⟨⟨b, hb⟩, bs, hbs⟩
      · rintro ⟨⟨b, hb⟩, bs, hbs⟩
        exact ⟨b :: bs, b, bs, hb, hbs, rfl⟩

end Except

/-! ### Integers -/

namespace JsonInteger

def ofInt? (z : Int) : Option JsonInteger :=
  if h : Int64.minValue.toInt ≤ z ∧ z < UInt64.size then some ⟨z, h.1, h.2⟩ else none

theorem ofInt?_val (z : JsonInteger) : ofInt? z.val = some z := dif_pos ⟨z.le_val, z.val_lt⟩

def ofInt64 (x : Int64) : JsonInteger :=
  ⟨x.toInt, x.minValue_le_toInt, lt_of_le_of_lt x.toInt_le (by decide)⟩

def ofInt32 (x : Int32) : JsonInteger :=
  ⟨x.toInt, le_trans (by decide) x.minValue_le_toInt, lt_of_le_of_lt x.toInt_le (by decide)⟩

def toInt64 (z : JsonInteger) : Int64 := Int64.ofInt z.val

def toInt32 (z : JsonInteger) : Int32 := Int32.ofInt z.val

@[simp] theorem toInt64_ofInt64 (x : Int64) : (ofInt64 x).toInt64 = x := Int64.ofInt_toInt x

@[simp] theorem toInt32_ofInt32 (x : Int32) : (ofInt32 x).toInt32 = x := Int32.ofInt_toInt x

end JsonInteger

namespace Json

variable {F : Type}

/-! ### Reading -/

def contains (j : Json F) (key : String) : Bool :=
  match j with
  | .object members => (SortedAssoc.find? key members).isSome
  | _ => false

/-- `operator[]` of a constant value. -/
def index (j : Json F) (key : String) : Except JsonError (Json F) :=
  match j with
  | .object members =>
      match SortedAssoc.find? key members with
      | some v => .ok v
      | none => .error .assertion
  | _ => .error (.typeError 305)

/-- What `operator[]` of a value that is not constant refers to: a missing member is created as
null, and so is the object itself where the value is null. -/
def indexMut (j : Json F) (key : String) : Except JsonError (Json F) :=
  match j with
  | .null => .ok .null
  | .object members => .ok ((SortedAssoc.find? key members).getD .null)
  | _ => .error (.typeError 305)

/-- What a range-based `for` goes through. -/
def elements : Json F → List (Json F)
  | .null => []
  | .array elems => elems
  | .object members => members.map Prod.snd
  | j => [j]

/-- The conversion to `int64_t`. -/
def getInt64 [Double F] : Json F → Except JsonError Int64
  | .numberInteger z => .ok z.toInt64
  | .numberFloat x => .ok (Double.toInt64 x)
  | _ => .error (.typeError 302)

/-- The conversion to `int`, which takes booleans as well. -/
def getInt32 [Double F] : Json F → Except JsonError Int32
  | .boolean b => .ok (if b then 1 else 0)
  | .numberInteger z => .ok z.toInt32
  | .numberFloat x => .ok (Double.toInt32 x)
  | _ => .error (.typeError 302)

/-- `operator==` with an `int64_t`. -/
def eqInt64 [Double F] (j : Json F) (x : Int64) : Bool :=
  match j with
  | .numberInteger z => z.toInt64 == x
  | .numberFloat d => Double.eqInt64 d x
  | _ => false

/-! ### Building -/

/-- The value after an assignment to the member that `operator[]` refers to. -/
def assign (j : Json F) (key : String) (v : Json F) : Json F :=
  match j with
  | .null => .object [(key, v)]
  | .object members => .object (SortedAssoc.insert key v members)
  | j => j

def pushBack (j : Json F) (v : Json F) : Except JsonError (Json F) :=
  match j with
  | .null => .ok (.array [v])
  | .array elems => .ok (.array (elems ++ [v]))
  | _ => .error (.typeError 308)

/-- The object that an initializer list of pairs makes. -/
def ofPairs (pairs : List (String × Json F)) : Json F := .object (SortedAssoc.ofList pairs)

def ofInt64 (x : Int64) : Json F := .numberInteger (.ofInt64 x)

def ofInt32 (x : Int32) : Json F := .numberInteger (.ofInt32 x)

@[simp] theorem getInt64_ofInt64 [Double F] (x : Int64) :
    (ofInt64 x : Json F).getInt64 = .ok x := by
  rw [ofInt64, getInt64, JsonInteger.toInt64_ofInt64]

@[simp] theorem getInt32_ofInt32 [Double F] (x : Int32) :
    (ofInt32 x : Json F).getInt32 = .ok x := by
  rw [ofInt32, getInt32, JsonInteger.toInt32_ofInt32]

@[simp] theorem eqInt64_ofInt64 [Double F] (x y : Int64) :
    (ofInt64 x : Json F).eqInt64 y = (x == y) := by
  rw [ofInt64, eqInt64, JsonInteger.toInt64_ofInt64]

theorem index_object {members : List (String × Json F)} {key : String} {v : Json F}
    (h : SortedAssoc.find? key members = some v) : (object members).index key = .ok v := by
  simp only [index, h]

/-! ### Canonical values

The members of an object are in the order of their keys, at every depth. Every value that the
library builds is of this form; a list of members in another order stands for no value. -/

inductive Canonical : Json F → Prop
  | null : Canonical .null
  | boolean (b : Bool) : Canonical (.boolean b)
  | numberInteger (z : JsonInteger) : Canonical (.numberInteger z)
  | numberFloat (x : F) : Canonical (.numberFloat x)
  | string (s : String) : Canonical (.string s)
  | array {elems : List (Json F)} (h : ∀ j ∈ elems, Canonical j) : Canonical (.array elems)
  | object {members : List (String × Json F)} (hsorted : SortedAssoc.Sorted members)
      (h : ∀ p ∈ members, Canonical p.2) : Canonical (.object members)

theorem Canonical.mem_array {elems : List (Json F)} (h : Canonical (.array elems)) :
    ∀ j ∈ elems, Canonical j := by
  cases h with
  | array h => exact h

theorem Canonical.of_find? {members : List (String × Json F)} (h : Canonical (.object members))
    {key : String} {v : Json F} (hfind : SortedAssoc.find? key members = some v) :
    Canonical v := by
  cases h with
  | object _ hmembers => exact hmembers (key, v) (SortedAssoc.mem_of_find? hfind)

theorem Canonical.indexMut {j v : Json F} (h : Canonical j) {key : String}
    (hindex : j.indexMut key = .ok v) : Canonical v := by
  cases h with
  | null =>
      rw [Json.indexMut, Except.ok.injEq] at hindex
      exact hindex ▸ .null
  | object hsorted hmembers =>
      rw [Json.indexMut, Except.ok.injEq] at hindex
      rw [← hindex]
      cases hfind : SortedAssoc.find? key _ with
      | none => exact .null
      | some w => exact Canonical.of_find? (.object hsorted hmembers) hfind
  | _ => exact nomatch hindex

theorem Canonical.elements {j : Json F} (h : Canonical j) : ∀ v ∈ j.elements, Canonical v := by
  intro v hv
  cases h with
  | null => exact absurd hv List.not_mem_nil
  | array helems => exact helems v hv
  | object _ hmembers =>
      obtain ⟨p, hp, rfl⟩ := List.mem_map.mp hv
      exact hmembers p hp
  | boolean b => exact List.mem_singleton.mp hv ▸ .boolean b
  | numberInteger z => exact List.mem_singleton.mp hv ▸ .numberInteger z
  | numberFloat x => exact List.mem_singleton.mp hv ▸ .numberFloat x
  | string s => exact List.mem_singleton.mp hv ▸ .string s

theorem Canonical.assign {members : List (String × Json F)} (h : Canonical (.object members))
    (key : String) {v : Json F} (hv : Canonical v) :
    Canonical ((Json.object members).assign key v) := by
  cases h with
  | object hsorted hmembers =>
      apply Canonical.object (hsorted.insert key v)
      intro p hp
      rcases SortedAssoc.mem_insert hp with rfl | hp
      · exact hv
      · exact hmembers p hp

theorem Canonical.append {elems : List (Json F)} (h : Canonical (.array elems)) {v : Json F}
    (hv : Canonical v) : Canonical (.array (elems ++ [v])) := by
  apply Canonical.array
  intro j hj
  rcases List.mem_append.mp hj with hj | hj
  · exact h.mem_array j hj
  · exact List.mem_singleton.mp hj ▸ hv

theorem Canonical.ofPairs {pairs : List (String × Json F)} (h : ∀ p ∈ pairs, Canonical p.2) :
    Canonical (ofPairs pairs) :=
  .object (SortedAssoc.sorted_ofList pairs) fun p hp => h p (SortedAssoc.mem_of_mem_ofList hp)

end Json
