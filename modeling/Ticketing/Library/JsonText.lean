import Ticketing.Library.JsonLexemes

/-!
# JSON documents as text

A printer and a reader of JSON documents without fractions. The printer takes its layout as a
parameter, so that the compact text and the indented text are two instances of one function. The
reader takes the first value of a text and leaves the rest. What is printed is read back, in every
layout; and a text that begins with a whole object keeps being read as that object however it goes
on, so that no proper beginning of a printed object is a document.
-/

namespace JsonText

/-- What is printed between the words beside the punctuation: only white space. -/
structure Layout where
  /-- before an element at this depth, and before the bracket that closes the depth -/
  newline : Nat → List UInt8
  afterColon : List UInt8
  newline_space : ∀ depth, ∀ b ∈ newline depth, isSpace b = true
  afterColon_space : ∀ b ∈ afterColon, isSpace b = true

def Layout.compact : Layout where
  newline _ := []
  afterColon := []
  newline_space _ := by simp
  afterColon_space := by simp

def Layout.indented (width : Nat) : Layout where
  newline depth := 10 :: List.replicate (width * depth) 32
  afterColon := [32]
  newline_space _ := by
    intro b hb
    rcases List.mem_cons.mp hb with rfl | hb
    · rfl
    · rw [(List.mem_replicate.mp hb).2]
      rfl
  afterColon_space := by simp [isSpace]

def nullWord : List UInt8 := [110, 117, 108, 108]
def trueWord : List UInt8 := [116, 114, 117, 101]
def falseWord : List UInt8 := [102, 97, 108, 115, 101]

def printKey (l : Layout) (key : String) : List UInt8 :=
  printString key ++ colon :: l.afterColon

mutual

def printValue (l : Layout) (depth : Nat) : Json Empty → List UInt8
  | .null => nullWord
  | .boolean b => if b then trueWord else falseWord
  | .numberInteger z => printInteger z
  | .numberFloat x => nomatch x
  | .string s => printString s
  | .array [] => [openBracket, closeBracket]
  | .array (v :: vs) =>
      openBracket :: (l.newline (depth + 1) ++ printValue l (depth + 1) v) ++
        printElements l depth vs
  | .object [] => [openBrace, closeBrace]
  | .object ((key, v) :: members) =>
      openBrace :: (l.newline (depth + 1) ++ printKey l key ++ printValue l (depth + 1) v) ++
        printMembers l depth members

/-- The elements that come after another, and the bracket that closes them. -/
def printElements (l : Layout) (depth : Nat) : List (Json Empty) → List UInt8
  | [] => l.newline depth ++ [closeBracket]
  | v :: vs =>
      comma :: (l.newline (depth + 1) ++ printValue l (depth + 1) v) ++ printElements l depth vs

/-- The members that come after another, and the brace that closes them. -/
def printMembers (l : Layout) (depth : Nat) : List (String × Json Empty) → List UInt8
  | [] => l.newline depth ++ [closeBrace]
  | (key, v) :: members =>
      comma :: (l.newline (depth + 1) ++ printKey l key ++ printValue l (depth + 1) v) ++
        printMembers l depth members

end

/-- A key with its colon. -/
def readKey (s : List UInt8) : Option (String × List UInt8) :=
  match skipSpace s with
  | [] => none
  | b :: s =>
      if b = quote then
        (readString s).bind fun (key, s) =>
          match skipSpace s with
          | [] => none
          | b :: s => if b = colon then some (key, s) else none
      else none

def readScalar (b : UInt8) (s : List UInt8) : Option (Json Empty × List UInt8) :=
  if b = quote then (readString s).map fun (value, s) => (.string value, s)
  else if b = 110 then (literal nullWord (b :: s)).map fun s => (.null, s)
  else if b = 116 then (literal trueWord (b :: s)).map fun s => (.boolean true, s)
  else if b = 102 then (literal falseWord (b :: s)).map fun s => (.boolean false, s)
  else (readInteger (b :: s)).map fun (z, s) => (.numberInteger z, s)

mutual

def readValue : Nat → List UInt8 → Option (Json Empty × List UInt8)
  | 0, _ => none
  | n + 1, s =>
      match skipSpace s with
      | [] => none
      | b :: s =>
          if b = openBracket then
            match skipSpace s with
            | [] => none
            | b :: s' =>
                if b = closeBracket then some (.array [], s')
                else do
                  let (v, s) ← readValue n s
                  let (vs, s) ← readElements n s
                  return (.array (v :: vs), s)
          else if b = openBrace then
            match skipSpace s with
            | [] => none
            | b :: s' =>
                if b = closeBrace then some (.object [], s')
                else do
                  let (key, s) ← readKey s
                  let (v, s) ← readValue n s
                  let (members, s) ← readMembers n s
                  return (.object (SortedAssoc.ofList ((key, v) :: members)), s)
          else readScalar b s

def readElements : Nat → List UInt8 → Option (List (Json Empty) × List UInt8)
  | 0, _ => none
  | n + 1, s =>
      match skipSpace s with
      | [] => none
      | b :: s =>
          if b = closeBracket then some ([], s)
          else if b = comma then do
            let (v, s) ← readValue n s
            let (vs, s) ← readElements n s
            return (v :: vs, s)
          else none

def readMembers : Nat → List UInt8 → Option (List (String × Json Empty) × List UInt8)
  | 0, _ => none
  | n + 1, s =>
      match skipSpace s with
      | [] => none
      | b :: s =>
          if b = closeBrace then some ([], s)
          else if b = comma then do
            let (key, s) ← readKey s
            let (v, s) ← readValue n s
            let (members, s) ← readMembers n s
            return ((key, v) :: members, s)
          else none

end

def readFirst (s : List UInt8) : Option (Json Empty × List UInt8) := readValue (s.length + 1) s

/-! ### How a reader goes on -/

/-- The ways in which the reader finds a value that begins with the byte. -/
inductive ReadsValue (n : Nat) : UInt8 → List UInt8 → Json Empty → List UInt8 → Prop
  | emptyArray {s r} (hskip : skipSpace s = closeBracket :: r) :
      ReadsValue n openBracket s (.array []) r
  | array {s b s' v s₁ vs r} (hskip : skipSpace s = b :: s') (hb : b ≠ closeBracket)
      (hv : readValue n s = some (v, s₁)) (hvs : readElements n s₁ = some (vs, r)) :
      ReadsValue n openBracket s (.array (v :: vs)) r
  | emptyObject {s r} (hskip : skipSpace s = closeBrace :: r) :
      ReadsValue n openBrace s (.object []) r
  | object {s b s' key s₁ v s₂ members r} (hskip : skipSpace s = b :: s') (hb : b ≠ closeBrace)
      (hkey : readKey s = some (key, s₁)) (hv : readValue n s₁ = some (v, s₂))
      (hmembers : readMembers n s₂ = some (members, r)) :
      ReadsValue n openBrace s (.object (SortedAssoc.ofList ((key, v) :: members))) r
  | scalar {b s v r} (hbracket : b ≠ openBracket) (hbrace : b ≠ openBrace)
      (h : readScalar b s = some (v, r)) : ReadsValue n b s v r

theorem openBrace_ne_openBracket : openBrace ≠ openBracket := by decide

theorem readValue_eq_some_iff {n : Nat} {s : List UInt8} {v : Json Empty} {r : List UInt8} :
    readValue (n + 1) s = some (v, r) ↔ ∃ b s', skipSpace s = b :: s' ∧ ReadsValue n b s' v r := by
  rw [readValue]
  constructor
  · intro h
    split at h
    · exact nomatch h
    · rename_i b s' hskip
      refine ⟨b, s', hskip, ?_⟩
      split at h
      · rename_i hbracket
        subst hbracket
        split at h
        · exact nomatch h
        · rename_i b s'' hskip'
          split at h
          · rename_i hclose
            rw [Option.some.injEq, Prod.mk.injEq] at h
            obtain ⟨rfl, rfl⟩ := h
            exact .emptyArray (hclose ▸ hskip')
          · rename_i hclose
            simp only [Option.bind_eq_bind, Option.bind_eq_some_iff, Option.pure_def,
              Option.some.injEq, Prod.mk.injEq] at h
            obtain ⟨⟨v, s₁⟩, hv, ⟨vs, s₂⟩, hvs, rfl, rfl⟩ := h
            exact .array hskip' hclose hv hvs
      · rename_i hbracket
        split at h
        · rename_i hbrace
          subst hbrace
          split at h
          · exact nomatch h
          · rename_i b s'' hskip'
            split at h
            · rename_i hclose
              rw [Option.some.injEq, Prod.mk.injEq] at h
              obtain ⟨rfl, rfl⟩ := h
              exact .emptyObject (hclose ▸ hskip')
            · rename_i hclose
              simp only [Option.bind_eq_bind, Option.bind_eq_some_iff, Option.pure_def,
                Option.some.injEq, Prod.mk.injEq] at h
              obtain ⟨⟨key, s₁⟩, hkey, ⟨v, s₂⟩, hv, ⟨members, s₃⟩, hmembers, rfl, rfl⟩ := h
              exact .object hskip' hclose hkey hv hmembers
        · rename_i hbrace
          exact .scalar hbracket hbrace h
  · rintro ⟨b, s', hskip, h⟩
    rw [hskip]
    cases h with
    | emptyArray hskip' => simp only [if_true, hskip']
    | array hskip' hb hv hvs =>
        simp only [if_true, hskip', if_neg hb, hv, hvs, Option.bind_eq_bind, Option.bind_some,
          Option.pure_def]
    | emptyObject hskip' => simp only [if_neg openBrace_ne_openBracket, if_true, hskip']
    | object hskip' hb hkey hv hmembers =>
        simp only [if_neg openBrace_ne_openBracket, if_true, hskip', if_neg hb, hkey, hv, hmembers,
          Option.bind_eq_bind, Option.bind_some, Option.pure_def]
    | scalar hbracket hbrace h => simp only [if_neg hbracket, if_neg hbrace, h]

theorem comma_ne_closeBracket : comma ≠ closeBracket := by decide

theorem comma_ne_closeBrace : comma ≠ closeBrace := by decide

theorem readElements_eq_some_iff {n : Nat} {s : List UInt8} {vs : List (Json Empty)}
    {r : List UInt8} :
    readElements (n + 1) s = some (vs, r) ↔
      (vs = [] ∧ skipSpace s = closeBracket :: r) ∨
      ∃ s' v s₁ vs', vs = v :: vs' ∧ skipSpace s = comma :: s' ∧ readValue n s' = some (v, s₁) ∧
        readElements n s₁ = some (vs', r) := by
  rw [readElements]
  constructor
  · intro h
    split at h
    · exact nomatch h
    · rename_i b s' hskip
      split at h
      · rename_i hclose
        rw [Option.some.injEq, Prod.mk.injEq] at h
        obtain ⟨rfl, rfl⟩ := h
        exact Or.inl ⟨rfl, hclose ▸ hskip⟩
      · split at h
        · rename_i hcomma
          simp only [Option.bind_eq_bind, Option.bind_eq_some_iff, Option.pure_def,
            Option.some.injEq, Prod.mk.injEq] at h
          obtain ⟨⟨v, s₁⟩, hv, ⟨vs, s₂⟩, hvs, rfl, rfl⟩ := h
          exact Or.inr ⟨_, _, _, _, rfl, hcomma ▸ hskip, hv, hvs⟩
        · exact nomatch h
  · rintro (⟨rfl, hskip⟩ | ⟨s', v, s₁, vs, rfl, hskip, hv, hvs⟩)
    · simp only [hskip, if_true]
    · simp only [hskip, if_neg comma_ne_closeBracket, if_true, hv, hvs, Option.bind_eq_bind,
        Option.bind_some, Option.pure_def]

theorem readMembers_eq_some_iff {n : Nat} {s : List UInt8} {members : List (String × Json Empty)}
    {r : List UInt8} :
    readMembers (n + 1) s = some (members, r) ↔
      (members = [] ∧ skipSpace s = closeBrace :: r) ∨
      ∃ s' key s₁ v s₂ members', members = (key, v) :: members' ∧ skipSpace s = comma :: s' ∧
        readKey s' = some (key, s₁) ∧ readValue n s₁ = some (v, s₂) ∧
        readMembers n s₂ = some (members', r) := by
  rw [readMembers]
  constructor
  · intro h
    split at h
    · exact nomatch h
    · rename_i b s' hskip
      split at h
      · rename_i hclose
        rw [Option.some.injEq, Prod.mk.injEq] at h
        obtain ⟨rfl, rfl⟩ := h
        exact Or.inl ⟨rfl, hclose ▸ hskip⟩
      · split at h
        · rename_i hcomma
          simp only [Option.bind_eq_bind, Option.bind_eq_some_iff, Option.pure_def,
            Option.some.injEq, Prod.mk.injEq] at h
          obtain ⟨⟨key, s₁⟩, hkey, ⟨v, s₂⟩, hv, ⟨members, s₃⟩, hmembers, rfl, rfl⟩ := h
          exact Or.inr ⟨_, _, _, _, _, _, rfl, hcomma ▸ hskip, hkey, hv, hmembers⟩
        · exact nomatch h
  · rintro (⟨rfl, hskip⟩ | ⟨s', key, s₁, v, s₂, members, rfl, hskip, hkey, hv, hmembers⟩)
    · simp only [hskip, if_true]
    · simp only [hskip, if_neg comma_ne_closeBrace, if_true, hkey, hv, hmembers,
        Option.bind_eq_bind, Option.bind_some, Option.pure_def]

theorem readKey_eq_some_iff {s : List UInt8} {key : String} {r : List UInt8} :
    readKey s = some (key, r) ↔ ∃ s₁ s₂, skipSpace s = quote :: s₁ ∧
      readString s₁ = some (key, s₂) ∧ skipSpace s₂ = colon :: r := by
  rw [readKey]
  constructor
  · intro h
    split at h
    · exact nomatch h
    · rename_i b s₁ hskip
      split at h
      · rename_i hquote
        obtain ⟨⟨key', s₂⟩, hstring, h⟩ := Option.bind_eq_some_iff.mp h
        simp only at h
        split at h
        · exact nomatch h
        · rename_i b' s₃ hskip'
          split at h
          · rename_i hcolon
            rw [Option.some.injEq, Prod.mk.injEq] at h
            obtain ⟨rfl, rfl⟩ := h
            exact ⟨s₁, s₂, hquote ▸ hskip, hstring, hcolon ▸ hskip'⟩
          · exact nomatch h
      · exact nomatch h
  · rintro ⟨s₁, s₂, hskip, hstring, hskip'⟩
    simp only [hskip, if_true, hstring, Option.bind_some, hskip']

/-! ### What is read is canonical -/

theorem canonical_of_readScalar {b : UInt8} {s : List UInt8} {v : Json Empty} {r : List UInt8}
    (h : readScalar b s = some (v, r)) : v.Canonical ∧ ∀ members, v ≠ .object members := by
  rw [readScalar] at h
  repeat' split at h
  all_goals
    obtain ⟨p, _, heq⟩ := Option.map_eq_some_iff.mp h
    rw [← (Prod.mk.inj heq).1]
  · exact ⟨.string _, fun _ => nofun⟩
  · exact ⟨.null, fun _ => nofun⟩
  · exact ⟨.boolean _, fun _ => nofun⟩
  · exact ⟨.boolean _, fun _ => nofun⟩
  · exact ⟨.numberInteger _, fun _ => nofun⟩

theorem canonical_of_read (n : Nat) :
    (∀ s v r, readValue n s = some (v, r) → v.Canonical) ∧
    (∀ s vs r, readElements n s = some (vs, r) → ∀ v ∈ vs, v.Canonical) ∧
    ∀ s members r, readMembers n s = some (members, r) → ∀ p ∈ members, p.2.Canonical := by
  induction n with
  | zero => exact ⟨fun _ _ _ => nofun, fun _ _ _ => nofun, fun _ _ _ => nofun⟩
  | succ n ih =>
      obtain ⟨hvalue, helements, hmembersIH⟩ := ih
      refine ⟨fun s v r h => ?_, fun s vs r h => ?_, fun s members r h => ?_⟩
      · obtain ⟨b, s', -, hreads⟩ := readValue_eq_some_iff.mp h
        cases hreads with
        | emptyArray => exact .array (by simp)
        | array _ _ hv hvs =>
            exact .array (List.forall_mem_cons.mpr ⟨hvalue _ _ _ hv, helements _ _ _ hvs⟩)
        | emptyObject => exact .object .nil (by simp)
        | object _ _ _ hv hmembers =>
            exact Json.Canonical.ofPairs
              (List.forall_mem_cons.mpr ⟨hvalue _ _ _ hv, hmembersIH _ _ _ hmembers⟩)
        | scalar _ _ hscalar => exact (canonical_of_readScalar hscalar).1
      · rcases readElements_eq_some_iff.mp h with ⟨rfl, -⟩ | ⟨_, _, _, _, rfl, -, hv, hvs⟩
        · simp
        · exact List.forall_mem_cons.mpr ⟨hvalue _ _ _ hv, helements _ _ _ hvs⟩
      · rcases readMembers_eq_some_iff.mp h with
          ⟨rfl, -⟩ | ⟨_, _, _, _, _, _, rfl, -, -, hv, hmembers⟩
        · simp
        · exact List.forall_mem_cons.mpr ⟨hvalue _ _ _ hv, hmembersIH _ _ _ hmembers⟩

theorem canonical_of_readFirst {s : List UInt8} {v : Json Empty} {r : List UInt8}
    (h : readFirst s = some (v, r)) : v.Canonical := (canonical_of_read _).1 _ _ _ h

/-! ### More text at the end -/

theorem readKey_append {s : List UInt8} {key : String} {r : List UInt8}
    (h : readKey s = some (key, r)) (e : List UInt8) : readKey (s ++ e) = some (key, r ++ e) := by
  obtain ⟨s₁, s₂, hskip, hstring, hcolon⟩ := readKey_eq_some_iff.mp h
  exact readKey_eq_some_iff.mpr
    ⟨_, _, skipSpace_append hskip e, readString_append hstring e, skipSpace_append hcolon e⟩

theorem readScalar_append {b : UInt8} {s : List UInt8} {v : Json Empty} {r : List UInt8}
    (h : readScalar b s = some (v, r)) (hr : r ≠ []) (e : List UInt8) :
    readScalar b (s ++ e) = some (v, r ++ e) := by
  rw [readScalar] at h ⊢
  rw [← List.cons_append]
  split at h
  · rename_i hquote
    obtain ⟨⟨value, r'⟩, hread, heq⟩ := Option.map_eq_some_iff.mp h
    rw [Prod.mk.injEq] at heq
    obtain ⟨rfl, rfl⟩ := heq
    rw [if_pos hquote, readString_append hread e, Option.map_some]
  · rename_i hquote
    rw [if_neg hquote]
    split at h
    · rename_i hnull
      obtain ⟨r', hread, heq⟩ := Option.map_eq_some_iff.mp h
      rw [Prod.mk.injEq] at heq
      rw [if_pos hnull, literal_append hread e, Option.map_some, heq.1, heq.2]
    · rename_i hnull
      rw [if_neg hnull]
      split at h
      · rename_i htrue
        obtain ⟨r', hread, heq⟩ := Option.map_eq_some_iff.mp h
        rw [Prod.mk.injEq] at heq
        rw [if_pos htrue, literal_append hread e, Option.map_some, heq.1, heq.2]
      · rename_i htrue
        rw [if_neg htrue]
        split at h
        · rename_i hfalse
          obtain ⟨r', hread, heq⟩ := Option.map_eq_some_iff.mp h
          rw [Prod.mk.injEq] at heq
          rw [if_pos hfalse, literal_append hread e, Option.map_some, heq.1, heq.2]
        · rename_i hfalse
          rw [if_neg hfalse]
          obtain ⟨⟨z, r'⟩, hread, heq⟩ := Option.map_eq_some_iff.mp h
          rw [Prod.mk.injEq] at heq
          obtain ⟨rfl, rfl⟩ := heq
          rw [readInteger_append hread hr e, Option.map_some]

theorem ne_nil_of_skipSpace {s : List UInt8} {b : UInt8} {s' : List UInt8}
    (h : skipSpace s = b :: s') : s ≠ [] := by
  rintro rfl
  exact nomatch h

theorem ne_nil_of_readElements {n : Nat} {s : List UInt8} {vs : List (Json Empty)} {r : List UInt8}
    (h : readElements n s = some (vs, r)) : s ≠ [] := by
  cases n with
  | zero => exact nomatch h
  | succ n =>
      rcases readElements_eq_some_iff.mp h with ⟨-, hskip⟩ | ⟨_, _, _, _, -, hskip, -, -⟩ <;>
        exact ne_nil_of_skipSpace hskip

theorem ne_nil_of_readMembers {n : Nat} {s : List UInt8} {members : List (String × Json Empty)}
    {r : List UInt8} (h : readMembers n s = some (members, r)) : s ≠ [] := by
  cases n with
  | zero => exact nomatch h
  | succ n =>
      rcases readMembers_eq_some_iff.mp h with
        ⟨-, hskip⟩ | ⟨_, _, _, _, _, _, -, hskip, -, -, -⟩ <;> exact ne_nil_of_skipSpace hskip

/-- A reader with more fuel finds the same in a longer text. An integer at the very end could go on,
an object could not. -/
theorem read_append (n : Nat) : ∀ m, n ≤ m → ∀ e : List UInt8,
    (∀ s v r, readValue n s = some (v, r) → (r ≠ [] ∨ ∃ members, v = .object members) →
      readValue m (s ++ e) = some (v, r ++ e)) ∧
    (∀ s vs r, readElements n s = some (vs, r) →
      readElements m (s ++ e) = some (vs, r ++ e)) ∧
    ∀ s members r, readMembers n s = some (members, r) →
      readMembers m (s ++ e) = some (members, r ++ e) := by
  induction n with
  | zero => exact fun m _ e => ⟨fun _ _ _ => nofun, fun _ _ _ => nofun, fun _ _ _ => nofun⟩
  | succ n ih =>
      intro m hle e
      obtain ⟨m, rfl⟩ : ∃ k, m = k + 1 := ⟨m - 1, by omega⟩
      obtain ⟨hvalue, helements, hmembersIH⟩ := ih m (by omega) e
      refine ⟨fun s v r h hend => ?_, fun s vs r h => ?_, fun s members r h => ?_⟩
      · obtain ⟨b, s', hskip, hreads⟩ := readValue_eq_some_iff.mp h
        refine readValue_eq_some_iff.mpr ⟨b, s' ++ e, skipSpace_append hskip e, ?_⟩
        cases hreads with
        | emptyArray hskip' => exact .emptyArray (skipSpace_append hskip' e)
        | array hskip' hb hv hvs =>
            exact .array (skipSpace_append hskip' e) hb
              (hvalue _ _ _ hv (Or.inl (ne_nil_of_readElements hvs))) (helements _ _ _ hvs)
        | emptyObject hskip' => exact .emptyObject (skipSpace_append hskip' e)
        | object hskip' hb hkey hv hmembers =>
            exact .object (skipSpace_append hskip' e) hb (readKey_append hkey e)
              (hvalue _ _ _ hv (Or.inl (ne_nil_of_readMembers hmembers)))
              (hmembersIH _ _ _ hmembers)
        | scalar hbracket hbrace hscalar =>
            rcases hend with hr | ⟨members, hobject⟩
            · exact .scalar hbracket hbrace (readScalar_append hscalar hr e)
            · exact absurd hobject ((canonical_of_readScalar hscalar).2 members)
      · rcases readElements_eq_some_iff.mp h with
          ⟨rfl, hskip⟩ | ⟨s', v, s₁, vs, rfl, hskip, hv, hvs⟩
        · exact readElements_eq_some_iff.mpr (Or.inl ⟨rfl, skipSpace_append hskip e⟩)
        · exact readElements_eq_some_iff.mpr (Or.inr ⟨_, _, _, _, rfl, skipSpace_append hskip e,
            hvalue _ _ _ hv (Or.inl (ne_nil_of_readElements hvs)), helements _ _ _ hvs⟩)
      · rcases readMembers_eq_some_iff.mp h with
          ⟨rfl, hskip⟩ | ⟨s', key, s₁, v, s₂, members, rfl, hskip, hkey, hv, hmembers⟩
        · exact readMembers_eq_some_iff.mpr (Or.inl ⟨rfl, skipSpace_append hskip e⟩)
        · exact readMembers_eq_some_iff.mpr (Or.inr ⟨_, _, _, _, _, _, rfl,
            skipSpace_append hskip e, readKey_append hkey e,
            hvalue _ _ _ hv (Or.inl (ne_nil_of_readMembers hmembers)), hmembersIH _ _ _ hmembers⟩)

theorem readFirst_append {s : List UInt8} {members : List (String × Json Empty)} {r : List UInt8}
    (h : readFirst s = some (.object members, r)) (e : List UInt8) :
    readFirst (s ++ e) = some (.object members, r ++ e) :=
  (read_append _ _ (by rw [List.length_append]; omega) e).1 _ _ _ h (Or.inr ⟨members, rfl⟩)

/-! ### What is printed is read -/

theorem goesOn_of_isSpace {b : UInt8} (h : isSpace b = true) : goesOn b = false := by
  simp only [isSpace, Bool.or_eq_true, beq_iff_eq] at h
  rcases h with ((rfl | rfl) | rfl) | rfl <;> rfl

theorem ends_space_append {space : List UInt8} (hspace : ∀ b ∈ space, isSpace b = true)
    {b : UInt8} (hb : goesOn b = false) (s : List UInt8) : Ends (space ++ b :: s) := by
  cases space with
  | nil => exact ends_cons hb s
  | cons b' space => exact ends_cons (goesOn_of_isSpace (hspace b' List.mem_cons_self)) _

theorem ends_printElements (l : Layout) (depth : Nat) (vs : List (Json Empty)) (r : List UInt8) :
    Ends (printElements l depth vs ++ r) := by
  cases vs with
  | nil =>
      rw [printElements, List.append_assoc]
      exact ends_space_append (l.newline_space depth) rfl r
  | cons v vs =>
      rw [printElements, List.cons_append, List.cons_append]
      exact ends_cons rfl _

theorem ends_printMembers (l : Layout) (depth : Nat) (members : List (String × Json Empty))
    (r : List UInt8) : Ends (printMembers l depth members ++ r) := by
  cases members with
  | nil =>
      rw [printMembers, List.append_assoc]
      exact ends_space_append (l.newline_space depth) rfl r
  | cons p members =>
      rw [printMembers, List.cons_append, List.cons_append]
      exact ends_cons rfl _

theorem readKey_printKey (l : Layout) (key : String) {space : List UInt8}
    (hspace : ∀ b ∈ space, isSpace b = true) (s : List UInt8) :
    readKey (space ++ printKey l key ++ s) = some (key, l.afterColon ++ s) := by
  refine readKey_eq_some_iff.mpr ⟨(printString key).tail ++ (colon :: l.afterColon ++ s),
    colon :: l.afterColon ++ s, ?_, readString_printString key _, ?_⟩
  · rw [List.append_assoc, skipSpace_append_of_space hspace, printKey, List.append_assoc,
      printString, List.cons_append, skipSpace_cons rfl, List.tail_cons]
  · rw [List.cons_append, skipSpace_cons rfl]

theorem readValue_space {space : List UInt8} (hspace : ∀ b ∈ space, isSpace b = true) (n : Nat)
    (s : List UInt8) : readValue n (space ++ s) = readValue n s := by
  cases n with
  | zero => rfl
  | succ n => rw [readValue, readValue, skipSpace_append_of_space hspace]

theorem first_printInteger (z : JsonInteger) :
    ∃ b s, printInteger z = b :: s ∧ (b = minus ∨ isDigit b = true) := by
  rw [printInteger]
  split
  · exact ⟨_, _, rfl, Or.inl rfl⟩
  · obtain ⟨b, s, heq⟩ := List.exists_cons_of_ne_nil (printNat_ne_nil z.val.natAbs)
    exact ⟨b, s, heq, Or.inr (isDigit_printNat _ b (heq ▸ List.mem_cons_self))⟩

theorem ne_of_integer_start {b : UInt8} (h : b = minus ∨ isDigit b = true) :
    isSpace b = false ∧ b ≠ closeBracket ∧ b ≠ openBracket ∧ b ≠ openBrace ∧ b ≠ quote ∧
      b ≠ 110 ∧ b ≠ 116 ∧ b ≠ 102 := by
  refine ⟨?_, ?_, ?_, ?_, ?_, ?_, ?_, ?_⟩
  · rw [← Bool.not_eq_true]
    intro hspace
    have hgoesOn := goesOn_of_isSpace hspace
    rcases h with rfl | h
    · exact absurd hspace (by decide)
    · rw [goesOn, h] at hgoesOn
      exact absurd hgoesOn (by simp)
  all_goals
    rintro rfl
    exact absurd h (by decide)

theorem first_printValue (l : Layout) (depth : Nat) (v : Json Empty) :
    ∃ b s, printValue l depth v = b :: s ∧ isSpace b = false ∧ b ≠ closeBracket := by
  cases v with
  | null => exact ⟨_, _, rfl, by decide, by decide⟩
  | boolean b => cases b <;> exact ⟨_, _, rfl, by decide, by decide⟩
  | numberInteger z =>
      obtain ⟨b, s, heq, hb⟩ := first_printInteger z
      exact ⟨b, s, heq, (ne_of_integer_start hb).1, (ne_of_integer_start hb).2.1⟩
  | numberFloat x => exact x.elim
  | string s => exact ⟨quote, _, rfl, by decide, by decide⟩
  | array vs => cases vs <;> exact ⟨openBracket, _, rfl, by decide, by decide⟩
  | object members => cases members <;> exact ⟨openBrace, _, rfl, by decide, by decide⟩

theorem readValue_scalar {b : UInt8} {s : List UInt8} {v : Json Empty} {r : List UInt8}
    (hspace : isSpace b = false) (hbracket : b ≠ openBracket) (hbrace : b ≠ openBrace)
    (h : readScalar b s = some (v, r)) (n : Nat) : readValue (n + 1) (b :: s) = some (v, r) :=
  readValue_eq_some_iff.mpr ⟨b, s, skipSpace_cons hspace s, .scalar hbracket hbrace h⟩

theorem readValue_null (n : Nat) (r : List UInt8) :
    readValue (n + 1) (nullWord ++ r) = some (.null, r) := by
  refine readValue_scalar (by decide) (by decide) (by decide) ?_ n
  rw [readScalar, if_neg (by decide), if_pos rfl]
  exact congrArg _ (literal_self nullWord r)

theorem readValue_boolean (n : Nat) (b : Bool) (r : List UInt8) :
    readValue (n + 1) ((if b then trueWord else falseWord) ++ r) = some (.boolean b, r) := by
  cases b with
  | true =>
      refine readValue_scalar (by decide) (by decide) (by decide) ?_ n
      rw [readScalar, if_neg (by decide), if_neg (by decide), if_pos rfl]
      exact congrArg _ (literal_self trueWord r)
  | false =>
      refine readValue_scalar (by decide) (by decide) (by decide) ?_ n
      rw [readScalar, if_neg (by decide), if_neg (by decide), if_neg (by decide), if_pos rfl]
      exact congrArg _ (literal_self falseWord r)

theorem readValue_string (n : Nat) (s : String) (r : List UInt8) :
    readValue (n + 1) (printString s ++ r) = some (.string s, r) := by
  have htail : printString s ++ r = quote :: ((printString s).tail ++ r) := rfl
  rw [htail]
  refine readValue_scalar (by decide) (by decide) (by decide) ?_ n
  rw [readScalar, if_pos rfl, readString_printString, Option.map_some]

theorem readValue_integer (n : Nat) (z : JsonInteger) {r : List UInt8} (h : Ends r) :
    readValue (n + 1) (printInteger z ++ r) = some (.numberInteger z, r) := by
  have hread := readInteger_printInteger z h
  obtain ⟨b, s, heq, hb⟩ := first_printInteger z
  obtain ⟨hspace, -, hbracket, hbrace, hquote, hn, ht, hf⟩ := ne_of_integer_start hb
  rw [heq, List.cons_append] at hread ⊢
  refine readValue_scalar hspace hbracket hbrace ?_ n
  rw [readScalar, if_neg hquote, if_neg hn, if_neg ht, if_neg hf, hread, Option.map_some]

/-- With this much fuel the readers find again what has been printed. -/
structure ReadsBack (l : Layout) (n : Nat) : Prop where
  value : ∀ depth v r, v.Canonical → (printValue l depth v).length ≤ n → Ends r →
    readValue n (printValue l depth v ++ r) = some (v, r)
  elements : ∀ depth vs r, (∀ v ∈ vs, v.Canonical) → (printElements l depth vs).length ≤ n →
    readElements n (printElements l depth vs ++ r) = some (vs, r)
  members : ∀ depth members r, (∀ p ∈ members, p.2.Canonical) →
    (printMembers l depth members).length ≤ n →
    readMembers n (printMembers l depth members ++ r) = some (members, r)

/-- Nothing is printed without a byte, so that there is nothing to read without fuel. -/
theorem readsBack_zero (l : Layout) : ReadsBack l 0 where
  value depth v r _ hlength := by
    obtain ⟨b, s, heq, -⟩ := first_printValue l depth v
    rw [heq] at hlength
    exact absurd hlength (Nat.not_succ_le_zero _)
  elements depth vs r _ hlength := by
    cases vs <;> simp [printElements] at hlength
  members depth members r _ hlength := by
    cases members <;> simp [printMembers] at hlength

theorem ReadsBack.array {l : Layout} {n : Nat} (h : ReadsBack l n) (depth : Nat)
    {vs : List (Json Empty)} (r : List UInt8) (hvs : ∀ v ∈ vs, v.Canonical)
    (hlength : (printValue l depth (.array vs)).length ≤ n + 1) :
    readValue (n + 1) (printValue l depth (.array vs) ++ r) = some (.array vs, r) := by
  cases vs with
  | nil =>
      exact readValue_eq_some_iff.mpr
        ⟨openBracket, _, skipSpace_cons rfl _, .emptyArray (skipSpace_cons rfl r)⟩
  | cons v vs =>
      obtain ⟨hv, hvs⟩ := List.forall_mem_cons.mp hvs
      obtain ⟨b, s, heq, hspace, hb⟩ := first_printValue l (depth + 1) v
      rw [printValue] at hlength ⊢
      simp only [List.length_cons, List.length_append, List.cons_append,
        List.append_assoc] at hlength ⊢
      have hskip : skipSpace (l.newline (depth + 1) ++ (printValue l (depth + 1) v ++
          (printElements l depth vs ++ r))) = b :: (s ++ (printElements l depth vs ++ r)) := by
        rw [skipSpace_append_of_space (l.newline_space _), heq, List.cons_append,
          skipSpace_cons hspace]
      have hread := h.value (depth + 1) v (printElements l depth vs ++ r) hv (by omega)
        (ends_printElements l depth vs r)
      rw [← readValue_space (l.newline_space (depth + 1))] at hread
      exact readValue_eq_some_iff.mpr ⟨openBracket, _, skipSpace_cons rfl _,
        .array hskip hb hread (h.elements depth vs r hvs (by omega))⟩

theorem ReadsBack.object {l : Layout} {n : Nat} (h : ReadsBack l n) (depth : Nat)
    {members : List (String × Json Empty)} (r : List UInt8) (hsorted : SortedAssoc.Sorted members)
    (hmembers : ∀ p ∈ members, p.2.Canonical)
    (hlength : (printValue l depth (.object members)).length ≤ n + 1) :
    readValue (n + 1) (printValue l depth (.object members) ++ r) =
      some (.object members, r) := by
  cases members with
  | nil =>
      exact readValue_eq_some_iff.mpr
        ⟨openBrace, _, skipSpace_cons rfl _, .emptyObject (skipSpace_cons rfl r)⟩
  | cons p members =>
      obtain ⟨key, v⟩ := p
      obtain ⟨hv, hmembers⟩ := List.forall_mem_cons.mp hmembers
      have hkey := readKey_printKey l key (l.newline_space (depth + 1))
        (printValue l (depth + 1) v ++ (printMembers l depth members ++ r))
      rw [printValue] at hlength ⊢
      simp only [List.length_cons, List.length_append, List.cons_append,
        List.append_assoc] at hlength hkey ⊢
      obtain ⟨s₁, _, hskip, -, -⟩ := readKey_eq_some_iff.mp hkey
      have hread := h.value (depth + 1) v (printMembers l depth members ++ r) hv (by omega)
        (ends_printMembers l depth members r)
      rw [← readValue_space l.afterColon_space] at hread
      have hobject := ReadsValue.object hskip (by decide) hkey hread
        (h.members depth members r hmembers (by omega))
      rw [SortedAssoc.ofList_of_sorted hsorted] at hobject
      exact readValue_eq_some_iff.mpr ⟨openBrace, _, skipSpace_cons rfl _, hobject⟩

theorem ReadsBack.elements_succ {l : Layout} {n : Nat} (h : ReadsBack l n) (depth : Nat)
    {vs : List (Json Empty)} (r : List UInt8) (hvs : ∀ v ∈ vs, v.Canonical)
    (hlength : (printElements l depth vs).length ≤ n + 1) :
    readElements (n + 1) (printElements l depth vs ++ r) = some (vs, r) := by
  apply readElements_eq_some_iff.mpr
  cases vs with
  | nil =>
      refine Or.inl ⟨rfl, ?_⟩
      rw [printElements, List.append_assoc, skipSpace_append_of_space (l.newline_space depth)]
      exact skipSpace_cons rfl r
  | cons v vs =>
      obtain ⟨hv, hvs⟩ := List.forall_mem_cons.mp hvs
      rw [printElements] at hlength ⊢
      simp only [List.length_cons, List.length_append, List.cons_append,
        List.append_assoc] at hlength ⊢
      have hread := h.value (depth + 1) v (printElements l depth vs ++ r) hv (by omega)
        (ends_printElements l depth vs r)
      rw [← readValue_space (l.newline_space (depth + 1))] at hread
      exact Or.inr ⟨_, v, _, vs, rfl, skipSpace_cons rfl _, hread,
        h.elements depth vs r hvs (by omega)⟩

theorem ReadsBack.members_succ {l : Layout} {n : Nat} (h : ReadsBack l n) (depth : Nat)
    {members : List (String × Json Empty)} (r : List UInt8)
    (hmembers : ∀ p ∈ members, p.2.Canonical)
    (hlength : (printMembers l depth members).length ≤ n + 1) :
    readMembers (n + 1) (printMembers l depth members ++ r) = some (members, r) := by
  apply readMembers_eq_some_iff.mpr
  cases members with
  | nil =>
      refine Or.inl ⟨rfl, ?_⟩
      rw [printMembers, List.append_assoc, skipSpace_append_of_space (l.newline_space depth)]
      exact skipSpace_cons rfl r
  | cons p members =>
      obtain ⟨key, v⟩ := p
      obtain ⟨hv, hmembers⟩ := List.forall_mem_cons.mp hmembers
      have hkey := readKey_printKey l key (l.newline_space (depth + 1))
        (printValue l (depth + 1) v ++ (printMembers l depth members ++ r))
      rw [printMembers] at hlength ⊢
      simp only [List.length_cons, List.length_append, List.cons_append,
        List.append_assoc] at hlength hkey ⊢
      have hread := h.value (depth + 1) v (printMembers l depth members ++ r) hv (by omega)
        (ends_printMembers l depth members r)
      rw [← readValue_space l.afterColon_space] at hread
      exact Or.inr ⟨_, key, _, v, _, members, rfl, skipSpace_cons rfl _, hkey, hread,
        h.members depth members r hmembers (by omega)⟩

theorem readsBack (l : Layout) (n : Nat) : ReadsBack l n := by
  induction n with
  | zero => exact readsBack_zero l
  | succ n ih =>
      refine ⟨fun depth v r hv hlength hr => ?_, fun depth vs r => ih.elements_succ depth r,
        fun depth members r => ih.members_succ depth r⟩
      cases hv with
      | null => exact readValue_null n r
      | boolean b => exact readValue_boolean n b r
      | numberInteger z => exact readValue_integer n z hr
      | numberFloat x => exact x.elim
      | string s => exact readValue_string n s r
      | array hvs => exact ih.array depth r hvs hlength
      | object hsorted hmembers => exact ih.object depth r hsorted hmembers hlength

theorem readFirst_printValue (l : Layout) {v : Json Empty} (h : v.Canonical) :
    readFirst (printValue l 0 v) = some (v, []) := by
  have hback := readsBack l ((printValue l 0 v).length + 1)
  have hread := hback.value 0 v [] h (Nat.le_succ _) ends_nil
  rwa [List.append_nil] at hread

theorem ReadsValue.exists_object {n : Nat} {b : UInt8} {s : List UInt8} {v : Json Empty}
    {r : List UInt8} (h : ReadsValue n b s v r) (hb : b = openBrace) :
    ∃ members, v = .object members := by
  cases h with
  | emptyArray => exact absurd hb.symm openBrace_ne_openBracket
  | array => exact absurd hb.symm openBrace_ne_openBracket
  | emptyObject => exact ⟨_, rfl⟩
  | object => exact ⟨_, rfl⟩
  | scalar _ hbrace => exact absurd hb hbrace

theorem first_printValue_object (l : Layout) (depth : Nat)
    (members : List (String × Json Empty)) :
    ∃ s, printValue l depth (.object members) = openBrace :: s := by
  cases members <;> exact ⟨_, rfl⟩

/-- A text that ends before the printed object does is no document. -/
theorem readFirst_eq_none_of_cut (l : Layout) {members : List (String × Json Empty)}
    (h : (Json.object members).Canonical) {s : List UInt8}
    (hcut : s <+: printValue l 0 (.object members))
    (hne : s ≠ printValue l 0 (.object members)) : readFirst s = none := by
  cases hread : readFirst s with
  | none => rfl
  | some p =>
      exfalso
      obtain ⟨v, r⟩ := p
      obtain ⟨e, he⟩ := hcut
      obtain ⟨whole, hwhole⟩ := first_printValue_object l 0 members
      obtain ⟨b, s', hskip, hreads⟩ := readValue_eq_some_iff.mp hread
      have hbrace : b = openBrace := by
        have hskip' := skipSpace_append hskip e
        rw [he, hwhole, skipSpace_cons rfl, List.cons.injEq] at hskip'
        exact hskip'.1.symm
      obtain ⟨members', rfl⟩ := hreads.exists_object hbrace
      have hlonger := readFirst_append hread e
      rw [he, readFirst_printValue l h, Option.some.injEq, Prod.mk.injEq] at hlonger
      rw [(List.append_eq_nil_iff.mp hlonger.2.symm).2, List.append_nil] at he
      exact hne he

end JsonText
