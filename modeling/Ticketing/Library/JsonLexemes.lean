import Mathlib.Data.Nat.Digits.Lemmas
import Ticketing.Library.Json

/-!
# The words of JSON text

White space, literals, integers and strings, each with its printer and its reader. A reader takes
its word from the beginning of a text and leaves the rest. What is printed is read back, and what
has been read is read from every longer text alike; an integer could go on where the text ends, so
that for it some text must follow.

Of the escapes in strings the reader knows all but the surrogate pairs, which are never printed.
-/

namespace JsonText

def quote : UInt8 := 34
def backslash : UInt8 := 92
def comma : UInt8 := 44
def colon : UInt8 := 58
def minus : UInt8 := 45
def openBracket : UInt8 := 91
def closeBracket : UInt8 := 93
def openBrace : UInt8 := 123
def closeBrace : UInt8 := 125

/-! ### White space and literals -/

def isSpace (b : UInt8) : Bool := b == 32 || b == 9 || b == 10 || b == 13

def skipSpace (s : List UInt8) : List UInt8 := s.dropWhile isSpace

theorem skipSpace_cons {b : UInt8} (h : isSpace b = false) (s : List UInt8) :
    skipSpace (b :: s) = b :: s := by
  rw [skipSpace, List.dropWhile_cons_of_neg (by simp [h])]

theorem skipSpace_append_of_space {space : List UInt8} (h : ∀ b ∈ space, isSpace b = true)
    (s : List UInt8) : skipSpace (space ++ s) = skipSpace s :=
  List.dropWhile_append_of_pos h

theorem skipSpace_append {s : List UInt8} {b : UInt8} {r : List UInt8}
    (h : skipSpace s = b :: r) (e : List UInt8) : skipSpace (s ++ e) = b :: (r ++ e) := by
  rw [skipSpace] at h ⊢
  rw [List.dropWhile_append, h]
  rfl

def literal : List UInt8 → List UInt8 → Option (List UInt8)
  | [], s => some s
  | b :: bs, c :: s => if b = c then literal bs s else none
  | _ :: _, [] => none

theorem literal_self (lit s : List UInt8) : literal lit (lit ++ s) = some s := by
  induction lit with
  | nil => rfl
  | cons b bs ih => rw [List.cons_append, literal, if_pos rfl, ih]

theorem literal_append {lit s r : List UInt8} (h : literal lit s = some r) (e : List UInt8) :
    literal lit (s ++ e) = some (r ++ e) := by
  induction lit generalizing s with
  | nil =>
      rw [literal, Option.some.injEq] at h
      rw [literal, h]
  | cons b bs ih =>
      cases s with
      | nil => exact nomatch h
      | cons c s =>
          rw [literal] at h
          rw [List.cons_append, literal]
          split at h
          · rename_i heq
            rw [if_pos heq, ih h]
          · exact nomatch h

/-! ### Integers -/

def isDigit (b : UInt8) : Bool := decide (48 ≤ b ∧ b ≤ 57)

/-- A byte with which an integer could go on, perhaps as a fraction. -/
def goesOn (b : UInt8) : Bool := isDigit b || b == 46 || b == 69 || b == 101

def printNat (n : Nat) : List UInt8 :=
  if n = 0 then [48] else ((Nat.digits 10 n).reverse.map fun d => UInt8.ofNat (48 + d))

def natOfDigits (digits : List UInt8) : Nat :=
  Nat.ofDigits 10 (digits.reverse.map fun b => b.toNat - 48)

/-- A natural number without leading zeros, and no fraction behind it. -/
def readNat (s : List UInt8) : Option (Nat × List UInt8) :=
  let digits := s.takeWhile isDigit
  let rest := s.dropWhile isDigit
  if digits = [] ∨ (digits.head? = some 48 ∧ digits.length ≠ 1) ∨ rest.head?.any goesOn then none
  else some (natOfDigits digits, rest)

def printInteger (z : JsonInteger) : List UInt8 :=
  if z.val < 0 then minus :: printNat z.val.natAbs else printNat z.val.natAbs

/-- The natural number that has been read as an integer of this sign. -/
def withSign (sign : Int) (p : Nat × List UInt8) : Option (JsonInteger × List UInt8) :=
  (JsonInteger.ofInt? (sign * p.1)).map fun z => (z, p.2)

def readInteger (s : List UInt8) : Option (JsonInteger × List UInt8) :=
  if s.head? = some minus then (readNat s.tail).bind (withSign (-1))
  else (readNat s).bind (withSign 1)

/-- The text does not go on as the number that stands before it. -/
def Ends (r : List UInt8) : Prop := r.head?.any goesOn = false

theorem ends_nil : Ends [] := rfl

theorem ends_cons {b : UInt8} (h : goesOn b = false) (s : List UInt8) : Ends (b :: s) := h

theorem takeWhile_isDigit_of_ends {r : List UInt8} (h : Ends r) :
    r.takeWhile isDigit = [] ∧ r.dropWhile isDigit = r := by
  cases r with
  | nil => exact ⟨rfl, rfl⟩
  | cons b r =>
      have hdigit : isDigit b = false := by
        simp only [Ends, List.head?_cons, Option.any_some, goesOn, Bool.or_eq_false_iff] at h
        exact h.1.1.1
      exact ⟨by rw [List.takeWhile_cons, hdigit]; rfl, by rw [List.dropWhile_cons, hdigit]; rfl⟩

theorem isDigit_printNat (n : Nat) : ∀ b ∈ printNat n, isDigit b = true := by
  intro b hb
  have hall : ∀ d < 10, isDigit (UInt8.ofNat (48 + d)) = true := by decide
  rw [printNat] at hb
  split at hb
  · rw [List.mem_singleton.mp hb]
    rfl
  · obtain ⟨d, hd, rfl⟩ := List.mem_map.mp hb
    exact hall d (Nat.digits_lt_base (by decide) (List.mem_reverse.mp hd))

theorem printNat_ne_nil (n : Nat) : printNat n ≠ [] := by
  rw [printNat]
  split
  · exact List.cons_ne_nil _ _
  · rename_i hn
    rw [ne_eq, List.map_eq_nil_iff, List.reverse_eq_nil_iff]
    exact Nat.digits_ne_nil_iff_ne_zero.mpr hn

theorem head?_printNat {n : Nat} (h : (printNat n).head? = some 48) : (printNat n).length = 1 := by
  rw [printNat] at h ⊢
  split at h
  · rename_i hn
    rw [if_pos hn]
    rfl
  · rename_i hn
    have hne : Nat.digits 10 n ≠ [] := Nat.digits_ne_nil_iff_ne_zero.mpr hn
    have hlast := Nat.getLast_digit_ne_zero 10 hn
    have hlt := Nat.digits_lt_base (b := 10) (by decide) (List.getLast_mem hne)
    have hinj : ∀ d < 10, UInt8.ofNat (48 + d) = 48 → d = 0 := by decide
    rw [List.head?_map, List.head?_reverse, List.getLast?_eq_getLast_of_ne_nil hne, Option.map_some,
      Option.some.injEq] at h
    exact absurd (hinj _ hlt h) hlast

theorem natOfDigits_printNat (n : Nat) : natOfDigits (printNat n) = n := by
  rw [natOfDigits, printNat]
  split
  · rename_i hn
    rw [hn]
    rfl
  · have hall : ∀ d < 10, (UInt8.ofNat (48 + d)).toNat - 48 = d := by decide
    have hmap : (Nat.digits 10 n).map (fun d => (UInt8.ofNat (48 + d)).toNat - 48) =
        Nat.digits 10 n := by
      conv_rhs => rw [← List.map_id (Nat.digits 10 n)]
      exact List.map_congr_left fun d hd => hall d (Nat.digits_lt_base (by decide) hd)
    simp only [List.map_reverse, List.reverse_reverse, List.map_map]
    exact (congrArg (Nat.ofDigits 10) hmap).trans (Nat.ofDigits_digits 10 n)

theorem readNat_printNat (n : Nat) {r : List UInt8} (h : Ends r) :
    readNat (printNat n ++ r) = some (n, r) := by
  obtain ⟨htake, hdrop⟩ := takeWhile_isDigit_of_ends h
  have hzero : ¬ ((printNat n).head? = some 48 ∧ (printNat n).length ≠ 1) :=
    fun hz => hz.2 (head?_printNat hz.1)
  rw [Ends] at h
  simp only [readNat, List.takeWhile_append_of_pos (isDigit_printNat n),
    List.dropWhile_append_of_pos (isDigit_printNat n), htake, hdrop, List.append_nil,
    printNat_ne_nil n, hzero, h, Bool.false_eq_true, or_self, if_false, natOfDigits_printNat]

theorem readNat_append {s r : List UInt8} {n : Nat} (h : readNat s = some (n, r)) (hr : r ≠ [])
    (e : List UInt8) : readNat (s ++ e) = some (n, r ++ e) := by
  simp only [readNat] at h ⊢
  split at h
  · exact nomatch h
  · rename_i hgood
    rw [Option.some.injEq, Prod.mk.injEq] at h
    have hdrop : (s ++ e).dropWhile isDigit = s.dropWhile isDigit ++ e := by
      rw [List.dropWhile_append, if_neg (by simpa [h.2] using hr)]
    have htake : (s ++ e).takeWhile isDigit = s.takeWhile isDigit := by
      have hwhole := List.takeWhile_append_dropWhile (p := isDigit) (l := s ++ e)
      have hpart := List.takeWhile_append_dropWhile (p := isDigit) (l := s)
      rw [hdrop, ← List.append_assoc] at hwhole
      have hsame := List.append_cancel_right hwhole
      exact List.append_cancel_right (hsame.trans hpart.symm)
    have hhead : (s.dropWhile isDigit ++ e).head? = (s.dropWhile isDigit).head? := by
      rw [List.head?_append_of_ne_nil _ (h.2 ▸ hr)]
    rw [htake, hdrop, hhead, if_neg hgood, h.1, h.2]

theorem withSign_eq_some_iff {sign : Int} {n : Nat} {z : JsonInteger} {r r' : List UInt8} :
    withSign sign (n, r) = some (z, r') ↔ JsonInteger.ofInt? (sign * n) = some z ∧ r = r' := by
  simp only [withSign, Option.map_eq_some_iff, Prod.mk.injEq]
  exact ⟨fun ⟨_, hz, heq, hr⟩ => ⟨heq ▸ hz, hr⟩, fun ⟨hz, hr⟩ => ⟨z, hz, rfl, hr⟩⟩

theorem withSign_of_eq {sign : Int} {n : Nat} {z : JsonInteger} (h : sign * n = z.val)
    (r : List UInt8) : withSign sign (n, r) = some (z, r) :=
  withSign_eq_some_iff.mpr ⟨h ▸ JsonInteger.ofInt?_val z, rfl⟩

theorem readInteger_printInteger (z : JsonInteger) {r : List UInt8} (h : Ends r) :
    readInteger (printInteger z ++ r) = some (z, r) := by
  rw [printInteger]
  split
  · have hval : -1 * (z.val.natAbs : Int) = z.val := by omega
    rw [readInteger, List.cons_append, List.head?_cons, if_pos rfl, List.tail_cons,
      readNat_printNat _ h, Option.bind_some, withSign_of_eq hval]
  · have hval : 1 * (z.val.natAbs : Int) = z.val := by omega
    have hhead : (printNat z.val.natAbs ++ r).head? ≠ some minus := by
      intro hminus
      rw [List.head?_append_of_ne_nil _ (printNat_ne_nil _)] at hminus
      exact absurd (isDigit_printNat _ _ (List.mem_of_mem_head? hminus)) (by decide)
    rw [readInteger, if_neg hhead, readNat_printNat _ h, Option.bind_some, withSign_of_eq hval]

theorem readInteger_append {s r : List UInt8} {z : JsonInteger}
    (h : readInteger s = some (z, r)) (hr : r ≠ []) (e : List UInt8) :
    readInteger (s ++ e) = some (z, r ++ e) := by
  cases s with
  | nil => exact nomatch h
  | cons b s =>
      rw [readInteger, List.head?_cons, List.tail_cons] at h
      rw [readInteger, List.cons_append, List.head?_cons, List.tail_cons]
      split at h
      · rename_i hminus
        obtain ⟨⟨n, r'⟩, hn, hsign⟩ := Option.bind_eq_some_iff.mp h
        obtain ⟨hz, rfl⟩ := withSign_eq_some_iff.mp hsign
        rw [if_pos hminus, readNat_append hn hr e, Option.bind_some,
          withSign_eq_some_iff.mpr ⟨hz, rfl⟩]
      · rename_i hminus
        obtain ⟨⟨n, r'⟩, hn, hsign⟩ := Option.bind_eq_some_iff.mp h
        obtain ⟨hz, rfl⟩ := withSign_eq_some_iff.mp hsign
        rw [if_neg hminus, ← List.cons_append, readNat_append hn hr e, Option.bind_some,
          withSign_eq_some_iff.mpr ⟨hz, rfl⟩]

/-! ### Strings -/

def escapeLetter (b : UInt8) : Option UInt8 :=
  if b = quote then some quote
  else if b = backslash then some backslash
  else if b = 8 then some 98
  else if b = 9 then some 116
  else if b = 10 then some 110
  else if b = 12 then some 102
  else if b = 13 then some 114
  else none

def unescapeLetter (b : UInt8) : Option UInt8 :=
  if b = quote then some quote
  else if b = backslash then some backslash
  else if b = 47 then some 47
  else if b = 98 then some 8
  else if b = 116 then some 9
  else if b = 110 then some 10
  else if b = 102 then some 12
  else if b = 114 then some 13
  else none

def hexDigit (d : Nat) : UInt8 := if d < 10 then .ofNat (48 + d) else .ofNat (87 + d)

def hexValue (b : UInt8) : Option Nat :=
  if 48 ≤ b ∧ b ≤ 57 then some (b.toNat - 48)
  else if 97 ≤ b ∧ b ≤ 102 then some (b.toNat - 87)
  else if 65 ≤ b ∧ b ≤ 70 then some (b.toNat - 55)
  else none

/-- The bytes of the character with this number, which is not a surrogate. -/
def utf8 (n : Nat) : Option (List UInt8) :=
  if n < 128 then some [.ofNat n]
  else if 0xD800 ≤ n ∧ n < 0xE000 then none
  else some (String.singleton (.ofNat n)).toByteArray.data.toList

def escapeByte (b : UInt8) : List UInt8 :=
  match escapeLetter b with
  | some letter => [backslash, letter]
  | none =>
      if b < 32 then [backslash, 117, 48, 48, hexDigit (b.toNat / 16), hexDigit (b.toNat % 16)]
      else [b]

def printString (s : String) : List UInt8 :=
  quote :: (s.toByteArray.data.toList.flatMap escapeByte ++ [quote])

def readUnicode : List UInt8 → Option (List UInt8 × List UInt8)
  | a :: b :: c :: d :: s => do
      let n := ((← hexValue a) * 16 + (← hexValue b)) * 256 + ((← hexValue c) * 16 + (← hexValue d))
      return (← utf8 n, s)
  | _ => none

def readEscape : List UInt8 → Option (List UInt8 × List UInt8)
  | [] => none
  | letter :: s =>
      if letter = 117 then readUnicode s
      else (unescapeLetter letter).map fun byte => ([byte], s)

/-- The first character of a string that goes on with `b :: s`: its bytes and what follows. -/
def readChar (b : UInt8) (s : List UInt8) : Option (List UInt8 × List UInt8) :=
  if b = backslash then readEscape s
  else if b < 32 then none
  else some ([b], s)

/-- The bytes up to the closing quote. -/
def readBytes : Nat → List UInt8 → Option (List UInt8 × List UInt8)
  | 0, _ => none
  | _ + 1, [] => none
  | n + 1, b :: s =>
      if b = quote then some ([], s)
      else do
        let (bytes, s) ← readChar b s
        let (more, s) ← readBytes n s
        return (bytes ++ more, s)

def readString (s : List UInt8) : Option (String × List UInt8) := do
  let (bytes, s) ← readBytes s.length s
  return (← String.fromUTF8? ⟨bytes.toArray⟩, s)

theorem unescapeLetter_escapeLetter {b letter : UInt8} (h : escapeLetter b = some letter) :
    letter ≠ 117 ∧ unescapeLetter letter = some b := by
  unfold escapeLetter at h
  repeat' split at h
  all_goals first | (rename_i heq; rw [← Option.some.inj h, heq]; decide) | exact nomatch h

theorem escapeLetter_none {b : UInt8} (h : escapeLetter b = none) : b ≠ quote ∧ b ≠ backslash := by
  constructor <;> rintro rfl <;> exact absurd h (by decide)

theorem hexValue_hexDigit {d : Nat} (h : d < 16) : hexValue (hexDigit d) = some d := by
  revert d
  decide

theorem readUnicode_control {b : UInt8} (h : b < 32) (s : List UInt8) :
    readUnicode (48 :: 48 :: hexDigit (b.toNat / 16) :: hexDigit (b.toNat % 16) :: s) =
      some ([b], s) := by
  have hb : b.toNat < 32 := UInt8.lt_iff_toNat_lt.mp h
  have hzero : hexValue 48 = some 0 := by decide
  have hsum : (0 * 16 + 0) * 256 + (b.toNat / 16 * 16 + b.toNat % 16) = b.toNat := by omega
  simp only [readUnicode, hzero, hexValue_hexDigit (show b.toNat / 16 < 16 by omega),
    hexValue_hexDigit (show b.toNat % 16 < 16 by omega), hsum, bind, Option.bind, utf8,
    if_pos (show b.toNat < 128 by omega), UInt8.ofNat_toNat, pure]

theorem readBytes_escapeByte (n : Nat) (b : UInt8) (s : List UInt8) :
    readBytes (n + 1) (escapeByte b ++ s) =
      (readBytes n s).map fun p => (b :: p.1, p.2) := by
  obtain ⟨first, rest, hescape, hne, hread⟩ : ∃ first rest, escapeByte b = first :: rest ∧
      first ≠ quote ∧ readChar first (rest ++ s) = some ([b], s) := by
    rw [escapeByte]
    split
    · rename_i letter hletter
      obtain ⟨hne, hunescape⟩ := unescapeLetter_escapeLetter hletter
      refine ⟨backslash, [letter], rfl, by decide, ?_⟩
      simp only [readChar, readEscape, List.cons_append, List.nil_append, if_true, if_neg hne,
        hunescape, Option.map_some]
    · rename_i hnone
      obtain ⟨hquote, hbackslash⟩ := escapeLetter_none hnone
      split
      · rename_i hcontrol
        refine ⟨backslash, _, rfl, by decide, ?_⟩
        simp only [readChar, readEscape, List.cons_append, List.nil_append, if_true,
          readUnicode_control hcontrol]
      · rename_i hprint
        refine ⟨b, [], rfl, hquote, ?_⟩
        simp only [readChar, if_neg hbackslash, if_neg hprint, List.nil_append]
  rw [hescape, List.cons_append, readBytes, if_neg hne, hread]
  simp only [bind, Option.bind, pure, List.singleton_append]
  cases readBytes n s <;> rfl

theorem readBytes_flatMap {n : Nat} {bytes : List UInt8} (h : bytes.length < n) (r : List UInt8) :
    readBytes n (bytes.flatMap escapeByte ++ quote :: r) = some (bytes, r) := by
  induction bytes generalizing n with
  | nil =>
      obtain ⟨n, rfl⟩ : ∃ m, n = m + 1 := ⟨n - 1, by omega⟩
      rw [List.flatMap_nil, List.nil_append, readBytes, if_pos rfl]
  | cons b bytes ih =>
      rw [List.length_cons] at h
      obtain ⟨n, rfl⟩ : ∃ m, n = m + 1 := ⟨n - 1, by omega⟩
      rw [List.flatMap_cons, List.append_assoc, readBytes_escapeByte, ih (by omega)]
      rfl

theorem length_le_flatMap (bytes : List UInt8) :
    bytes.length ≤ (bytes.flatMap escapeByte).length := by
  induction bytes with
  | nil => exact le_rfl
  | cons b bytes ih =>
      have hpos : 0 < (escapeByte b).length := by
        rw [escapeByte]
        split
        · exact Nat.succ_pos _
        · split <;> exact Nat.succ_pos _
      rw [List.flatMap_cons, List.length_append, List.length_cons]
      omega

theorem fromUTF8?_toByteArray (s : String) : String.fromUTF8? s.toByteArray = some s := by
  rw [String.fromUTF8?, dif_pos s.isValidUTF8]
  rfl

theorem readString_printString (s : String) (r : List UInt8) :
    readString ((printString s).tail ++ r) = some (s, r) := by
  have hlength := length_le_flatMap s.toByteArray.data.toList
  have hutf8 : String.fromUTF8? ⟨s.toByteArray.data.toList.toArray⟩ = some s :=
    fromUTF8?_toByteArray s
  rw [printString, List.tail_cons, List.append_assoc, List.singleton_append, readString,
    readBytes_flatMap (by rw [List.length_append, List.length_cons]; omega)]
  simp only [bind, Option.bind, hutf8, pure]

theorem readUnicode_append {s bytes r : List UInt8} (h : readUnicode s = some (bytes, r))
    (e : List UInt8) : readUnicode (s ++ e) = some (bytes, r ++ e) := by
  match s, h with
  | a :: b :: c :: d :: s, h =>
      simp only [readUnicode, List.cons_append, bind, Option.bind_eq_some_iff, pure,
        Option.some.injEq, Prod.mk.injEq] at h ⊢
      obtain ⟨x, hx, y, hy, z, hz, w, hw, u, hu, rfl, rfl⟩ := h
      exact ⟨x, hx, y, hy, z, hz, w, hw, u, hu, rfl, rfl⟩

theorem readEscape_append {s bytes r : List UInt8} (h : readEscape s = some (bytes, r))
    (e : List UInt8) : readEscape (s ++ e) = some (bytes, r ++ e) := by
  cases s with
  | nil => exact nomatch h
  | cons letter s =>
      rw [readEscape] at h
      rw [List.cons_append, readEscape]
      split at h
      · rename_i hletter
        rw [if_pos hletter, readUnicode_append h e]
      · rename_i hletter
        obtain ⟨byte, hbyte, heq⟩ := Option.map_eq_some_iff.mp h
        rw [Prod.mk.injEq] at heq
        rw [if_neg hletter, hbyte, Option.map_some, ← heq.1, ← heq.2]

theorem readChar_append {b : UInt8} {s bytes r : List UInt8} (h : readChar b s = some (bytes, r))
    (e : List UInt8) : readChar b (s ++ e) = some (bytes, r ++ e) := by
  rw [readChar] at h ⊢
  split at h
  · rename_i hbackslash
    rw [if_pos hbackslash, readEscape_append h e]
  · rename_i hbackslash
    split at h
    · exact nomatch h
    · rename_i hcontrol
      rw [Option.some.injEq, Prod.mk.injEq] at h
      rw [if_neg hbackslash, if_neg hcontrol, h.1, h.2]

theorem readBytes_append {n m : Nat} {s bytes r : List UInt8} (h : readBytes n s = some (bytes, r))
    (hle : n ≤ m) (e : List UInt8) : readBytes m (s ++ e) = some (bytes, r ++ e) := by
  induction n generalizing m s bytes r with
  | zero => exact nomatch h
  | succ n ih =>
      obtain ⟨m, rfl⟩ : ∃ k, m = k + 1 := ⟨m - 1, by omega⟩
      cases s with
      | nil => exact nomatch h
      | cons b s =>
          rw [readBytes] at h
          rw [List.cons_append, readBytes]
          split at h
          · rename_i hquote
            rw [Option.some.injEq, Prod.mk.injEq] at h
            rw [if_pos hquote, h.1, h.2]
          · rename_i hquote
            rw [if_neg hquote]
            simp only [bind, Option.bind_eq_some_iff, pure, Option.some.injEq, Prod.mk.injEq] at h ⊢
            obtain ⟨⟨first, s'⟩, hchar, ⟨more, s''⟩, hmore, rfl, rfl⟩ := h
            exact ⟨_, readChar_append hchar e, _, ih hmore (by omega), rfl, rfl⟩

theorem readString_append {s r : List UInt8} {value : String} (h : readString s = some (value, r))
    (e : List UInt8) : readString (s ++ e) = some (value, r ++ e) := by
  simp only [readString, bind, Option.bind_eq_some_iff, pure, Option.some.injEq,
    Prod.mk.injEq] at h ⊢
  obtain ⟨⟨bytes, s'⟩, hbytes, u, hu, rfl, rfl⟩ := h
  exact ⟨_, readBytes_append hbytes (by rw [List.length_append]; omega) e, u, hu, rfl, rfl⟩

end JsonText
