import Ticketing.Library.Json

/-!
# The text functions of the vendored libraries

The three programs read and write JSON text through `nlohmann::json` and base64 text through
`crow::utility`. Neither library is part of the repository. A `Codec` is any choice of the functions
that the programs call, and `Codec.Lawful` is what the programs rely on: a document survives being
written and read, an interrupted document is not a document, and decoding undoes encoding.
-/

namespace Ticketing

/-- The contents of a `std::string` or of a file. -/
abbrev Bytes := List UInt8

/-- A string literal of the source, all of which are ASCII. -/
def ascii (s : String) : Bytes := s.toList.map fun c => c.toNat.toUInt8

structure Codec (F : Type) where
  /-- `json::parse(text, nullptr, false)`; `none` is a discarded value -/
  parse : Bytes → Option (Json F)
  /-- `stream >> j`, which stops after the first value; `none` is an exception `parse_error` -/
  extract : Bytes → Option (Json F)
  /-- `dump()` -/
  dump : Json F → Bytes
  /-- `dump(4)` -/
  dump4 : Json F → Bytes
  base64encode : Bytes → Bytes
  /-- defined on every input -/
  base64decode : Bytes → Bytes

variable {F : Type}

structure Codec.Lawful (c : Codec F) : Prop where
  parse_dump : ∀ j : Json F, j.Canonical → c.parse (c.dump j) = some j
  extract_dump4 : ∀ j : Json F, j.Canonical → c.extract (c.dump4 j) = some j
  extract_canonical : ∀ (text : Bytes) (j : Json F), c.extract text = some j → j.Canonical
  extract_cut : ∀ (members : List (String × Json F)) (text : Bytes),
    (Json.object members).Canonical → text <+: c.dump4 (.object members) →
    text ≠ c.dump4 (.object members) → c.extract text = none
  base64decode_encode : ∀ text : Bytes, c.base64decode (c.base64encode text) = text

theorem Codec.Lawful.dump4_ne_nil {c : Codec F} (hc : c.Lawful) {members : List (String × Json F)}
    (h : (Json.object members).Canonical) : c.dump4 (.object members) ≠ [] := by
  intro hnil
  have hextract := hc.extract_dump4 _ h
  rw [hnil] at hextract
  obtain ⟨other, hother, hne⟩ :
      ∃ other : List (String × Json F), (Json.object other).Canonical ∧ other ≠ members := by
    by_cases hmembers : members = []
    · refine ⟨[("", .null)], .object (List.pairwise_singleton _ _) fun p hp => ?_, ?_⟩
      · rw [List.mem_singleton.mp hp]
        exact .null
      · rw [hmembers]
        exact List.cons_ne_nil _ _
    · exact ⟨[], .object .nil fun p hp => absurd hp List.not_mem_nil, Ne.symm hmembers⟩
  have hshort : [] ≠ c.dump4 (.object other) := by
    intro heq
    have hextract' := hc.extract_dump4 _ hother
    rw [← heq, hextract, Option.some.injEq, Json.object.injEq] at hextract'
    exact hne hextract'.symm
  rw [hc.extract_cut other [] hother List.nil_prefix hshort] at hextract
  exact nomatch hextract

end Ticketing
