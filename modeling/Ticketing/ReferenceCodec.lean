import Ticketing.Codec
import Ticketing.Library.Base64
import Ticketing.Library.JsonText

/-!
# A codec

The text functions as the libraries define them, for documents without fractions: `dump()` is the
compact text, `dump(4)` the text indented by four, and base64 has the standard alphabet. It keeps
all that `Codec.Lawful` asks for.
-/

namespace Ticketing

open JsonText

instance : Double Empty where
  toInt64 := nofun
  toInt32 := nofun
  eqInt64 := nofun

def referenceCodec : Codec Empty where
  parse text := (readFirst text).bind fun (j, rest) => if skipSpace rest = [] then some j else none
  extract text := (readFirst text).map Prod.fst
  dump := printValue .compact 0
  dump4 := printValue (.indented 4) 0
  base64encode := Base64.encode
  base64decode := Base64.decode

theorem referenceCodec_lawful : referenceCodec.Lawful where
  parse_dump j hj := by
    simp only [referenceCodec, readFirst_printValue .compact hj, Option.bind_some]
    rfl
  extract_dump4 j hj := by
    simp only [referenceCodec, readFirst_printValue (.indented 4) hj, Option.map_some]
  extract_canonical text j hextract := by
    obtain ⟨⟨j', rest⟩, hread, rfl⟩ := Option.map_eq_some_iff.mp hextract
    exact canonical_of_readFirst hread
  extract_cut members text hcanonical hcut hne := by
    simp only [referenceCodec, readFirst_eq_none_of_cut (.indented 4) hcanonical hcut hne,
      Option.map_none]
  base64decode_encode := Base64.decode_encode

end Ticketing
