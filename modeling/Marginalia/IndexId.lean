import Marginalia.CodeUnit
import Marginalia.Digest

/-!
Identifiers in the index. They hang on nothing but the identifier of the unit, so a unit that is
indexed again keeps the one it had.
-/

namespace Marginalia

/-- The identifier of a unit in the index: the first eight bytes of a digest, in hexadecimal. -/
def UnitId.indexId (id : UnitId) : String :=
  let digest := Digest.sha256 id.text.toByteArray.toList
  "vec_" ++ String.ofList (Digest.hex (digest.take 8))

end Marginalia
