import Weaver.Digest
import Weaver.Uuid

/-!
# Identifiers from a seed

A supply of version-4 identifiers: each is taken from the digest of a seed and its own number. With
a random seed they are as good as random.
-/

namespace Weaver

namespace Uuid

/-- The version-4 identifier with the bits of sixteen bytes, those aside that tell version and
variant. -/
def version4 (bytes : List UInt8) (length_bytes : bytes.length = 16) : Uuid :=
  ⟨(bytes.modify 6 fun b => b &&& 0x0f ||| 0x40).modify 8 fun b => b &&& 0x3f ||| 0x80,
    by simpa using length_bytes⟩

end Uuid

/-- The supply of a seed. -/
def IdSupply.seeded (seed : List UInt8) : IdSupply :=
  { ids := fun n => Uuid.version4 ((Digest.sha256 (seed ++ Bytes.ofNat 8 n)).take 16) (by simp)
    drawn := 0 }

end Weaver
