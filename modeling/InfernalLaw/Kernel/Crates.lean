import Mathlib.Data.Set.Function
import InfernalLaw.Kernel.Text

/-!
# Other crates

What the kernel takes from the crates that it depends on, as far as the modelled functions call it:
SHA-256, Ed25519, Base64, and the text of UUIDs.
-/

namespace InfernalLaw

/-- `[u8; 64]`. -/
structure Bytes64 where
  bytes : List UInt8
  length_eq : bytes.length = 64
  deriving DecidableEq

/-- The functions of other crates. -/
structure Crates where
  /-- `Sha256::digest`. -/
  sha256 : List UInt8 → Bytes32
  /-- `VerifyingKey::from_bytes` of the public key, then `verify_strict` of a message. -/
  verifyStrict : Bytes32 → List UInt8 → Bytes64 → Bool
  /-- The `Display` of `Uuid`. -/
  displayUuid : Uuid → Str
  /-- `Uuid::parse_str`. -/
  parseUuid : Str → Option Uuid
  /-- `STANDARD.encode`. -/
  encodeBase64 : List UInt8 → Str
  /-- `STANDARD.decode`. -/
  decodeBase64 : Str → Option (List UInt8)
  /-- `URL_SAFE_NO_PAD.decode`. -/
  decodeUrlSafe : Str → Option (List UInt8)

/-- What the crates document about the texts that they produce: a UUID is 32 hexadecimal digits and
hyphens, Base64 has letters, digits, `+`, `/` and `=`, and both can be read back. -/
structure Crates.Documented (c : Crates) : Prop where
  displayUuid_injective : Function.Injective c.displayUuid
  newline_not_mem_displayUuid : ∀ u, '\n' ∉ c.displayUuid u
  encodeBase64_injective : Function.Injective c.encodeBase64
  newline_not_mem_encodeBase64 : ∀ b, '\n' ∉ c.encodeBase64 b

/-- The hash function has no collisions among the inputs. -/
def CollisionFree (hash : List UInt8 → Bytes32) (inputs : Set (List UInt8)) : Prop :=
  Set.InjOn hash inputs

end InfernalLaw
