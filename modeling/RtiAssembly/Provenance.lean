import RtiAssembly.Description.Canonical
import RtiAssembly.Digest

/-!
# Provenance of generated code

Generated files carry the digest of the canonical description they come from,
so formatting and member order of the input leave no trace in them.
-/

namespace RtiAssembly

/-- The version of the generator. -/
def generatorVersion : String :=
  "0.1.0"

/-- Where generated code comes from. -/
structure Provenance where
  /-- Digest of the canonical description, in hexadecimal digits. -/
  digest : String
  version : String
  deriving DecidableEq, Repr

namespace Provenance

/-- The provenance of a description. -/
def ofDescription {α : Type} [Scalar α] (description : Description α) : Provenance where
  digest := Sha256.hexDigest description.canonical
  version := generatorVersion

/-- The manifest of a provenance, one entry a line. -/
def manifest (provenance : Provenance) : String :=
  String.join
    ["\x7b\n",
      "  \"config_hash\": \"" ++ provenance.digest ++ "\",\n",
      "  \"generator_version\": \"" ++ provenance.version ++ "\",\n",
      "  \"manifest_schema_version\": 1\n",
      "\x7d\n"]

end Provenance

end RtiAssembly
