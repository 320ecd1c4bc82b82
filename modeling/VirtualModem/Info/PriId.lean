import VirtualModem.Json.Form
/-!
# Product requirement identifiers
-/

namespace VirtualModem.Info
set_option autoImplicit false
open Json

structure PriId where
  partNumber : String
  revision : String
  deriving DecidableEq, Repr

instance : Form PriId where
  toTree p := .ofFields [
    ("part_number", Form.toTree p.partNumber), ("revision", Form.toTree p.revision)]
  ofTree? t := do
    let [partNumber, revision] ← t.fields? ["part_number", "revision"] | none
    return ⟨← Form.ofTree? partNumber, ← Form.ofTree? revision⟩

end VirtualModem.Info
