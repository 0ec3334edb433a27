import Mathlib.Logic.Function.Basic

/-!
# Digests

A digest of texts in which no two texts meet: SHA-256, as the programs that compare digests take it.
-/

structure Digest where
  of : String → String
  injective : Function.Injective of

namespace Digest

@[simp] theorem of_eq (sha : Digest) {a b : String} : sha.of a = sha.of b ↔ a = b := sha.injective.eq_iff

/-- The digest that changes nothing. -/
def plain : Digest := ⟨id, Function.injective_id⟩

end Digest
