import Std.Data.ExtTreeMap

/-!
# Ordering by texts

Entities of the models are ordered by the texts that identify them, the first text first. Texts are
ordered by code point, which is the order of their UTF-8 bytes.
-/

namespace CallTrace.Model

open Std

/-- The order of values by the texts that identify them. -/
def compareTexts {α : Type} (key : α → List String) (a b : α) : Ordering := compare (key a) (key b)

instance {α : Type} (key : α → List String) : TransCmp (compareTexts key) :=
  inferInstanceAs (TransCmp (compareOn key))

theorem lawfulEqCmp_compareTexts {α : Type} {key : α → List String}
    (injective : ∀ a b, key a = key b → a = b) : LawfulEqCmp (compareTexts key) where
  toReflCmp := inferInstanceAs (ReflCmp (compareOn key))
  eq_of_compare h := injective _ _ (LawfulEqOrd.eq_of_compare h)

end CallTrace.Model
