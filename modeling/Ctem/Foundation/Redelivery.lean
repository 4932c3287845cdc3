import Mathlib.Logic.Relation

/-!
# Effects that are tried again

A message is delivered until its handler has got through, so the handler's effect on a
cell of the state is tried any number of times, and each time it either takes place or
does not.  `Repeatable` is what the effect must satisfy for the cell not to tell: its
result depends only on what is the same about the cell, and where it has taken place
already it changes nothing.

`Repeatable.redelivered` is the consequence: after any attempts, the attempt that gets
through leaves what the effect leaves when it takes place once.
-/

namespace Ctem
namespace Foundation

universe u

variable {α : Type u} {Same Effect : α → α → Prop}

/-- The effect depends on what is the same, and a second time changes nothing. -/
structure Repeatable (Same Effect : α → α → Prop) : Prop where
  congr : ∀ {a a' b b'}, Same a a' → Effect a b → Effect a' b' → Same b b'
  again : ∀ {a b c d}, Effect a b → Same b c → Effect c d → Same b d

/-- An attempt that may have been broken off before the effect. -/
def Attempted (Effect : α → α → Prop) (a b : α) : Prop :=
  b = a ∨ Effect a b

/-- Between attempts the cell is as it was, or as the effect leaves it. -/
theorem Repeatable.attempts (h : Repeatable Same Effect) (hrefl : ∀ a, Same a a) {a c e : α}
    (hattempts : Relation.ReflTransGen (Attempted Effect) a c) (hdirect : Effect a e) :
    Same a c ∨ Same e c := by
  induction hattempts with
  | refl => exact Or.inl (hrefl a)
  | tail _ hattempt ih =>
      rcases hattempt with rfl | heffect
      · exact ih
      · rcases ih with hbefore | hafter
        · exact Or.inr (h.congr hbefore hdirect heffect)
        · exact Or.inr (h.again hdirect hafter heffect)

/-- After any attempts, one that gets through leaves what a single one leaves. -/
theorem Repeatable.redelivered (h : Repeatable Same Effect) (hrefl : ∀ a, Same a a) {a c d e : α}
    (hattempts : Relation.ReflTransGen (Attempted Effect) a c) (hlast : Effect c d)
    (hdirect : Effect a e) : Same e d := by
  rcases h.attempts hrefl hattempts hdirect with hbefore | hafter
  · exact h.congr hbefore hdirect hlast
  · exact h.again hdirect hafter hlast

end Foundation
end Ctem
