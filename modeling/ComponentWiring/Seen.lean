import ComponentWiring.Identity

/-! # The identities seen so far

* `Seen`: a set of identities.
* `Seen.mark`: adds an identity and tells whether it is new.
-/

namespace ComponentWiring
set_option autoImplicit false

/-- A set of identities, each once, the latest in front. -/
structure Seen where
  members : List Identity
  deriving DecidableEq

namespace Seen

def empty : Seen := ⟨[]⟩

def has (seen : Seen) (a : Identity) : Bool := a ∈ seen.members

def size (seen : Seen) : Nat := seen.members.length

def insert (seen : Seen) (a : Identity) : Seen :=
  if seen.has a then seen else ⟨a :: seen.members⟩

/-- Whether an identity is new, and the set with it. -/
def mark (seen : Seen) (a : Identity) : Bool × Seen := (!seen.has a, seen.insert a)

@[simp] theorem has_empty (a : Identity) : empty.has a = false := rfl

@[simp] theorem has_insert (seen : Seen) (a b : Identity) :
    (seen.insert a).has b = (decide (b = a) || seen.has b) := by
  unfold insert
  split
  · next h =>
    by_cases hb : b = a
    · subst hb
      simp [h]
    · simp [hb]
  · simp [has]

end Seen

end ComponentWiring
