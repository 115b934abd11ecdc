set_option autoImplicit false

/-!
How much a container holds before it gives way or refuses. There is always room for one item.
-/

namespace Overworld

structure Capacity where
  count : Nat
  pos : 0 < count
deriving DecidableEq

/-- Room for `count` items, or for one where `count` is zero. -/
def Capacity.atLeastOne (count : Nat) : Capacity := ⟨max count 1, by omega⟩

end Overworld
