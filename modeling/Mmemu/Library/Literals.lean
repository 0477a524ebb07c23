import Mathlib.Data.BitVec

/-!
# Literals

Instances that literals of small index types and tests for a byte in a list rest on. They have
names of their own, so that the terms are the same whatever else is in scope.
-/
namespace Mmemu.Library.Literals

instance neZero_two : NeZero 2 := ⟨by decide⟩

instance neZero_eight : NeZero 8 := ⟨by decide⟩

instance neZero_sixteen : NeZero 16 := ⟨by decide⟩

instance lawfulBEq_byte : LawfulBEq (BitVec 8) := inferInstance

end Mmemu.Library.Literals
