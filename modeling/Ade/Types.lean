import Ade.Library.OrderedMap

/-! Primitive types shared by every crate. -/

namespace Ade
open Std Library

abbrev SlotNo := UInt64
abbrev BlockNo := UInt64
abbrev EpochNo := UInt64

abbrev Bytes := List UInt8
abbrev Hash32 := Vector UInt8 32
abbrev Hash28 := Vector UInt8 28

-- Under names of their own, lest every module that keys a map by a hash prove them anew.
instance transOrd_hash32 : TransOrd Hash32 := inferInstance

instance lawfulEqOrd_hash32 : LawfulEqOrd Hash32 := inferInstance

instance transOrd_hash28 : TransOrd Hash28 := inferInstance

instance lawfulEqOrd_hash28 : LawfulEqOrd Hash28 := inferInstance

inductive CardanoEra where
  | byronEbb | byronRegular | shelley | allegra | mary | alonzo | babbage | conway
deriving DecidableEq, Repr

namespace CardanoEra

def all : List CardanoEra :=
  [.byronEbb, .byronRegular, .shelley, .allegra, .mary, .alonzo, .babbage, .conway]

/-- The discriminant of the enumeration, cast to `u64`. -/
def asU64 : CardanoEra → UInt64
  | .byronEbb => 0
  | .byronRegular => 1
  | .shelley => 2
  | .allegra => 3
  | .mary => 4
  | .alonzo => 5
  | .babbage => 6
  | .conway => 7

end CardanoEra

structure Point where
  slot : SlotNo
  hash : Hash32
deriving DecidableEq, Repr

namespace Point

/-- Points are ordered by slot, then by hash. -/
instance : Ord Point := ⟨compareLex (compareOn slot) (compareOn hash)⟩

instance : TransOrd Point := inferInstanceAs (TransCmp (compareLex (compareOn slot) (compareOn hash)))

instance : LawfulEqOrd Point where
  compare_self := ReflOrd.compare_self
  eq_of_compare := by
    rintro ⟨slot, hash⟩ ⟨slot', hash'⟩ same
    have fields : compare slot slot' = .eq ∧ compare hash hash' = .eq := compareLex_eq_eq.mp same
    simpa [LawfulEqOrd.compare_eq_iff_eq] using fields

end Point

end Ade
