import Famicom.Mirroring

/-!
# The cartridge side of the picture processor

Pattern tables and the choice of mirroring belong to the cartridge.  A board may watch the
fetches, so reading gives the board back.
-/

namespace Famicom.Ppu

/-- What answers pattern accesses and selects mirroring. -/
class PatternBus (β : Type) where
  read : β → UInt16 → UInt8 × β
  write : β → UInt16 → UInt8 → β
  mirroring : β → Mirroring

end Famicom.Ppu
