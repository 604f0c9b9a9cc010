/-!
# Dialects

Interpreters of the language differ in the meaning of a few instructions. A dialect fixes the three
points on which programs depend.
-/

namespace Chip8

/-- The choices of an interpreter where the language leaves one. -/
structure Dialect where
  /-- `8xy6` and `8xyE` shift `Vy` into `Vx` instead of shifting `Vx`. -/
  shiftUsesVy : Bool := false
  /-- `Fx0A` completes when a key is released instead of when one is held. -/
  keyWaitOnRelease : Bool := false
  /-- `Fx55` and `Fx65` leave `I` behind the last cell that they touch. -/
  loadStoreIncrementsIndex : Bool := true
  deriving DecidableEq, Repr, Inhabited

end Chip8
