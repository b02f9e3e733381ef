/-
What a store hands out: a record together with the revision at which it
was written. A writer gives the version that it read back, and the store
takes the write only if that version is still the latest one.
-/
import ControlPlane.Error
import ControlPlane.Machine.Basic

namespace ControlPlane

/-- A record and the revision at which it was written. -/
structure Versioned where
  record : MachineRecord
  revision : Int
  deriving DecidableEq, Repr

end ControlPlane
