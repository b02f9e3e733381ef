/-
What a build of the program says about itself.
-/

namespace ControlPlane

/-- The version of the protocol that wait streams speak. -/
def waitProtocol : UInt32 := 1

/-- The facts that a build was stamped with. -/
structure Build where
  version : String := "0.1.0"
  commit : String
  commitTime : String
  branch : String
  dirty : Bool := false
  built : String
  compiler : String
  target : String

namespace Build

/-- The version with the commit behind it. -/
def fullVersion (b : Build) : String :=
  b.version ++ " (" ++ b.commit ++ (if b.dirty then " dirty" else "") ++ ")"

/-- All facts, a line each. -/
def info (b : Build) : String :=
  "metal-api " ++ b.version ++ "\n" ++
  "commit: " ++ b.commit ++ " (" ++ b.commitTime ++ ")\n" ++
  "branch: " ++ b.branch ++ "\n" ++
  "built:  " ++ b.built ++ "\n" ++
  "rustc:  " ++ b.compiler ++ "\n" ++
  "target: " ++ b.target ++ "\n" ++
  "wait protocol: v" ++ toString waitProtocol.toNat

end Build

end ControlPlane
