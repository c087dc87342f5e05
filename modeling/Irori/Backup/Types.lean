import Irori.Lib.Map

/-!
# What backups say of themselves

The manifest of a backup, and the parts of one that can be put back.
-/

namespace Irori.Backup

/-- The first member of a backup. -/
structure Manifest where
  format : Nat
  iroriVersion : String
  createdAt : String
  /-- Packages that were installed. They are not in the archive. -/
  extensions : List String
  encrypted : Bool
  history : Bool
  activity : Bool
  deriving DecidableEq

structure Parts where
  /-- The config directory and the https certificate. -/
  settings : Bool
  /-- What extensions remember. -/
  extensions : Bool
  /-- The database except entity history and the activity log. -/
  state : Bool
  history : Bool
  activity : Bool
  deriving DecidableEq

def Parts.all : Parts := ⟨true, true, true, true, true⟩

end Irori.Backup
