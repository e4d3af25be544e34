import Catalogue.Launch.Run
import Catalogue.Proofs.Store.Opening

/-! The store of a launch.  A store opens, or the database at its path cannot be used, which a
launch reports and ends with exit code 1; but where the directories above the path cannot be made,
or a name in it cannot be handed to the system, the launch breaks off with the fault of the path. -/

namespace Catalogue.Launch

open FileTree

section Server

variable {circumstances : Circumstances} {c : Configuration} {tree after : FileTree}

theorem checkDatabase_sound (h : c.database.unnameable = none) :
    checkDatabase c.database tree = .ok () tree := by
  rw [checkDatabase, h]
  rfl

theorem runServer_of_fault (env : Environment) (logs : Logs) (h : c.database.unnameable = none)
    {fault : StorageFault}
    (hopen : (Store.new c.database.path).open_ tree circumstances =
      (.error (.storage fault), after)) :
    runServer circumstances env c logs tree = .ok ⟨1, [], "", logs.error fault.message⟩ after := by
  rw [runServer, bind_of_ok (checkDatabase_sound h), get_bind, hopen]
  rfl

theorem runServer_of_obstacle (env : Environment) (logs : Logs)
    (h : c.database.unnameable = none) {e : PathFault}
    (hopen : (Store.new c.database.path).open_ tree circumstances = (.error (.path e), after)) :
    runServer circumstances env c logs tree = .error (.store (.path e)) after := by
  rw [runServer, bind_of_ok (checkDatabase_sound h), get_bind, hopen]
  rfl

end Server

end Catalogue.Launch
