import ChainFollower.Store.Worker

/-!
# Workers for trials

Workers that leave a visible mark for each stored block, and workers that refuse
blocks after staging their mark.
-/

namespace ChainFollower.Simulation

open Store (Worker)

/-- The key of a block's mark. -/
def markKey (block : Block) : Bytes :=
  Bytes.ofString "mark/" ++ Bytes.ofString block.id.hash

/-- Marks every stored block with the number of changes staged before its mark. -/
def marking : Worker where
  adding block batch :=
    .ok (batch ++ [.put (markKey block) (Bytes.ofString (toString batch.length))])
  removing block batch := .ok (batch ++ [.delete (markKey block)])

/-- Stages marks, and then refuses every addition. -/
def refusingAdditions : Worker :=
  { marking with adding := fun _ _ => .error (.internal "worker refused add") }

/-- Stages marks, and then refuses every removal. -/
def refusingRemovals : Worker :=
  { marking with removing := fun _ _ => .error (.internal "worker refused remove") }

end ChainFollower.Simulation
