import ChainFollower.Block.Basic

/-!
# Made-up chains

Blocks with as little in them as trials need.
-/

namespace ChainFollower.Simulation

/-- An operation about which nothing is said. -/
def bareOperation : Operation := ⟨⟨0, none⟩, "", none, none, none, none⟩

/-- A transaction of so many bare operations. -/
def bareTransaction (hash : String) (operations : Nat) : Transaction :=
  ⟨⟨hash⟩, List.replicate operations bareOperation, none⟩

/-- The identifier of the block at a place of a fork: its hash is the fork's name and
the place. -/
def idAt (fork : String) (place : Int) : BlockId :=
  ⟨Int64.ofInt place, fork ++ toString place⟩

/-- The block at a place of a fork, whose parent is on a fork too.  The block at place
zero is its own parent. -/
def blockAt (fork parentFork : String) (place : Int) : Block where
  id := idAt fork place
  parent := if place = 0 then idAt fork place else idAt parentFork (place - 1)
  timestamp := Int64.ofInt (1600000000000 + 1000 * place)
  transactions := [bareTransaction ("tx-" ++ fork ++ toString place) 2]
  metadata := none

/-- The blocks of a fork from one place through another; the first of them follows
another fork. -/
def chain (first last : Int) (fork parentFork : String) : List Block :=
  (List.range (last - first + 1).toNat).map fun offset : Nat =>
    blockAt fork (if offset = 0 then parentFork else fork) (first + offset)

end ChainFollower.Simulation
