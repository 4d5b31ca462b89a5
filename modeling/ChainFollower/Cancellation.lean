/-!
# Cancellation

A token is cancelled once and stays cancelled.  A token may have a parent: it is
then also cancelled by its parent, and never cancels it.
-/

namespace ChainFollower

/-- A token that may be cancelled on its own or by its parent, if it has one. -/
structure Cancellation where
  /-- Whether the token itself was cancelled. -/
  own : Bool
  /-- Whether the parent is cancelled; `none` without a parent. -/
  parent : Option Bool
  deriving DecidableEq, Repr

namespace Cancellation

/-- A token without a parent. -/
def root : Cancellation := ⟨false, none⟩

/-- A child of a token in the given state. -/
def child (parentCancelled : Bool) : Cancellation := ⟨false, some parentCancelled⟩

/-- Whether the token is cancelled. -/
def isCancelled (token : Cancellation) : Bool :=
  token.own || token.parent.getD false

/-- The state of the token's parent. -/
def parentCancelled (token : Cancellation) : Bool :=
  token.parent.getD false

/-- Cancels the token, and not its parent. -/
def cancel (token : Cancellation) : Cancellation :=
  { token with own := true }

/-- The token after its parent, if it has one, is cancelled. -/
def cancelParent (token : Cancellation) : Cancellation :=
  { token with parent := token.parent.map fun _ => true }

end Cancellation

end ChainFollower
