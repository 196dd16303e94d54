import VolumeCache.CachedBlock
import VolumeCache.Notice

namespace VolumeCache

/-!
# The journal of a cache

Everything a cache does that matters to someone outside is an event.  Calls are numbered in the
order in which they begin, and a load has the number of the call that leads it, so that events
that belong together can be found in the journal of a run.
-/

inductive RemovalCause where
  | size
  | explicit
deriving DecidableEq, Repr

namespace RemovalCause

def name : RemovalCause → String
  | .size => "Size"
  | .explicit => "Explicit"

end RemovalCause

/-- A block that left the cache, and why. -/
structure Removal where
  key : BlockKey
  block : CachedBlock
  cause : RemovalCause
deriving DecidableEq, Repr

/-- What a caller can ask of a cache: a block, loaded if need be; a block if it is there; or that
the blocks of a scope be dropped. -/
inductive Request where
  | load (key : BlockKey)
  | find (key : BlockKey)
  | invalidate (scope : Scope)
deriving DecidableEq, Repr

/-- How the load of a block turned out, for the caller that led it and for those that waited. -/
inductive Outcome where
  | value (payload : Payload)
  | failure (error : CacheError)
deriving DecidableEq, Repr

/-- What a call gives back when it returns. -/
inductive Reply where
  | loaded (outcome : Outcome)
  | found (payload : Option Payload)
  | done
deriving DecidableEq, Repr

/-- One entry of the journal.  The calls are given by their numbers and the loads by the calls that
lead them, so what happened to one call or to one block can be told from the journal alone. -/
inductive Event where
  | began (call : Nat) (request : Request)
  | touched (key : BlockKey)
  | claimed (call : Nat) (key : BlockKey)
  | joined (call : Nat) (key : BlockKey) (leader : Nat)
  | loaderStarted (call : Nat) (key : BlockKey)
  | loaded (call : Nat) (key : BlockKey) (payload : Payload)
  | loaderFailed (call : Nat) (key : BlockKey)
  | loaderPanicked (call : Nat) (key : BlockKey)
  | examined
  | removed (removal : Removal)
  | reported (removal : Removal)
  | answered (call : Nat) (leader : Nat) (outcome : Outcome)
  | returned (call : Nat) (reply : Reply)
  | unwound (call : Nat) (text : String)
  | noticed (notice : Notice)
deriving DecidableEq, Repr

end VolumeCache
