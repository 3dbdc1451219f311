import BufferPool.Text.Quoted
import BufferPool.Text.Record

/-!
What can go wrong. A pool is refused for its size or its policy; an operation of a pool fails
because a page could not be written back, because it was handed the wrong page, or because the
frame table is not what its invariants promise.
-/

namespace BufferPool

inductive SetupError where
  | unknownPolicy (text : String)
  | unsupportedSize (kb : UInt64)
  deriving DecidableEq

def SetupError.message : SetupError → String
  | .unknownPolicy text => "unknown cache type: " ++ Text.quoted text
  | .unsupportedSize kb =>
    "this much cache memory is not supported: " ++ Text.decimal kb.toNat ++ "kb"

/-- What no operation answers for: a broken promise of the frame table about its own links, or an
amount that does not fit its type. A call that meets one does not return, and what it leaves behind
is not seen again. -/
inductive Defect where
  | staleFrame
  | endlessWalk
  | emptyTable
  | amountOverflow
  deriving DecidableEq

inductive PoolError where
  | anchorUnlinked
  | anchorMoved
  | pageMismatch (key : UInt64) (resident offered : String)
  | stillResident (key : UInt64) (page : String)
  | notResident (key : UInt64)
  | writeFailed (key : UInt64) (reason : String)
  | broken (defect : Defect)
  deriving DecidableEq

namespace PoolError

def message : PoolError → String
  | anchorUnlinked => "try to remove head"
  | anchorMoved => "try to move head"
  | pageMismatch key resident offered =>
    "old != record for key " ++ Text.decimal key.toNat ++ ": resident " ++ resident
      ++ ", offered " ++ offered
  | stillResident key page => "key " ++ Text.decimal key.toNat ++ " not removed: " ++ page
  | notResident key =>
    "key " ++ Text.decimal key.toNat ++ " expected to be resident but not found"
  | writeFailed key _ => "write-back of key " ++ Text.decimal key.toNat ++ " failed"
  | broken .staleFrame => "a link leads to a frame that is gone"
  | broken .endlessWalk => "a walk along the links does not end"
  | broken .emptyTable => "a frame leaves an empty table"
  | broken .amountOverflow => "an amount of words does not fit 64 bits"

def reason? : PoolError → Option String
  | writeFailed _ reason => some reason
  | _ => none

def isViolation (e : PoolError) : Bool := e.reason?.isNone

end PoolError
end BufferPool
