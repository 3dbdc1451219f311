import BufferPool.Pool.Operations

/-!
Calls as data, so that a run of a pool is a list of them. Callers may change their pages between
operations.
-/

namespace BufferPool

inductive Call where
  | put (page : PageId)
  | fetch (key : UInt64)
  | peek (key : UInt64)
  | confirm (key : UInt64) (page : PageId)
  | remove (key : UInt64)
  | clear
  | resize (kb : UInt64)
  | change (page : PageId) (c : Page.Change)

inductive Answer where
  | done
  | page (found : Option PageId)
  | removed (wasResident : Bool)
  deriving DecidableEq

namespace Scheme

variable {Memory Sink : Type} (scheme : Scheme Memory Sink)

def perform : Call → PoolM Memory Sink Answer
  | .put page => do scheme.put page; return .done
  | .fetch key => return .page (← scheme.fetch key)
  | .peek key => return .page (← PoolM.peek key)
  | .confirm key page => return .page (← scheme.confirm key page)
  | .remove key => return .removed (← scheme.remove key)
  | .clear => do scheme.clear; return .done
  | .resize kb => do scheme.resize kb; return .done
  | .change page c => do modify (·.change page c); return .done

def respond (call : Call) (p : Pool Memory Sink) :
    Except PoolError Answer × Pool Memory Sink :=
  match scheme.perform call p with
  | .ok answer p => (.ok answer, p)
  | .error e p => (.error e, p)

/-- The pool after some calls, whether they failed or not. -/
def run : List Call → Pool Memory Sink → Pool Memory Sink
  | [], p => p
  | call :: rest, p => run rest (scheme.respond call p).2

end Scheme
end BufferPool
