import LayeredAssets.Fault

namespace LayeredAssets

/-- How a worker ends: with an answer, or by giving up, with a text or without. -/
inductive Ending (α : Type)
  | answer (result : Except Fault α)
  | panic (text : Option String)

def Ending.result {α : Type} : Ending α → Except Fault α
  | .answer result => result
  | .panic text => .error (.request (text.getD "worker panicked"))

/-- A question put to a worker. What the worker leaves waits in the latch until its owner looks. -/
inductive Request (α : Type)
  | open (latch : Option (Except Fault α))
  | resolved (result : Except Fault α)

namespace Request

variable {α : Type}

/-- The question goes to a worker, unless none can be started. -/
def spawn : Except HostFault Unit → Request α
  | .ok () => .open none
  | .error cause => .resolved (.error (.host cause))

/-- The worker is done. It is so only once. -/
def complete (request : Request α) (ending : Ending α) : Request α :=
  match request with
  | .open _ => .open (some ending.result)
  | .resolved result => .resolved result

def poll : Request α → Request α × Bool
  | .open none => (.open none, false)
  | .open (some result) => (.resolved result, true)
  | .resolved result => (.resolved result, true)

def response? : Request α → Option (Except Fault α)
  | .open _ => none
  | .resolved result => some result

/-- The result, once there is one to wait for no longer. -/
def wait? : Request α → Option (Except Fault α)
  | .open latch => latch
  | .resolved result => some result

end Request
end LayeredAssets
