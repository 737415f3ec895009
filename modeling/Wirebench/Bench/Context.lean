import Wirebench.Bench.Log
import Wirebench.Config.Basic
import Wirebench.Network

namespace Wirebench.Bench

/-- The settings of a bench. Once a context is shut down nothing can be opened through it. -/
structure Context where
  config : BenchConfig
  isShutDown : Bool := false
  deriving DecidableEq, Repr

namespace Context

/-- Shut a context down; only the first time is reported. -/
def shutDown (c : Context) : Context × Log :=
  ({ c with isShutDown := true }, if c.isShutDown then [] else [.contextShutDown])

def ensureActive (c : Context) : Except StreamError Unit :=
  if c.isShutDown then .error .contextShutdown else .ok ()

variable {A T W : Type}

def openAcceptor (c : Context) (net : Network A T W) (d : Descriptor) (w : W) :
    Except StreamError (Acceptor A) × W :=
  match c.ensureActive with
  | .ok () => net.openAcceptor d c.config.endpoint w
  | .error e => (.error e, w)

def openConnection (c : Context) (net : Network A T W) (now : Nat) (d : Descriptor)
    (greeting : List UInt8) (w : W) : Opening A T × W :=
  match c.ensureActive with
  | .ok () => net.openConnection now d c.config.endpoint greeting w
  | .error e => (.failed none e, w)

/-- The shared context, which has the default settings if it was not made before. -/
def shared (slot : Option Context) : Context := slot.getD ⟨{}, false⟩

def makeShared (config : BenchConfig) (slot : Option Context) : Except BenchError Context :=
  match slot with
  | none => .ok ⟨config, false⟩
  | some _ => .error .alreadyInitialized

end Context

end Wirebench.Bench
