/-
# The leaves of planned commands

A leaf acts on the runtime of a single host, on a cluster, or on the store of restart states. Doing
one begins with a look at the token; taking one back does not. A leaf that has nothing to take back,
as a pull or a restart, succeeds in it.

A restart is recorded even if the store is out of reach, since restarting matters more than the
count, and it stays recorded when it is taken back. A reset of a module without a record is done.

Key definitions: `Action`, `Action.carryOut`, `Action.backward`, `Action.behaviour`.
-/
import Steward.Command.Basic

namespace Steward

/-- What is done with a module on a single host. -/
inductive HostOp where
  | pull (image : Option String) (credentials : Option Credentials)
  | create (identity : Option Identity)
  | start
  | stop
  | remove
  | restart
  | setStatus (status previous : Status)

/-- What is done with a module in a cluster. -/
inductive ClusterOp where
  | apply (runtime : RuntimeInfo) (identity : Option Identity)
  | delete
  | rollout
  | scale (replicas : Nat)

/-- A leaf of a planned command. -/
inductive Action where
  | host (op : HostOp) (m : Module)
  | cluster (op : ClusterOp) (m : Module)
  | recordRestart (name : String)
  | resetRestarts (name : String)

/-- The image of a module, or a sign that there is none. -/
def Module.imageText (m : Module) : String := m.image.getD "<none>"

namespace HostOp

def kind : HostOp → CommandKind
  | pull .. => .pull
  | create _ => .create
  | start => .start
  | stop => .stop
  | remove => .remove
  | restart => .restart
  | setStatus .. => .update

def text (m : Module) : HostOp → String
  | pull image _ => "docker pull " ++ image.getD "<none>"
  | create _ => "docker create --name " ++ m.name ++ " " ++ m.imageText
  | start => "docker start " ++ m.name
  | stop => "docker stop " ++ m.name
  | remove => "docker rm " ++ m.name
  | restart => "docker restart " ++ m.name
  | setStatus status _ => "docker update " ++ m.name ++ " --status " ++ status.text

/-- The request that does it; a pull needs an image. -/
def forward (m : Module) : HostOp → Except CommandFault Request
  | pull (some image) credentials => .ok (.pull m.name image credentials)
  | pull none _ => .error (.misconfigured m.name "no image to pull")
  | create identity => .ok (.create m identity)
  | start => .ok (.start m.name)
  | stop => .ok (.stop m.name)
  | remove => .ok (.remove m.name)
  | restart => .ok (.restart m.name)
  | setStatus status _ => .ok (.setStatus m.name status)

/-- The request that takes it back, if anything does. -/
def backward (m : Module) : HostOp → Option Request
  | create _ => some (.remove m.name)
  | start => some (.stop m.name)
  | stop => some (.start m.name)
  | setStatus _ previous => some (.setStatus m.name previous)
  | pull .. | remove | restart => none

end HostOp

namespace ClusterOp

def kind : ClusterOp → CommandKind
  | apply .. => .create
  | delete => .remove
  | rollout => .restart
  | scale 0 => .stop
  | scale (_ + 1) => .start

def text (m : Module) : ClusterOp → String
  | apply .. => "kubectl apply deployment/" ++ m.name ++ " image=" ++ m.imageText
  | delete => "kubectl delete deployment/" ++ m.name
  | rollout => "kubectl rollout restart deployment/" ++ m.name
  | scale n => "kubectl scale deployment/" ++ m.name ++ " --replicas=" ++ Text.natText n

/-- The request that does it. -/
def forward (m : Module) : ClusterOp → Request
  | apply runtime identity => .apply m runtime identity
  | delete => .delete m.name
  | rollout => .rollout m.name
  | scale n => .scale m.name n

/-- The request that takes it back, if anything does. -/
def backward (m : Module) : ClusterOp → Option Request
  | apply .. => some (.delete m.name)
  | scale 0 => some (.scale m.name 1)
  | delete | rollout | scale (_ + 1) => none

end ClusterOp

namespace Action

instance : Labelled Action where
  kind
    | host op _ => op.kind
    | cluster op _ => op.kind
    | recordRestart _ => .recordRestart
    | resetRestarts _ => .resetRestarts
  module
    | host _ m => m.name
    | cluster _ m => m.name
    | recordRestart name => name
    | resetRestarts name => name
  text
    | host op m => op.text m
    | cluster op m => op.text m
    | recordRestart name => "record restart of " ++ name
    | resetRestarts name => "reset restart count of " ++ name

/-- What is asked of the runtime to take the leaf back, if anything is. -/
def backward : Action → Option Request
  | host op m => op.backward m
  | cluster op m => op.backward m
  | recordRestart _ | resetRestarts _ => none

variable {σ : Type}

/-- Makes a request, unless there is a fault in what it is made from. -/
def ask (h : Host σ) (t : Token) : Except CommandFault Request → Step σ Unit
  | .ok r, s => h.request t r s
  | .error e, s => (.error (.command e), s)

/-- Counts a restart at the present time. -/
def record (h : Host σ) (name : String) : Step σ Unit := fun s =>
  let now := h.now s
  match h.store.putOrUpdate name (.first now) (.record now) s with
  | (.ok _, s) => (.ok (), s)
  | (.error (.store (.unavailable _)), s) => (.ok (), s)
  | (.error e, s) => (.error e, s)

/-- Takes the count of restarts back to none. -/
def reset (h : Host σ) (name : String) : Step σ Unit := fun s =>
  match h.store.update name .reset s with
  | (.ok _, s) => (.ok (), s)
  | (.error (.store (.notFound _)), s) => (.ok (), s)
  | (.error e, s) => (.error e, s)

/-- Does a leaf without a look at the token. -/
def carryOut (h : Host σ) (t : Token) : Action → Step σ Unit
  | host op m, s => ask h t (op.forward m) s
  | cluster op m, s => h.request t (op.forward m) s
  | recordRestart name, s => record h name s
  | resetRestarts name, s => reset h name s

/-- Does a leaf, if its token is not cancelled. -/
def execute (h : Host σ) (t : Token) (a : Action) : Step σ Unit := fun s =>
  match h.ensureLive t (Labelled.module a) s with
  | (.ok (), s) => carryOut h t a s
  | (.error e, s) => (.error e, s)

/-- Takes a leaf back. -/
def undo (h : Host σ) (t : Token) (a : Action) : Step σ Unit := fun s =>
  match a.backward with
  | some r => h.request t r s
  | none => (.ok (), s)

/-- How leaves are done and taken back on a host. -/
def behaviour (h : Host σ) : Behaviour Action σ := ⟨execute h, undo h⟩

end Action
end Steward
