import TinyIM.Library.Decimal
import TinyIM.Library.Leases
import TinyIM.Store.Discovery

namespace TinyIM.Dispatch.ServiceDiscovery

open Library.ByteOrder Library.Decimal Library.Delimited Library.Interleaving Library.Journal Library.Leases
  Library.Program Protocol
open Store.ServiceRegistry (servicePrefix pattern)
open Store.Discovery (Plain Literal)

/-- Redis with the string keys that services announce themselves by, the clock
in milliseconds, and `gateway_list_` of the dispatch service. -/
structure World where
  now : ℕ
  redis : List (Lease Bytes Bytes)
  gatewayList : List Bytes

def start : World := ⟨0, [], []⟩

/-- The operations of `ServiceRegistry` and `ServiceDiscovery` on Redis, and
the critical sections under `rw_mtx_`. -/
inductive Command
  | setEx (key value : Bytes) (seconds : ℕ)
  | keys (pattern : Bytes)
  | get (key : Bytes)
  | storeGateways (newList : List Bytes)
  | pickGateway
  deriving DecidableEq, Repr

abbrev Answer : Command → Type
  | .setEx _ _ _ => Bool
  | .keys _ => List Bytes
  | .get _ => Bytes
  | .storeGateways _ => Unit
  | .pickGateway => Bytes

abbrev Handler := Prog Command Answer

abbrev ask (c : Command) : Handler (Answer c) := Prog.perform c

def value (ip : Bytes) (port : ℤ) : Bytes := ip ++ ascii ":" ++ stdToString port

def serviceKey (serviceName ip : Bytes) (port : ℤ) : Bytes :=
  ascii "im:service:" ++ serviceName ++ ascii ":" ++ ip ++ ascii ":" ++ stdToString port

/-- The end of `ServiceRegistry::Register`, and one turn of `HeartbeatLoop`. -/
def renew (serviceName ip : Bytes) (port : ℤ) : Handler Unit := do
  let _stored ← ask (.setEx (serviceKey serviceName ip port) (value ip port) 10)
  return ()

def fetchAll : List Bytes → Handler (List Bytes)
  | [] => return []
  | key :: keys => do
    let addr ← ask (.get key)
    let newList ← fetchAll keys
    if addr = [] then return newList else return addr :: newList

/-- An empty list is stored by `clear`. -/
def updateGateways : Handler Unit := do
  let result ← ask (.keys (pattern (ascii "gateway")))
  let newList ← fetchAll result
  ask (.storeGateways newList)

def getRandomGateway : Handler Bytes := ask .pickGateway

inductive Request
  | renew (serviceName ip : Bytes) (port : ℤ)
  | updateGateways
  | getRandomGateway
  deriving DecidableEq, Repr

inductive Outcome
  | renewed
  | updated
  | picked (addr : Bytes)
  deriving DecidableEq, Repr

def Request.program : Request → Handler Outcome
  | .renew serviceName ip port => do
    ServiceDiscovery.renew serviceName ip port
    return .renewed
  | .updateGateways => do
    ServiceDiscovery.updateGateways
    return .updated
  | .getRandomGateway => do return .picked (← ServiceDiscovery.getRandomGateway)

/-- Whether Redis answers, and what the random engine draws. -/
structure Env where
  ok : Bool := true
  drawn : ℕ := 0

/-- Time passes, or Redis loses a key. -/
inductive Event
  | pass (milliseconds : ℕ)
  | lose (key : Bytes)

section Exec

-- which keys a pattern selects
variable (glob : Bytes → Bytes → Bool)

namespace World

variable (w : World)

def keys (pattern : Bytes) : List Bytes :=
  ((held w.now w.redis).filter fun key ↦ glob (cString pattern) key).map cString

def get (key : Bytes) : Bytes := (read w.now (cString key) w.redis).elim [] cString

def setEx (key value : Bytes) (seconds : ℕ) : World :=
  { w with redis := grant w.now (1000 * seconds) (cString key) (cString value) w.redis }

/-- The empty string when there is no gateway. -/
def pickGateway (drawn : ℕ) : Bytes := (w.gatewayList[drawn % w.gatewayList.length]?).getD []

def exec (env : Env) : (c : Command) → World × Answer c
  | .setEx key value seconds => if env.ok then (w.setEx key value seconds, true) else (w, false)
  | .keys pattern => (w, if env.ok then w.keys glob pattern else [])
  | .get key => (w, if env.ok then w.get key else [])
  | .storeGateways newList => ({ w with gatewayList := newList }, ())
  | .pickGateway => (w, w.pickGateway env.drawn)

end World

end Exec

def outside : Event → World → Option World
  | .pass milliseconds, w => some { w with now := w.now + milliseconds }
  | .lose key, w => some { w with redis := drop key w.redis }

abbrev Record := Entry Command Answer World

abbrev DiscoveryCalls := Calls Command Answer Outcome World Request

abbrev system (glob : Bytes → Bytes → Bool) :
    System Command Answer Outcome (List (Exchange Command Answer)) (Recorded Command Answer World)
      Request Env Event :=
  recorded Request.program (fun env w ↦ w.exec glob env) outside

/-- Call `i` read the address of a gateway that had announced it less than ten
seconds before. -/
def Announced (past : List Record) (i : ℕ) (addr : Bytes) : Prop :=
  ∃ before reading, before ++ [reading] <+: past ∧ reading.call = i ∧ ∃ key,
    reading.exchange = ⟨.get key, addr⟩ ∧ servicePrefix (ascii "gateway") <+: key ∧
    ∃ announcing ∈ before, ∃ key' value', announcing.exchange = ⟨.setEx key' value' 10, true⟩ ∧
      cString key' = key ∧ cString value' = addr ∧
      announcing.before.now ≤ reading.before.now ∧ reading.before.now < announcing.before.now + 10000

/-- The last list stored in `past` is `newList`, by call `i`. -/
def LastStored (past before : List Record) (i : ℕ) (newList : List Bytes) : Prop :=
  ∃ stored since, past = before ++ stored :: since ∧ stored.call = i ∧
    stored.exchange.1 = .storeGateways newList ∧ ∀ e ∈ since, ∀ l, e.exchange.1 ≠ .storeGateways l

end TinyIM.Dispatch.ServiceDiscovery
