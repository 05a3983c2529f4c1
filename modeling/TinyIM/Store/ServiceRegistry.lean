import Mathlib.Data.List.AList
import TinyIM.Library.Delimited
import TinyIM.Library.Journal
import TinyIM.Library.RoundRobin
import TinyIM.Protocol.Packet

namespace TinyIM.Store.ServiceRegistry

open Library.ByteOrder Library.Delimited Library.Journal Library.Program Library.RoundRobin Protocol

/-- A key of Redis has a string, or a value of another type. -/
abbrev Keyspace := AList fun _ : Bytes ↦ Option Bytes

/-- Redis, `observed_services_`, `cache_` and `rr_index_`. -/
structure World where
  redis : Keyspace
  observed : List Bytes
  cache : Bytes → Option (List Bytes)
  rrIndex : Bytes → ℕ

def start (redis : Keyspace) : World := ⟨redis, [], fun _ ↦ none, fun _ ↦ 0⟩

/-- The critical sections of `ServiceRegistry` and its operations on Redis. -/
inductive Command
  | observe (serviceName : Bytes)
  | copyTargets
  | keys (pattern : Bytes)
  | get (key : Bytes)
  | updateCache (serviceName : Bytes) (addresses : List Bytes)
  | readCache (serviceName : Bytes)
  | roundRobin (serviceName : Bytes) (addresses : List Bytes)
  deriving DecidableEq, Repr

/-- `roundRobin` answers the position that it reads. -/
abbrev Answer : Command → Type
  | .observe _ => Unit
  | .copyTargets => List Bytes
  | .keys _ => List Bytes
  | .get _ => Bytes
  | .updateCache _ _ => Unit
  | .readCache _ => List Bytes
  | .roundRobin _ _ => ℕ

abbrev Handler := Prog Command Answer

abbrev ask (c : Command) : Handler (Answer c) := Prog.perform c

def servicePrefix (serviceName : Bytes) : Bytes := ascii "im:service:" ++ serviceName ++ ascii ":"

def pattern (serviceName : Bytes) : Bytes := servicePrefix serviceName ++ ascii "*"

def getAll : List Bytes → Handler (List Bytes)
  | [] => return []
  | key :: keys => do
    let val ← ask (.get key)
    let addresses ← getAll keys
    if val = [] then return addresses else return val :: addresses

def query (serviceName : Bytes) : Handler (List Bytes) := do
  let keys ← ask (.keys (pattern serviceName))
  getAll keys

def refreshAll : List Bytes → Handler Unit
  | [] => return ()
  | serviceName :: targets => do
    let addresses ← query serviceName
    ask (.updateCache serviceName addresses)
    refreshAll targets

def refreshCache : Handler Unit := do
  let targets ← ask .copyTargets
  refreshAll targets

/-- `none` is a read beyond the bounds of `addresses`. -/
def select (serviceName : Bytes) (addresses : List Bytes) : Handler (Option Bytes) :=
  if addresses = [] then return some []
  else do
    let idx ← ask (.roundRobin serviceName addresses)
    return addresses[idx]?

def discover (serviceName : Bytes) : Handler (Option Bytes) := do
  let cached ← ask (.readCache serviceName)
  if cached = [] then
    let addresses ← query serviceName
    select serviceName addresses
  else select serviceName cached

inductive Request
  | observe (serviceName : Bytes)
  | refreshCache
  | discover (serviceName : Bytes)
  deriving DecidableEq, Repr

inductive Outcome
  | observed
  | refreshed
  | discovered (selected : Option Bytes)
  deriving DecidableEq, Repr

def Request.program : Request → Handler Outcome
  | observe serviceName => do
    ask (.observe serviceName)
    return .observed
  | refreshCache => do
    ServiceRegistry.refreshCache
    return .refreshed
  | discover serviceName => do return .discovered (← ServiceRegistry.discover serviceName)

section Exec

-- which keys a pattern selects
variable (glob : Bytes → Bytes → Bool)

namespace World

variable (w : World)

def keys (pattern : Bytes) : List Bytes :=
  (w.redis.keys.filter fun key ↦ glob (cString pattern) key).map cString

def get (key : Bytes) : Bytes := (w.redis.lookup (cString key)).join.elim [] cString

def succeed : (c : Command) → World × Answer c
  | .observe serviceName =>
    (if serviceName ∈ w.observed then w else { w with observed := w.observed ++ [serviceName] }, ())
  | .copyTargets => (w, w.observed)
  | .keys pattern => (w, w.keys glob pattern)
  | .get key => (w, w.get key)
  | .updateCache serviceName addresses =>
    ({ w with cache := Function.update w.cache serviceName (some addresses) }, ())
  | .readCache serviceName => (w, (w.cache serviceName).getD [])
  | .roundRobin serviceName addresses =>
    let idx := w.rrIndex serviceName
    ({ w with rrIndex := Function.update w.rrIndex serviceName (advance idx addresses.length) },
      position idx addresses.length)

/-- `Keys` and `Get` answer nothing when Redis does not reply. -/
def exec (ok : Bool) : (c : Command) → World × Answer c
  | .keys pattern => if ok then w.succeed glob (.keys pattern) else (w, [])
  | .get key => if ok then w.succeed glob (.get key) else (w, [])
  | c => w.succeed glob c

end World

end Exec

/-- Registrations come and expire. -/
def register (redis : Keyspace) (w : World) : Option World := some { w with redis := redis }

end TinyIM.Store.ServiceRegistry
