import Mathlib.Logic.Function.Basic
import TinyIM.Library.ByteOrder

namespace TinyIM.Store.ConnectionPool

open Library.ByteOrder

/-- The members of `DBPool` come in pairs. -/
inductive Role
  | master
  | slave
  deriving DecidableEq, Repr

/-- A `MYSQL*`, with the host it was connected to. -/
structure Conn where
  id : ℕ
  host : Bytes
  deriving DecidableEq, Repr

structure Pool where
  queue : List Conn := []
  active : ℤ := 0
  deriving DecidableEq, Repr

/-- A `shared_ptr` that was returned: where the connection came from, and whose
release function its deleter calls. -/
structure Lease where
  conn : Conn
  takenFrom : Role
  deleter : Role
  deriving DecidableEq, Repr

/-- A call in `wait_for`. A `GetWriteConnection` that `GetReadConnection` makes
after its own wait holds `slave_mtx_`. -/
inductive Waiting
  | write (holdsSlave : Bool)
  | read
  deriving DecidableEq, Repr

structure PoolConfig where
  masterHost : Bytes
  slaveHosts : List Bytes
  maxConns : ℤ
  deriving DecidableEq, Repr

structure DBPool extends PoolConfig where
  pools : Role → Pool
  lent : List Lease
  waiting : List Waiting

/-- What the calls of `CreateConnection`, `mysql_ping` and the random engine give
in one critical section. -/
structure Outcomes where
  connect : Option ℕ := none
  host : ℕ := 0
  ping : Bool := true
  reconnect : Option ℕ := none
  reconnectHost : ℕ := 0
  deriving DecidableEq, Repr

inductive Reply
  | returns (lease : Option Lease)
  | waits
  deriving DecidableEq, Repr

namespace DBPool

variable (s : DBPool)

def live : List ℕ :=
  ((s.pools .master).queue ++ (s.pools .slave).queue ++ s.lent.map Lease.conn).map Conn.id

def setPool (role : Role) (p : Pool) : DBPool := { s with pools := Function.update s.pools role p }

/-- A new connection has a pointer of its own; `none` if `id` is in use. -/
def createConnection (host : Bytes) (id : ℕ) : Option Conn :=
  if id ∈ s.live then none else some ⟨id, host⟩

/-- A connection of the pool `role`, returned with a deleter. -/
def lend (role deleter : Role) (conn : Conn) : DBPool × Reply :=
  ({ s with lent := s.lent ++ [⟨conn, role, deleter⟩] }, .returns (some ⟨conn, role, deleter⟩))

/-- The pop, the ping check and the reconnect. -/
def takeFront (role deleter : Role) (host : Bytes) (o : Outcomes) : Option (DBPool × Reply) :=
  match (s.pools role).queue with
  | [] => none
  | conn :: rest =>
    let s := s.setPool role { s.pools role with queue := rest }
    if o.ping then some (s.lend role deleter conn)
    else
      match o.reconnect with
      | some id => (s.createConnection host id).map fun conn ↦ s.lend role deleter conn
      | none =>
        some (s.setPool role { s.pools role with active := (s.pools role).active - 1 },
          .returns none)

/-- The part of both functions before the wait. -/
def acquire (role deleter : Role) (host reconnectHost : Bytes) (o : Outcomes)
    (wait : Waiting) : Option (DBPool × Reply) :=
  let blocked := ({ s with waiting := s.waiting ++ [wait] }, Reply.waits)
  if (s.pools role).queue = [] then
    if (s.pools role).active < s.maxConns then
      match o.connect with
      | some id =>
        (s.createConnection host id).map fun conn ↦
          (s.setPool role { s.pools role with active := (s.pools role).active + 1 }).lend role
            deleter conn
      | none => some blocked
    else some blocked
  else s.takeFront role deleter reconnectHost o

def getWriteConnection (o : Outcomes) (holdsSlave : Bool) : Option (DBPool × Reply) :=
  s.acquire .master .master s.masterHost s.masterHost o (.write holdsSlave)

/-- Whether `slave_mtx_` can be locked. -/
def slaveFree : Prop := .write true ∉ s.waiting

instance : Decidable s.slaveFree := inferInstanceAs (Decidable (_ ∉ _))

/-- `none` while the mutex is locked, or when an outcome is not possible. -/
def getReadConnection (o : Outcomes) : Option (DBPool × Reply) :=
  if s.slaveHosts = [] then s.getWriteConnection o false
  else if s.slaveFree then
    s.slaveHosts[o.host]?.bind fun host ↦
      s.slaveHosts[o.reconnectHost]?.bind fun reconnectHost ↦
        s.acquire .slave .slave host reconnectHost o .read
  else none

def stopWaiting (i : ℕ) : DBPool := { s with waiting := s.waiting.eraseIdx i }

/-- The wait of call `i` ends with a connection in the queue. -/
def wake (i : ℕ) (o : Outcomes) : Option (DBPool × Reply) :=
  match s.waiting[i]? with
  | some (.write _) => (s.stopWaiting i).takeFront .master .master s.masterHost o
  | some .read =>
    if s.slaveFree then
      s.slaveHosts[o.reconnectHost]?.bind fun host ↦ (s.stopWaiting i).takeFront .slave .slave host o
    else none
  | none => none

/-- The wait of call `i` times out. A read goes on to the master, with the
mutex of the slaves locked. -/
def timeout (i : ℕ) (o : Outcomes) : Option (DBPool × Reply) :=
  match s.waiting[i]? with
  | some (.write _) =>
    if (s.pools .master).queue = [] then some (s.stopWaiting i, .returns none) else none
  | some .read =>
    if s.slaveFree ∧ (s.pools .slave).queue = [] then
      (s.stopWaiting i).getWriteConnection o true
    else none
  | none => none

/-- `ReleaseMasterConnection` or `ReleaseSlaveConnection`. -/
def release (i : ℕ) : Option DBPool :=
  s.lent[i]?.bind fun lease ↦
    if lease.deleter = .slave ∧ ¬ s.slaveFree then none
    else
      let s := { s with lent := s.lent.eraseIdx i }
      some (s.setPool lease.deleter
        { s.pools lease.deleter with queue := (s.pools lease.deleter).queue ++ [lease.conn] })

/-- One connection that `Init` makes. -/
def preCreate (role : Role) (host : Bytes) : Option ℕ → Option DBPool
  | none => some s
  | some id =>
    (s.createConnection host id).map fun conn ↦
      s.setPool role
        { queue := (s.pools role).queue ++ [conn], active := (s.pools role).active + 1 }

def preCreateAll (role : Role) : DBPool → List (Bytes × Option ℕ) → Option DBPool
  | s, [] => some s
  | s, (host, id) :: rest => (s.preCreate role host id).bind fun s ↦ preCreateAll role s rest

end DBPool

/-- `Init`. The results of `CreateConnection` come in the order of its calls:
two for the master, and one for each slave. -/
def DBPool.init (config : PoolConfig) (first second : Option ℕ) (connects : ℕ → Option ℕ) :
    Option DBPool :=
  let s : DBPool := ⟨config, fun _ ↦ {}, [], []⟩
  (preCreateAll .master s [(config.masterHost, first), (config.masterHost, second)]).bind fun s ↦
    preCreateAll .slave s (config.slaveHosts.zipIdx.map fun x ↦ (x.1, connects x.2))

namespace DBPool

inductive Action
  | getWrite (o : Outcomes)
  | getRead (o : Outcomes)
  | wake (i : ℕ) (o : Outcomes)
  | timeout (i : ℕ) (o : Outcomes)
  | release (i : ℕ)
  deriving DecidableEq, Repr

/-- What the threads do, one critical section at a time. -/
def step (s : DBPool) : Action → Option DBPool
  | .getWrite o => (s.getWriteConnection o false).map Prod.fst
  | .getRead o => (s.getReadConnection o).map Prod.fst
  | .wake i o => (s.wake i o).map Prod.fst
  | .timeout i o => (s.timeout i o).map Prod.fst
  | .release i => s.release i

end DBPool

end TinyIM.Store.ConnectionPool
