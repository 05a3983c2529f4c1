import Mathlib.Data.List.AList
import TinyIM.Library.Decimal
import TinyIM.Library.Delimited
import TinyIM.Library.Program
import TinyIM.Protocol.Packet

namespace TinyIM.Store.RedisClient

open Library.ByteOrder Library.Decimal Library.Delimited Library.Program Protocol

/-- A `redisReply`. The `str` of an element may be null. -/
inductive Reply
  | string (str : Bytes)
  | array (elements : List (Option Bytes))
  | integer (n : ℤ)
  | nil
  | status (str : Bytes)
  | error (str : Bytes)
  deriving DecidableEq, Repr

/-- What a thread asks of `pool_` and of hiredis, with a number for each
`redisContext*`. -/
inductive Command
  | popBack
  | redisConnect
  | redisCommand (ctx : ℕ) (args : List Bytes)
  | pushBack (ctx : ℕ)
  deriving DecidableEq, Repr

/-- `popBack` answers `none` when the pool is empty, `redisConnect` and
`redisCommand` when they fail. -/
abbrev Answer : Command → Type
  | .popBack => Option ℕ
  | .redisConnect => Option ℕ
  | .redisCommand _ _ => Option Reply
  | .pushBack _ => Unit

abbrev Handler := Prog Command Answer

abbrev ask (c : Command) : Handler (Answer c) := Prog.perform c

def getContext : Handler (Option ℕ) := do
  let popped ← ask .popBack
  match popped with
  | some ctx => return some ctx
  -- the mutex is free again; a context with an error is freed at once
  | none => ask .redisConnect

def releaseContext : Option ℕ → Handler Unit
  | none => return ()
  | some ctx => ask (.pushBack ctx)

variable {α : Type}

/-- A `RedisConn` in a scope of its own. -/
def withConn (body : Option ℕ → Handler α) : Handler α := do
  let conn ← getContext
  let a ← body conn
  releaseContext conn
  return a

/-- What all operations do: `unavailable` is what they return without a
context, and `result` what they make of the reply. -/
def operation (args : List Bytes) (unavailable : α) (result : Option Reply → α) : Handler α :=
  withConn fun conn ↦
    match conn with
    | none => return unavailable
    | some ctx => do
      let reply ← ask (.redisCommand ctx args)
      return result reply

def set (key value : Bytes) : Handler Bool :=
  operation [ascii "SET", cString key, cString value] false fun
    | none => false
    | some (.error _) => false
    | some _ => true

def setEx (key value : Bytes) (seconds : ℤ) : Handler Bool :=
  operation [ascii "SET", cString key, cString value, ascii "EX", stdToString seconds] false fun
    | some (.status str) => cString str = ascii "OK"
    | _ => false

def keys (pattern : Bytes) : Handler (List Bytes) :=
  operation [ascii "KEYS", cString pattern] [] fun
    | some (.array elements) => (elements.filterMap id).map cString
    | _ => []

def textOf : Option Reply → Bytes
  | some (.string str) => cString str
  | _ => []

def get (key : Bytes) : Handler Bytes := operation [ascii "GET", cString key] [] textOf

def del (key : Bytes) : Handler Bool := operation [ascii "DEL", cString key] false Option.isSome

def exists? (key : Bytes) : Handler Bool :=
  operation [ascii "EXISTS", cString key] false fun reply ↦ reply = some (.integer 1)

-- the only one that does not look at the reply
def expire (key : Bytes) (seconds : ℤ) : Handler Bool :=
  operation [ascii "EXPIRE", cString key, stdToString seconds] false fun _ ↦ true

def hset (key field value : Bytes) : Handler Bool :=
  operation [ascii "HSET", cString key, cString field, cString value] false Option.isSome

def hget (key field : Bytes) : Handler Bytes :=
  operation [ascii "HGET", cString key, cString field] [] textOf

def hdel (key field : Bytes) : Handler Bool :=
  operation [ascii "HDEL", cString key, cString field] false Option.isSome

abbrev Hash := AList fun _ : Bytes ↦ Bytes

/-- A later field of the same name replaces the earlier one. -/
def pairs (h : Hash) : List (Option Bytes) → Hash
  | some field :: some value :: elements => pairs (h.insert (cString field) (cString value)) elements
  | _ :: _ :: elements => pairs h elements
  | _ => h

def hgetall (key : Bytes) : Handler Hash :=
  operation [ascii "HGETALL", cString key] ∅ fun
    | some (.array elements) => pairs ∅ elements
    | _ => ∅

def publish (channel message : Bytes) : Handler Bool :=
  operation [ascii "PUBLISH", cString channel, cString message] false Option.isSome

/-- The `INCR` of `SendMessage`, on a `RedisConn` of its own. -/
def incr (seqKey : Bytes) : Option ℕ → Handler ℤ
  | none => return 0
  | some ctx => do
    let reply ← ask (.redisCommand ctx [ascii "INCR", cString seqKey])
    match reply with
    | some (.integer n) => return n
    | _ => return 0

/-- The part of a single-chat `SendMessage` that lies in the scope of its
`redis_conn`; `inserted` is what became of the index row. -/
def sendSingle (seqKey statusKey : Bytes) (inserted : Bool) : Handler Unit :=
  withConn fun conn ↦ do
    let _seq ← incr seqKey conn
    if inserted then
      let online ← exists? statusKey
      if online then
        let _locations ← hgetall statusKey
        return ()
      else return ()
    else return ()

/-- Contexts are used and given back by who holds them; `held` are those of the
live `RedisConn`s. -/
def borrowing : Contract Command Answer (List ℕ) where
  may held
    | .redisCommand ctx _ => ctx ∈ held
    | .pushBack ctx => ctx ∈ held
    | _ => True
  answers _ _ _ := True
  after held
    | .popBack, popped => popped.toList ++ held
    | .redisConnect, connected => connected.toList ++ held
    | .redisCommand _ _, _ => held
    | .pushBack ctx, _ => held.erase ctx

/-- A program that leaves the contexts that it holds as they were. -/
def Restores (p : Handler α) : Prop :=
  ∀ held, Meets borrowing (fun held' _ ↦ held' = held) held p

/-- A thread that gets its contexts through `RedisConn`s. -/
structure Use where
  program : Handler Unit
  restores : Restores program

section Restores

variable {β : Type} {held : List ℕ}

theorem getContext_meets :
    Meets borrowing (fun held' conn ↦ held' = conn.toList ++ held) held getContext := by
  refine meets_perform_bind.mpr ⟨trivial, ?_⟩
  intro popped _
  cases popped with
  | some ctx => exact rfl
  | none => exact ⟨trivial, fun _ _ ↦ rfl⟩

theorem releaseContext_meets (conn : Option ℕ) :
    Meets borrowing (fun held' _ ↦ held' = held) (conn.toList ++ held) (releaseContext conn) := by
  cases conn with
  | none => exact rfl
  | some ctx => exact ⟨List.mem_cons_self, fun _ _ ↦ List.erase_cons_head ctx held⟩

theorem restores_return (a : α) : Restores (return a : Handler α) := fun _ ↦ rfl

theorem Restores.bind {p : Handler α} {f : α → Handler β} (hp : Restores p) (hf : ∀ a, Restores (f a)) :
    Restores (p >>= f) := by
  intro held
  refine meets_bind.mpr ((hp held).mono ?_)
  intro held' a heq
  obtain rfl := heq
  exact hf a held'

/-- The destructor gives back what the constructor has got. -/
theorem withConn_restores {body : Option ℕ → Handler α}
    (h : ∀ conn held, Meets borrowing (fun held' _ ↦ held' = conn.toList ++ held) (conn.toList ++ held) (body conn)) :
    Restores (withConn body) := by
  intro held
  refine meets_bind.mpr (getContext_meets.mono ?_)
  intro held₁ conn heq
  obtain rfl := heq
  refine meets_bind.mpr ((h conn held).mono ?_)
  intro held₂ a heq
  obtain rfl := heq
  refine meets_bind.mpr ((releaseContext_meets conn).mono ?_)
  intro held₃ _ heq
  exact heq

theorem operation_restores (args : List Bytes) (unavailable : α) (result : Option Reply → α) :
    Restores (operation args unavailable result) := by
  refine withConn_restores ?_
  intro conn held
  cases conn with
  | none => exact rfl
  | some ctx => exact ⟨List.mem_cons_self, fun _ _ ↦ rfl⟩

theorem incr_meets (seqKey : Bytes) (conn : Option ℕ) :
    Meets borrowing (fun held' _ ↦ held' = conn.toList ++ held) (conn.toList ++ held) (incr seqKey conn) := by
  cases conn with
  | none => exact rfl
  | some ctx =>
    refine meets_perform_bind.mpr ⟨List.mem_cons_self, ?_⟩
    intro reply _
    split <;> exact rfl

theorem sendSingle_restores (seqKey statusKey : Bytes) (inserted : Bool) :
    Restores (sendSingle seqKey statusKey inserted) := by
  refine withConn_restores ?_
  intro conn held
  refine meets_bind.mpr ((incr_meets seqKey conn).mono ?_)
  intro held' _ heq
  obtain rfl := heq
  split
  · refine Restores.bind (operation_restores _ _ _) ?_ _
    intro online
    split
    · exact (operation_restores _ _ _).bind fun _ ↦ restores_return ()
    · exact restores_return ()
  · exact rfl

end Restores

/-- The operations of `RedisClient` and the direct uses in `SendMessage`. -/
inductive Request
  | set (key value : Bytes)
  | setEx (key value : Bytes) (seconds : ℤ)
  | keys (pattern : Bytes)
  | get (key : Bytes)
  | del (key : Bytes)
  | exists? (key : Bytes)
  | expire (key : Bytes) (seconds : ℤ)
  | hset (key field value : Bytes)
  | hget (key field : Bytes)
  | hdel (key field : Bytes)
  | hgetall (key : Bytes)
  | publish (channel message : Bytes)
  | nextSeq (seqKey : Bytes)
  | sendSingle (seqKey statusKey : Bytes) (inserted : Bool)

def Request.program : Request → Handler Unit
  | set key value => do let _ok ← RedisClient.set key value
  | setEx key value seconds => do let _ok ← RedisClient.setEx key value seconds
  | keys pattern => do let _keys ← RedisClient.keys pattern
  | get key => do let _value ← RedisClient.get key
  | del key => do let _ok ← RedisClient.del key
  | exists? key => do let _found ← RedisClient.exists? key
  | expire key seconds => do let _ok ← RedisClient.expire key seconds
  | hset key field value => do let _ok ← RedisClient.hset key field value
  | hget key field => do let _value ← RedisClient.hget key field
  | hdel key field => do let _ok ← RedisClient.hdel key field
  | hgetall key => do let _hash ← RedisClient.hgetall key
  | publish channel message => do let _ok ← RedisClient.publish channel message
  | nextSeq seqKey => do let _seq ← withConn (incr seqKey)
  | sendSingle seqKey statusKey inserted => RedisClient.sendSingle seqKey statusKey inserted

theorem Request.program_restores (r : Request) : Restores r.program := by
  cases r with
  | nextSeq seqKey =>
    exact (withConn_restores fun conn held ↦ incr_meets seqKey conn).bind fun _ ↦ restores_return ()
  | sendSingle seqKey statusKey inserted => exact sendSingle_restores seqKey statusKey inserted
  | _ => exact (operation_restores _ _ _).bind fun _ ↦ restores_return ()

def Request.use (r : Request) : Use := ⟨r.program, r.program_restores⟩

end TinyIM.Store.RedisClient
