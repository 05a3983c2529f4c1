import TinyIM.Auth.Accounts
import TinyIM.Backend.Services
import TinyIM.Gateway.Dispatch

namespace TinyIM.Backend.Installation

open Auth.Accounts (Answered Columns UserTable)
open Auth.Handshake (onRead)
open Gateway (Codec Effect Session handlePacket onAccept onReadError)
open Gateway.Dispatch (incoming posted)
open Library.ByteOrder Library.Delimited Library.Program Library.Service Protocol Services
open Protocol.WireFormat
open Relation.RelationService (Handler Tables)
open Relation.SocialNetwork (execute inserting)

variable {c : Columns}

/-- `im_user` as the relation service reads it. -/
def nicknamesOf (users : UserTable c) : List (ℤ × Bytes) := users.rows.map fun u ↦ (u.userId, u.nickname)

/-- The call of a backend that a request of a gateway is. -/
def callOf (env : Env) : (m : Rpc) → m.Req → Call
  | .sendMessage, req => .send env req
  | .syncMessages, req => .sync env req
  | .applyFriend, req => .relation (.applyFriend req) env
  | .acceptFriend, req => .relation (.acceptFriend req) env
  | .getFriendList, req => .relation (.getFriendList req) env
  | .createGroup, req => .relation (.createGroup req) env
  | .joinGroup, req => .relation (.joinGroup req) env
  | .getGroupList, req => .relation (.getGroupList req) env
  | .applyGroup, req => .relation (.applyGroup req) env
  | .acceptGroup, req => .relation (.acceptGroup req) env

def answered {α : Type} (slave w : Tables) (p : Handler α) : α := (run (fun _ w q ↦ execute slave w q) 0 w p).value

/-- What a gateway gets for its request. gRPC turns an exception into an error. -/
def answerOf (s : Servers) (env : Env) : (m : Rpc) → m.Req → Status × m.Resp
  | .sendMessage, req => s.sendReply env req
  | .syncMessages, req =>
    match Chat.syncMessages (s.shown env) req with
    | some resp => (none, resp)
    | none => (some (ascii "Unexpected error in RPC handling"), {})
  | .applyFriend, req => answered (env.tables s.tables) s.tables (Relation.RelationService.applyFriend req)
  | .acceptFriend, req => (none, answered (env.tables s.tables) s.tables (Relation.RelationService.acceptFriend req))
  | .getFriendList, req => (none, answered (env.tables s.tables) s.tables (Relation.RelationService.getFriendList req))
  | .createGroup, req => (none, answered (env.tables s.tables) s.tables (Relation.RelationService.createGroup req))
  | .joinGroup, req => (none, answered (env.tables s.tables) s.tables (Relation.RelationService.joinGroup req))
  | .getGroupList, req => (none, answered (env.tables s.tables) s.tables (Relation.RelationService.getGroupList req))
  | .applyGroup, req => (none, answered (env.tables s.tables) s.tables (Relation.RelationService.applyGroup req))
  | .acceptGroup, req => (none, answered (env.tables s.tables) s.tables (Relation.RelationService.acceptGroup req))

section Frame

variable (fails : ℕ → Bool)

/-- No command of `SendMessage` writes a hash of Redis. -/
theorem hashes_of_exec (n : ℕ) (w : Chat.World) (q : Chat.Command) :
    (Chat.Acknowledgement.exec fails n w q).1.redis.hashes = w.redis.hashes := by
  rw [Chat.Acknowledgement.exec, Chat.World.perform]
  split_ifs
  · cases q with
    | insertIndex rows =>
      rw [Chat.World.succeed]
      split <;> rfl
    | _ => rfl
  · rfl

theorem hashes_of_send (w : Chat.World) (req : SendMessageReq) :
    (Chat.Acknowledgement.send fails w req).state.redis.hashes = w.redis.hashes := by
  have hprogram : Meets (permits fun _ ↦ True) (fun _ _ ↦ True) () (Chat.sendMessage req) :=
    meets_of_may fun _ _ ↦ trivial
  have hstep : ∀ (n : ℕ) (w' : Chat.World) (_ : Unit) (q : Chat.Command), True →
      w'.redis.hashes = w.redis.hashes →
      True ∧ (Chat.Acknowledgement.exec fails n w' q).1.redis.hashes = w.redis.hashes :=
    fun n w' _ q _ hsame ↦ ⟨trivial, (hashes_of_exec fails n w' q).trans hsame⟩
  obtain ⟨⟨_, hsame, -⟩, -⟩ := hprogram.run (n := 0)
    (I := fun (w' : Chat.World) _ ↦ w'.redis.hashes = w.redis.hashes) hstep rfl
  exact hsame

theorem nicknames_of_succeed (w : Tables) (q : Relation.RelationService.Command) :
    (w.succeed q).1.nicknames = w.nicknames := by
  have hchange := w.succeed_change q
  generalize (w.succeed q).1 = w' at hchange ⊢
  cases hchange <;> rfl

theorem nicknames_of_inserting {w : Tables} {i : Relation.TextFields.Insert} {insert : Bytes → Tables × Option ℕ}
    (h : ∀ text, (insert text).1.nicknames = w.nicknames) : (inserting w i insert).1.nicknames = w.nicknames := by
  rw [inserting]
  cases i.textRead with
  | none => rfl
  | some text => exact h text

theorem nicknames_of_execute (slave w : Tables) (q : Relation.RelationService.Command) :
    (execute slave w q).1.nicknames = w.nicknames := by
  cases q with
  | friend q =>
    cases q with
    | insertRequest userId friendId remark =>
      exact nicknames_of_inserting fun text ↦ nicknames_of_succeed w (.friend (.insertRequest userId friendId text))
    | _ => exact nicknames_of_succeed w _
  | insertGroup groupName ownerId =>
    exact nicknames_of_inserting fun text ↦ nicknames_of_succeed w (.insertGroup text ownerId)
  | insertGroupRequest groupId userId remark =>
    exact nicknames_of_inserting fun text ↦ nicknames_of_succeed w (.insertGroupRequest groupId userId text)
  | _ => exact nicknames_of_succeed w _

theorem nicknames_of_request (slave w : Tables) (r : Relation.RelationService.Request) :
    (Relation.SocialNetwork.serve w (.request slave r)).1.nicknames = w.nicknames := by
  have hprogram : Meets (permits fun _ ↦ True) (fun _ _ ↦ True) () r.program := meets_of_may fun _ _ ↦ trivial
  have hstep : ∀ (_ : ℕ) (w' : Tables) (_ : Unit) (q : Relation.RelationService.Command), True →
      w'.nicknames = w.nicknames → True ∧ (execute slave w' q).1.nicknames = w.nicknames :=
    fun _ w' _ q _ hsame ↦ ⟨trivial, (nicknames_of_execute slave w' q).trans hsame⟩
  obtain ⟨⟨_, hsame, -⟩, -⟩ := hprogram.run (n := 0)
    (I := fun (w' : Tables) _ ↦ w'.nicknames = w.nicknames) hstep rfl
  exact hsame

variable (env : Env)

theorem frame_of_tell (s : Servers) (notices : List SendMessageReq) :
    (s.tell env notices).chat.redis.hashes = s.chat.redis.hashes ∧ (s.tell env notices).tables = s.tables := by
  induction notices generalizing s with
  | nil => exact ⟨rfl, rfl⟩
  | cons req notices ih =>
    obtain ⟨hhashes, htables⟩ := ih (s.send env req)
    exact ⟨hhashes.trans (hashes_of_send env.fails _ req), htables⟩

/-- A call of a gateway writes neither a hash of Redis nor `im_user`. -/
theorem frame_of_call (s : Servers) (m : Rpc) (req : m.Req) :
    (Servers.serve s (callOf env m req)).1.chat.redis.hashes = s.chat.redis.hashes ∧
      (Servers.serve s (callOf env m req)).1.tables.nicknames = s.tables.nicknames := by
  have hrelation : ∀ r, (Servers.serve s (.relation r env)).1.chat.redis.hashes = s.chat.redis.hashes ∧
      (Servers.serve s (.relation r env)).1.tables.nicknames = s.tables.nicknames := by
    intro r
    obtain ⟨hhashes, htables⟩ := frame_of_tell env (s.relate (s.asked env r))
      (Relation.SocialNetwork.serve s.tables (s.asked env r)).2.2
    exact ⟨hhashes, (congrArg Tables.nicknames htables).trans (nicknames_of_request _ s.tables r)⟩
  cases m with
  | sendMessage => exact ⟨hashes_of_send env.fails (s.asking (env.tables s.tables)) req, rfl⟩
  | syncMessages => exact ⟨rfl, rfl⟩
  | _ =>
    rw [callOf]
    exact hrelation _

end Frame

/-- One MySQL and one Redis with the services over them, and the sessions of
the gateways. -/
structure State (c : Columns) where
  auth : Auth.Accounts.World c
  servers : Servers
  session : ℕ → Option Session
  hashes : servers.chat.redis.hashes = auth.redis.hashes
  nicknames : servers.tables.nicknames = nicknamesOf auth.users

/-- A call of the auth service or time that passes, the clock of MySQL, a
WebSocket handshake, a packet of a session, and the end of its connection. A
gateway knows its port unless `local_endpoint` throws. -/
inductive Event
  | account (call : Auth.Accounts.Call)
  | clock (now : Bytes)
  | connect (i : ℕ) (target : Bytes) (port : Option ℕ)
  | packet (i : ℕ) (p : Packet) (port : Option ℕ) (env : Env)
  | close (i : ℕ)

inductive Outcome
  | account (answered : Answered)
  | packets (msgs : List Bytes)

namespace State

variable (st : State c)

/-- What the auth service has written is what the other services read. -/
def setAuth (w : Auth.Accounts.World c) : State c where
  auth := w
  servers := (st.servers.others w.redis.hashes st.servers.chat.clock).relate (.users (nicknamesOf w.users))
  session := st.session
  hashes := rfl
  nicknames := rfl

def call (env : Env) (m : Rpc) (req : m.Req) : State c where
  auth := st.auth
  servers := (Servers.serve st.servers (callOf env m req)).1
  session := st.session
  hashes := (frame_of_call env st.servers m req).1.trans st.hashes
  nicknames := (frame_of_call env st.servers m req).2.trans st.nicknames

def setClock (now : Bytes) : State c where
  auth := st.auth
  servers := st.servers.others st.auth.redis.hashes now
  session := st.session
  hashes := rfl
  nicknames := st.nicknames

def setSession (i : ℕ) (s : Option Session) : State c :=
  { st with session := Function.update st.session i s }

/-- `RedisClient` hands C strings to Redis. No backend sees a `ConnectionManager`. -/
def perform (env : Env) (st : State c) : Effect → State c
  | .call m req => st.call env m req
  | .hset key field value =>
    st.setAuth { st.auth with redis := st.auth.redis.hset (cString key) (cString field) (cString value) }
  | .hdel key field =>
    let r := st.auth.redis.hdel (cString key) (cString field)
    st.setAuth { st.auth with
      redis := r
      deadlines := Auth.Accounts.World.settle r st.auth.deadlines (cString key) }
  | .send _ | .join _ | .leave _ => st

variable (e : Endian) (pb : Codec)

/-- The services and the gateways as they are. -/
def serve : Server (State c) Event Outcome
  | st, .account call =>
    (st.setAuth (Auth.Accounts.serve st.auth call).1, .account (Auth.Accounts.serve st.auth call).2)
  | st, .clock now => (st.setClock now, .packets [])
  | st, .connect i target port =>
    match st.session i, onRead st.auth.redis target with
    | none, some s =>
      ((onAccept s port).foldl (perform .calm) (st.setSession i (some s)), .packets [])
    | _, _ => (st, .packets [])
  | st, .packet i p port env =>
    match st.session i with
    | some s =>
      let o := handlePacket e pb ⟨answerOf st.servers env, port⟩ s p
      (o.effects.foldl (perform env) (st.setSession i (some o.session)), .packets (posted o.effects))
    | none => (st, .packets [])
  | st, .close i =>
    match st.session i with
    | some s => ((onReadError s).foldl (perform .calm) (st.setSession i none), .packets [])
    | none => (st, .packets [])

variable {e pb} {st}

@[simp] theorem session_setSession (i : ℕ) (s : Option Session) :
    (st.setSession i s).session = Function.update st.session i s := rfl

@[simp] theorem auth_account (call : Auth.Accounts.Call) :
    (serve e pb st (.account call)).1.auth = (Auth.Accounts.serve st.auth call).1 := rfl

@[simp] theorem session_account (call : Auth.Accounts.Call) :
    (serve e pb st (.account call)).1.session = st.session := rfl

theorem serve_connect {i : ℕ} {target : Bytes} {s : Session} (hfree : st.session i = none)
    (hs : onRead st.auth.redis target = some s) (port : Option ℕ) :
    serve e pb st (.connect i target port) =
      ((onAccept s port).foldl (perform .calm) (st.setSession i (some s)), .packets []) := by
  rw [serve, hfree, hs]

theorem serve_packet {i : ℕ} {s : Session} (hs : st.session i = some s) (p : Packet) (port : Option ℕ)
    (env : Env) :
    serve e pb st (.packet i p port env) =
      ((handlePacket e pb ⟨answerOf st.servers env, port⟩ s p).effects.foldl (perform env)
          (st.setSession i (some (handlePacket e pb ⟨answerOf st.servers env, port⟩ s p).session)),
        .packets (posted (handlePacket e pb ⟨answerOf st.servers env, port⟩ s p).effects)) := by
  rw [serve, hs]

theorem serve_packet_none {i : ℕ} (hs : st.session i = none) (p : Packet) (port : Option ℕ) (env : Env) :
    serve e pb st (.packet i p port env) = (st, .packets []) := by
  rw [serve, hs]

/-- Before the first user registers. -/
def start (clock : Bytes) : State c where
  auth := .start
  servers := .start (fun _ ↦ ∅) clock
  session _ := none
  hashes := rfl
  nicknames := rfl

@[simp] theorem auth_start (clock : Bytes) : (start clock : State c).auth = .start := rfl

end State

/-- The backend request of a packet, in the name of the user of the session. -/
def requestOf (pb : Codec) (s : Session) (p : Packet) : Option (Σ m : Rpc, m.Req) :=
  match Gateway.Dispatch.Request.ofCmd p.cmdId with
  | some (.rpc m) => (incoming pb m p.body).map fun req ↦ ⟨m, m.setActingId s.userId req⟩
  | _ => none

/-- Texts that stand in a statement as they are, slaves that are up to date, and a
`SendMessage` that is complete or lost before it stores a body. -/
def Sound (pb : Codec) (st : State c) : Event → Prop
  | .account call => Auth.Accounts.Sound st.auth call
  | .packet i p _ env => ∀ s x, st.session i = some s → requestOf pb s p = some x →
    Services.Sound st.servers (callOf env x.1 x.2)
  | _ => True

end TinyIM.Backend.Installation
