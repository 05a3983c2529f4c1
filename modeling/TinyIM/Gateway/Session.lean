import TinyIM.Library.Decimal
import TinyIM.Protocol.Messages
import TinyIM.Protocol.WireFormat

namespace TinyIM.Gateway

open Library.ByteOrder Library.Decimal Protocol Protocol.WireFormat

/-- What protobuf generates for the messages a session reads and writes. -/
structure Codec where
  parse : (m : Rpc) → Bytes → Option m.Req
  serialize : (m : Rpc) → m.Resp → Bytes
  parseLogin : Bytes → Option LoginReq
  serializeLogin : LoginResp → Bytes

/-- What a session meets while it handles one packet: how the backends answer,
and its local port unless `local_endpoint` throws. -/
structure Surroundings where
  call : (m : Rpc) → m.Req → Status × m.Resp
  localEndpoint : Option ℕ

structure Session where
  userId : ℤ
  device : Bytes
  deriving DecidableEq, Repr

/-- What a handler does outside its session: RPCs, packets for the client,
`ConnectionManager` and Redis. -/
inductive Effect
  | call (m : Rpc) (req : m.Req)
  | send (msg : Bytes)
  | join (userId : ℤ)
  | leave (userId : ℤ)
  | hset (key field value : Bytes)
  | hdel (key field : Bytes)

structure Outcome where
  session : Session
  effects : List Effect

def grpcAddr (port : ℕ) : Bytes := ascii "127.0.0.1:" ++ stdToString (port + 10000)

def locationKey (userId : ℤ) : Bytes := ascii "im:location:" ++ stdToString userId

def sessionKey (userId : ℤ) : Bytes := ascii "im:session:" ++ stdToString userId

variable (e : Endian) (pb : Codec) (out : Surroundings) (s : Session)

def reply (cmd : CommandID) (body : Bytes) : Effect := .send (sendPacket e cmd.value body)

/-- The acting id of the request is overridden, the backend is called and the
client gets `answer` of what came back. -/
def forward (m : Rpc) (resp : CommandID) (answer : Status × m.Resp → m.Resp) (req : m.Req) :
    Outcome :=
  let req := m.setActingId s.userId req
  ⟨s, [.call m req, reply e resp (pb.serialize m (answer (out.call m req)))]⟩

def forwardParsed (m : Rpc) (resp : CommandID) (answer : Status × m.Resp → m.Resp)
    (body : Bytes) : Outcome :=
  match pb.parse m body with
  | some req => forward e pb out s m resp answer req
  | none => ⟨s, []⟩

def onMsgSend (body : Bytes) : Outcome :=
  forwardParsed e pb out s .sendMessage .msgSendResp
    (fun
      | (none, resp) => resp
      | (some error, resp) => { resp with success := false, errorMessage := error })
    body

def onMsgSync (body : Bytes) : Outcome :=
  forwardParsed e pb out s .syncMessages .msgSyncResp
    (fun
      | (none, resp) => resp
      | (some _, _) => { success := false })
    body

def onFriendApply (body : Bytes) : Outcome :=
  forwardParsed e pb out s .applyFriend .friendApplyResp Prod.snd body

def onFriendAccept (body : Bytes) : Outcome :=
  forwardParsed e pb out s .acceptFriend .friendAcceptResp Prod.snd body

def onFriendList : Outcome := forward e pb out s .getFriendList .friendListResp Prod.snd {}

def onGroupCreate (body : Bytes) : Outcome :=
  forwardParsed e pb out s .createGroup .groupCreateResp Prod.snd body

def onGroupJoin (body : Bytes) : Outcome :=
  forwardParsed e pb out s .joinGroup .groupJoinResp Prod.snd body

def onGroupList : Outcome := forward e pb out s .getGroupList .groupListResp Prod.snd {}

def onGroupApply (body : Bytes) : Outcome :=
  forwardParsed e pb out s .applyGroup .groupApplyResp Prod.snd body

def onGroupAccept (body : Bytes) : Outcome :=
  forwardParsed e pb out s .acceptGroup .groupAcceptResp Prod.snd body

def onHeartbeat : Outcome := ⟨s, [reply e .heartbeatResp []]⟩

def onLogin (body : Bytes) : Outcome :=
  if 0 < s.userId then ⟨s, [reply e .loginResp []]⟩
  else
    match pb.parseLogin body with
    | none => ⟨s, []⟩
    | some req =>
      match stoll req.username with
      | none => ⟨s, []⟩
      | some msgUid =>
        let s := { s with userId := msgUid }
        match out.localEndpoint with
        -- the exception comes after `user_id_` is set and the session has joined
        | none => ⟨s, [.join s.userId]⟩
        | some port =>
          ⟨s, [.join s.userId, .hset (locationKey s.userId) s.device (grpcAddr port),
            reply e .loginResp (pb.serializeLogin { success := true, userId := s.userId })]⟩

/-- The command dispatch of `WebsocketSession::OnRead` on one packet. -/
def handlePacket (p : Packet) : Outcome :=
  if p.cmdId = CommandID.msgSendReq.value then onMsgSend e pb out s p.body
  else if p.cmdId = CommandID.friendApplyReq.value then onFriendApply e pb out s p.body
  else if p.cmdId = CommandID.friendAcceptReq.value then onFriendAccept e pb out s p.body
  else if p.cmdId = CommandID.friendListReq.value then onFriendList e pb out s
  else if p.cmdId = CommandID.groupCreateReq.value then onGroupCreate e pb out s p.body
  else if p.cmdId = CommandID.groupJoinReq.value then onGroupJoin e pb out s p.body
  else if p.cmdId = CommandID.groupListReq.value then onGroupList e pb out s
  else if p.cmdId = CommandID.groupApplyReq.value then onGroupApply e pb out s p.body
  else if p.cmdId = CommandID.groupAcceptReq.value then onGroupAccept e pb out s p.body
  else if p.cmdId = CommandID.msgSyncReq.value then onMsgSync e pb out s p.body
  else if p.cmdId = CommandID.heartbeatReq.value then onHeartbeat e s
  else if p.cmdId = CommandID.loginReq.value then onLogin e pb out s p.body
  else ⟨s, []⟩

/-- `OnAccept` without an error: a session that the handshake authenticated
joins, and registers its location unless `local_endpoint` throws. -/
def onAccept (localEndpoint : Option ℕ) : List Effect :=
  if 0 < s.userId then
    .join s.userId ::
      match localEndpoint with
      | none => []
      | some port => [.hset (locationKey s.userId) s.device (grpcAddr port)]
  else []

/-- The two paths of `OnRead` on which the connection is gone. -/
def onReadError : List Effect :=
  [.hdel (locationKey s.userId) s.device, .leave s.userId]

/-- The handling of one packet, with the session as it was before. -/
structure Turn where
  before : Session
  packet : Packet
  effects : List Effect

def turns : Session → List (Packet × Surroundings) → List Turn
  | _, [] => []
  | s, (p, out) :: rest =>
    let o := handlePacket e pb out s p
    ⟨s, p, o.effects⟩ :: turns o.session rest

def after (ps : List (Packet × Surroundings)) : Session :=
  ps.foldl (fun s p ↦ (handlePacket e pb p.2 s p.1).session) s

end TinyIM.Gateway
