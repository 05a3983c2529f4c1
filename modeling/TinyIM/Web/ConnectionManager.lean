import TinyIM.Library.Transition
import TinyIM.Protocol.WireFormat
import TinyIM.Web.Decoders
import TinyIM.Web.Encoders

namespace TinyIM.Web

open Library.ByteOrder Library.Utf16 Protocol.WireFormat

-- The table of im_protocol.js.
namespace CMD

def loginReq : ℕ := 0x1001
def loginResp : ℕ := 0x1002
def heartbeatReq : ℕ := 0x1003
def heartbeatResp : ℕ := 0x1004
def kickNotify : ℕ := 0x1006
def msgSendReq : ℕ := 0x2001
def msgSendResp : ℕ := 0x2002
def msgPushNotify : ℕ := 0x2003
def msgSyncReq : ℕ := 0x2004
def msgSyncResp : ℕ := 0x2005
def friendApplyReq : ℕ := 0x3001
def friendApplyResp : ℕ := 0x3002
def friendHandleReq : ℕ := 0x3003
def friendHandleResp : ℕ := 0x3004
def groupCreateReq : ℕ := 0x4001
def groupCreateResp : ℕ := 0x4002
def groupJoinReq : ℕ := 0x4003
def groupJoinResp : ℕ := 0x4004
def groupQuitReq : ℕ := 0x4011
def groupQuitResp : ℕ := 0x4012

/-- `FRIEND_DEL_REQ` is not in the table; `setUint16` writes `undefined` as 0. -/
def friendDelReq : ℕ := 0

end CMD

inductive Status
  | connecting
  | handshaking
  | online
  | kicked
  | offline
  deriving DecidableEq, Repr

inductive ReadyState
  | connecting
  | opened
  | closing
  | closed
  deriving DecidableEq, Repr

inductive Request
  | friendApply (targetId : ℤ)
  | friendHandle (friendId : ℤ) (agree : Bool)
  | friendDelete (friendId : ℤ)
  | createGroup (groupName : CodeUnits)
  | joinGroup (groupId : ℤ)
  | quitGroup (groupId : ℤ)
  | groupMessage (groupId : ℤ) (content : CodeUnits)
  | message (toUserId : ℤ) (content : CodeUnits)
  deriving DecidableEq, Repr

/-- The lines of the log; the texts of exceptions are left out. -/
inductive Line
  | connected (gatewayUrl : Bytes) (deviceType : ℤ)
  | sentLoginReq
  | parseError
  | wsError
  | disconnected
  | prevSessionClosed
  | loginSuccess
  | loginFailed (errMsg : Bytes)
  | loginDecodeErr
  | ack (seqId msgId : ℤ)
  | ackFailed (errMsg : Bytes)
  | ackDecodeErr
  | newMessage
  | kicked
  | friendReqSent
  | friendReqHandled
  | synced (count : ℕ)
  | received (senderId : ℤ) (content : Bytes) (type : ℤ)
  | syncDecodeErr
  | heartbeatAck (seq : ℤ)
  | missingMsgs (localSeq remote : ℤ)
  | heartbeatAckErr
  | groupCreated
  | joinedGroup
  | quitGroup
  | otherCmd (cmd : ℕ)
  | syncing (localSeq : ℤ)
  | requested (r : Request)
  deriving DecidableEq, Repr

/-- The record that `connections` holds for a user. `heartbeat` tells whether
its timer runs. -/
structure State where
  status : Status := .connecting
  logs : List Line := []
  password : CodeUnits := []
  localSeq : ℤ := 0
  deviceType : ℤ := 0
  gateway : Bytes := []
  heartbeat : Bool := false
  deriving DecidableEq, Repr

/-- A `WebSocket`, with what its callbacks have captured. -/
structure Socket where
  userId : ℤ := 0
  password : CodeUnits := []
  deviceType : ℤ := 0
  gatewayUrl : Bytes := []
  readyState : ReadyState := .connecting
  sent : List Bytes := []
  deriving DecidableEq, Repr

/-- Every record is made together with its socket, and has the same number. -/
structure ConnectionManager where
  connections : ℤ → Option ℕ
  states : ℕ → State
  sockets : ℕ → Socket
  created : ℕ

namespace ConnectionManager

def init : ConnectionManager := ⟨fun _ ↦ none, fun _ ↦ {}, fun _ ↦ {}, 0⟩

variable (m : ConnectionManager)

def modify (n : ℕ) (f : State → State) : ConnectionManager :=
  { m with states := Function.update m.states n (f (m.states n)) }

def log (userId : ℤ) (line : Line) : ConnectionManager :=
  match m.connections userId with
  | some n => m.modify n fun conn ↦ { conn with logs := (line :: conn.logs).take 100 }
  | none => m

def updateUserStatus (userId : ℤ) (status : Status) : ConnectionManager :=
  match m.connections userId with
  | some n => m.modify n fun conn ↦ { conn with status }
  | none => m

def setReadyState (s : ℕ) (readyState : ReadyState) : ConnectionManager :=
  { m with sockets := Function.update m.sockets s { m.sockets s with readyState } }

/-- `ws.send`. It throws while the socket is connecting, and drops the message
when it is not open any more. -/
def send (s : ℕ) (msg : Bytes) : Option ConnectionManager :=
  match (m.sockets s).readyState with
  | .connecting => none
  | .opened => some { m with
      sockets := Function.update m.sockets s
        { m.sockets s with sent := (m.sockets s).sent ++ [msg] } }
  | .closing | .closed => some m

/-- `ws.close`. -/
def close (s : ℕ) : ConnectionManager :=
  match (m.sockets s).readyState with
  | .connecting | .opened => m.setReadyState s .closing
  | .closing | .closed => m

def createConnection (userId : ℤ) (password : CodeUnits) (deviceType : ℤ) (gatewayUrl : Bytes) :
    ConnectionManager :=
  let existingLogs := ((m.connections userId).map fun n ↦ (m.states n).logs).getD []
  { connections := Function.update m.connections userId (some m.created)
    states := Function.update m.states m.created
      { logs := existingLogs, password, deviceType, gateway := gatewayUrl }
    sockets := Function.update m.sockets m.created { userId, password, deviceType, gatewayUrl }
    created := m.created + 1 }

/-- `none` when it throws, with the state as before. -/
def syncMessages (userId : ℤ) : Option ConnectionManager :=
  match m.connections userId with
  | none => some m
  | some n =>
    if (m.states n).status ≠ .online then some m
    else
      (encodeMsgSyncReq userId (m.states n).localSeq 50).bind fun body ↦
        (m.send n (buildMessage CMD.msgSyncReq body)).map fun m ↦
          m.log userId (.syncing (m.states n).localSeq)

/-- A timer that still runs is cleared first, so that a record has at most one. -/
def startHeartbeat (userId : ℤ) : ConnectionManager :=
  match m.connections userId with
  | some n => m.modify n fun conn ↦ { conn with heartbeat := true }
  | none => m

end ConnectionManager

/-- What a synchronisation does to `localSeq`, with and without messages. -/
def State.onSyncResp (conn : State) (syncData : SyncResult) : State :=
  if conn.localSeq < syncData.maxSeq then { conn with localSeq := syncData.maxSeq } else conn

namespace ConnectionManager

variable (m : ConnectionManager) (userId : ℤ)

def onLoginResp (lResp : LoginResult) : ConnectionManager :=
  if lResp.success then
    let m := ((m.updateUserStatus userId .online).log userId .loginSuccess).startHeartbeat userId
    (m.syncMessages userId).getD (m.log userId .loginDecodeErr)
  else m.log userId (.loginFailed lResp.errMsg)

def onMsgSendResp (ack : SendResult) : ConnectionManager :=
  if ack.success then m.log userId (.ack ack.seqId ack.msgId)
  else m.log userId (.ackFailed ack.errMsg)

/-- An exception of `syncMessages` ends in `onmessage`. -/
def onMsgPushNotify : ConnectionManager :=
  let m := m.log userId .newMessage
  (m.syncMessages userId).getD (m.log userId .parseError)

def onKickNotify : ConnectionManager :=
  (m.log userId .kicked).updateUserStatus userId .kicked

def onMsgSyncResp (syncData : SyncResult) : ConnectionManager :=
  match m.connections userId with
  | none => m
  | some n =>
    let m := m.modify n (·.onSyncResp syncData)
    if syncData.msgs = [] then m
    else
      syncData.msgs.foldl (fun m msg ↦ m.log userId (.received msg.senderId msg.content msg.type))
        (m.log userId (.synced syncData.msgs.length))

def onHeartbeatResp (hbData : HeartbeatResult) : ConnectionManager :=
  let m := m.log userId (.heartbeatAck hbData.maxSeqId)
  match m.connections userId with
  | none => m
  | some n =>
    if (m.states n).localSeq < hbData.maxSeqId then
      let m := m.log userId (.missingMsgs (m.states n).localSeq hbData.maxSeqId)
      (m.syncMessages userId).getD (m.log userId .heartbeatAckErr)
    else m

/-- The `try` around a decoder and what is done with its result. `none` while
the decoder runs. -/
def decoding {α : Type} (decoded : Outcome α) (err : Line) (handle : α → ConnectionManager) :
    Option ConnectionManager :=
  match decoded with
  | .returns r => some (handle r)
  | .throws => some (m.log userId err)
  | .running => none

/-- The `switch` on the command. The loops of the decoders get `fuel` passes. -/
def handleMessage (fuel : ℕ) (cmd : ℕ) (body : Bytes) : Option ConnectionManager :=
  if cmd = CMD.loginResp then
    m.decoding userId (decodeLoginResp fuel (.ofBytes body)) .loginDecodeErr (m.onLoginResp userId)
  else if cmd = CMD.msgSendResp then
    m.decoding userId (decodeMsgSendResp fuel (.ofBytes body)) .ackDecodeErr (m.onMsgSendResp userId)
  else if cmd = CMD.msgPushNotify then m.onMsgPushNotify userId
  else if cmd = CMD.kickNotify then m.onKickNotify userId
  else if cmd = CMD.friendApplyResp then m.log userId .friendReqSent
  else if cmd = CMD.friendHandleResp then m.log userId .friendReqHandled
  else if cmd = CMD.msgSyncResp then
    m.decoding userId (decodeMsgSyncResp fuel (.ofBytes body)) .syncDecodeErr (m.onMsgSyncResp userId)
  else if cmd = CMD.heartbeatResp then
    m.decoding userId (decodeHeartbeatResp fuel (.ofBytes body)) .heartbeatAckErr
      (m.onHeartbeatResp userId)
  else if cmd = CMD.groupCreateResp then m.log userId .groupCreated
  else if cmd = CMD.groupJoinResp then m.log userId .joinedGroup
  else if cmd = CMD.groupQuitResp then m.log userId .quitGroup
  else m.log userId (.otherCmd cmd)

end ConnectionManager

/-- What the browser calls on a socket. `random` is the number that
`encodeLoginReq` draws. -/
inductive Event
  | open (random : ℕ)
  | message (data : Bytes)
  | error
  | close
  deriving DecidableEq, Repr

namespace ConnectionManager

variable (m : ConnectionManager) (s : ℕ)

/-- An exception of the encoder ends the callback. -/
def onopen (random : ℕ) : ConnectionManager :=
  let ws := m.sockets s
  let m := m.log ws.userId (.connected ws.gatewayUrl ws.deviceType)
  let m := m.updateUserStatus ws.userId .handshaking
  let sent := (encodeLoginReq (.id ws.userId) ws.password ws.deviceType random).bind fun loginBody ↦
    m.send s (buildMessage CMD.loginReq loginBody)
  (sent.map fun m ↦ m.log ws.userId .sentLoginReq).getD m

def onmessage (fuel : ℕ) (data : Bytes) : Option ConnectionManager :=
  let userId := (m.sockets s).userId
  match parseMessage data with
  | .ok (header, body) => m.handleMessage userId fuel header.cmd body
  | .error _ => some (m.log userId .parseError)

def onerror : ConnectionManager := m.log (m.sockets s).userId .wsError

/-- Only this callback asks whether the socket is still the user's. -/
def onclose : ConnectionManager :=
  let userId := (m.sockets s).userId
  if m.connections userId = some s then
    (m.updateUserStatus userId .offline).log userId .disconnected
  else m.log userId .prevSessionClosed

/-- An event of the browser in the states of the socket that allow it, and the
callback. -/
def fire (fuel : ℕ) : Event → Option ConnectionManager
  | .open random =>
    if (m.sockets s).readyState = .connecting then some ((m.setReadyState s .opened).onopen s random)
    else none
  | .message data =>
    if (m.sockets s).readyState = .opened then m.onmessage s fuel data else none
  | .error => if (m.sockets s).readyState ≠ .closed then some (m.onerror s) else none
  | .close =>
    if (m.sockets s).readyState ≠ .closed then some ((m.setReadyState s .closed).onclose s)
    else none

end ConnectionManager

def Request.packet (userId : ℤ) : Request → Option Bytes
  | .friendApply targetId =>
    (encodeFriendApplyReq userId targetId (ofAscii (Protocol.ascii "Let's test"))).map
      (buildMessage CMD.friendApplyReq)
  | .friendHandle friendId agree =>
    (encodeFriendHandleReq userId friendId agree).map (buildMessage CMD.friendHandleReq)
  | .friendDelete friendId =>
    (encodeFriendDelReq userId friendId).map (buildMessage CMD.friendDelReq)
  | .createGroup groupName =>
    (encodeGroupCreateReq userId groupName).map (buildMessage CMD.groupCreateReq)
  | .joinGroup groupId => (encodeGroupJoinReq groupId userId).map (buildMessage CMD.groupJoinReq)
  | .quitGroup groupId => (encodeGroupQuitReq userId groupId).map (buildMessage CMD.groupQuitReq)
  | .groupMessage groupId content =>
    (encodeGroupMsgReq userId groupId content).map (buildMessage CMD.msgSendReq)
  | .message toUserId content =>
    (encodeMsgSendReq userId toUserId content).map (buildMessage CMD.msgSendReq)

/-- What happens in the page. `closing` is the begin of a closing handshake, for
which there is no callback. -/
inductive Action
  | createConnection (userId : ℤ) (password : CodeUnits) (deviceType : ℤ) (gatewayUrl : Bytes)
  | fire (s : ℕ) (e : Event)
  | closing (s : ℕ)
  | heartbeat (s : ℕ)
  | syncMessages (userId : ℤ)
  | request (userId : ℤ) (r : Request)
  | disconnectSingle (userId : ℤ)
  | disconnectAll
  deriving DecidableEq, Repr

namespace ConnectionManager

variable (m : ConnectionManager)

/-- The callback of `setInterval`. -/
def heartbeatTick (n : ℕ) : ConnectionManager :=
  if (m.sockets n).readyState = .opened then
    (m.send n (buildMessage CMD.heartbeatReq [])).getD m
  else m.modify n fun conn ↦ { conn with heartbeat := false }

/-- The methods that send a request of the user; only the friend application
writes no line. -/
def sendRequest (userId : ℤ) (r : Request) : ConnectionManager :=
  match m.connections userId with
  | none => m
  | some n =>
    if (m.states n).status ≠ .online then m
    else
      let sent := (r.packet userId).bind fun packet ↦ m.send n packet
      match r with
      | .friendApply _ => sent.getD m
      | _ => (sent.map fun m ↦ m.log userId (.requested r)).getD m

def disconnectSingle (userId : ℤ) : ConnectionManager :=
  match m.connections userId with
  | none => m
  | some n => (m.close n).updateUserStatus userId .offline

def disconnectAll : ConnectionManager :=
  { m with
    connections := fun _ ↦ none
    sockets := fun s ↦
      if m.connections (m.sockets s).userId = some s then (m.close s).sockets s else m.sockets s }

/-- A step of the page. Callbacks and methods run one at a time. -/
def step (fuel : ℕ) : Action → Option ConnectionManager
  | .createConnection userId password deviceType gatewayUrl =>
    some (m.createConnection userId password deviceType gatewayUrl)
  | .fire s e => if s < m.created then m.fire s fuel e else none
  | .closing s => if s < m.created then some (m.close s) else none
  | .heartbeat s =>
    if s < m.created ∧ (m.states s).heartbeat then some (m.heartbeatTick s) else none
  | .syncMessages userId => some ((m.syncMessages userId).getD m)
  | .request userId r => some (m.sendRequest userId r)
  | .disconnectSingle userId => some (m.disconnectSingle userId)
  | .disconnectAll => some m.disconnectAll

def Reachable (fuel : ℕ) : ConnectionManager → Prop :=
  Library.Transition.Reach (fun m a ↦ m.step fuel a) Library.Transition.anyStep init

end ConnectionManager

end TinyIM.Web
