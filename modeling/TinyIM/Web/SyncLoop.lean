import TinyIM.Chat.ChatService
import TinyIM.Web.Handlers
import TinyIM.Web.RequestSchema
import TinyIM.Web.ResponseSchema

namespace TinyIM.Web.SyncLoop

open Library.ByteOrder Library.Table Library.Transition Protocol Store Chat Handlers
  RequestSchema ResponseSchema

/-- What the client sends. -/
inductive Up
  | loginReq
  | heartbeatReq
  | msgSyncReq (localSeq : ℤ)
  deriving DecidableEq, Repr

def Pulls : Up → Prop
  | .msgSyncReq _ => True
  | _ => False

instance : DecidablePred Pulls := fun q ↦ by unfold Pulls; split <;> infer_instance

/-- What the gateway sends. -/
inductive Down
  | loginResp (success : Bool)
  | heartbeatResp
  | msgPushNotify
  | msgSyncResp (resp : SyncMessagesResp)
  deriving DecidableEq, Repr

/-- The record of the connection in the page. -/
structure Client where
  status : Web.Status := .connecting
  localSeq : ℤ := 0
  deriving DecidableEq, Repr

namespace Client

variable (c : Client)

def syncMessages : List Up := if c.status = .online then [.msgSyncReq c.localSeq] else []

def onSyncResp (resp : SyncMessagesResp) : Client :=
  if c.localSeq < readInt resp.maxSeq then { c with localSeq := readInt resp.maxSeq } else c

/-- The record after a packet, and what the client sends for it. -/
def handleMessage : Down → Client × List Up
  | .loginResp success =>
    if success then
      let c := { c with status := .online }
      (c, c.syncMessages)
    else (c, [])
  -- the body is empty, so that `max_seq_id` is 0
  | .heartbeatResp => (c, if c.localSeq < 0 then c.syncMessages else [])
  | .msgPushNotify => (c, c.syncMessages)
  | .msgSyncResp resp => (c.onSyncResp resp, [])

end Client

def Down.items : Down → List MessageItem
  | .msgSyncResp resp => resp.msgs
  | _ => []

/-- One connection of a web client. `past` are the states of the tables before
each statement on the master, `serving` is the reply that `OnRead` has and has not
posted yet, `pushing` counts the calls of `PushNotify` under way, and `reported` is
what the client has written to its log. -/
structure Loop where
  world : World
  past : List World
  session : Bool
  registered : Bool
  client : Client
  toGateway : List Up
  serving : Option Down
  pushing : ℕ
  toClient : List Down
  reported : List MessageItem

/-- The two paths of `SendMessage`; that of a group asks for `im:session`
before it reads `im:location`. -/
inductive Route
  | single
  | group
  deriving DecidableEq, Repr

/-- `serve` names the state of the tables that the slave shows. -/
inductive Action
  | store (senderId groupId msgType : ℤ) (content : Bytes)
  | tick (clock : Bytes)
  | draw (ownerId : ℤ)
  | insert (r : IndexRow)
  | deliver (route : Route) (ownerId otherId : ℤ) (msgId : ℕ)
  | session (present : Bool)
  | push
  | arrive
  | open
  | serve (seen : ℕ)
  | post
  | receive
  | sync
  | heartbeat
  deriving DecidableEq, Repr

/-- The `INCR` and the `INSERT` of a sender as one step. -/
def deliver (w : World) (ownerId otherId : ℤ) (msgId : ℕ) : World :=
  let drawn := w.succeed (.incr (seqKey ownerId))
  (drawn.1.succeed (.insertIndex [⟨ownerId, otherId, msgId, drawn.2.getD 0, 0⟩])).1

def hasBody (w : World) (msgId : ℕ) : Prop := msgId ∈ w.bodies.map BodyRow.msgId

instance (w : World) (msgId : ℕ) : Decidable (hasBody w msgId) :=
  inferInstanceAs (Decidable (_ ∈ _))

namespace Loop

variable (u : ℤ) (s : Loop)

def notifies (route : Route) : Prop := s.registered ∧ (route = .single ∨ s.session)

instance (route : Route) : Decidable (s.notifies route) := inferInstanceAs (Decidable (_ ∧ _))

/-- The tables after a statement. -/
def commit (w : World) : Loop := { s with world := w, past := s.past ++ [s.world] }

/-- The tables on a slave that has applied only so many statements. -/
def slave (seen : ℕ) : World := s.past[seen]?.getD s.world

/-- `OnRead`, with the call of `SyncMessages`, which reads a slave. -/
def reply (seen : ℕ) : Up → Option Down
  | .loginReq => some (.loginResp !s.registered)
  | .heartbeatReq => some .heartbeatResp
  | .msgSyncReq c =>
    (Chat.syncMessages (s.slave seen) { userId := u, localSeq := c, limit := 50 }).map .msgSyncResp

def serve (seen : ℕ) : Option Loop :=
  match s.serving, s.toGateway with
  | none, q :: rest =>
    (s.reply u seen q).map fun d ↦
      { s with
        registered := s.registered || q = .loginReq
        toGateway := rest
        serving := some d }
  | _, _ => none

def receive : Option Loop :=
  match s.toClient with
  | d :: rest =>
    some { s with
      client := (s.client.handleMessage d).1
      toGateway := s.toGateway ++ (s.client.handleMessage d).2
      toClient := rest
      reported := s.reported ++ d.items }
  | [] => none

def step : Action → Option Loop
  | .store senderId groupId msgType content =>
    some (s.commit (s.world.succeed (.insertBody senderId groupId msgType content)).1)
  | .tick clock => some { s with world := { s.world with clock } }
  | .draw ownerId => some { s with world := (s.world.succeed (.incr (seqKey ownerId))).1 }
  | .insert r =>
    if hasBody s.world r.msgId then some (s.commit (s.world.succeed (.insertIndex [r])).1) else none
  | .deliver route ownerId otherId msgId =>
    if hasBody s.world msgId then
      some { s with
        world := deliver s.world ownerId otherId msgId
        past := s.past ++ [s.world]
        pushing := if ownerId = u ∧ s.notifies route then s.pushing + 1 else s.pushing }
    else none
  | .session present => some { s with session := present }
  -- for another device at the gateway, or after an `insert`
  | .push => if s.registered then some { s with pushing := s.pushing + 1 } else none
  | .arrive =>
    if 0 < s.pushing then
      some { s with pushing := s.pushing - 1, toClient := s.toClient ++ [.msgPushNotify] }
    else none
  | .open =>
    if s.client.status = .connecting then
      some { s with
        client := { s.client with status := .handshaking }
        toGateway := s.toGateway ++ [.loginReq] }
    else none
  | .serve seen => s.serve u seen
  | .post => s.serving.map fun d ↦ { s with serving := none, toClient := s.toClient ++ [d] }
  | .receive => s.receive
  | .sync => some { s with toGateway := s.toGateway ++ s.client.syncMessages }
  | .heartbeat =>
    if s.client.status = .online then
      some { s with toGateway := s.toGateway ++ [.heartbeatReq] }
    else none

/-- The cursor of the request that is served next, if it is a pull. -/
def nextPull : Option ℤ :=
  match s.toGateway with
  | .msgSyncReq c :: _ => some c
  | _ => none

def pending : List Down := s.serving.toList ++ s.toClient

variable {u s} {s' : Loop}

theorem slave_cases (s : Loop) (seen : ℕ) : s.slave seen ∈ s.past ∨ s.slave seen = s.world := by
  rw [slave]
  cases h : s.past[seen]? with
  | none => exact .inr rfl
  | some w => exact .inl (List.mem_of_getElem? h)

theorem serve_cases {seen : ℕ} (h : s.serve u seen = some s') :
    ∃ q rest d, s.serving = none ∧ s.toGateway = q :: rest ∧ s.reply u seen q = some d ∧
      s' = { s with
        registered := s.registered || q = .loginReq
        toGateway := rest
        serving := some d } := by
  rw [serve] at h
  split at h
  · next q rest hserving hgateway =>
    obtain ⟨d, hd, rfl⟩ := Option.map_eq_some_iff.mp h
    exact ⟨q, rest, d, hserving, hgateway, hd, rfl⟩
  · cases h

/-- What is under way behind a packet that has come. -/
theorem mem_pending_of_rest {d x : Down} {rest : List Down} (h : s.toClient = d :: rest)
    (hx : x ∈ s.serving.toList ++ rest) : x ∈ s.pending := by
  change x ∈ s.serving.toList ++ s.toClient
  rw [h]
  exact (List.mem_append.mp hx).elim (List.mem_append_left _)
    fun hrest ↦ List.mem_append_right _ (List.mem_cons_of_mem d hrest)

theorem receive_cases (h : s.receive = some s') :
    ∃ d rest, s.toClient = d :: rest ∧ s' = { s with
      client := (s.client.handleMessage d).1
      toGateway := s.toGateway ++ (s.client.handleMessage d).2
      toClient := rest
      reported := s.reported ++ d.items } := by
  rw [receive] at h
  split at h
  · next d rest htoClient => exact ⟨d, rest, htoClient, (Option.some.inj h).symm⟩
  · cases h

end Loop

def start (members : Keyed MemberRow.key) (relations : Keyed RelationRow.key) (r : Redis) : Loop where
  world := ⟨[], 1, .empty, members, relations, r, []⟩
  past := []
  session := false
  registered := false
  client := {}
  toGateway := []
  serving := none
  pushing := 0
  toClient := []
  reported := []

section page

open Library.ProtoWire Protocol.WireFormat

/-- The packets that the page sends for what `Client` sends. -/
def Up.Sent (userId : ℤ) : Up → Bytes → Prop
  | .loginReq, msg => ∃ password deviceType random body,
      encodeLoginReq (.id userId) password deviceType random = some body ∧
        msg = buildMessage CMD.loginReq body
  | .heartbeatReq, msg => msg = buildMessage CMD.heartbeatReq []
  | .msgSyncReq c, msg => msg = syncPacket userId c

/-- The packets that the gateway makes of its replies. -/
def Carries (cmd : ℕ) (body : Bytes) : Down → Prop
  | .loginResp success => cmd = CMD.loginResp ∧
      ∃ resp, resp.success = success ∧ OnWire (loginWire resp) (.ofBytes body)
  | .heartbeatResp => cmd = CMD.heartbeatResp ∧ body = []
  | .msgPushNotify => cmd = CMD.msgPushNotify
  | .msgSyncResp resp => cmd = CMD.msgSyncResp ∧ SyncOnWire resp (.ofBytes body)

/-- Record `n` of the page is that of the client, on an open socket on which
`sent` was sent. -/
structure Shows (m : ConnectionManager) (u : ℤ) (n : ℕ) (c : Client) (sent : List Bytes) : Prop where
  current : m.connections u = some n
  opened : (m.sockets n).readyState = .opened
  face : face m n = ⟨c.status, c.localSeq, sent⟩

variable {m m' : ConnectionManager} {u : ℤ} {n fuel cmd : ℕ} {c : Client} {sent : List Bytes}
  {body : Bytes}

theorem syncMessages_refines (u : ℤ) (c : Client) (sent : List Bytes) :
    ∃ new, (Face.mk c.status c.localSeq sent).syncMessages u .opened =
        ⟨c.status, c.localSeq, sent ++ new⟩ ∧ List.Forall₂ (Up.Sent u) c.syncMessages new := by
  rw [Face.syncMessages, Client.syncMessages]
  by_cases honline : c.status = .online
  · rw [if_pos ⟨honline, rfl⟩, if_pos honline]
    exact ⟨[syncPacket u c.localSeq], rfl, .cons rfl .nil⟩
  · rw [if_neg fun h ↦ honline h.1, if_neg honline]
    exact ⟨[], by rw [List.append_nil], .nil⟩

theorem face_loginResp (h : Shows m u n c sent) (r : LoginResult) :
    ∃ new, face (m.onLoginResp u r) n = ⟨(c.handleMessage (.loginResp r.success)).1.status,
        (c.handleMessage (.loginResp r.success)).1.localSeq, sent ++ new⟩ ∧
      List.Forall₂ (Up.Sent u) (c.handleMessage (.loginResp r.success)).2 new := by
  rw [face_onLoginResp m h.current, h.face, h.opened, Face.onLoginResp, Client.handleMessage]
  split_ifs
  · exact syncMessages_refines u { c with status := .online } sent
  · exact ⟨[], by rw [List.append_nil], .nil⟩

theorem face_heartbeatResp (h : Shows m u n c sent) :
    ∃ new, face (m.onHeartbeatResp u {}) n = ⟨(c.handleMessage .heartbeatResp).1.status,
        (c.handleMessage .heartbeatResp).1.localSeq, sent ++ new⟩ ∧
      List.Forall₂ (Up.Sent u) (c.handleMessage .heartbeatResp).2 new := by
  rw [face_onHeartbeatResp m h.current, h.face, h.opened, Face.onHeartbeatResp,
    Client.handleMessage]
  simp only []
  split_ifs
  · exact syncMessages_refines u c sent
  · exact ⟨[], by rw [List.append_nil], .nil⟩

theorem face_syncResp (h : Shows m u n c sent) (resp : SyncMessagesResp) :
    face (m.onMsgSyncResp u (syncOf resp)) n =
      ⟨(c.onSyncResp resp).status, (c.onSyncResp resp).localSeq, sent⟩ := by
  rw [face_onMsgSyncResp m h.current, h.face, Face.onMsgSyncResp, Client.onSyncResp, syncOf]
  simp only []
  split_ifs <;> rfl

/-- The page does with a packet what the client does. -/
theorem handleMessage_refines (h : Shows m u n c sent) {d : Down} (hd : Carries cmd body d)
    (hfuel : body.length ≤ fuel) :
    ∃ m' new, m.handleMessage u fuel cmd body = some m' ∧
      Shows m' u n (c.handleMessage d).1 (sent ++ new) ∧
      List.Forall₂ (Up.Sent u) (c.handleMessage d).2 new := by
  suffices hface : ∃ m' new, m.handleMessage u fuel cmd body = some m' ∧
      face m' n = ⟨(c.handleMessage d).1.status, (c.handleMessage d).1.localSeq, sent ++ new⟩ ∧
      List.Forall₂ (Up.Sent u) (c.handleMessage d).2 new by
    obtain ⟨m', new, hm', hshown, hsent⟩ := hface
    have hkept := Kept.handleMessage hm'
    exact ⟨m', new, hm', ⟨by rw [hkept.connections, h.current],
      by rw [hkept.readyState, h.opened], hshown⟩, hsent⟩
  cases d with
  | loginResp success =>
    obtain ⟨rfl, resp, rfl, fs, hbytes, hfs⟩ := hd
    obtain ⟨new, hshown, hsent⟩ := face_loginResp h (loginOf resp)
    refine ⟨_, new, ?_, hshown, hsent⟩
    rw [ConnectionManager.handleMessage, if_pos rfl, decodeLoginResp_eq hfs hbytes hfuel]
    rfl
  | heartbeatResp =>
    obtain ⟨rfl, rfl⟩ := hd
    obtain ⟨new, hshown, hsent⟩ := face_heartbeatResp h
    refine ⟨_, new, ?_, hshown, hsent⟩
    have hdecode : decodeHeartbeatResp fuel (.ofBytes []) = .returns {} := by
      cases fuel <;> rfl
    simp only [ConnectionManager.handleMessage, CMD.loginResp, CMD.msgSendResp, CMD.msgPushNotify,
      CMD.kickNotify, CMD.friendApplyResp, CMD.friendHandleResp, CMD.msgSyncResp, CMD.heartbeatResp,
      hdecode]
    rfl
  | msgPushNotify =>
    obtain rfl := hd
    obtain ⟨new, hshown, hsent⟩ := syncMessages_refines u c sent
    refine ⟨m.onMsgPushNotify u, new, rfl, ?_, hsent⟩
    rw [face_onMsgPushNotify m h.current, h.face, h.opened, hshown]
    rfl
  | msgSyncResp resp =>
    obtain ⟨rfl, parts, hparts, fs, hbytes, hfs⟩ := hd
    refine ⟨_, [], ?_, (face_syncResp h resp).trans (by rw [List.append_nil]; rfl), .nil⟩
    simp only [ConnectionManager.handleMessage, CMD.loginResp, CMD.msgSendResp, CMD.msgPushNotify,
      CMD.kickNotify, CMD.friendApplyResp, CMD.friendHandleResp, CMD.msgSyncResp,
      decodeMsgSyncResp_eq hparts hfs hbytes hfuel]
    rfl

theorem logs_log (h : m.connections u = some n) (line : Line) :
    ((m.log u line).states n).logs = (line :: (m.states n).logs).take 100 := by
  simp [ConnectionManager.log, h, ConnectionManager.modify]

theorem logs_received (h : m.connections u = some n) (msgs : List MessageData) (recent : List Line)
    (hlogs : (m.states n).logs = recent.take 100) :
    ((msgs.foldl (fun m msg ↦ m.log u (.received msg.senderId msg.content msg.type)) m).states
        n).logs =
      ((msgs.map fun msg ↦ Line.received msg.senderId msg.content msg.type).reverse ++
        recent).take 100 := by
  induction msgs generalizing m recent with
  | nil => exact hlogs
  | cons msg msgs ih =>
    rw [List.foldl_cons, ih (m := m.log u _) (by rwa [connections_log])
      (.received msg.senderId msg.content msg.type :: recent)]
    · simp
    · rw [logs_log h, hlogs, List.take_succ_cons, List.take_succ_cons, List.take_take]
      rfl

/-- A reply with messages writes a line for each of them. -/
theorem logs_onMsgSyncResp (h : m.connections u = some n) (r : SyncResult) (hmsgs : r.msgs ≠ []) :
    ((m.onMsgSyncResp u r).states n).logs =
      ((r.msgs.map fun msg ↦ Line.received msg.senderId msg.content msg.type).reverse ++
        .synced r.msgs.length :: (m.states n).logs).take 100 := by
  have hlogs : ((m.modify n (·.onSyncResp r)).states n).logs = (m.states n).logs := by
    simp only [ConnectionManager.modify, Function.update_self, State.onSyncResp]
    split_ifs <;> rfl
  simp only [ConnectionManager.onMsgSyncResp, h, if_neg hmsgs]
  refine logs_received (by rw [connections_log]; exact h) _ _ ?_
  rw [logs_log (m := m.modify n (·.onSyncResp r)) h, hlogs]

/-- The gateway reads of a request what the client has put in. -/
theorem parse_syncPacket (hu : Uint32 u) {seq : ℤ} (hseq : Uint32 seq) :
    ∃ body, syncPacket u seq = buildMessage CMD.msgSyncReq body ∧
      parse SyncMessagesReq.merge {} body = some { userId := u, localSeq := seq, limit := 50 } := by
  obtain ⟨body, hbody⟩ := encodeMsgSyncReq_returns u seq 50
  refine ⟨body, by rw [syncPacket, hbody, Option.getD_some], ?_⟩
  exact (msgSync_agrees hu hseq (by decide)).parses body hbody

end page

end TinyIM.Web.SyncLoop
