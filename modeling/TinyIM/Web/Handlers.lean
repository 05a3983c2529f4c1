import TinyIM.Web.ConnectionManager

namespace TinyIM.Web.Handlers

open Library.ByteOrder Protocol.WireFormat

/-- The part of a connection on which its handlers act. -/
@[ext] structure Face where
  status : Status
  localSeq : ℤ
  sent : List Bytes
  deriving DecidableEq, Repr

def face (m : ConnectionManager) (n : ℕ) : Face :=
  ⟨(m.states n).status, (m.states n).localSeq, (m.sockets n).sent⟩

/-- The packet of `syncMessages`. -/
def syncPacket (userId localSeq : ℤ) : Bytes :=
  buildMessage CMD.msgSyncReq ((encodeMsgSyncReq userId localSeq 50).getD [])

namespace Face

variable (f : Face) (userId : ℤ) (readyState : ReadyState)

def syncMessages : Face :=
  if f.status = .online ∧ readyState = .opened then
    { f with sent := f.sent ++ [syncPacket userId f.localSeq] }
  else f

def onLoginResp (r : LoginResult) : Face :=
  if r.success then { f with status := .online }.syncMessages userId readyState else f

def onMsgSyncResp (r : SyncResult) : Face :=
  if f.localSeq < r.maxSeq then { f with localSeq := r.maxSeq } else f

def onHeartbeatResp (r : HeartbeatResult) : Face :=
  if f.localSeq < r.maxSeqId then f.syncMessages userId readyState else f

end Face

section frames

variable (m : ConnectionManager) {userId : ℤ} {n s : ℕ}

theorem face_modify {f : State → State} (k : ℕ)
    (hstatus : (f (m.states k)).status = (m.states k).status)
    (hseq : (f (m.states k)).localSeq = (m.states k).localSeq) :
    face (m.modify k f) n = face m n := by
  by_cases h : n = k
  · subst h
    simp [face, ConnectionManager.modify, hstatus, hseq]
  · simp [face, ConnectionManager.modify, h]

@[simp] theorem face_log (line : Line) : face (m.log userId line) n = face m n := by
  rw [ConnectionManager.log]
  split
  · exact face_modify m _ rfl rfl
  · rfl

@[simp] theorem connections_log (line : Line) :
    (m.log userId line).connections = m.connections := by
  rw [ConnectionManager.log]
  split <;> rfl

@[simp] theorem sockets_log (line : Line) : (m.log userId line).sockets = m.sockets := by
  rw [ConnectionManager.log]
  split <;> rfl

@[simp] theorem connections_updateUserStatus (status : Status) :
    (m.updateUserStatus userId status).connections = m.connections := by
  rw [ConnectionManager.updateUserStatus]
  split <;> rfl

@[simp] theorem sockets_updateUserStatus (status : Status) :
    (m.updateUserStatus userId status).sockets = m.sockets := by
  rw [ConnectionManager.updateUserStatus]
  split <;> rfl

theorem face_updateUserStatus (h : m.connections userId = some n) (status : Status) :
    face (m.updateUserStatus userId status) n = { face m n with status } := by
  simp [face, ConnectionManager.updateUserStatus, h, ConnectionManager.modify]

@[simp] theorem connections_startHeartbeat :
    (m.startHeartbeat userId).connections = m.connections := by
  rw [ConnectionManager.startHeartbeat]
  split <;> rfl

@[simp] theorem sockets_startHeartbeat : (m.startHeartbeat userId).sockets = m.sockets := by
  rw [ConnectionManager.startHeartbeat]
  split <;> rfl

@[simp] theorem face_startHeartbeat : face (m.startHeartbeat userId) n = face m n := by
  rw [ConnectionManager.startHeartbeat]
  split
  · exact face_modify m _ rfl rfl
  · rfl

@[simp] theorem face_setReadyState (readyState : ReadyState) :
    face (m.setReadyState s readyState) n = face m n := by
  by_cases h : n = s
  · subst h
    simp [face, ConnectionManager.setReadyState]
  · simp [face, ConnectionManager.setReadyState, h]

theorem face_send {m' : ConnectionManager} (hne : n ≠ s) {msg : Bytes}
    (h : m.send s msg = some m') : face m' n = face m n := by
  rw [ConnectionManager.send] at h
  split at h
  · cases h
  · obtain rfl := Option.some.inj h
    simp [face, hne]
  · obtain rfl := Option.some.inj h
    rfl
  · obtain rfl := Option.some.inj h
    rfl

/-- With what its caller does about an exception. -/
theorem face_syncMessages (h : m.connections userId = some n) (line : Line) :
    face ((m.syncMessages userId).getD (m.log userId line)) n =
      (face m n).syncMessages userId (m.sockets n).readyState := by
  obtain ⟨body, hbody⟩ := encodeMsgSyncReq_returns userId (m.states n).localSeq 50
  have hsync : m.syncMessages userId = if (m.states n).status ≠ .online then some m
      else (m.send n (syncPacket userId (m.states n).localSeq)).map fun m ↦
        m.log userId (.syncing (m.states n).localSeq) := by
    simp only [ConnectionManager.syncMessages, h, syncPacket, hbody, Option.getD_some,
      Option.bind_some]
  have hstatus : (face m n).status = (m.states n).status := rfl
  rw [hsync, Face.syncMessages, hstatus]
  by_cases honline : (m.states n).status = .online
  · cases hready : (m.sockets n).readyState <;> simp [honline, ConnectionManager.send, hready]
    simp [face, honline]
  · simp [honline]

end frames

section handlers

variable (m : ConnectionManager) {m' : ConnectionManager} {userId : ℤ} {n fuel : ℕ}

/-- The same after steps that leave the record and the sockets alone. -/
theorem face_syncMessages_of_eq {m₀ : ConnectionManager} {f : Face}
    (h : m₀.connections userId = some n) (hface : face m₀ n = f) (hsockets : m₀.sockets = m.sockets)
    (line : Line) : face ((m₀.syncMessages userId).getD (m₀.log userId line)) n =
      f.syncMessages userId (m.sockets n).readyState := by
  rw [face_syncMessages m₀ h, hface, hsockets]

theorem face_onMsgPushNotify (h : m.connections userId = some n) :
    face (m.onMsgPushNotify userId) n =
      (face m n).syncMessages userId (m.sockets n).readyState :=
  face_syncMessages_of_eq m (by rwa [connections_log]) (face_log m _) (sockets_log m _) _

theorem face_onKickNotify (h : m.connections userId = some n) :
    face (m.onKickNotify userId) n = { face m n with status := .kicked } := by
  rw [ConnectionManager.onKickNotify, face_updateUserStatus _ (by rwa [connections_log]), face_log]

theorem face_onLoginResp (h : m.connections userId = some n) (r : LoginResult) :
    face (m.onLoginResp userId r) n =
      (face m n).onLoginResp userId (m.sockets n).readyState r := by
  rw [ConnectionManager.onLoginResp, Face.onLoginResp]
  split_ifs
  · refine face_syncMessages_of_eq m ?_ ?_ ?_ _
    · rw [connections_startHeartbeat, connections_log, connections_updateUserStatus, h]
    · rw [face_startHeartbeat, face_log, face_updateUserStatus m h]
    · rw [sockets_startHeartbeat, sockets_log, sockets_updateUserStatus]
  · exact face_log m _

theorem face_onMsgSendResp (ack : SendResult) : face (m.onMsgSendResp userId ack) n = face m n := by
  rw [ConnectionManager.onMsgSendResp]
  split_ifs <;> exact face_log m _

theorem face_received (msgs : List MessageData) :
    face (msgs.foldl (fun m msg ↦ m.log userId (.received msg.senderId msg.content msg.type)) m) n =
      face m n := by
  induction msgs generalizing m with
  | nil => rfl
  | cons msg msgs ih => rw [List.foldl_cons, ih, face_log]

theorem face_onMsgSyncResp (h : m.connections userId = some n) (r : SyncResult) :
    face (m.onMsgSyncResp userId r) n = (face m n).onMsgSyncResp r := by
  have hseq : face (m.modify n (·.onSyncResp r)) n = (face m n).onMsgSyncResp r := by
    rw [Face.onMsgSyncResp, show (face m n).localSeq = (m.states n).localSeq from rfl]
    simp only [face, ConnectionManager.modify, Function.update_self, State.onSyncResp]
    split_ifs <;> rfl
  simp only [ConnectionManager.onMsgSyncResp, h]
  split_ifs
  · exact hseq
  · rw [face_received, face_log, hseq]

theorem face_onHeartbeatResp (h : m.connections userId = some n) (r : HeartbeatResult) :
    face (m.onHeartbeatResp userId r) n =
      (face m n).onHeartbeatResp userId (m.sockets n).readyState r := by
  obtain ⟨m₀, hm₀⟩ : ∃ m₀, m.log userId (.heartbeatAck r.maxSeqId) = m₀ := ⟨_, rfl⟩
  have hcurrent : m₀.connections userId = some n := by rwa [← hm₀, connections_log]
  have hface : face m₀ n = face m n := hm₀ ▸ face_log m _
  have hsockets : m₀.sockets = m.sockets := hm₀ ▸ sockets_log m _
  have hseq : (m₀.states n).localSeq = (face m n).localSeq := congrArg Face.localSeq hface
  simp only [ConnectionManager.onHeartbeatResp, hm₀, hcurrent, hseq, Face.onHeartbeatResp]
  split_ifs
  · exact face_syncMessages_of_eq m (by rwa [connections_log]) ((face_log m₀ _).trans hface)
      ((sockets_log m₀ _).trans hsockets) _
  · exact hface

end handlers

section dispatch

variable {m m' : ConnectionManager} {userId : ℤ} {s fuel : ℕ}

/-- The commands whose handlers do more than write a line. -/
def handledCmds : List ℕ :=
  [CMD.loginResp, CMD.msgPushNotify, CMD.kickNotify, CMD.msgSyncResp, CMD.heartbeatResp]

/-- What a packet leads to, by its command. -/
theorem handled {cmd : ℕ} {body : Bytes} (h : m.handleMessage userId fuel cmd body = some m') :
    (cmd = CMD.loginResp ∧ m.decoding userId (decodeLoginResp fuel (.ofBytes body))
      .loginDecodeErr (m.onLoginResp userId) = some m') ∨
    (cmd = CMD.msgSendResp ∧ m.decoding userId (decodeMsgSendResp fuel (.ofBytes body))
      .ackDecodeErr (m.onMsgSendResp userId) = some m') ∨
    (cmd = CMD.msgPushNotify ∧ m' = m.onMsgPushNotify userId) ∨
    (cmd = CMD.kickNotify ∧ m' = m.onKickNotify userId) ∨
    (cmd = CMD.msgSyncResp ∧ m.decoding userId (decodeMsgSyncResp fuel (.ofBytes body))
      .syncDecodeErr (m.onMsgSyncResp userId) = some m') ∨
    (cmd = CMD.heartbeatResp ∧ m.decoding userId (decodeHeartbeatResp fuel (.ofBytes body))
      .heartbeatAckErr (m.onHeartbeatResp userId) = some m') ∨
    (cmd ∉ handledCmds ∧ ∃ line, m' = m.log userId line) := by
  have hline : ∀ {line}, cmd ∉ handledCmds → some (m.log userId line) = some m' →
      cmd ∉ handledCmds ∧ ∃ line, m' = m.log userId line :=
    fun hother h ↦ ⟨hother, _, (Option.some.inj h).symm⟩
  rw [ConnectionManager.handleMessage] at h
  rcases ite_eq_iff.mp h with ⟨hlogin, h⟩ | ⟨hlogin, h⟩
  · exact .inl ⟨hlogin, h⟩
  rcases ite_eq_iff.mp h with ⟨hsend, h⟩ | ⟨-, h⟩
  · exact .inr (.inl ⟨hsend, h⟩)
  rcases ite_eq_iff.mp h with ⟨hpush, h⟩ | ⟨hpush, h⟩
  · exact .inr (.inr (.inl ⟨hpush, (Option.some.inj h).symm⟩))
  rcases ite_eq_iff.mp h with ⟨hkick, h⟩ | ⟨hkick, h⟩
  · exact .inr (.inr (.inr (.inl ⟨hkick, (Option.some.inj h).symm⟩)))
  refine .inr (.inr (.inr (.inr ?_)))
  rcases ite_eq_iff.mp h with ⟨hfriendApply, h⟩ | ⟨-, h⟩
  · exact .inr (.inr (hline (hfriendApply ▸ by decide) h))
  rcases ite_eq_iff.mp h with ⟨hfriendHandle, h⟩ | ⟨-, h⟩
  · exact .inr (.inr (hline (hfriendHandle ▸ by decide) h))
  rcases ite_eq_iff.mp h with ⟨hsync, h⟩ | ⟨hsync, h⟩
  · exact .inl ⟨hsync, h⟩
  rcases ite_eq_iff.mp h with ⟨hheartbeat, h⟩ | ⟨hheartbeat, h⟩
  · exact .inr (.inl ⟨hheartbeat, h⟩)
  -- the rest writes a line, whatever the command
  have hother : cmd ∉ handledCmds := by
    simp only [handledCmds, List.mem_cons, List.not_mem_nil, or_false, not_or]
    exact ⟨hlogin, hpush, hkick, hsync, hheartbeat⟩
  refine .inr (.inr ?_)
  rcases ite_eq_iff.mp h with ⟨-, h⟩ | ⟨-, h⟩
  · exact hline hother h
  rcases ite_eq_iff.mp h with ⟨-, h⟩ | ⟨-, h⟩
  · exact hline hother h
  rcases ite_eq_iff.mp h with ⟨-, h⟩ | ⟨-, h⟩
  · exact hline hother h
  exact hline hother h

/-- The first two lines of `onopen`. -/
def opening (m : ConnectionManager) (s : ℕ) : ConnectionManager :=
  (m.log (m.sockets s).userId (.connected (m.sockets s).gatewayUrl
    (m.sockets s).deviceType)).updateUserStatus (m.sockets s).userId .handshaking

theorem onopen_cases (m : ConnectionManager) (s random : ℕ) :
    m.onopen s random = opening m s ∨
      ∃ msg m₂, (opening m s).send s msg = some m₂ ∧
        m.onopen s random = m₂.log (m.sockets s).userId .sentLoginReq := by
  simp only [ConnectionManager.onopen]
  cases hlogin : encodeLoginReq (.id (m.sockets s).userId) (m.sockets s).password
      (m.sockets s).deviceType random with
  | none => exact .inl rfl
  | some loginBody =>
    rw [Option.bind_some]
    cases hsend : (opening m s).send s (buildMessage CMD.loginReq loginBody) with
    | none =>
      rw [opening] at hsend
      rw [hsend]
      exact .inl rfl
    | some m₂ =>
      have hsent := hsend
      rw [opening] at hsend
      rw [hsend]
      exact .inr ⟨_, m₂, hsent, rfl⟩

end dispatch

/-- What no handler changes. -/
structure Kept (m m' : ConnectionManager) : Prop where
  connections : m'.connections = m.connections
  created : m'.created = m.created
  userId : ∀ t, (m'.sockets t).userId = (m.sockets t).userId
  readyState : ∀ t, (m'.sockets t).readyState = (m.sockets t).readyState

namespace Kept

variable {m m' m'' : ConnectionManager} {userId : ℤ} {n s fuel : ℕ}

theorem refl (m : ConnectionManager) : Kept m m := ⟨rfl, rfl, fun _ ↦ rfl, fun _ ↦ rfl⟩

theorem trans (h : Kept m m') (h' : Kept m' m'') : Kept m m'' where
  connections := h'.connections.trans h.connections
  created := h'.created.trans h.created
  userId t := (h'.userId t).trans (h.userId t)
  readyState t := (h'.readyState t).trans (h.readyState t)

theorem modify (m : ConnectionManager) (n : ℕ) (f : State → State) : Kept m (m.modify n f) :=
  ⟨rfl, rfl, fun _ ↦ rfl, fun _ ↦ rfl⟩

theorem log (m : ConnectionManager) (userId : ℤ) (line : Line) : Kept m (m.log userId line) := by
  rw [ConnectionManager.log]
  split
  · exact modify m _ _
  · exact refl m

theorem updateUserStatus (m : ConnectionManager) (userId : ℤ) (status : Status) :
    Kept m (m.updateUserStatus userId status) := by
  rw [ConnectionManager.updateUserStatus]
  split
  · exact modify m _ _
  · exact refl m

theorem startHeartbeat (m : ConnectionManager) (userId : ℤ) : Kept m (m.startHeartbeat userId) := by
  rw [ConnectionManager.startHeartbeat]
  split
  · exact modify m _ _
  · exact refl m

theorem send {msg : Bytes} (h : m.send s msg = some m') : Kept m m' := by
  rw [ConnectionManager.send] at h
  split at h
  · cases h
  · obtain rfl := Option.some.inj h
    refine ⟨rfl, rfl, fun t ↦ ?_, fun t ↦ ?_⟩
    all_goals
      by_cases hts : t = s
      · subst hts
        simp
      · simp [hts]
  all_goals
    obtain rfl := Option.some.inj h
    exact refl m

/-- With what the caller of `syncMessages` does about an exception. -/
theorem syncMessages (m : ConnectionManager) (userId : ℤ) (line : Line) :
    Kept m ((m.syncMessages userId).getD (m.log userId line)) := by
  cases hsync : m.syncMessages userId with
  | none => exact log m userId line
  | some m' =>
    rw [Option.getD_some]
    simp only [ConnectionManager.syncMessages] at hsync
    split at hsync
    · obtain rfl := Option.some.inj hsync
      exact refl m
    split_ifs at hsync
    · obtain rfl := Option.some.inj hsync
      exact refl m
    obtain ⟨body, _, hsent⟩ := Option.bind_eq_some_iff.mp hsync
    obtain ⟨m₁, hm₁, rfl⟩ := Option.map_eq_some_iff.mp hsent
    exact (send hm₁).trans (log m₁ _ _)

theorem received (m : ConnectionManager) (userId : ℤ) (msgs : List MessageData) :
    Kept m (msgs.foldl
      (fun m msg ↦ m.log userId (.received msg.senderId msg.content msg.type)) m) := by
  induction msgs generalizing m with
  | nil => exact refl m
  | cons msg msgs ih => exact (log m _ _).trans (ih _)

theorem decoding {α : Type} {decoded : Outcome α} {err : Line} {handle : α → ConnectionManager}
    (h : m.decoding userId decoded err handle = some m') (hhandle : ∀ r, Kept m (handle r)) :
    Kept m m' := by
  cases decoded with
  | returns r =>
    obtain rfl := Option.some.inj h
    exact hhandle r
  | throws =>
    obtain rfl := Option.some.inj h
    exact log m _ err
  | running => cases h

theorem onLoginResp (r : LoginResult) : Kept m (m.onLoginResp userId r) := by
  rw [ConnectionManager.onLoginResp]
  split_ifs
  · exact (((updateUserStatus m _ _).trans (log _ _ _)).trans (startHeartbeat _ _)).trans
      (syncMessages _ _ _)
  · exact log m _ _

theorem onMsgSendResp (r : SendResult) : Kept m (m.onMsgSendResp userId r) := by
  rw [ConnectionManager.onMsgSendResp]
  split_ifs <;> exact log m _ _

theorem onMsgSyncResp (r : SyncResult) : Kept m (m.onMsgSyncResp userId r) := by
  rw [ConnectionManager.onMsgSyncResp]
  split
  · exact refl m
  simp only []
  split_ifs
  · exact modify m _ _
  · exact ((modify m _ _).trans (log _ _ _)).trans (received _ _ _)

theorem onHeartbeatResp (r : HeartbeatResult) : Kept m (m.onHeartbeatResp userId r) := by
  rw [ConnectionManager.onHeartbeatResp]
  simp only []
  split
  · exact log m _ _
  split_ifs
  · exact ((log m _ _).trans (log _ _ _)).trans (syncMessages _ _ _)
  · exact log m _ _

theorem handleMessage {cmd : ℕ} {body : Bytes}
    (h : m.handleMessage userId fuel cmd body = some m') : Kept m m' := by
  rcases handled h with ⟨-, h⟩ | ⟨-, h⟩ | ⟨-, h⟩ | ⟨-, h⟩ | ⟨-, h⟩ | ⟨-, h⟩ | ⟨-, line, h⟩
  · exact decoding h onLoginResp
  · exact decoding h onMsgSendResp
  · rw [h]
    exact (log m _ _).trans (syncMessages _ _ _)
  · rw [h]
    exact (log m _ _).trans (updateUserStatus _ _ _)
  · exact decoding h onMsgSyncResp
  · exact decoding h onHeartbeatResp
  · rw [h]
    exact log m _ line

theorem onopen (m : ConnectionManager) (s random : ℕ) : Kept m (m.onopen s random) := by
  have hopening : Kept m (opening m s) := (log m _ _).trans (updateUserStatus _ _ _)
  obtain h | ⟨msg, m₂, hsend, h⟩ := onopen_cases m s random
  · rw [h]
    exact hopening
  · rw [h]
    exact (hopening.trans (send hsend)).trans (log m₂ _ _)

end Kept

section fire

variable {m m' : ConnectionManager} {s fuel : ℕ}

theorem fire_open {random : ℕ} (h : m.fire s fuel (.open random) = some m') :
    m' = (m.setReadyState s .opened).onopen s random := by
  obtain ⟨-, h⟩ := Option.ite_none_right_eq_some.mp h
  exact (Option.some.inj h).symm

theorem fire_message {data : Bytes} (h : m.fire s fuel (.message data) = some m') :
    (∃ header body, parseMessage data = .ok (header, body) ∧
      m.handleMessage (m.sockets s).userId fuel header.cmd body = some m') ∨
    (∃ text, parseMessage data = .error text ∧ m' = m.log (m.sockets s).userId .parseError) := by
  obtain ⟨-, h⟩ := Option.ite_none_right_eq_some.mp h
  rw [ConnectionManager.onmessage] at h
  cases hparse : parseMessage data with
  | ok parsed =>
    rw [hparse] at h
    exact .inl ⟨parsed.1, parsed.2, rfl, h⟩
  | error text =>
    rw [hparse] at h
    exact .inr ⟨text, rfl, (Option.some.inj h).symm⟩

theorem fire_error (h : m.fire s fuel .error = some m') : m' = m.onerror s := by
  obtain ⟨-, h⟩ := Option.ite_none_right_eq_some.mp h
  exact (Option.some.inj h).symm

theorem fire_close (h : m.fire s fuel .close = some m') :
    m' = (m.setReadyState s .closed).onclose s := by
  obtain ⟨-, h⟩ := Option.ite_none_right_eq_some.mp h
  exact (Option.some.inj h).symm

theorem connections_fire {e : Event} (h : m.fire s fuel e = some m') :
    m'.connections = m.connections := by
  cases e with
  | «open» random =>
    obtain rfl := fire_open h
    exact (Kept.onopen (m.setReadyState s .opened) s random).connections
  | message data =>
    obtain ⟨header, body, -, h⟩ | ⟨text, -, rfl⟩ := fire_message h
    · exact (Kept.handleMessage h).connections
    · exact connections_log m _
  | error =>
    obtain rfl := fire_error h
    exact connections_log m _
  | close =>
    obtain rfl := fire_close h
    rw [ConnectionManager.onclose]
    split_ifs
    · rw [connections_log, connections_updateUserStatus]
      rfl
    · rw [connections_log]
      rfl

end fire

end TinyIM.Web.Handlers
