import TinyIM.Web.Handlers

namespace TinyIM.Web.SupersededSocket

open Library.ByteOrder Library.Transition Protocol.WireFormat Handlers

/-- Socket `s` was made for a user whose record is by now that of socket `n`. -/
structure Superseded (m : ConnectionManager) (s n : ℕ) : Prop where
  created : s < m.created
  current : m.connections (m.sockets s).userId = some n
  ne : s ≠ n

/-- The newer record and its socket are as they were. -/
structure Undisturbed (m m' : ConnectionManager) (userId : ℤ) (n : ℕ) : Prop where
  current : m'.connections userId = some n
  status : (m'.states n).status = (m.states n).status
  localSeq : (m'.states n).localSeq = (m.states n).localSeq
  sent : (m'.sockets n).sent = (m.sockets n).sent

theorem undisturbed_iff_face {m m' : ConnectionManager} {userId : ℤ} {n : ℕ}
    (h : m'.connections userId = some n) :
    Undisturbed m m' userId n ↔ face m' n = face m n := by
  rw [Face.ext_iff]
  exact ⟨fun ⟨_, h₁, h₂, h₃⟩ ↦ ⟨h₁, h₂, h₃⟩, fun ⟨h₁, h₂, h₃⟩ ↦ ⟨h, h₁, h₂, h₃⟩⟩

/-- A packet that changes nothing when it arrives for a record of which the
socket is in state `readyState`. -/
def HarmlessMessage (fuel : ℕ) (conn : State) (readyState : ReadyState) (cmd : ℕ) (body : Bytes) :
    Prop :=
  if cmd = CMD.loginResp then
    ∀ r, decodeLoginResp fuel (.ofBytes body) = .returns r → r.success →
      conn.status = .online ∧ readyState ≠ .opened
  else if cmd = CMD.msgPushNotify then ¬ (conn.status = .online ∧ readyState = .opened)
  else if cmd = CMD.kickNotify then conn.status = .kicked
  else if cmd = CMD.msgSyncResp then
    ∀ r, decodeMsgSyncResp fuel (.ofBytes body) = .returns r → r.maxSeq ≤ conn.localSeq
  else if cmd = CMD.heartbeatResp then
    ∀ r, decodeHeartbeatResp fuel (.ofBytes body) = .returns r → conn.localSeq < r.maxSeqId →
      ¬ (conn.status = .online ∧ readyState = .opened)
  else True

def Harmless (fuel : ℕ) (conn : State) (readyState : ReadyState) : Event → Prop
  | .open _ => conn.status = .handshaking
  | .message data => ∀ header body, parseMessage data = .ok (header, body) →
      HarmlessMessage fuel conn readyState header.cmd body
  | .error => True
  | .close => True

section events

variable {m m' : ConnectionManager} {userId : ℤ} {n s fuel : ℕ}

theorem face_status_iff {f : Face} {status : Status} : { f with status } = f ↔ f.status = status := by
  rw [Face.ext_iff]
  simp [eq_comm]

theorem syncMessages_iff (f : Face) (userId : ℤ) (readyState : ReadyState) :
    f.syncMessages userId readyState = f ↔ ¬ (f.status = .online ∧ readyState = .opened) := by
  rw [Face.syncMessages]
  split_ifs with hsync
  · refine iff_of_false (fun heq ↦ ?_) (not_not_intro hsync)
    have hlength := congrArg (fun f ↦ f.sent.length) heq
    simp at hlength
  · exact iff_of_true rfl hsync

theorem onLoginResp_iff (f : Face) (userId : ℤ) (readyState : ReadyState) (r : LoginResult) :
    f.onLoginResp userId readyState r = f ↔
      (r.success → f.status = .online ∧ readyState ≠ .opened) := by
  rw [Face.onLoginResp]
  split_ifs with hsuccess
  · rw [Face.syncMessages]
    split_ifs with hsync
    · refine iff_of_false (fun heq ↦ ?_) (fun hr ↦ (hr hsuccess).2 hsync.2)
      have hsent := congrArg Face.sent heq
      simp at hsent
    · rw [face_status_iff]
      exact ⟨fun hstatus _ ↦ ⟨hstatus, fun hready ↦ hsync ⟨rfl, hready⟩⟩, fun hr ↦ (hr hsuccess).1⟩
  · exact iff_of_true rfl (fun hr ↦ absurd hr hsuccess)

theorem onMsgSyncResp_iff (f : Face) (r : SyncResult) :
    f.onMsgSyncResp r = f ↔ r.maxSeq ≤ f.localSeq := by
  rw [Face.onMsgSyncResp]
  split_ifs with hlt
  · exact iff_of_false (fun heq ↦ hlt.ne' (congrArg Face.localSeq heq)) (not_le.mpr hlt)
  · exact iff_of_true rfl (not_lt.mp hlt)

theorem onHeartbeatResp_iff (f : Face) (userId : ℤ) (readyState : ReadyState)
    (r : HeartbeatResult) : f.onHeartbeatResp userId readyState r = f ↔
      (f.localSeq < r.maxSeqId → ¬ (f.status = .online ∧ readyState = .opened)) := by
  rw [Face.onHeartbeatResp]
  split_ifs with hlt
  · rw [syncMessages_iff]
    exact ⟨fun hsync _ ↦ hsync, fun hsync ↦ hsync hlt⟩
  · exact iff_of_true rfl (fun hlt' ↦ absurd hlt' hlt)

theorem onopen_face (hs : Superseded m s n) (random : ℕ) :
    face ((m.setReadyState s .opened).onopen s random) n =
      { face m n with status := .handshaking } := by
  have hcurrent : (m.setReadyState s .opened).connections
      ((m.setReadyState s .opened).sockets s).userId = some n := by
    simpa [ConnectionManager.setReadyState] using hs.current
  have hface : face (opening (m.setReadyState s .opened) s) n =
      { face m n with status := .handshaking } := by
    rw [opening, face_updateUserStatus _ (by rwa [connections_log]), face_log, face_setReadyState]
  obtain h | ⟨msg, m₂, hsend, h⟩ := onopen_cases (m.setReadyState s .opened) s random
  · rw [h, hface]
  · rw [h, face_log, face_send _ hs.ne.symm hsend, hface]

theorem onclose_face (hs : Superseded m s n) :
    face ((m.setReadyState s .closed).onclose s) n = face m n := by
  have huser : ((m.setReadyState s .closed).sockets s).userId = (m.sockets s).userId := by
    simp [ConnectionManager.setReadyState]
  have hne : (m.setReadyState s .closed).connections (m.sockets s).userId ≠ some s := by
    rw [show (m.setReadyState s .closed).connections = m.connections from rfl, hs.current]
    exact fun h ↦ hs.ne (Option.some.inj h).symm
  rw [ConnectionManager.onclose, huser, if_neg hne, face_log, face_setReadyState]

/-- What a handler with a decoder does, from what it does with a result. -/
theorem decoding_iff {α : Type} {decoded : Outcome α} {err : Line}
    {handle : α → ConnectionManager} {P : α → Prop}
    (h : m.decoding userId decoded err handle = some m')
    (hhandle : ∀ r, face (handle r) n = face m n ↔ P r) :
    face m' n = face m n ↔ ∀ r, decoded = .returns r → P r := by
  cases decoded with
  | returns r =>
    obtain rfl := Option.some.inj h
    rw [hhandle]
    exact ⟨fun hr r' hr' ↦ Outcome.returns.inj hr' ▸ hr, fun hr ↦ hr r rfl⟩
  | throws =>
    obtain rfl := Option.some.inj h
    exact iff_of_true (face_log m _) nofun
  | running => cases h

theorem harmlessMessage_other {conn : State} {readyState : ReadyState} {cmd : ℕ} {body : Bytes}
    (hother : cmd ∉ handledCmds) : HarmlessMessage fuel conn readyState cmd body := by
  simp only [handledCmds, List.mem_cons, List.not_mem_nil, or_false, not_or] at hother
  obtain ⟨hlogin, hpush, hkick, hsync, hheartbeat⟩ := hother
  rw [HarmlessMessage, if_neg hlogin, if_neg hpush, if_neg hkick, if_neg hsync, if_neg hheartbeat]
  trivial

theorem handleMessage_iff (hn : m.connections userId = some n) {cmd : ℕ} {body : Bytes}
    (h : m.handleMessage userId fuel cmd body = some m') :
    face m' n = face m n ↔
      HarmlessMessage fuel (m.states n) (m.sockets n).readyState cmd body := by
  rcases handled h with ⟨rfl, hm⟩ | ⟨rfl, hm⟩ | ⟨rfl, rfl⟩ | ⟨rfl, rfl⟩ | ⟨rfl, hm⟩ | ⟨rfl, hm⟩ |
    ⟨hother, line, rfl⟩
  · rw [HarmlessMessage, if_pos rfl]
    exact decoding_iff hm fun r ↦ face_onLoginResp m hn r ▸ onLoginResp_iff (face m n) _ _ r
  · refine iff_of_true ((decoding_iff (P := fun _ ↦ True) hm fun ack ↦ ?_).mpr fun _ _ ↦ trivial)
      (harmlessMessage_other (by decide))
    exact iff_of_true (face_onMsgSendResp m ack) trivial
  · rw [HarmlessMessage, if_neg (by decide), if_pos rfl]
    exact face_onMsgPushNotify m hn ▸ syncMessages_iff (face m n) _ _
  · rw [HarmlessMessage, if_neg (by decide), if_neg (by decide), if_pos rfl]
    exact face_onKickNotify m hn ▸ face_status_iff
  · rw [HarmlessMessage, if_neg (by decide), if_neg (by decide), if_neg (by decide), if_pos rfl]
    exact decoding_iff hm fun r ↦ face_onMsgSyncResp m hn r ▸ onMsgSyncResp_iff (face m n) r
  · rw [HarmlessMessage, if_neg (by decide), if_neg (by decide), if_neg (by decide),
      if_neg (by decide), if_pos rfl]
    exact decoding_iff hm fun r ↦
      face_onHeartbeatResp m hn r ▸ onHeartbeatResp_iff (face m n) _ _ r
  · exact iff_of_true (face_log m line) (harmlessMessage_other hother)

end events

/-- Exactly what an event of a superseded socket may be. -/
theorem undisturbed_iff {m m' : ConnectionManager} {s n fuel : ℕ} (hs : Superseded m s n)
    {e : Event} (hstep : m.step fuel (.fire s e) = some m') :
    Undisturbed m m' (m.sockets s).userId n ↔
      Harmless fuel (m.states n) (m.sockets n).readyState e := by
  have hfire : m.fire s fuel e = some m' := by
    rw [ConnectionManager.step, if_pos hs.created] at hstep
    exact hstep
  have hcurrent : m'.connections (m.sockets s).userId = some n := by
    rw [connections_fire hfire]
    exact hs.current
  rw [undisturbed_iff_face hcurrent]
  cases e with
  | «open» random =>
    obtain rfl := fire_open hfire
    rw [onopen_face hs]
    exact face_status_iff
  | message data =>
    obtain ⟨header, body, hparse, hhandle⟩ | ⟨text, hparse, rfl⟩ := fire_message hfire
    · rw [handleMessage_iff hs.current hhandle, Harmless]
      refine ⟨fun hharmless header' body' hparse' ↦ ?_, fun hharmless ↦ hharmless header body hparse⟩
      obtain ⟨rfl, rfl⟩ := Prod.mk.inj (Except.ok.inj (hparse.symm.trans hparse'))
      exact hharmless
    · refine iff_of_true (face_log m _) fun header body hparse' ↦ ?_
      cases hparse.symm.trans hparse'
  | error =>
    obtain rfl := fire_error hfire
    exact iff_of_true (face_log m _) trivial
  | close =>
    obtain rfl := fire_close hfire
    exact iff_of_true (onclose_face hs) trivial

/-- User 7 has connected twice, and the first socket is open. -/
def reconnecting : ConnectionManager :=
  ((ConnectionManager.init.createConnection 7 [] 2 []).setReadyState 0 .opened).createConnection
    7 [] 2 []

/-- The first socket gets a kick, or a reply without messages. -/
theorem undisturbed_iff_reconnecting :
    (Undisturbed reconnecting (reconnecting.onKickNotify 7) 7 1 ↔
        Harmless 0 (reconnecting.states 1) (reconnecting.sockets 1).readyState
          (.message (buildMessage CMD.kickNotify []))) ∧
      (Undisturbed reconnecting (reconnecting.onMsgSyncResp 7 {}) 7 1 ↔
        Harmless 0 (reconnecting.states 1) (reconnecting.sockets 1).readyState
          (.message (buildMessage CMD.msgSyncResp []))) := by
  have hs : Superseded reconnecting 0 1 := ⟨by decide, by decide, by decide⟩
  have hfire : ∀ data, reconnecting.step 0 (.fire 0 (.message data)) = reconnecting.onmessage 0 0 data := by
    intro data
    rw [ConnectionManager.step, if_pos (by decide), ConnectionManager.fire, if_pos (by decide)]
  have hkick : parseMessage (buildMessage CMD.kickNotify []) = .ok (⟨(73, 77), 1, CMD.kickNotify, 0⟩, []) := by rfl
  have hreply : parseMessage (buildMessage CMD.msgSyncResp []) = .ok (⟨(73, 77), 1, CMD.msgSyncResp, 0⟩, []) := by rfl
  refine ⟨undisturbed_iff hs ?_, undisturbed_iff hs ?_⟩
  · rw [hfire, ConnectionManager.onmessage, hkick]
    rfl
  · rw [hfire, ConnectionManager.onmessage, hreply]
    rfl

/-- The first socket of user 7 opens, the user connects again, and the server
kicks the first connection. -/
theorem not_undisturbed : ∃ m m', m.Reachable 0 ∧ Superseded m 0 1 ∧
    m.step 0 (.fire 0 (.message (buildMessage CMD.kickNotify []))) = some m' ∧
    ¬ Undisturbed m m' 7 1 := by
  have hreach : (((ConnectionManager.init.createConnection 7 [] 2 []).setReadyState 0
      .opened).onopen 0 0).Reachable 0 :=
    ((Reach.refl _).tail (a := .createConnection 7 [] 2 []) trivial rfl).tail
      (a := .fire 0 (.open 0)) trivial rfl
  obtain ⟨m₁, hm₁⟩ : ∃ m₁, ((ConnectionManager.init.createConnection 7 [] 2 []).setReadyState 0
    .opened).onopen 0 0 = m₁ := ⟨_, rfl⟩
  obtain ⟨hcreated, huser, hready⟩ : m₁.created = 1 ∧ (m₁.sockets 0).userId = 7 ∧
      (m₁.sockets 0).readyState = .opened := by
    have hkept := Kept.onopen ((ConnectionManager.init.createConnection 7 [] 2 []).setReadyState 0
      .opened) 0 0
    rw [hm₁] at hkept
    exact ⟨hkept.created, hkept.userId 0, hkept.readyState 0⟩
  rw [hm₁] at hreach
  have hsocket : (m₁.createConnection 7 [] 2 []).sockets 0 = m₁.sockets 0 := by
    simp [ConnectionManager.createConnection, hcreated]
  have hcurrent : (m₁.createConnection 7 [] 2 []).connections 7 = some 1 := by
    simp [ConnectionManager.createConnection, hcreated]
  have hstatus : ((m₁.createConnection 7 [] 2 []).states 1).status = .connecting := by
    simp [ConnectionManager.createConnection, hcreated]
  have hcreated' : (m₁.createConnection 7 [] 2 []).created = 2 := by
    simp [ConnectionManager.createConnection, hcreated]
  refine ⟨m₁.createConnection 7 [] 2 [], (m₁.createConnection 7 [] 2 []).onKickNotify 7,
    hreach.tail (a := .createConnection 7 [] 2 []) trivial rfl,
    ⟨by omega, by rwa [hsocket, huser], by decide⟩, ?_, ?_⟩
  · have hparse : parseMessage (buildMessage CMD.kickNotify []) =
        .ok (⟨(73, 77), 1, CMD.kickNotify, 0⟩, []) := by rfl
    rw [ConnectionManager.step, if_pos (by omega), ConnectionManager.fire, hsocket, if_pos hready,
      ConnectionManager.onmessage, hsocket, huser, hparse]
    rfl
  · intro h
    have hface := (undisturbed_iff_face h.current).mp h
    rw [face_onKickNotify _ hcurrent, face_status_iff] at hface
    cases hstatus.symm.trans hface

end TinyIM.Web.SupersededSocket
