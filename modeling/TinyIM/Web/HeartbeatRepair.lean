import TinyIM.Gateway.Dispatch
import TinyIM.Web.SyncLoop

namespace TinyIM.Web.HeartbeatRepair

open Library.ByteOrder Library.Table Library.Transition Protocol Protocol.WireFormat Store Chat
  Gateway Gateway.Dispatch Handlers SyncLoop

/-- A step of the connection, or the loss of a push or of a packet to the client. -/
inductive Event
  | act (a : SyncLoop.Action)
  | losePush
  | lose (i : ℕ)
  deriving DecidableEq, Repr

def lossyStep (u : ℤ) (s : Loop) : Event → Option Loop
  | .act a => s.step u a
  | .losePush => if 0 < s.pushing then some { s with pushing := s.pushing - 1 } else none
  | .lose i =>
    if i < s.toClient.length then some { s with toClient := s.toClient.eraseIdx i } else none

/-- The client is online and its inbox holds a row beyond its cursor. -/
structure Behind (u : ℤ) (s : Loop) : Prop where
  online : s.client.status = .online
  missing : ∃ r ∈ s.world.index.rows, r.ownerId = u ∧ s.client.localSeq < r.seqId

/-- Record `n` sends a heartbeat, the gateway answers it, and for the answer the
page sends a pull that carries `localSeq`. -/
def Repairs (e : Endian) (pb : Codec) (out : Surroundings) (session : Session)
    (m : Web.ConnectionManager) (u : ℤ) (n : ℕ) (localSeq : ℤ) : Prop :=
  ∃ body m' new,
    posted (handlePacket e pb out session ⟨CommandID.heartbeatReq.value, []⟩).effects =
      [sendPacket e CommandID.heartbeatResp.value body] ∧
    (m.heartbeatTick n).handleMessage u body.length CMD.heartbeatResp body = some m' ∧
    (m'.sockets n).sent = ((m.heartbeatTick n).sockets n).sent ++ new ∧
    syncPacket u localSeq ∈ new

section cursor

variable {u : ℤ} {s s' : Loop}

theorem localSeq_le_handleMessage (c : Client) (d : Down) :
    c.localSeq ≤ (c.handleMessage d).1.localSeq := by
  cases d with
  | loginResp success =>
    rw [Client.handleMessage]
    split_ifs
    · exact le_rfl
    · exact le_rfl
  | heartbeatResp => exact le_rfl
  | msgPushNotify => exact le_rfl
  | msgSyncResp resp =>
    rw [Client.handleMessage, Client.onSyncResp]
    split_ifs with hlt
    · exact hlt.le
    · exact le_rfl

theorem localSeq_le_step {a : SyncLoop.Action} (h : s.step u a = some s') :
    s.client.localSeq ≤ s'.client.localSeq := by
  cases a with
  | receive =>
    obtain ⟨d, rest, -, rfl⟩ := Loop.receive_cases h
    exact localSeq_le_handleMessage s.client d
  | serve seen =>
    obtain ⟨q, rest, d, -, -, -, rfl⟩ := Loop.serve_cases h
    exact le_rfl
  | post =>
    obtain ⟨d, -, rfl⟩ := Option.map_eq_some_iff.mp h
    exact le_rfl
  | insert r | deliver route ownerId otherId msgId | push | arrive | «open» | heartbeat =>
    obtain ⟨-, h⟩ := Option.ite_none_right_eq_some.mp h
    obtain rfl := Option.some.inj h
    exact le_rfl
  | store senderId groupId msgType content | tick clock | draw ownerId | session present | sync =>
    obtain rfl := Option.some.inj h
    exact le_rfl

theorem localSeq_le_lossyStep {ev : Event} (h : lossyStep u s ev = some s') :
    s.client.localSeq ≤ s'.client.localSeq := by
  cases ev with
  | act a => exact localSeq_le_step h
  | losePush | lose i =>
    obtain ⟨-, h⟩ := Option.ite_none_right_eq_some.mp h
    obtain rfl := Option.some.inj h
    exact le_rfl

/-- The cursor of a client starts at 0 and never goes back. -/
theorem localSeq_nonneg {members : Keyed MemberRow.key} {relations : Keyed RelationRow.key}
    {r : Redis} (h : Reach (lossyStep u) anyStep (start members relations r) s) :
    0 ≤ s.client.localSeq :=
  h.invariant (I := fun s ↦ 0 ≤ s.client.localSeq)
    (fun _ _ _ _ hs hi ↦ hi.trans (localSeq_le_lossyStep hs)) le_rfl

end cursor

section page

variable {m m' : Web.ConnectionManager} {u : ℤ} {n fuel : ℕ} {c : Client} {sent : List Bytes}

theorem shows_heartbeatTick (h : Shows m u n c sent) :
    Shows (m.heartbeatTick n) u n c (sent ++ [buildMessage CMD.heartbeatReq []]) := by
  obtain ⟨hstatus, hseq, hsent⟩ := Face.mk.inj h.face
  rw [ConnectionManager.heartbeatTick, if_pos h.opened, ConnectionManager.send, h.opened]
  refine ⟨h.current, by simp [h.opened], ?_⟩
  simp [face, hstatus, hseq, hsent]

/-- On the gateway's reply the page sends nothing. -/
theorem sent_heartbeatResp (h : Shows m u n c sent) (hseq : 0 ≤ c.localSeq)
    (hm : m.handleMessage u fuel CMD.heartbeatResp [] = some m') : (m'.sockets n).sent = sent := by
  have hcarries : Carries CMD.heartbeatResp [] .heartbeatResp := ⟨rfl, rfl⟩
  obtain ⟨m₁, new, hm₁, hshown, hsent⟩ := handleMessage_refines h hcarries (Nat.zero_le fuel)
  obtain rfl := Option.some.inj (hm.symm.trans hm₁)
  have hnone : (c.handleMessage .heartbeatResp).2 = [] := if_neg (not_lt.mpr hseq)
  rw [hnone] at hsent
  obtain rfl := List.forall₂_nil_left_iff.mp hsent
  rw [List.append_nil] at hshown
  exact congrArg Face.sent hshown.face

theorem not_repairs (e : Endian) (pb : Codec) (out : Surroundings) (session : Session)
    (h : Shows m u n c sent) (hseq : 0 ≤ c.localSeq) :
    ¬ Repairs e pb out session m u n c.localSeq := by
  rintro ⟨body, m', new, hposted, hm', hsent, hpull⟩
  rw [handlePacket_heartbeat e pb out session rfl] at hposted
  obtain rfl := eq_nil_of_sendPacket e (List.singleton_inj.mp hposted.symm)
  have hticked := shows_heartbeatTick h
  have hbefore : ((m.heartbeatTick n).sockets n).sent = _ := congrArg Face.sent hticked.face
  rw [sent_heartbeatResp hticked hseq hm', hbefore] at hsent
  obtain rfl := List.self_eq_append_right.mp hsent
  cases hpull

end page

/-- Whatever was lost, and wherever the client stands. -/
theorem heartbeat_never_repairs {u : ℤ} {members : Keyed MemberRow.key}
    {relations : Keyed RelationRow.key} {r : Redis} {s : Loop}
    (hs : Reach (lossyStep u) anyStep (start members relations r) s) {m : Web.ConnectionManager}
    {n : ℕ} {sent : List Bytes} (hm : Shows m u n s.client sent) (e : Endian) (pb : Codec)
    (out : Surroundings) (session : Session) :
    ¬ Repairs e pb out session m u n s.client.localSeq :=
  not_repairs e pb out session hm (localSeq_nonneg hs)

/-- User 2 is online and has pulled when a message comes in whose push is lost. -/
def lostPush : List Event :=
  [.open, .serve 0, .post, .receive, .serve 0, .post, .receive, .store 1 0 0 [],
    .deliver .single 2 1 1].map .act ++ [.losePush]

/-- The page of user 2 after the login. -/
def loggedIn : List Web.Action :=
  [.createConnection 2 [] 2 [], .fire 0 (.open 0),
    .fire 0 (.message (buildMessage CMD.loginResp [8, 2, 32, 1]))]

theorem exists_behind : ∃ s, Reach (lossyStep 2) anyStep (start .empty .empty .empty) s ∧
    s.client = ⟨.online, 0⟩ ∧ Behind 2 s := by
  have hrun : ((exec (lossyStep 2) anyStep (start .empty .empty .empty) lostPush).map fun s ↦
      decide (s.client = ⟨.online, 0⟩ ∧ ∃ r ∈ s.world.index.rows, r.ownerId = 2 ∧ 0 < r.seqId)) =
        some true := by decide +kernel
  obtain ⟨s, hs, hbehind⟩ := Option.map_eq_some_iff.mp hrun
  obtain ⟨hclient, r, hr, howner, hseq⟩ := of_decide_eq_true hbehind
  refine ⟨s, reach_of_exec _ hs, hclient, by rw [hclient], r, hr, howner, ?_⟩
  rw [hclient]
  exact Int.natCast_pos.mpr hseq

theorem exists_page : ∃ m sent, ConnectionManager.Reachable 4 m ∧ Shows m 2 0 ⟨.online, 0⟩ sent := by
  have hrun : ((exec (fun m a ↦ m.step 4 a) anyStep ConnectionManager.init loggedIn).map fun m ↦
      decide (m.connections 2 = some 0 ∧ (m.sockets 0).readyState = .opened ∧
        (m.states 0).status = .online ∧ (m.states 0).localSeq = 0)) = some true := by decide +kernel
  obtain ⟨m, hm, hface⟩ := Option.map_eq_some_iff.mp hrun
  obtain ⟨hcurrent, hopened, hstatus, hseq⟩ := of_decide_eq_true hface
  exact ⟨m, (m.sockets 0).sent, reach_of_exec _ hm, hcurrent, hopened, by rw [face, hstatus, hseq]⟩

theorem heartbeat_never_repairs_lost : ∃ s m, Behind 2 s ∧ ConnectionManager.Reachable 4 m ∧
    ¬ Repairs .little loginCodec backendsDown ⟨2, ascii "PC"⟩ m 2 0 s.client.localSeq := by
  obtain ⟨s, hs, hclient, hbehind⟩ := exists_behind
  obtain ⟨m, sent, hreach, hm⟩ := exists_page
  rw [← hclient] at hm
  exact ⟨s, m, hbehind, hreach, heartbeat_never_repairs hs hm _ _ _ _⟩

/-- The only push for user 2 was lost. -/
theorem not_heartbeat_repairs : ¬ ∀ (u : ℤ) (s : Loop) (m : Web.ConnectionManager) (n : ℕ)
    (sent : List Bytes), Reach (lossyStep u) anyStep (start .empty .empty .empty) s → Behind u s →
    ConnectionManager.Reachable 4 m → Shows m u n s.client sent →
    Repairs .little loginCodec backendsDown ⟨u, ascii "PC"⟩ m u n s.client.localSeq := by
  intro h
  obtain ⟨s, hs, hclient, hbehind⟩ := exists_behind
  obtain ⟨m, sent, hreach, hm⟩ := exists_page
  rw [← hclient] at hm
  have hrepairs := h 2 s m 0 sent hs hbehind hreach hm
  exact not_repairs .little loginCodec backendsDown ⟨2, ascii "PC"⟩ hm (localSeq_nonneg hs) hrepairs

end TinyIM.Web.HeartbeatRepair
