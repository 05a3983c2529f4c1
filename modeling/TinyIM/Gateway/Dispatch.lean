import TinyIM.Gateway.Session

namespace TinyIM.Gateway.Dispatch

open Library.ByteOrder Library.Decimal Protocol Protocol.WireFormat

inductive Request
  | rpc (m : Rpc)
  | heartbeat
  | login
  deriving DecidableEq, Repr

namespace Request

def cmd : Request → CommandID
  | rpc .sendMessage => .msgSendReq
  | rpc .syncMessages => .msgSyncReq
  | rpc .applyFriend => .friendApplyReq
  | rpc .acceptFriend => .friendAcceptReq
  | rpc .getFriendList => .friendListReq
  | rpc .createGroup => .groupCreateReq
  | rpc .joinGroup => .groupJoinReq
  | rpc .getGroupList => .groupListReq
  | rpc .applyGroup => .groupApplyReq
  | rpc .acceptGroup => .groupAcceptReq
  | heartbeat => .heartbeatReq
  | login => .loginReq

def resp : Request → CommandID
  | rpc .sendMessage => .msgSendResp
  | rpc .syncMessages => .msgSyncResp
  | rpc .applyFriend => .friendApplyResp
  | rpc .acceptFriend => .friendAcceptResp
  | rpc .getFriendList => .friendListResp
  | rpc .createGroup => .groupCreateResp
  | rpc .joinGroup => .groupJoinResp
  | rpc .getGroupList => .groupListResp
  | rpc .applyGroup => .groupApplyResp
  | rpc .acceptGroup => .groupAcceptResp
  | heartbeat => .heartbeatResp
  | login => .loginResp

def all : List Request :=
  [rpc .sendMessage, rpc .syncMessages, rpc .applyFriend, rpc .acceptFriend, rpc .getFriendList,
    rpc .createGroup, rpc .joinGroup, rpc .getGroupList, rpc .applyGroup, rpc .acceptGroup,
    heartbeat, login]

def ofCmd (c : UInt16) : Option Request := all.find? fun r ↦ r.cmd.value = c

theorem mem_all (r : Request) : r ∈ all := by
  cases r with
  | rpc m => cases m <;> decide
  | heartbeat => decide
  | login => decide

theorem cmd_injective : Function.Injective cmd := by
  intro r r' h
  have hall : ∀ r ∈ all, ∀ r' ∈ all, r.cmd = r'.cmd → r = r' := by decide
  exact hall r (mem_all r) r' (mem_all r') h

theorem ofCmd_eq_some {c : UInt16} {r : Request} : ofCmd c = some r ↔ r.cmd.value = c := by
  constructor
  · intro h
    simpa using List.find?_some h
  · intro heq
    obtain rfl := heq
    cases hfind : ofCmd r.cmd.value with
    | none =>
      have hnone := List.find?_eq_none.mp hfind r (mem_all r)
      simp at hnone
    | some r' =>
      have hval : r'.cmd.value = r.cmd.value := by simpa using List.find?_some hfind
      rw [cmd_injective (CommandID.value_injective hval)]

theorem ofCmd_eq_none {c : UInt16} : ofCmd c = none ↔ ∀ r : Request, r.cmd.value ≠ c := by
  rw [Option.eq_none_iff_forall_ne_some]
  exact forall_congr' fun r ↦ not_congr ofCmd_eq_some

end Request

variable (e : Endian) (pb : Codec) (out : Surroundings) (s : Session)

/-- The request a body stands for: the two list requests are not parsed. -/
def incoming (m : Rpc) (body : Bytes) : Option m.Req :=
  match m with
  | .getFriendList => some {}
  | .getGroupList => some {}
  | m => pb.parse m body

theorem handlePacket_rpc {p : Packet} {m : Rpc} (h : (Request.rpc m).cmd.value = p.cmdId) :
    ∃ answer : Status × m.Resp → m.Resp, handlePacket e pb out s p =
      match incoming pb m p.body with
      | some req => forward e pb out s m (Request.rpc m).resp answer req
      | none => ⟨s, []⟩ := by
  cases m <;> simp only [handlePacket, ← h, Request.cmd] <;> exact ⟨_, rfl⟩

theorem handlePacket_heartbeat {p : Packet} (h : Request.heartbeat.cmd.value = p.cmdId) :
    handlePacket e pb out s p = onHeartbeat e s := by
  simp only [handlePacket, ← h, Request.cmd]
  rfl

theorem handlePacket_login {p : Packet} (h : Request.login.cmd.value = p.cmdId) :
    handlePacket e pb out s p = onLogin e pb out s p.body := by
  simp only [handlePacket, ← h, Request.cmd]
  rfl

theorem handlePacket_other {p : Packet} (h : Request.ofCmd p.cmdId = none) :
    handlePacket e pb out s p = ⟨s, []⟩ := by
  have hne : ∀ r : Request, p.cmdId ≠ r.cmd.value := fun r ↦ (Request.ofCmd_eq_none.mp h r).symm
  have hcmd : ∀ r ∈ Request.all, p.cmdId ≠ r.cmd.value := fun r _ ↦ hne r
  simp only [Request.all, List.forall_mem_cons, Request.cmd] at hcmd
  simp [handlePacket, hcmd]

def forwarded (effects : List Effect) : List (Σ m : Rpc, m.Req) :=
  effects.filterMap fun
    | .call m req => some ⟨m, req⟩
    | _ => none

def posted (effects : List Effect) : List Bytes :=
  effects.filterMap fun
    | .send msg => some msg
    | _ => none

def IsReply (msg : Bytes) (cmd : CommandID) : Prop := ∃ body, msg = sendPacket e cmd.value body

/-- Two packets that differ at most in the acting id inside the body. -/
def SameButActingId (p q : Packet) : Prop :=
  p.cmdId = q.cmdId ∧
    match Request.ofCmd p.cmdId with
    | some (.rpc m) =>
      (incoming pb m p.body).map (m.setActingId 0) = (incoming pb m q.body).map (m.setActingId 0)
    | _ => p.body = q.body

/-- The response a session owes for a packet. -/
def owed (t : Turn) : Option CommandID :=
  match Request.ofCmd t.packet.cmdId with
  | some (.rpc m) => if (incoming pb m t.packet.body).isSome then some (Request.rpc m).resp else none
  | some .heartbeat => some .heartbeatResp
  | some .login =>
    if 0 < t.before.userId ∨ (pb.parseLogin t.packet.body).isSome then some .loginResp else none
  | none => none

def loginId (body : Bytes) : Option ℤ := (pb.parseLogin body).bind fun req ↦ stoll req.username

theorem onLogin_authenticated {s : Session} (h : 0 < s.userId) (body : Bytes) :
    onLogin e pb out s body = ⟨s, [reply e .loginResp []]⟩ := if_pos h

theorem onLogin_anonymous {s : Session} (h : ¬ 0 < s.userId) (body : Bytes) :
    onLogin e pb out s body =
      match loginId pb body with
      | none => ⟨s, []⟩
      | some id =>
        ⟨{ s with userId := id }, .join id ::
          match out.localEndpoint with
          | none => []
          | some port =>
            [.hset (locationKey id) s.device (grpcAddr port),
              reply e .loginResp (pb.serializeLogin { success := true, userId := id })]⟩ := by
  rw [onLogin, if_neg h, loginId]
  cases pb.parseLogin body with
  | none => rfl
  | some req =>
    simp only [Option.bind_some]
    cases stoll req.username with
    | none => rfl
    | some id => cases out.localEndpoint <;> rfl

/-- The user that a packet makes of the session: only the login of a session
that is not authenticated counts. -/
def newUser (p : Packet) : Option ℤ :=
  if Request.login.cmd.value = p.cmdId ∧ ¬ 0 < s.userId then loginId pb p.body else none

/-- An effect that neither `ConnectionManager` nor Redis sees. -/
def Local : Effect → Prop
  | .call _ _ => True
  | .send _ => True
  | _ => False

/-- All that a packet can come to. -/
inductive Handled (p : Packet) : Outcome → Prop
  | other (hreq : Request.ofCmd p.cmdId = none) : Handled p ⟨s, []⟩
  | unparsed {m : Rpc} (hreq : Request.ofCmd p.cmdId = some (.rpc m)) (hin : incoming pb m p.body = none) :
    Handled p ⟨s, []⟩
  | forwarded {m : Rpc} {req : m.Req} (hreq : Request.ofCmd p.cmdId = some (.rpc m))
    (hin : incoming pb m p.body = some req) (answer : Status × m.Resp → m.Resp) :
    Handled p (forward e pb out s m (Request.rpc m).resp answer req)
  | heartbeat (hreq : Request.ofCmd p.cmdId = some .heartbeat) : Handled p (onHeartbeat e s)
  | authenticated (hreq : Request.ofCmd p.cmdId = some .login) (hauth : 0 < s.userId) :
    Handled p ⟨s, [reply e .loginResp []]⟩
  | anonymous (hreq : Request.ofCmd p.cmdId = some .login) (hauth : ¬ 0 < s.userId) :
    Handled p (match loginId pb p.body with
      | none => ⟨s, []⟩
      | some id =>
        ⟨{ s with userId := id }, .join id ::
          match out.localEndpoint with
          | none => []
          | some port =>
            [.hset (locationKey id) s.device (grpcAddr port),
              reply e .loginResp (pb.serializeLogin { success := true, userId := id })]⟩)

theorem handled (p : Packet) : Handled e pb out s p (handlePacket e pb out s p) := by
  cases hreq : Request.ofCmd p.cmdId with
  | none =>
    rw [handlePacket_other e pb out s hreq]
    exact .other hreq
  | some r =>
    have hcmd := Request.ofCmd_eq_some.mp hreq
    cases r with
    | rpc m =>
      obtain ⟨answer, hp⟩ := handlePacket_rpc e pb out s hcmd
      rw [hp]
      cases hin : incoming pb m p.body with
      | none => exact .unparsed hreq hin
      | some req => exact .forwarded hreq hin answer
    | heartbeat =>
      rw [handlePacket_heartbeat e pb out s hcmd]
      exact .heartbeat hreq
    | login =>
      rw [handlePacket_login e pb out s hcmd]
      by_cases hauth : 0 < s.userId
      · rw [onLogin_authenticated e pb out hauth]
        exact .authenticated hreq hauth
      · rw [onLogin_anonymous e pb out hauth]
        exact .anonymous hreq hauth

theorem handlePacket_of_none {p : Packet} (h : newUser pb s p = none) :
    (handlePacket e pb out s p).session = s ∧
      ∀ ef ∈ (handlePacket e pb out s p).effects, Local ef := by
  have hcase := handled e pb out s p
  generalize handlePacket e pb out s p = o at hcase ⊢
  cases hcase with
  | other hreq => simp
  | unparsed hreq hin => simp
  | forwarded hreq hin answer => simp [forward, reply, Local]
  | heartbeat hreq => simp [onHeartbeat, reply, Local]
  | authenticated hreq hauth => simp [reply, Local]
  | anonymous hreq hauth =>
    rw [newUser, if_pos ⟨Request.ofCmd_eq_some.mp hreq, hauth⟩] at h
    rw [h]
    simp

theorem handlePacket_of_some {p : Packet} {id : ℤ} (h : newUser pb s p = some id) :
    handlePacket e pb out s p =
      ⟨{ s with userId := id }, .join id ::
        match out.localEndpoint with
        | none => []
        | some port =>
          [.hset (locationKey id) s.device (grpcAddr port),
            reply e .loginResp (pb.serializeLogin { success := true, userId := id })]⟩ := by
  rw [newUser] at h
  split_ifs at h with hlogin
  rw [handlePacket_login e pb out s hlogin.1, onLogin_anonymous e pb out hlogin.2, h]

theorem handlePacket_session {s : Session} (h : 0 < s.userId) (p : Packet) :
    (handlePacket e pb out s p).session = s :=
  (handlePacket_of_none e pb out s (if_neg fun hlogin ↦ hlogin.2 h)).1

theorem forwarded_handlePacket (p : Packet) :
    forwarded (handlePacket e pb out s p).effects =
      match Request.ofCmd p.cmdId with
      | some (.rpc m) =>
        ((incoming pb m p.body).map fun req ↦ ⟨m, m.setActingId s.userId req⟩).toList
      | _ => [] := by
  have hcase := handled e pb out s p
  generalize handlePacket e pb out s p = o at hcase ⊢
  cases hcase with
  | other hreq =>
    rw [hreq]
    rfl
  | unparsed hreq hin =>
    simp only [hreq, hin]
    rfl
  | forwarded hreq hin answer =>
    simp only [hreq, hin]
    rfl
  | heartbeat hreq =>
    rw [hreq]
    rfl
  | authenticated hreq hauth =>
    rw [hreq]
    rfl
  | anonymous hreq hauth =>
    rw [hreq]
    cases loginId pb p.body with
    | none => rfl
    | some id => cases out.localEndpoint <;> rfl

theorem posted_handlePacket (p : Packet)
    (hname : ∀ req, Request.login.cmd.value = p.cmdId → pb.parseLogin p.body = some req →
      (stoll req.username).isSome)
    (hport : out.localEndpoint.isSome) :
    List.Forall₂ (IsReply e)
      (posted (handlePacket e pb out s p).effects)
      (owed pb ⟨s, p, (handlePacket e pb out s p).effects⟩).toList := by
  have hcase := handled e pb out s p
  generalize handlePacket e pb out s p = o at hcase ⊢
  cases hcase with
  | other hreq =>
    simp only [owed, hreq]
    exact .nil
  | unparsed hreq hin => simp [owed, hreq, hin, posted]
  | forwarded hreq hin answer =>
    simp only [owed, hreq, hin, Option.isSome_some, if_true]
    exact .cons ⟨_, rfl⟩ .nil
  | heartbeat hreq =>
    simp only [owed, hreq]
    exact .cons ⟨_, rfl⟩ .nil
  | authenticated hreq hauth =>
    simp only [owed, hreq, hauth, true_or, if_true]
    exact .cons ⟨_, rfl⟩ .nil
  | anonymous hreq hauth =>
    obtain ⟨port, hport⟩ := Option.isSome_iff_exists.mp hport
    simp only [owed, hreq, loginId]
    cases hparse : pb.parseLogin p.body with
    | none => simp [posted, hauth]
    | some req =>
      obtain ⟨id, hid⟩ := Option.isSome_iff_exists.mp (hname req (Request.ofCmd_eq_some.mp hreq) hparse)
      simp only [Option.bind_some, hid, hport, hauth, false_or, Option.isSome_some, if_true]
      exact .cons ⟨_, rfl⟩ .nil

variable {s}

theorem mem_turns {ps : List (Packet × Surroundings)} {t : Turn} (h : t ∈ turns e pb s ps) :
    ∃ p ∈ ps, t.packet = p.1 ∧ t.effects = (handlePacket e pb p.2 t.before p.1).effects := by
  induction ps generalizing s with
  | nil => cases h
  | cons p ps ih =>
    rcases List.mem_cons.mp h with rfl | h
    · exact ⟨p, List.mem_cons_self, rfl, rfl⟩
    · obtain ⟨q, hq, hpacket, heffects⟩ := ih h
      exact ⟨q, List.mem_cons_of_mem p hq, hpacket, heffects⟩

theorem after_authenticated (h : 0 < s.userId) (ps : List (Packet × Surroundings)) :
    after e pb s ps = s := by
  induction ps with
  | nil => rfl
  | cons p ps ih => simpa only [after, List.foldl_cons, handlePacket_session e pb p.2 h p.1] using ih

theorem SameButActingId.session {p q : Packet} (h : SameButActingId pb p q)
    (out out' : Surroundings) :
    (handlePacket e pb out s p).session = (handlePacket e pb out' s q).session := by
  obtain ⟨hcmd, hbody⟩ := h
  cases hreq : Request.ofCmd p.cmdId with
  | none =>
    rw [handlePacket_other e pb out s hreq, handlePacket_other e pb out' s (hcmd ▸ hreq)]
  | some r =>
    have hp := Request.ofCmd_eq_some.mp hreq
    have hq := hcmd ▸ hp
    rw [hreq] at hbody
    cases r with
    | rpc m =>
      obtain ⟨answer, hp⟩ := handlePacket_rpc e pb out s hp
      obtain ⟨answer', hq⟩ := handlePacket_rpc e pb out' s hq
      rw [hp, hq]
      cases incoming pb m p.body <;> cases incoming pb m q.body <;> rfl
    | heartbeat =>
      rw [handlePacket_heartbeat e pb out s hp, handlePacket_heartbeat e pb out' s hq]
    | login =>
      rw [handlePacket_login e pb out s hp, handlePacket_login e pb out' s hq, hbody]
      by_cases hauth : 0 < s.userId
      · rw [onLogin_authenticated e pb out hauth, onLogin_authenticated e pb out' hauth]
      · rw [onLogin_anonymous e pb out hauth, onLogin_anonymous e pb out' hauth]
        cases loginId pb q.body <;> rfl

theorem SameButActingId.forwarded {p q : Packet} (h : SameButActingId pb p q)
    (out out' : Surroundings) :
    forwarded (handlePacket e pb out s p).effects =
      forwarded (handlePacket e pb out' s q).effects := by
  obtain ⟨hcmd, hbody⟩ := h
  rw [forwarded_handlePacket, forwarded_handlePacket, ← hcmd]
  cases hreq : Request.ofCmd p.cmdId with
  | none => rfl
  | some r =>
    rw [hreq] at hbody
    cases r with
    | rpc m =>
      -- the acting id is overwritten, so only the other fields are forwarded
      have hmap := congrArg (Option.map (m.setActingId s.userId)) hbody
      simp only [Option.map_map, Function.comp_def, Rpc.setActingId_setActingId] at hmap
      have hsigma := congrArg (Option.map (Sigma.mk m)) hmap
      simp only [Option.map_map, Function.comp_def] at hsigma
      simp only [hsigma]
    | heartbeat => rfl
    | login => rfl

/-- The requests a session forwards carry its own user id, they do not depend
on the acting ids inside the bodies, and an authenticated session never changes
its user. -/
theorem no_spoofing (s : Session) :
    (∀ ps, ∀ t ∈ turns e pb s ps, ∀ m req, Effect.call m req ∈ t.effects →
      m.actingId req = t.before.userId) ∧
    (∀ ps qs, List.Forall₂ (fun p q ↦ SameButActingId pb p.1 q.1) ps qs →
      (turns e pb s ps).map (fun t ↦ forwarded t.effects) =
        (turns e pb s qs).map fun t ↦ forwarded t.effects) ∧
    (∀ ps qs, 0 < (after e pb s ps).userId →
      (after e pb s (ps ++ qs)).userId = (after e pb s ps).userId) := by
  refine ⟨fun ps t ht m req hcall ↦ ?_, fun ps qs h ↦ ?_, fun ps qs hpos ↦ ?_⟩
  · obtain ⟨p, -, -, heffects⟩ := mem_turns e pb ht
    have hmem : (⟨m, req⟩ : Σ m : Rpc, m.Req) ∈ forwarded t.effects :=
      List.mem_filterMap.mpr ⟨_, hcall, rfl⟩
    rw [heffects, forwarded_handlePacket] at hmem
    split at hmem
    · next m' _ =>
      obtain ⟨req', -, hreq⟩ := Option.map_eq_some_iff.mp (Option.mem_toList.mp hmem)
      obtain ⟨rfl, hreq⟩ := Sigma.mk.inj hreq
      rw [← eq_of_heq hreq, Rpc.actingId_setActingId]
    · cases hmem
  · induction h generalizing s with
    | nil => rfl
    | @cons p q ps qs hpq _ ih =>
      simp only [turns, List.map_cons]
      rw [hpq.forwarded e pb p.2 q.2, hpq.session e pb p.2 q.2, ih]
  · have happend : after e pb s (ps ++ qs) = after e pb (after e pb s ps) qs :=
      List.foldl_append
    rw [happend, after_authenticated e pb hpos]

/-- Each packet that calls for a response gets exactly one, in request order. -/
theorem request_reply {ps : List (Packet × Surroundings)}
    (hname : ∀ p ∈ ps, ∀ req, CommandID.loginReq.value = p.1.cmdId →
      pb.parseLogin p.1.body = some req → (stoll req.username).isSome)
    (hport : ∀ p ∈ ps, p.2.localEndpoint.isSome) :
    List.Forall₂ (IsReply e)
      ((turns e pb s ps).flatMap fun t ↦ posted t.effects)
      ((turns e pb s ps).filterMap (owed pb)) := by
  induction ps generalizing s with
  | nil => exact .nil
  | cons p ps ih =>
    rw [List.forall_mem_cons] at hname hport
    have hhead := posted_handlePacket e pb p.2 s p.1 hname.1 hport.1
    have htail := ih (s := (handlePacket e pb p.2 s p.1).session) hname.2 hport.2
    have hcat := List.rel_append hhead htail
    simp only [turns, List.flatMap_cons, List.filterMap_cons]
    cases howed : owed pb ⟨s, p.1, (handlePacket e pb p.2 s p.1).effects⟩ with
    | none => simpa only [howed, Option.toList_none, List.nil_append] using hcat
    | some cmd => simpa only [howed, Option.toList_some, List.singleton_append] using hcat

/-- protobuf on the login of user 7: `username` is `"7"` in the request, and
`success` and `user_id` are set in the response. -/
def loginCodec : Codec where
  parse _ _ := none
  serialize _ _ := []
  parseLogin body := if body = [10, 1, 55] then some { username := [55] } else none
  serializeLogin resp := if resp = { success := true, userId := 7 } then [8, 7, 32, 1] else []

def backendsDown : Surroundings where
  call _ _ := (some (ascii "failed to connect"), default)
  localEndpoint := some 8080

def loginThenHeartbeat : List (Packet × Surroundings) :=
  [(⟨CommandID.loginReq.value, [10, 1, 55]⟩, backendsDown),
    (⟨CommandID.heartbeatReq.value, []⟩, backendsDown),
    (⟨CommandID.logoutReq.value, []⟩, backendsDown)]

theorem request_reply_loginThenHeartbeat :
    List.Forall₂ (IsReply .little)
      ((turns .little loginCodec ⟨0, ascii "PC"⟩ loginThenHeartbeat).flatMap
        fun t ↦ posted t.effects)
      [.loginResp, .heartbeatResp] := by
  refine request_reply .little loginCodec (fun p hp req _ hreq ↦ ?_) (by decide)
  have hname : req = { username := [55] } := by
    simp only [loginCodec] at hreq
    split_ifs at hreq
    exact (Option.some.inj hreq).symm
  rw [hname]
  decide

end TinyIM.Gateway.Dispatch
