import TinyIM.Auth.AccountService
import TinyIM.Backend.Delivery
import TinyIM.Backend.Installation

namespace TinyIM.Backend.Attribution

open Auth.AccountService (binary)
open Auth.Accounts (Columns)
open Chat.Mailbox (Mail Mailboxes)
open Delivery (itemOf network_tell)
open Gateway (Codec Effect Session handlePacket onAccept)
open Gateway.Dispatch (Handled handled incoming)
open Installation (Event Outcome State Sound answerOf callOf requestOf)
open Library.ByteOrder Library.Delimited Library.Service Protocol
open MessengerService (sound_send_calm sound_sync_calm)
open Services hiding Sound
open Relation.RelationService (MemberRow Request Tables)
open Relation.SocialNetwork (Network)

/-- The messages that a call of a backend has the chat service store. -/
def messages (w : Tables) : Call → List SendMessageReq
  | .send _ req => [req]
  | .relation r env => (Relation.SocialNetwork.serve w (.request (env.tables w) r)).2.2
  | _ => []

/-- A group message is for the members, another one for a friend, unless it is
a notice by its type. -/
def Admits (w : Tables) (req : SendMessageReq) (u : ℤ) : Prop :=
  if 0 < req.groupId then (req.groupId, u) ∈ w.members.rows.map MemberRow.key
  else req.receiverId = u ∧
    ((req.senderId, u) ∈ w.relations.rows.map Chat.RelationRow.key ∨ req.type = 3 ∨ req.type = 4)

/-- The same of the network. -/
def Reached (n : Network) (req : SendMessageReq) (u : ℤ) : Prop :=
  if 0 < req.groupId then (req.groupId, u) ∈ n.members
  else req.receiverId = u ∧ ((req.senderId, u) ∈ n.friends ∨ req.type = 3 ∨ req.type = 4)

def Carries (item : MessageItem) (req : SendMessageReq) : Prop :=
  item.senderId = req.senderId ∧ item.groupId = req.groupId ∧ item.type = req.type ∧
    item.content = cString req.content

/-- The packet has the chat service store the message, in the name of the user
of the session unless it is a notice, and `u` may get it. -/
structure Sends {c : Columns} (pb : Codec) (env : Env) (st st' : State c) (s : Session) (p : Packet)
    (req : SendMessageReq) (u : ℤ) : Prop where
  requested : ∃ x, requestOf pb s p = some x ∧ req ∈ messages st.servers.tables (callOf env x.1 x.2)
  sender : req.senderId = s.userId ∨ req.senderId = 0 ∧ (req.type = 3 ∨ req.type = 4)
  admitted : Admits st'.servers.tables req u

/-- Some packet of the run has sent what the item says. -/
def Origin {c : Columns} (e : Endian) (pb : Codec) (first : State c) (events : List Event) (u : ℤ)
    (item : MessageItem) : Prop :=
  ∃ before i p port env after s req, events = before ++ .packet i p port env :: after ∧
    (final (State.serve e pb) first before).session i = some s ∧
    Sends pb env (final (State.serve e pb) first before)
      (final (State.serve e pb) first (before ++ [.packet i p port env])) s p req u ∧
    Carries item req

section Messenger

variable {m : Messenger} {u : ℤ} {mail : Mail}

theorem mem_send {fails : ℕ → Bool} {req : SendMessageReq} (h : mail ∈ (m.send fails req).box u) :
    mail ∈ m.box u ∨ Carries (itemOf mail 0) req ∧ Reached m.network req u := by
  rw [Messenger.send, Mailboxes.send] at h
  split_ifs at h with hbody hstored hgroup hmay
  · exact .inl h
  · exact .inl h
  · simp only [Mailboxes.box_deliver] at h
    split_ifs at h with hmember
    · refine (List.mem_append.mp h).imp_right fun hnew ↦ ?_
      rw [List.mem_singleton.mp hnew, Reached, if_pos hgroup]
      refine ⟨⟨rfl, rfl, rfl, rfl⟩, ?_⟩
      simpa [Messenger.mailboxes, Messenger.membersIn] using hmember
    · exact .inl h
  · simp only [Mailboxes.box_deliver] at h
    split_ifs at h with hreceiver
    · refine (List.mem_append.mp h).imp_right fun hnew ↦ ?_
      obtain rfl := List.mem_singleton.mp hreceiver
      rw [List.mem_singleton.mp hnew, Reached, if_neg hgroup]
      refine ⟨⟨rfl, rfl, rfl, rfl⟩, rfl, ?_⟩
      simpa [Chat.maySend, Messenger.mailboxes, or_assoc] using hmay
    · exact .inl h
  · exact .inl h

theorem mem_tell {fails : ℕ → Bool} {notices : List SendMessageReq} (h : mail ∈ (m.tell fails notices).box u) :
    mail ∈ m.box u ∨ ∃ req ∈ notices, Carries (itemOf mail 0) req ∧ Reached m.network req u := by
  induction notices generalizing m with
  | nil => exact .inl h
  | cons req notices ih =>
    rcases ih (m := m.send fails req) h with hsent | ⟨req', hreq', htold⟩
    · exact (mem_send hsent).imp_right fun htold ↦ ⟨req, List.mem_cons_self, htold⟩
    · exact .inr ⟨req', List.mem_cons_of_mem req hreq', htold⟩

end Messenger

section Holds

variable {s : Servers} {m : Messenger}

theorem admits_iff (h : Holds s m) (req : SendMessageReq) (u : ℤ) :
    Admits s.tables req u ↔ Reached m.network req u := by
  rw [Admits, Reached, ← h.network.members, ← h.network.friends]
  simp only [List.mem_toFinset]

/-- Every new mail carries a message that the call asks for. -/
theorem mem_serve (h : Holds s m) {call : Call} (hsound : Services.Sound s call) {u : ℤ} {mail : Mail}
    (hmail : mail ∈ (Messenger.serve m call).1.box u) :
    mail ∈ m.box u ∨ ∃ req ∈ messages s.tables call, Carries (itemOf mail 0) req ∧
      Admits (Servers.serve s call).1.tables req u := by
  have hafter := (MessengerService.simulates s m call hsound h).1
  cases call with
  | relation r env =>
    refine (mem_tell hmail).imp_right ?_
    rintro ⟨req, hreq, hcarries, hadmits⟩
    have hreply : (Relation.SocialNetwork.serve s.tables (s.asked env r)).2 = (m.network.request r).2 :=
      (Relation.NetworkService.simulates s.tables m.network (s.asked env r) hsound.1 h.network).2
    rw [← hreply] at hreq
    refine ⟨req, hreq, hcarries, (admits_iff hafter req u).mpr ?_⟩
    rw [Messenger.serve, network_tell]
    exact hadmits
  | users nicknames => exact .inl hmail
  | send env req =>
    refine (mem_send hmail).imp_right fun hnew ↦ ⟨req, List.mem_singleton_self req, hnew.1, ?_⟩
    exact (admits_iff hafter req u).mpr hnew.2
  | sync env req => exact .inl hmail
  | others hashes clock => exact .inl hmail

/-- A message is in the name of the user, or it is a notice in no one's name. -/
theorem sender_of_messages (h : Holds s m) {env : Env} (userId : ℤ) {r : Rpc} {x : r.Req}
    (hsound : Services.Sound s (callOf env r (r.setActingId userId x))) {req : SendMessageReq}
    (hreq : req ∈ messages s.tables (callOf env r (r.setActingId userId x))) :
    req.senderId = userId ∨ req.senderId = 0 ∧ (req.type = 3 ∨ req.type = 4) := by
  have hnotices : ∀ request, Services.Sound s (.relation request env) →
      messages s.tables (.relation request env) = (m.network.request request).2.2 := by
    intro request hcall
    exact congrArg Prod.snd
      (Relation.NetworkService.simulates s.tables m.network (s.asked env request) hcall.1 h.network).2
  cases r with
  | sendMessage =>
    obtain rfl := List.mem_singleton.mp hreq
    exact .inl rfl
  | syncMessages => cases hreq
  | applyFriend =>
    rw [callOf, hnotices _ hsound, Network.request, Network.applyFriend] at hreq
    split_ifs at hreq
    · cases hreq
    · cases hreq
    · obtain rfl := List.mem_singleton.mp hreq
      exact .inl rfl
  | acceptFriend =>
    rw [callOf, hnotices _ hsound, Network.request, Network.acceptFriend] at hreq
    split_ifs at hreq
    · obtain rfl := List.mem_singleton.mp hreq
      exact .inr ⟨rfl, .inl rfl⟩
    · cases hreq
  | getFriendList =>
    rw [callOf, hnotices _ hsound] at hreq
    cases hreq
  | createGroup =>
    rw [callOf, hnotices _ hsound] at hreq
    cases hreq
  | joinGroup =>
    rw [callOf, hnotices _ hsound, Network.request, Network.joinGroup] at hreq
    split_ifs at hreq
    · cases hreq
    · obtain rfl := List.mem_singleton.mp hreq
      exact .inl rfl
  | getGroupList =>
    rw [callOf, hnotices _ hsound] at hreq
    cases hreq
  | applyGroup =>
    rw [callOf, hnotices _ hsound, Network.request, Network.applyGroup] at hreq
    split_ifs at hreq
    · cases hreq
    · obtain ⟨g, -, rfl⟩ := Option.map_eq_some_iff.mp (Option.mem_toList.mp hreq)
      exact .inr ⟨rfl, .inr rfl⟩
  | acceptGroup =>
    rw [callOf, hnotices _ hsound, Network.request, Network.acceptGroup] at hreq
    split_ifs at hreq
    · obtain rfl := List.mem_singleton.mp hreq
      exact .inr ⟨rfl, .inl rfl⟩
    · cases hreq

end Holds

section Runs

variable {e : Endian} {pb : Codec} {c : Columns} {st : State c} {m : Messenger}

theorem holds_setAuth (h : Holds st.servers m) (w : Auth.Accounts.World c) :
    ∃ m', Holds (st.setAuth w).servers m' ∧ m'.box = m.box :=
  ⟨_, MessengerService.holds_relate
    (MessengerService.simulates st.servers m (.others w.redis.hashes st.servers.chat.clock) trivial h).1
    (.users (Installation.nicknamesOf w.users)) trivial, rfl⟩

/-- Effects other than a call leave the boxes alone. -/
theorem holds_effects (st : State c) (h : Holds st.servers m) {env : Env} {effects : List Effect}
    (hlocal : Gateway.Dispatch.forwarded effects = []) :
    ∃ m', Holds (effects.foldl (State.perform env) st).servers m' ∧ m'.box = m.box := by
  induction effects generalizing st m with
  | nil => exact ⟨m, h, rfl⟩
  | cons ef effects ih =>
    have hone : ∃ m', Holds (State.perform env st ef).servers m' ∧ m'.box = m.box := by
      cases ef with
      | call r req => cases hlocal
      | hset key field value => exact holds_setAuth h _
      | hdel key field => exact holds_setAuth h _
      | _ => exact ⟨m, h, rfl⟩
    have hrest : Gateway.Dispatch.forwarded effects = [] := by
      cases ef with
      | call r req => cases hlocal
      | _ => exact hlocal
    obtain ⟨m', hm', hbox⟩ := hone
    obtain ⟨m'', hm'', hbox'⟩ := ih _ hm' hrest
    exact ⟨m'', hm'', hbox'.trans hbox⟩

theorem forwarded_eq_requestOf (e : Endian) (pb : Codec) (out : Gateway.Surroundings) (s : Session) (p : Packet) :
    Gateway.Dispatch.forwarded (handlePacket e pb out s p).effects = (requestOf pb s p).toList := by
  rw [Gateway.Dispatch.forwarded_handlePacket, requestOf]
  cases Gateway.Dispatch.Request.ofCmd p.cmdId with
  | none => rfl
  | some r => cases r <;> rfl

theorem handlePacket_of_request (out : Gateway.Surroundings) {s : Session} {p : Packet} {x : Σ r : Rpc, r.Req}
    (h : requestOf pb s p = some x) : ∃ msg, handlePacket e pb out s p = ⟨s, [.call x.1 x.2, .send msg]⟩ := by
  have hforwarded := forwarded_eq_requestOf e pb out s p
  have hcase := handled e pb out s p
  rw [h] at hforwarded
  generalize handlePacket e pb out s p = o at hforwarded hcase ⊢
  cases hcase with
  | forwarded hreq hin answer =>
    obtain rfl := List.singleton_inj.mp hforwarded
    exact ⟨_, rfl⟩
  | anonymous hreq hauth =>
    cases hid : Gateway.Dispatch.loginId pb p.body with
    | none =>
      rw [hid] at hforwarded
      cases hforwarded
    | some id =>
      rw [hid] at hforwarded
      cases hport : out.localEndpoint with
      | none =>
        rw [hport] at hforwarded
        cases hforwarded
      | some port =>
        rw [hport] at hforwarded
        cases hforwarded
  | _ => cases hforwarded

theorem setActingId_of_request {s : Session} {p : Packet} {x : Σ r : Rpc, r.Req} (h : requestOf pb s p = some x) :
    ∃ req, x.2 = x.1.setActingId s.userId req := by
  rw [requestOf] at h
  split at h
  · obtain ⟨req, -, rfl⟩ := Option.map_eq_some_iff.mp h
    exact ⟨req, rfl⟩
  · cases h

/-- New mail comes from a packet. -/
theorem mail_of_event (h : Holds st.servers m) {ev : Event} (hsound : Sound pb st ev) :
    ∃ m', Holds (State.serve e pb st ev).1.servers m' ∧ ∀ u, ∀ mail ∈ m'.box u, mail ∈ m.box u ∨
      ∃ i p port env s req, ev = .packet i p port env ∧ st.session i = some s ∧
        Sends pb env st (State.serve e pb st ev).1 s p req u ∧ Carries (itemOf mail 0) req := by
  have hquiet : ∀ st' : State c, (∃ m', Holds st'.servers m' ∧ m'.box = m.box) →
      ∃ m', Holds st'.servers m' ∧ ∀ u, ∀ mail ∈ m'.box u, mail ∈ m.box u ∨
        ∃ i p port env s req, ev = .packet i p port env ∧ st.session i = some s ∧
          Sends pb env st st' s p req u ∧ Carries (itemOf mail 0) req := by
    rintro st' ⟨m', hm', hbox⟩
    refine ⟨m', hm', ?_⟩
    intro u mail hmail
    rw [hbox] at hmail
    exact .inl hmail
  cases ev with
  | account call => exact hquiet _ (holds_setAuth h _)
  | clock now =>
    exact hquiet _ ⟨_, (MessengerService.simulates st.servers m (.others st.auth.redis.hashes now) trivial h).1, rfl⟩
  | connect i target port =>
    rw [State.serve]
    split
    · next s _ _ =>
      refine hquiet _ (holds_effects (st.setSession i (some s)) h ?_)
      unfold onAccept
      split_ifs
      · cases port <;> rfl
      · rfl
    · exact hquiet _ ⟨m, h, rfl⟩
  | packet i p port env =>
    cases hs : st.session i with
    | none =>
      rw [State.serve_packet_none hs]
      exact hquiet _ ⟨m, h, rfl⟩
    | some s =>
      rw [State.serve_packet hs]
      cases hx : requestOf pb s p with
      | none =>
        refine hquiet _ (holds_effects (st.setSession i _) h ?_)
        rw [forwarded_eq_requestOf, hx]
        rfl
      | some x =>
        obtain ⟨msg, hhandled⟩ := handlePacket_of_request (e := e) ⟨answerOf st.servers env, port⟩ hx
        rw [hhandled]
        obtain ⟨req, hreq⟩ := setActingId_of_request hx
        have hcall := hsound s x hs hx
        refine ⟨_, (MessengerService.simulates st.servers m _ hcall h).1, ?_⟩
        intro u mail hmail
        refine (mem_serve h hcall hmail).imp_right ?_
        rintro ⟨sent, hsent, hcarries, hadmits⟩
        refine ⟨i, p, port, env, s, sent, rfl, hs, ⟨⟨x, hx, ?_⟩, ?_, hadmits⟩, hcarries⟩
        · exact hsent
        · rw [hreq] at hsent hcall
          exact sender_of_messages h s.userId hcall hsent
  | close i =>
    rw [State.serve]
    split
    · exact hquiet _ (holds_effects (st.setSession i none) h rfl)
    · exact hquiet _ ⟨m, h, rfl⟩

/-- Every mail has its origin in the run. -/
theorem origin_of_mail {first : State c} {events : List Event} (h : Permits (State.serve e pb) (Sound pb) first events)
    (hfirst : ∃ m, Holds first.servers m ∧ m.box = fun _ ↦ []) :
    ∃ m, Holds (final (State.serve e pb) first events).servers m ∧
      ∀ u, ∀ mail ∈ m.box u, Origin e pb first events u (itemOf mail 0) := by
  have hhistory := h.history
    (I := fun before st ↦ st = final (State.serve e pb) first before ∧
      ∃ m, Holds st.servers m ∧ ∀ u, ∀ mail ∈ m.box u, Origin e pb first before u (itemOf mail 0)) ?step ?start
  · exact hhistory.2
  case start =>
    obtain ⟨m, hm, hbox⟩ := hfirst
    refine ⟨rfl, m, hm, ?_⟩
    intro u mail hmail
    rw [hbox] at hmail
    cases hmail
  case step =>
    rintro before st ev hsound ⟨rfl, m, hm, horigin⟩
    obtain ⟨m', hm', hnew⟩ := mail_of_event (e := e) hm hsound
    have hnext : final (State.serve e pb) first (before ++ [ev]) =
        (State.serve e pb (final (State.serve e pb) first before) ev).1 := final_append
    refine ⟨hnext.symm, m', hm', ?_⟩
    intro u mail hmail
    rcases hnew u mail hmail with hold | ⟨i, p, port, env, s, req, rfl, hs, hsends, hcarries⟩
    · obtain ⟨before', i, p, port, env, after, s, req, rfl, hrest⟩ := horigin u mail hold
      exact ⟨before', i, p, port, env, after ++ [ev], s, req, by simp, hrest⟩
    · refine ⟨before, i, p, port, env, [], s, req, rfl, hs, ?_, hcarries⟩
      rwa [hnext]

theorem mem_items {box : List Mail} {item : MessageItem} (h : item ∈ Mailboxes.items box) :
    ∃ mail ∈ box, ∃ seq, item = itemOf mail seq := by
  obtain ⟨i, hi, rfl⟩ := List.mem_mapIdx.mp h
  exact ⟨_, List.getElem_mem hi, _, rfl⟩

theorem mem_sync {req : SyncMessagesReq} {item : MessageItem} (h : item ∈ (m.mailboxes.sync req).msgs) :
    item ∈ Mailboxes.items (m.box req.userId) := by
  rw [Mailboxes.sync] at h
  dsimp only at h
  split_ifs at h
  · exact List.mem_reverse.mp (List.mem_of_mem_take h)
  · exact List.mem_of_mem_drop (List.mem_of_mem_take h)

/-- Whatever a session pulls was sent by a packet of a session whose user it
names, to the user who pulls it, or it is one of the notices of the relation
service. A group message was sent while the user was in the group, another one
to the user alone, by a friend unless it has the type of a notice. -/
theorem attributed (clock : Bytes) {events : List Event}
    (h : Permits (State.serve e pb) (Sound pb) (.start clock : State c) events) {i : ℕ} {s : Session}
    (hs : (final (State.serve e pb) (.start clock : State c) events).session i = some s) {p : Packet}
    {req : SyncMessagesReq} (hcmd : p.cmdId = CommandID.msgSyncReq.value)
    (hparse : pb.parse .syncMessages p.body = some req) (port : Option ℕ) {env : Env}
    (hcaught : Services.Sound (final (State.serve e pb) (.start clock : State c) events).servers
      (.sync env { req with userId := s.userId })) :
    let st := final (State.serve e pb) (.start clock : State c) events
    ∃ resp, answerOf st.servers env .syncMessages { req with userId := s.userId } = (none, resp) ∧
      (State.serve e pb st (.packet i p port env)).2 =
        .packets [WireFormat.sendPacket e CommandID.msgSyncResp.value (pb.serialize .syncMessages resp)] ∧
      ∀ item ∈ resp.msgs, Origin e pb (.start clock : State c) events s.userId item := by
  intro st
  obtain ⟨m, hm, horigin⟩ := origin_of_mail h ⟨_, MessengerService.holds_start (fun _ ↦ ∅) clock, rfl⟩
  have hanswer : answerOf st.servers env .syncMessages { req with userId := s.userId } =
      (none, m.mailboxes.sync { req with userId := s.userId }) := by
    have hshown : st.servers.shown env = st.servers.chat := by rw [Servers.shown, hcaught.1, hcaught.2]
    rw [answerOf, hshown, Chat.MailboxService.sync_of_holds hm.mail]
    rfl
  refine ⟨m.mailboxes.sync { req with userId := s.userId }, hanswer, ?_, ?_⟩
  · have hsync : handlePacket e pb ⟨answerOf st.servers env, port⟩ s p =
        Gateway.onMsgSync e pb ⟨answerOf st.servers env, port⟩ s p.body := by
      simp only [handlePacket, hcmd]
      rfl
    rw [State.serve_packet hs, hsync, Gateway.onMsgSync, Gateway.forwardParsed, hparse]
    simp only [Gateway.forward, Rpc.setActingId, hanswer]
    rfl
  · intro item hitem
    obtain ⟨mail, hmail, seq, rfl⟩ := mem_items (mem_sync hitem)
    obtain ⟨before, j, q, port', env', after, t, sent, hevents, ht, hsends, hcarries⟩ := horigin _ mail hmail
    exact ⟨before, j, q, port', env', after, t, sent, hevents, ht, hsends, hcarries⟩

end Runs

/-- protobuf on a friend request to user 2, which is the first request and the
first message, and on the logins of users 1 and 2. -/
def friendCodec : Codec where
  parse
    | .applyFriend, body => if body = [16, 2] then some { friendId := 2 } else none
    | .syncMessages, body => if body = [24, 5] then some { limit := 5 } else none
    | _, _ => none
  serialize
    | .applyFriend, _ => [8, 1, 24, 1]
    | .syncMessages, _ => [8, 1, 18, 24, 8, 1, 16, 1, 24, 1, 40, 4, 50, 14] ++ ascii "Friend Request" ++ [24, 1]
    | _, _ => []
  parseLogin body :=
    if body = [10, 1, 49] then some { username := [49] }
    else if body = [10, 1, 50] then some { username := [50] }
    else none
  serializeLogin resp := if resp.userId = 1 then [8, 1, 32, 1] else [8, 2, 32, 1]

/-- User 1 asks user 2 to be friends. -/
def applied : List Event :=
  let packet (i : ℕ) (cmd : CommandID) (body : Bytes) : Event :=
    .packet i ⟨cmd.value, body⟩ (some 9000) .calm
  [.connect 0 (ascii "/ws") (some 9000), packet 0 .loginReq [10, 1, 49],
    .connect 1 (ascii "/ws") (some 9000), packet 1 .loginReq [10, 1, 50], packet 0 .friendApplyReq [16, 2]]

theorem sound_login (st : State binary) (i : ℕ) (body : Bytes) (port : Option ℕ) :
    Sound friendCodec st (.packet i ⟨CommandID.loginReq.value, body⟩ port .calm) :=
  fun _ x _ hx ↦ (Option.some_ne_none x hx.symm).elim

theorem sound_apply (st : State binary) (i : ℕ) (port : Option ℕ) :
    Sound friendCodec st (.packet i ⟨CommandID.friendApplyReq.value, [16, 2]⟩ port .calm) := by
  intro s x _ hx
  obtain rfl : ⟨Rpc.applyFriend, { userId := s.userId, friendId := 2 }⟩ = x := Option.some.inj hx
  exact ⟨⟨List.forall_mem_singleton.mpr ⟨⟨List.not_mem_nil, trivial⟩, Nat.zero_le _⟩, rfl⟩, rfl,
    fun _ _ ↦ sound_send_calm _ _⟩

theorem attributed_applied :
    let st := final (State.serve .little friendCodec) (.start [] : State binary) applied
    ∃ resp, answerOf st.servers .calm .syncMessages { userId := 2, limit := 5 } = (none, resp) ∧
      resp.msgs = [⟨1, 1, 1, 0, 4, ascii "Friend Request", []⟩] ∧
      ∀ item ∈ resp.msgs, Origin .little friendCodec (.start [] : State binary) applied 2 item := by
  intro st
  have hsound : Permits (State.serve .little friendCodec) (Sound friendCodec) (.start [] : State binary) applied :=
    ⟨trivial, sound_login _ _ _ _, trivial, sound_login _ _ _ _, sound_apply _ _ _, trivial⟩
  have hsession : st.session 1 = some ⟨2, ascii "PC"⟩ := rfl
  obtain ⟨resp, hanswer, -, horigin⟩ := attributed (p := ⟨CommandID.msgSyncReq.value, [24, 5]⟩) [] hsound
    hsession rfl rfl none (sound_sync_calm _ _)
  refine ⟨resp, hanswer, ?_, horigin⟩
  have hshown : ((answerOf st.servers .calm .syncMessages { userId := 2, limit := 5 }).2 : SyncMessagesResp).msgs =
      [⟨1, 1, 1, 0, 4, ascii "Friend Request", []⟩] := by decide +kernel
  replace hanswer : answerOf st.servers .calm .syncMessages { userId := 2, limit := 5 } = (none, resp) := hanswer
  rw [hanswer] at hshown
  exact hshown

end TinyIM.Backend.Attribution
