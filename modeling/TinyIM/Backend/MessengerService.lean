import TinyIM.Backend.Services
import TinyIM.Chat.MailboxService
import TinyIM.Relation.NetworkService

namespace TinyIM.Backend.MessengerService

open Chat (World RelationRow)
open Chat.Mailbox (Mail Mailboxes)
open Library.ByteOrder Library.Program Library.Service Library.Table Protocol Services
open Relation.RelationService (Tables)
open Relation.SocialNetwork (Network View)

section Tables

variable (fails : ℕ → Bool) (w : World)

/-- No command of `SendMessage` writes a group member or a relation. -/
theorem tables_of_exec (n : ℕ) (c : Chat.Command) :
    (Chat.Acknowledgement.exec fails n w c).1.members = w.members ∧
      (Chat.Acknowledgement.exec fails n w c).1.relations = w.relations := by
  rw [Chat.Acknowledgement.exec, World.perform]
  split_ifs
  · cases c with
    | insertIndex rows =>
      rw [World.succeed]
      split <;> exact ⟨rfl, rfl⟩
    | _ => exact ⟨rfl, rfl⟩
  · exact ⟨rfl, rfl⟩

theorem tables_of_send (req : SendMessageReq) :
    (Chat.Acknowledgement.send fails w req).state.members = w.members ∧
      (Chat.Acknowledgement.send fails w req).state.relations = w.relations := by
  have hprogram : Meets (permits fun _ ↦ True) (fun _ _ ↦ True) () (Chat.sendMessage req) :=
    meets_of_may fun _ _ ↦ trivial
  have hstep : ∀ (n : ℕ) (w' : World) (_ : Unit) (c : Chat.Command), True →
      (w'.members = w.members ∧ w'.relations = w.relations) →
      True ∧ (Chat.Acknowledgement.exec fails n w' c).1.members = w.members ∧
        (Chat.Acknowledgement.exec fails n w' c).1.relations = w.relations := by
    rintro n w' _ c - ⟨hmembers, hrelations⟩
    obtain ⟨hmembers', hrelations'⟩ := tables_of_exec fails w' n c
    exact ⟨trivial, hmembers'.trans hmembers, hrelations'.trans hrelations⟩
  obtain ⟨⟨_, hsame, -⟩, -⟩ := hprogram.run (n := 0)
    (I := fun (w' : World) _ ↦ w'.members = w.members ∧ w'.relations = w.relations) hstep ⟨rfl, rfl⟩
  exact hsame

end Tables

section Slaves

variable {s : Servers} {env : Env} (hcaught : env.tables s.tables = s.tables)
include hcaught

/-- A slave that is up to date is as good as the master. -/
theorem asking_eq : s.asking (env.tables s.tables) = s.chat := by
  rw [Servers.asking, hcaught, ← s.members]

theorem chat_send (req : SendMessageReq) :
    (s.send env req).chat = (Chat.Acknowledgement.send env.fails s.chat req).state := by
  obtain ⟨hmembers, hrelations⟩ := tables_of_send env.fails s.chat req
  change { (Chat.Acknowledgement.send env.fails (s.asking (env.tables s.tables)) req).state with
    members := s.chat.members, relations := s.chat.relations } = _
  rw [asking_eq hcaught, ← hmembers, ← hrelations]

end Slaves

section Mailboxes

variable (m : Mailboxes) (fails : ℕ → Bool) (req : SendMessageReq)

theorem send_frame : (m.send fails req).1 =
    { m with box := (m.send fails req).1.box, nextMsgId := (m.send fails req).1.nextMsgId } := by
  rw [Mailboxes.send]
  split_ifs <;> rfl

/-- Mail does not depend on the order in which the members are listed. -/
theorem send_members {members : ℤ → List ℤ} (h : ∀ g u, u ∈ members g ↔ u ∈ m.members g) :
    Mailboxes.send { m with members := members } fails req =
      ({ (m.send fails req).1 with members := members }, (m.send fails req).2) := by
  rw [Mailboxes.send, Mailboxes.send]
  split_ifs
  · rfl
  · rfl
  · simp only [Mailboxes.deliver, h]
  · rfl
  · rfl

end Mailboxes

section Network

variable {t : Tables} {n : Network} (h : Relation.SocialNetwork.Holds t n)
include h

theorem mem_members_iff (groupId userId : ℤ) :
    (∃ m ∈ (chatMembers t.members).rows, m.groupId = groupId ∧ m.userId = userId) ↔
      (groupId, userId) ∈ n.members := by
  rw [← h.members, List.mem_toFinset, List.mem_map]
  constructor
  · rintro ⟨_, hr, rfl, rfl⟩
    obtain ⟨m, hm, rfl⟩ := List.mem_map.mp hr
    exact ⟨m, hm, rfl⟩
  · rintro ⟨m, hm, hkey⟩
    obtain ⟨rfl, rfl⟩ := Prod.mk.inj hkey
    exact ⟨⟨m.groupId, m.userId⟩, List.mem_map.mpr ⟨m, hm, rfl⟩, rfl, rfl⟩

theorem isFriend_iff (userId friendId : ℤ) :
    Chat.isFriend (some ((t.relations.rows.find? fun r ↦ r.key = (userId, friendId)).map RelationRow.status)) =
      decide ((userId, friendId) ∈ n.friends) := by
  have hfriends : (userId, friendId) ∈ n.friends ↔ ∃ r ∈ t.relations.rows, r.key = (userId, friendId) := by
    rw [← h.friends, List.mem_toFinset, List.mem_map]
  rw [Bool.eq_iff_iff, decide_eq_true_eq, hfriends]
  cases hfind : t.relations.rows.find? fun r ↦ r.key = (userId, friendId) with
  | none =>
    refine iff_of_false Bool.false_ne_true ?_
    rintro ⟨r, hr, hkey⟩
    exact List.find?_eq_none.mp hfind r hr (decide_eq_true hkey)
  | some r =>
    have hr := List.mem_of_find?_eq_some hfind
    rw [Option.map_some, h.normal r hr]
    exact iff_of_true rfl ⟨r, hr, by simpa using List.find?_some hfind⟩

end Network

section Holds

variable {s : Servers} {m : Messenger} (h : Holds s m)
include h

theorem mem_membersOf_iff (g u : ℤ) : u ∈ s.chat.membersOf g ↔ u ∈ m.mailboxes.members g := by
  have hleft : u ∈ s.chat.membersOf g ↔
      ∃ r ∈ (chatMembers s.tables.members).rows, r.groupId = g ∧ r.userId = u := by
    rw [← s.members, World.membersOf]
    simp [and_assoc]
  have hright : u ∈ m.mailboxes.members g ↔ (g, u) ∈ m.network.members := by
    simp [Messenger.mailboxes, Messenger.membersIn]
  rw [hleft, hright]
  exact mem_members_iff h.network g u

theorem holds_send {env : Env} {req : SendMessageReq} (hcaught : env.tables s.tables = s.tables)
    (hsound : Chat.Mailbox.Sound s.chat (.send env.fails req)) :
    Holds (s.send env req) (m.send env.fails req) ∧
      s.sendReply env req = (m.mailboxes.send env.fails req).2 := by
  obtain ⟨hmail, hreply⟩ := Chat.MailboxService.simulates s.chat _ (.send env.fails req) hsound h.mail
  have hsame := send_members m.mailboxes env.fails req (mem_membersOf_iff h)
  rw [send_frame m.mailboxes] at hsame
  simp only [Mailboxes.serve, hsame] at hmail hreply
  have hmembers : (s.send env req).chat.membersOf = s.chat.membersOf := rfl
  refine ⟨⟨h.network, ?_⟩, ?_⟩
  · rw [hmembers, chat_send hcaught]
    exact hmail
  · rw [Servers.sendReply, asking_eq hcaught]
    exact Chat.Mailbox.Outcome.sent.inj hreply

theorem holds_tell {env : Env} {notices : List SendMessageReq} (hcaught : env.tables s.tables = s.tables)
    (hsound : ∀ req ∈ notices, Chat.Mailbox.Sound s.chat (.send env.fails req)) :
    Holds (s.tell env notices) (m.tell env.fails notices) := by
  induction notices generalizing s m with
  | nil => exact h
  | cons req notices ih =>
    refine ih (holds_send h hcaught (hsound req List.mem_cons_self)).1 hcaught ?_
    intro req' hreq'
    have hlater := hsound req' (List.mem_cons_of_mem req hreq')
    have hmembers : (s.send env req).chat.members = s.chat.members := rfl
    simp only [Chat.Mailbox.Sound, World.membersOf, hmembers] at hlater ⊢
    exact hlater

theorem holds_relate (call : Relation.SocialNetwork.Call) (hsound : Relation.SocialNetwork.Sound s.tables call) :
    Holds (s.relate call) { m with network := (m.network.serve call).1 } := by
  obtain ⟨hnetwork, -⟩ := Relation.NetworkService.simulates s.tables m.network call hsound h.network
  exact ⟨hnetwork, { h.mail with members := rfl, friend := isFriend_iff hnetwork }⟩

end Holds

theorem simulates : Simulates Servers.serve Sound Messenger.serve Holds := by
  intro s m call hsound h
  cases call with
  | relation r env =>
    obtain ⟨hcall, hcaught, hnotices⟩ := hsound
    have hreply : (Relation.SocialNetwork.serve s.tables (s.asked env r)).2 = (m.network.request r).2 :=
      (Relation.NetworkService.simulates s.tables m.network (s.asked env r) hcall h.network).2
    rw [Servers.serve, Messenger.serve, ← hreply]
    exact ⟨holds_tell (holds_relate h _ hcall) hcaught hnotices, rfl⟩
  | users nicknames => exact ⟨holds_relate h (.users nicknames) trivial, rfl⟩
  | send env req =>
    obtain ⟨hsent, hreply⟩ := holds_send h hsound.1 hsound.2
    exact ⟨hsent, congrArg (fun reply ↦ Answer.chat (.sent reply)) hreply⟩
  | sync env req =>
    have hshown : s.shown env = s.chat := by rw [Servers.shown, hsound.1, hsound.2]
    rw [Servers.serve, hshown, Chat.MailboxService.sync_of_holds h.mail]
    exact ⟨h, rfl⟩
  | others hashes clock => exact ⟨⟨h.network, { h.mail with clock := rfl }⟩, rfl⟩

theorem holds_start (hashes : Bytes → AList fun _ : Bytes ↦ Bytes) (clock : Bytes) :
    Holds (.start hashes clock) (.start clock) :=
  ⟨Relation.NetworkService.holds_empty,
    ⟨fun _ ↦ rfl, fun _ ↦ rfl, fun _ hb ↦ absurd hb List.not_mem_nil, rfl, rfl, fun _ _ ↦ rfl, rfl⟩⟩

/-- Through their replies the two services cannot be told from a messenger. -/
theorem replies_of_messenger (hashes : Bytes → AList fun _ : Bytes ↦ Bytes) (clock : Bytes) (calls : List Call)
    (h : Permits Servers.serve Sound (.start hashes clock) calls) :
    replies Servers.serve (.start hashes clock) calls = replies Messenger.serve (.start clock) calls :=
  (simulates.replies_eq h (holds_start hashes clock)).1

/-- A stranger writes in between. -/
def greeting : List Call :=
  [.relation (.acceptFriend { userId := 1, requesterId := 2, accept := true }) .calm,
    .send .calm { senderId := 3, receiverId := 2, content := [63] },
    .send .calm { senderId := 1, receiverId := 2, content := [104, 105] },
    .sync .calm { userId := 2, limit := 5 }]

theorem sound_send_calm (w : World) (req : SendMessageReq) : Chat.Mailbox.Sound w (.send Env.calm.fails req) :=
  .inr (.inr (.inr fun _ _ _ ↦ rfl))

theorem sound_sync_calm (s : Servers) (req : SyncMessagesReq) : Sound s (.sync .calm req) := ⟨rfl, rfl⟩

theorem replies_of_messenger_greeting :
    Permits Servers.serve Sound (.start (fun _ ↦ ∅) []) greeting ∧
      (replies Servers.serve (.start (fun _ ↦ ∅) []) greeting).getLast? = some (.chat (.synced (some
        ⟨2, [⟨1, 1, 0, 0, 3, ascii "Friend Request Accepted", []⟩, ⟨3, 2, 1, 0, 0, [104, 105], []⟩], true⟩))) := by
  have hsound : Permits Servers.serve Sound (.start (fun _ ↦ ∅) []) greeting :=
    ⟨⟨⟨fun _ ht ↦ absurd ht List.not_mem_nil, rfl⟩, rfl, fun _ _ ↦ sound_send_calm _ _⟩,
      ⟨rfl, sound_send_calm _ _⟩, ⟨rfl, sound_send_calm _ _⟩, sound_sync_calm _ _, trivial⟩
  refine ⟨hsound, ?_⟩
  rw [replies_of_messenger _ _ _ hsound]
  rfl

end TinyIM.Backend.MessengerService
