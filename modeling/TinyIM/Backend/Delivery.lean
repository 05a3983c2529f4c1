import TinyIM.Backend.MessengerService

namespace TinyIM.Backend.Delivery

open Chat.Mailbox (Mail Mailboxes)
open Library.ByteOrder Library.Delimited Library.Page Library.Service Protocol Services MessengerService
open Relation.Friendship (stored stored_of_nonneg)
open Relation.SocialNetwork (Network)

/-- The call, as it was answered, makes `u` someone whom the message reaches. -/
inductive Links (u : ℤ) (req : SendMessageReq) : Call → Answer → Prop
  | created (r : CreateGroupReq) (env : Env) (hgroup : 0 < req.groupId)
    (hmember : u ∈ r.ownerId :: r.initialMembers) :
    Links u req (.relation (.createGroup r) env)
      (.related (.created { success := true, groupId := req.groupId }))
  | joined (r : JoinGroupReq) (env : Env) (hgroup : 0 < req.groupId) (hsame : r.groupId = req.groupId)
    (huser : r.userId = u) :
    Links u req (.relation (.joinGroup r) env) (.related (.joined { success := true }))
  | accepted (r : AcceptGroupReq) (env : Env) (hgroup : 0 < req.groupId) (haccept : r.accept = true)
    (hsame : r.groupId = req.groupId) (huser : r.requesterId = u) :
    Links u req (.relation (.acceptGroup r) env) (.related (.groupAccepted { success := true }))
  | befriended (r : AcceptFriendReq) (env : Env) (hsingle : ¬ 0 < req.groupId) (haccept : r.accept = true)
    (huser : req.receiverId = u)
    (hpair : (r.userId = req.senderId ∧ r.requesterId = u) ∨ (r.userId = u ∧ r.requesterId = req.senderId)) :
    Links u req (.relation (.acceptFriend r) env) (.related (.friendAccepted { success := true }))

/-- The message would land in the box of `u`. -/
def Reaches (m : Messenger) (u : ℤ) (req : SendMessageReq) : Prop :=
  if 0 < req.groupId then (req.groupId, u) ∈ m.network.members
  else req.receiverId = u ∧ (req.senderId, u) ∈ m.network.friends

/-- Mail is only appended, members and friends are only added. -/
structure Later (m m' : Messenger) : Prop where
  box : ∀ u, m.box u <+: m'.box u
  members : m.network.members ⊆ m'.network.members
  friends : m.network.friends ⊆ m'.network.friends

/-- No two entries of a box have the same id, and no later one will have it. -/
def Numbered (m : Messenger) : Prop :=
  ∀ u, ((m.box u).map Mail.msgId).Nodup ∧ ∀ mail ∈ m.box u, mail.msgId < m.nextMsgId

section Messenger

variable (m : Messenger)

theorem Later.refl : Later m m := ⟨fun _ ↦ List.prefix_rfl, subset_rfl, subset_rfl⟩

variable {m} {m' m'' : Messenger}

theorem Later.trans (h : Later m m') (h' : Later m' m'') : Later m m'' :=
  ⟨fun u ↦ (h.box u).trans (h'.box u), h.members.trans h'.members, h.friends.trans h'.friends⟩

theorem Reaches.later {u : ℤ} {req : SendMessageReq} (h : Reaches m u req) (hlater : Later m m') :
    Reaches m' u req := by
  unfold Reaches at h ⊢
  split_ifs at h ⊢
  · exact hlater.members h
  · exact ⟨h.1, hlater.friends h.2⟩

/-- A call of `SendMessage` appends the same new mail to some of the boxes. -/
theorem send_cases (m : Messenger) (fails : ℕ → Bool) (req : SendMessageReq) :
    m.send fails req = m ∨ ∃ (users : List ℤ) (mail : Mail), mail.msgId = m.nextMsgId ∧
      m.send fails req =
        { m with
          box := fun u ↦ if u ∈ users then m.box u ++ [mail] else m.box u
          nextMsgId := m.nextMsgId + 1 } := by
  rw [Messenger.send, Mailboxes.send]
  split_ifs
  · exact .inl rfl
  · exact .inl rfl
  · exact .inr ⟨_, _, rfl, rfl⟩
  · exact .inr ⟨_, _, rfl, rfl⟩
  · exact .inr ⟨[], ⟨m.nextMsgId, 0, 0, 0, [], []⟩, rfl, by simp [Messenger.mailboxes]⟩

theorem later_send (m : Messenger) (fails : ℕ → Bool) (req : SendMessageReq) : Later m (m.send fails req) := by
  obtain hsame | ⟨users, mail, -, hsent⟩ := send_cases m fails req
  · rw [hsame]
    exact .refl m
  · rw [hsent]
    refine ⟨?_, subset_rfl, subset_rfl⟩
    intro u
    dsimp only
    split_ifs
    · exact List.prefix_append _ _
    · exact List.prefix_rfl

theorem Numbered.send (h : Numbered m) (fails : ℕ → Bool) (req : SendMessageReq) : Numbered (m.send fails req) := by
  obtain hsame | ⟨users, mail, hid, hsent⟩ := send_cases m fails req
  · rw [hsame]
    exact h
  · rw [hsent]
    intro u
    obtain ⟨hnodup, hbound⟩ := h u
    dsimp only
    split_ifs
    · rw [List.map_append, List.map_singleton, List.nodup_append]
      refine ⟨⟨hnodup, List.nodup_singleton _, ?_⟩, ?_⟩
      · rintro _ hold _ hnew
        obtain ⟨old, hmem, rfl⟩ := List.mem_map.mp hold
        rw [List.mem_singleton.mp hnew, hid]
        exact (hbound old hmem).ne
      · intro mail' hmail'
        rcases List.mem_append.mp hmail' with hold | hnew
        · exact (hbound mail' hold).trans (Nat.lt_succ_self _)
        · rw [List.mem_singleton.mp hnew, hid]
          exact Nat.lt_succ_self _
    · exact ⟨hnodup, fun mail' hmail' ↦ (hbound mail' hmail').trans (Nat.lt_succ_self _)⟩

theorem later_tell (m : Messenger) (fails : ℕ → Bool) (notices : List SendMessageReq) :
    Later m (m.tell fails notices) := by
  induction notices generalizing m with
  | nil => exact .refl m
  | cons req notices ih => exact (later_send m fails req).trans (ih (m.send fails req))

theorem Numbered.tell (h : Numbered m) (fails : ℕ → Bool) (notices : List SendMessageReq) :
    Numbered (m.tell fails notices) := by
  induction notices generalizing m with
  | nil => exact h
  | cons req notices ih => exact ih (h.send fails req)

theorem network_tell (m : Messenger) (fails : ℕ → Bool) (notices : List SendMessageReq) :
    (m.tell fails notices).network = m.network := by
  induction notices generalizing m with
  | nil => rfl
  | cons req notices ih => exact ih (m.send fails req)

end Messenger

theorem network_grows (n : Network) (r : Relation.RelationService.Request) :
    n.members ⊆ (n.request r).1.members ∧ n.friends ⊆ (n.request r).1.friends := by
  cases r with
  | applyFriend req =>
    rw [Network.request, Network.applyFriend]
    split_ifs <;> exact ⟨subset_rfl, subset_rfl⟩
  | acceptFriend req =>
    rw [Network.request, Network.acceptFriend]
    split_ifs
    · exact ⟨subset_rfl, Finset.subset_union_left⟩
    · exact ⟨subset_rfl, subset_rfl⟩
  | getFriendList req => exact ⟨subset_rfl, subset_rfl⟩
  | createGroup req => exact ⟨Finset.subset_union_left, subset_rfl⟩
  | joinGroup req =>
    rw [Network.request, Network.joinGroup]
    split_ifs
    · exact ⟨subset_rfl, subset_rfl⟩
    · exact ⟨Finset.subset_insert _ _, subset_rfl⟩
  | getGroupList req => exact ⟨subset_rfl, subset_rfl⟩
  | applyGroup req =>
    rw [Network.request, Network.applyGroup]
    split_ifs <;> exact ⟨subset_rfl, subset_rfl⟩
  | acceptGroup req =>
    rw [Network.request, Network.acceptGroup]
    split_ifs
    · exact ⟨Finset.subset_insert _ _, subset_rfl⟩
    · exact ⟨subset_rfl, subset_rfl⟩

theorem later_serve (m : Messenger) (call : Call) : Later m (Messenger.serve m call).1 := by
  cases call with
  | relation r env =>
    obtain ⟨hmembers, hfriends⟩ := network_grows m.network r
    have hnetwork : Later m { m with network := (m.network.request r).1 } :=
      ⟨fun _ ↦ List.prefix_rfl, hmembers, hfriends⟩
    exact hnetwork.trans (later_tell _ env.fails _)
  | users nicknames => exact ⟨fun _ ↦ List.prefix_rfl, subset_rfl, subset_rfl⟩
  | send env req => exact later_send m env.fails req
  | sync env req => exact .refl m
  | others hashes clock => exact ⟨fun _ ↦ List.prefix_rfl, subset_rfl, subset_rfl⟩

theorem Numbered.serve {m : Messenger} (h : Numbered m) (call : Call) : Numbered (Messenger.serve m call).1 := by
  cases call with
  | relation r env => exact Numbered.tell (m := { m with network := (m.network.request r).1 }) h env.fails _
  | send env req => exact h.send env.fails req
  | users nicknames => exact h
  | sync env req => exact h
  | others hashes clock => exact h

theorem later_final (m : Messenger) (calls : List Call) : Later m (final Messenger.serve m calls) :=
  final_invariant (fun m' call h ↦ h.trans (later_serve m' call)) (.refl m)

theorem numbered_final (clock : Bytes) (calls : List Call) :
    Numbered (final Messenger.serve (.start clock) calls) :=
  final_invariant (fun _ call h ↦ h.serve call) fun _ ↦ ⟨List.nodup_nil, fun _ hmail ↦ absurd hmail List.not_mem_nil⟩

section Links

variable {m : Messenger} {u : ℤ} {req : SendMessageReq}

theorem reaches_of_links {call : Call} (h : Links u req call (Messenger.serve m call).2) (hu : 0 ≤ u)
    (hsender : 0 ≤ req.senderId) : Reaches (Messenger.serve m call).1 u req := by
  obtain ⟨answer, hanswer⟩ : ∃ answer, answer = (Messenger.serve m call).2 := ⟨_, rfl⟩
  rw [← hanswer] at h
  unfold Reaches
  cases h with
  | created r env hgroup hmember =>
    rw [if_pos hgroup, Messenger.serve, network_tell]
    have hid : req.groupId = m.network.groups.length + 1 := by
      simpa [Messenger.serve, Network.request, Network.createGroup] using hanswer
    refine Finset.mem_union_right _ (List.mem_toFinset.mpr (List.mem_map.mpr ⟨u, hmember, ?_⟩))
    rw [stored_of_nonneg hu, hid]
    rfl
  | joined r env hgroup hsame huser =>
    rw [if_pos hgroup, Messenger.serve, network_tell, Network.request, Network.joinGroup, hsame, huser,
      stored_of_nonneg hgroup.le, stored_of_nonneg hu]
    split_ifs with hmember
    · exact hmember
    · exact Finset.mem_insert_self _ _
  | accepted r env hgroup haccept hsame huser =>
    rw [if_pos hgroup, Messenger.serve, network_tell, Network.request, Network.acceptGroup, if_pos haccept, hsame,
      huser, stored_of_nonneg hgroup.le, stored_of_nonneg hu]
    exact Finset.mem_insert_self _ _
  | befriended r env hsingle haccept huser hpair =>
    rw [if_neg hsingle, Messenger.serve, network_tell, Network.request, Network.acceptFriend, if_pos haccept]
    refine ⟨huser, Finset.mem_union_right _ ?_⟩
    rcases hpair with ⟨hleft, hright⟩ | ⟨hleft, hright⟩
    · rw [hleft, hright, stored_of_nonneg hu, stored_of_nonneg hsender]
      exact Finset.mem_insert_self _ _
    · rw [hleft, hright, stored_of_nonneg hu, stored_of_nonneg hsender]
      exact Finset.mem_insert_of_mem (Finset.mem_singleton_self _)

/-- The mail that the message becomes. -/
def mailOf (m : Messenger) (req : SendMessageReq) : Mail :=
  ⟨m.nextMsgId, req.senderId, req.groupId, req.type, cString req.content, cString m.clock⟩

theorem send_of_reaches (h : Reaches m u req) {fails : ℕ → Bool} (h0 : fails 0 = false) (h1 : fails 1 = false)
    (h2 : fails 2 = false) :
    (m.send fails req).box u = m.box u ++ [mailOf m req] ∧
      (m.mailboxes.send fails req).2 = (none,
        { msgId := m.nextMsgId, seqId := if 0 < req.groupId then 0 else (m.box u).length + 1, success := true }) := by
  have hbody : ¬ (fails 0 || fails 1) = true := by simp [h0, h1]
  have hstored : ¬ fails 2 = true := by simp [h2]
  unfold Reaches at h
  rw [Messenger.send, Mailboxes.send, if_neg hbody, if_neg hstored]
  by_cases hgroup : 0 < req.groupId
  · rw [if_pos hgroup] at h
    have hmember : u ∈ m.mailboxes.members req.groupId := by
      simp [Messenger.mailboxes, Messenger.membersIn, h]
    rw [if_pos hgroup, if_pos hgroup]
    exact ⟨if_pos hmember, rfl⟩
  · rw [if_neg hgroup] at h
    obtain ⟨rfl, hfriends⟩ := h
    have hmay : Chat.maySend (m.mailboxes.friend req.senderId req.receiverId) req.type = true := by
      simp [Chat.maySend, Messenger.mailboxes, hfriends]
    rw [if_neg hgroup, if_neg hgroup, if_pos hmay]
    exact ⟨if_pos (List.mem_singleton_self _), rfl⟩

end Links

section Pull

variable {l l' : List Mail} {mail : Mail}

/-- The mail as it is pulled from place `seq`. -/
def itemOf (mail : Mail) (seq : ℤ) : MessageItem :=
  { msgId := mail.msgId, seqId := seq, senderId := mail.senderId, groupId := mail.groupId, type := mail.type,
    content := mail.content, createdAt := mail.createdAt }

theorem msgIds_items (box : List Mail) :
    (Mailboxes.items box).map MessageItem.msgId = (box.map Mail.msgId).map Nat.cast := by
  refine List.ext_getElem (by simp) ?_
  intro i _ _
  simp [Mailboxes.items]

theorem items_append_cons (l l' : List Mail) (mail : Mail) : ∃ later, Mailboxes.items (l ++ mail :: l') =
    Mailboxes.items l ++ itemOf mail (l.length + 1) :: later := by
  rw [Mailboxes.items, List.mapIdx_append, List.mapIdx_cons, Nat.zero_add]
  exact ⟨_, rfl⟩

/-- A forward pull shows the mail if it covers its place, and then once. -/
theorem sync_shows {m : Messenger} {u : ℤ} (hbox : m.box u = l ++ mail :: l') (hnumbered : Numbered m)
    {req : SyncMessagesReq} (huser : req.userId = u) (hforward : req.reverse = false) :
    ((m.mailboxes.sync req).msgs.filter fun item ↦ item.msgId = (mail.msgId : ℤ)) =
      if req.localSeq.toNat ≤ l.length ∧ l.length < req.localSeq.toNat + Chat.pageLimit req.limit then
        [itemOf mail (l.length + 1)]
      else [] := by
  obtain ⟨later, hitems⟩ := items_append_cons l l' mail
  have hnodup : ((Mailboxes.items (m.box u)).map MessageItem.msgId).Nodup := by
    rw [msgIds_items]
    exact (hnumbered u).1.map Nat.cast_injective
  rw [hbox, hitems] at hnodup
  have hwindow := filter_window hnodup req.localSeq.toNat (Chat.pageLimit req.limit)
  have hlength : (Mailboxes.items l).length = l.length := List.length_mapIdx
  rw [← hitems, ← hbox, hlength] at hwindow
  rw [Mailboxes.sync, huser, if_neg (by rw [hforward]; exact Bool.false_ne_true)]
  exact hwindow

end Pull

/-- Who has been added to a group, or accepted as a friend, gets each later message
in a place of its own: every pull that covers the place shows the message once,
and no other pull shows it. -/
theorem pulled_once (hashes : Bytes → AList fun _ : Bytes ↦ Bytes) (clock : Bytes) {earlier : List Call}
    {env : Env} {req : SendMessageReq} {u : ℤ}
    (hearlier : Permits Servers.serve Sound (.start hashes clock) earlier)
    (hlinked : ∃ x ∈ earlier.zip (replies Servers.serve (.start hashes clock) earlier), Links u req x.1 x.2)
    (hu : 0 ≤ u) (hsender : 0 ≤ req.senderId)
    (hsound : Sound (final Servers.serve (.start hashes clock) earlier) (.send env req))
    (h0 : env.fails 0 = false) (h1 : env.fails 1 = false) (h2 : env.fails 2 = false) :
    let s := final Servers.serve (.start hashes clock) earlier
    ∃ msgId seq : ℕ,
      (Servers.serve s (.send env req)).2 = .chat (.sent (none,
        { msgId := msgId, seqId := if 0 < req.groupId then 0 else seq, success := true })) ∧
      ∀ later, Permits Servers.serve Sound (s.send env req) later →
        ∀ (env' : Env) (pull : SyncMessagesReq),
          Sound (final Servers.serve (s.send env req) later) (.sync env' pull) →
          pull.userId = u → pull.reverse = false →
          ∃ resp, (Servers.serve (final Servers.serve (s.send env req) later) (.sync env' pull)).2 =
              .chat (.synced (some resp)) ∧
            (resp.msgs.filter fun item ↦ item.msgId = (msgId : ℤ)) =
              if pull.localSeq.toNat < seq ∧ seq ≤ pull.localSeq.toNat + Chat.pageLimit pull.limit then
                [{ msgId := msgId, seqId := seq, senderId := req.senderId, groupId := req.groupId,
                   type := req.type, content := cString req.content, createdAt := cString s.chat.clock }]
              else [] := by
  intro s
  obtain ⟨hsame, hholds⟩ := simulates.replies_eq hearlier (holds_start hashes clock)
  set m := final Messenger.serve (.start clock) earlier with hm
  have hreaches : Reaches m u req := by
    obtain ⟨⟨call, answer⟩, hmem, hlinks⟩ := hlinked
    rw [hsame] at hmem
    obtain ⟨before, after, hcalls, rfl⟩ := exists_of_mem_zip hmem
    rw [hm, hcalls, final_append]
    exact (reaches_of_links hlinks hu hsender).later (later_final _ after)
  obtain ⟨hbox, hreply⟩ := send_of_reaches hreaches h0 h1 h2
  obtain ⟨hsent, hvalue⟩ := holds_send hholds hsound.1 hsound.2
  refine ⟨m.nextMsgId, (m.box u).length + 1, ?_, ?_⟩
  · rw [Servers.serve, hvalue, hreply]
    rfl
  · intro later hlater env' pull hcaught huser hforward
    obtain ⟨-, hholds'⟩ := simulates.replies_eq hlater hsent
    obtain ⟨mails, hmails⟩ := (later_final (m.send env.fails req) later).box u
    have hnumbered : Numbered (final Messenger.serve (m.send env.fails req) later) := by
      have hall := numbered_final clock (earlier ++ .send env req :: later)
      rw [final_append] at hall
      exact hall
    have hshows := sync_shows (hmails.symm.trans (by rw [hbox, List.append_assoc]; rfl)) hnumbered huser hforward
    have hclock : s.chat.clock = m.clock := hholds.mail.clock
    refine ⟨_, (simulates _ _ (.sync env' pull) hcaught hholds').2, hshows.trans (if_congr ?_ ?_ rfl)⟩
    · exact and_congr Nat.lt_succ_iff.symm Nat.succ_le_iff.symm
    · rw [hclock]
      rfl

/-- Its second user joins the group of the first. -/
def newcomer : List Call :=
  [.relation (.createGroup { ownerId := 1, groupName := [103] }) .calm,
    .relation (.joinGroup { userId := 2, groupId := 1 }) .calm]

theorem pulled_once_newcomer :
    let s := final Servers.serve (.start (fun _ ↦ ∅) []) newcomer
    let req : SendMessageReq := { senderId := 1, groupId := 1, content := [104, 105] }
    ∃ msgId seq : ℕ,
      (Servers.serve s (.send .calm req)).2 =
        .chat (.sent (none, { msgId := msgId, seqId := 0, success := true })) ∧
      ∀ later, Permits Servers.serve Sound (s.send .calm req) later →
        ∀ (env' : Env) (pull : SyncMessagesReq),
          Sound (final Servers.serve (s.send .calm req) later) (.sync env' pull) →
          pull.userId = 2 → pull.reverse = false →
          ∃ resp, (Servers.serve (final Servers.serve (s.send .calm req) later) (.sync env' pull)).2 =
              .chat (.synced (some resp)) ∧
            (resp.msgs.filter fun item ↦ item.msgId = (msgId : ℤ)) =
              if pull.localSeq.toNat < seq ∧ seq ≤ pull.localSeq.toNat + Chat.pageLimit pull.limit then
                [{ msgId := msgId, seqId := seq, senderId := 1, groupId := 1, content := [104, 105] }]
              else [] := by
  have hnamed : ∀ text ∈ [[(103 : UInt8)]], Library.SqlStatement.Plain text ∧ text.length ≤ 64 :=
    List.forall_mem_singleton.mpr ⟨⟨by decide, trivial⟩, by decide⟩
  have hearlier : Permits Servers.serve Sound (.start (fun _ ↦ ∅) []) newcomer :=
    ⟨⟨⟨hnamed, rfl⟩, rfl, fun _ _ ↦ sound_send_calm _ _⟩,
      ⟨⟨fun _ ht ↦ absurd ht List.not_mem_nil, rfl⟩, rfl, fun _ _ ↦ sound_send_calm _ _⟩, trivial⟩
  have hlinked : ∃ x ∈ newcomer.zip (replies Servers.serve (.start (fun _ ↦ ∅) []) newcomer),
      Links 2 { senderId := 1, groupId := 1, content := [104, 105] } x.1 x.2 := by
    rw [replies_of_messenger _ _ _ hearlier]
    exact ⟨_, .tail _ (.head _), .joined _ _ Int.one_pos rfl rfl⟩
  exact pulled_once _ _ hearlier hlinked (by decide) Int.one_nonneg ⟨rfl, sound_send_calm _ _⟩ rfl rfl rfl

end TinyIM.Backend.Delivery
