import TinyIM.Relation.Friendship

namespace TinyIM.Relation.RelationService

open Library.ByteOrder Library.Decimal Library.Delimited Library.Program Library.Table Protocol Chat
open Friendship (stored newRelations)

structure FriendRequestRow where
  userId : ℤ
  friendId : ℤ
  remark : Bytes
  status : ℤ
  deriving DecidableEq, Repr

structure GroupRow where
  groupName : Bytes
  ownerId : ℤ
  deriving DecidableEq, Repr

/-- `role` is 1 for a member, 2 for the owner and 3 for an admin. -/
structure MemberRow where
  groupId : ℤ
  userId : ℤ
  role : ℕ
  deriving DecidableEq, Repr

structure GroupRequestRow where
  groupId : ℤ
  userId : ℤ
  status : ℤ
  remark : Bytes
  deriving DecidableEq, Repr

/-- `uk_group_user`. -/
def MemberRow.key (r : MemberRow) : ℤ × ℤ := (r.groupId, r.userId)

/-- The tables of the relation service, and the nicknames in `im_user`. -/
structure Tables where
  nicknames : List (ℤ × Bytes)
  friendRequests : Numbered FriendRequestRow
  relations : Keyed RelationRow.key
  groups : Numbered GroupRow
  members : Keyed MemberRow.key
  groupRequests : Numbered GroupRequestRow

/-- What `RelationServiceImpl` asks of MySQL and of the chat service. -/
inductive Command
  | friend (c : FriendService.Command)
  | connectWrite
  | connectRead
  | selectFriends (userId : ℤ)
  | insertGroup (groupName : Bytes) (ownerId : ℤ)
  | selectMember (groupId userId : ℤ)
  | insertMember (groupId userId : ℤ) (role : ℕ)
  | selectGroups (userId : ℤ)
  | insertGroupRequest (groupId userId : ℤ) (remark : Bytes)
  | selectOwner (groupId : ℤ)
  | sendMessage (req : SendMessageReq)
  deriving DecidableEq, Repr

/-- `duplicate` is error 1062. -/
inductive Inserted
  | done
  | duplicate
  | failed
  deriving DecidableEq, Repr

/-- `none` and `false` are failures. No handler looks at the reply of the chat service. -/
abbrev Answer : Command → Type
  | .friend c => FriendService.Answer c
  | .connectWrite => Bool
  | .connectRead => Bool
  | .selectFriends _ => Option (List (ℤ × Bytes))
  | .insertGroup _ _ => Option ℕ
  | .selectMember _ _ => Option Bool
  | .insertMember _ _ _ => Inserted
  | .selectGroups _ => Option (List GroupInfo)
  | .insertGroupRequest _ _ _ => Option ℕ
  | .selectOwner _ => Option (Option ℤ)
  | .sendMessage _ => Unit

abbrev Handler := Prog Command Answer

abbrev ask (c : Command) : Handler (Answer c) := Prog.perform c

def applyFriend (req : ApplyFriendReq) : Handler (Status × ApplyFriendResp) :=
  (FriendService.applyFriend req).lift Command.friend

def acceptFriend (req : AcceptFriendReq) : Handler AcceptFriendResp :=
  (FriendService.acceptFriend req).lift Command.friend

-- apart from `ApplyFriend`, no handler looks at whether its connection is valid

def getFriendList (req : GetFriendListReq) : Handler GetFriendListResp := do
  let _valid ← ask .connectRead
  let rows ← ask (.selectFriends req.userId)
  match rows with
  | none => return {}
  | some rows =>
    return { friends := rows.map fun r ↦ { userId := r.1, nickname := cString r.2 }, success := true }

def addInitialMembers (groupId ownerId : ℤ) : List ℤ → Handler Unit
  | [] => return ()
  | uid :: rest =>
    if uid = ownerId then addInitialMembers groupId ownerId rest
    else do
      let _inserted ← ask (.insertMember groupId uid 1)
      addInitialMembers groupId ownerId rest

def createGroup (req : CreateGroupReq) : Handler CreateGroupResp := do
  let _valid ← ask .connectWrite
  let id ← ask (.insertGroup req.groupName req.ownerId)
  match id with
  | none => return { success := false }
  | some groupId =>
    let _inserted ← ask (.insertMember groupId req.ownerId 2)
    addInitialMembers groupId req.ownerId req.initialMembers
    return { success := true, groupId := groupId }

def joinedMsg (userId groupId : ℤ) : SendMessageReq where
  senderId := userId
  groupId := groupId
  type := 3
  content := ascii "User " ++ stdToString userId ++ ascii " joined the group"

def finishJoin (req : JoinGroupReq) : Inserted → Handler JoinGroupResp
  | .done => do
    ask (.sendMessage (joinedMsg req.userId req.groupId))
    return { success := true }
  | .duplicate => return { success := true }
  | .failed => return { success := false }

def joinGroup (req : JoinGroupReq) : Handler JoinGroupResp := do
  let _valid ← ask .connectWrite
  let found ← ask (.selectMember req.groupId req.userId)
  if found = some true then return { success := true }
  else
    let inserted ← ask (.insertMember req.groupId req.userId 1)
    finishJoin req inserted

def getGroupList (req : GetGroupListReq) : Handler GetGroupListResp := do
  let _valid ← ask .connectRead
  let rows ← ask (.selectGroups req.userId)
  match rows with
  | none => return {}
  | some rows =>
    return { groups := rows.map fun g ↦ { g with groupName := cString g.groupName }, success := true }

/-- Type 4 is FRIEND_REQ. -/
def groupRequestMsg (ownerId : ℤ) : SendMessageReq where
  receiverId := ownerId
  type := 4
  content := ascii "Group Join Request"

def notifyOwner : Option (Option ℤ) → Handler Unit
  | some (some ownerId) => ask (.sendMessage (groupRequestMsg ownerId))
  | _ => return ()

def applyGroup (req : ApplyGroupReq) : Handler ApplyGroupResp := do
  let _valid ← ask .connectWrite
  let found ← ask (.selectMember req.groupId req.userId)
  if found = some true then return { success := false, errorMessage := ascii "Already a member" }
  else
    let applyId ← ask (.insertGroupRequest req.groupId req.userId req.remark)
    match applyId with
    | none => return { success := false, errorMessage := ascii "Apply failed" }
    | some applyId =>
      let owner ← ask (.selectOwner req.groupId)
      notifyOwner owner
      return { success := true, applyId := applyId }

def acceptedMsg (requesterId : ℤ) : SendMessageReq where
  receiverId := requesterId
  type := 3
  content := ascii "Your group join request was accepted"

def acceptGroup (req : AcceptGroupReq) : Handler AcceptGroupResp := do
  let _valid ← ask .connectWrite
  if req.accept then
    let _inserted ← ask (.insertMember req.groupId req.requesterId 1)
    ask (.sendMessage (acceptedMsg req.requesterId))
    return { success := true }
  else return { success := true }

namespace Tables

def empty : Tables := ⟨[], .empty, .empty, .empty, .empty, .empty⟩

variable (w : Tables)

def friendsOf (userId : ℤ) : List (ℤ × Bytes) :=
  (w.relations.rows.filter fun r ↦ r.userId = userId ∧ r.status = 1).filterMap fun r ↦
    w.nicknames.find? fun u ↦ u.1 = r.friendId

def groupsOf (userId : ℤ) : List GroupInfo :=
  (w.members.rows.filter fun m ↦ m.userId = userId).filterMap fun m ↦
    (w.groups.rows.find? fun g ↦ (g.1 : ℤ) = m.groupId).map fun g ↦
      { groupId := g.1, groupName := g.2.groupName, ownerId := g.2.ownerId }

def ownerOf (groupId : ℤ) : Option ℤ :=
  (w.groups.rows.find? fun g ↦ (g.1 : ℤ) = groupId).map fun g ↦ g.2.ownerId

/-- Ids are `BIGINT UNSIGNED`: a statement compares them as they are and stores a
negative one as 0. Names and remarks are values here. -/
def succeedFriend : (c : FriendService.Command) → Tables × FriendService.Answer c
  | .connect => (w, true)
  | .selectPending userId friendId =>
    (w, some (w.friendRequests.rows.any fun r ↦
      r.2.userId = userId ∧ r.2.friendId = friendId ∧ r.2.status = 0))
  | .insertRequest userId friendId remark =>
    ({ w with friendRequests := w.friendRequests.insert ⟨stored userId, stored friendId, remark, 0⟩ },
      some w.friendRequests.next)
  | .insertRelations userId requesterId =>
    ({ w with relations := w.relations.insertIgnore (newRelations userId requesterId) }, true)
  | .sendMessage _ => (w, ())

def succeed : (c : Command) → Tables × Answer c
  | .friend c => w.succeedFriend c
  | .connectWrite => (w, true)
  | .connectRead => (w, true)
  | .selectFriends userId => (w, some (w.friendsOf userId))
  | .insertGroup groupName ownerId =>
    ({ w with groups := w.groups.insert ⟨groupName, stored ownerId⟩ }, some w.groups.next)
  | .selectMember groupId userId => (w, some (w.members.rows.any fun m ↦ m.key = (groupId, userId)))
  | .insertMember groupId userId role =>
    match w.members.insert [⟨stored groupId, stored userId, role⟩] with
    | some members => ({ w with members := members }, .done)
    | none => (w, .duplicate)
  | .selectGroups userId => (w, some (w.groupsOf userId))
  | .insertGroupRequest groupId userId remark =>
    ({ w with groupRequests := w.groupRequests.insert ⟨stored groupId, stored userId, 0, remark⟩ },
      some w.groupRequests.next)
  | .selectOwner groupId => (w, some (w.ownerOf groupId))
  | .sendMessage _ => (w, ())

def failureFriend : (c : FriendService.Command) → FriendService.Answer c
  | .connect => false
  | .selectPending _ _ => none
  | .insertRequest _ _ _ => none
  | .insertRelations _ _ => false
  | .sendMessage _ => ()

def failure : (c : Command) → Answer c
  | .friend c => failureFriend c
  | .connectWrite => false
  | .connectRead => false
  | .selectFriends _ => none
  | .insertGroup _ _ => none
  | .selectMember _ _ => none
  | .insertMember _ _ _ => .failed
  | .selectGroups _ => none
  | .insertGroupRequest _ _ _ => none
  | .selectOwner _ => none
  | .sendMessage _ => ()

def perform (ok : Bool) (c : Command) : Tables × Answer c := if ok then w.succeed c else (w, failure c)

/-- All that a command can do to the tables. -/
inductive Change : Command → Tables → Prop
  | none (c : Command) : Change c w
  | friendRequest (userId friendId : ℤ) (remark : Bytes) : Change (.friend (.insertRequest userId friendId remark))
    { w with friendRequests := w.friendRequests.insert ⟨stored userId, stored friendId, remark, 0⟩ }
  | relations (userId requesterId : ℤ) : Change (.friend (.insertRelations userId requesterId))
    { w with relations := w.relations.insertIgnore (newRelations userId requesterId) }
  | group (groupName : Bytes) (ownerId : ℤ) : Change (.insertGroup groupName ownerId)
    { w with groups := w.groups.insert ⟨groupName, stored ownerId⟩ }
  | member {groupId userId : ℤ} {role : ℕ} {members : Keyed MemberRow.key}
    (h : w.members.insert [⟨stored groupId, stored userId, role⟩] = some members) :
    Change (.insertMember groupId userId role) { w with members := members }
  | groupRequest (groupId userId : ℤ) (remark : Bytes) : Change (.insertGroupRequest groupId userId remark)
    { w with groupRequests := w.groupRequests.insert ⟨stored groupId, stored userId, 0, remark⟩ }

theorem succeed_change (c : Command) : w.Change c (w.succeed c).1 := by
  cases c with
  | friend c =>
    cases c with
    | insertRequest userId friendId remark => exact .friendRequest userId friendId remark
    | insertRelations userId requesterId => exact .relations userId requesterId
    | _ => exact .none _
  | insertGroup groupName ownerId => exact .group groupName ownerId
  | insertMember groupId userId role =>
    rw [succeed]
    split
    · next members hinsert => exact .member hinsert
    · exact .none _
  | insertGroupRequest groupId userId remark => exact .groupRequest groupId userId remark
  | _ => exact .none _

theorem perform_change (ok : Bool) (c : Command) : w.Change c (w.perform ok c).1 := by
  cases ok with
  | false => exact .none c
  | true => exact w.succeed_change c

end Tables

inductive Request
  | applyFriend (req : ApplyFriendReq)
  | acceptFriend (req : AcceptFriendReq)
  | getFriendList (req : GetFriendListReq)
  | createGroup (req : CreateGroupReq)
  | joinGroup (req : JoinGroupReq)
  | getGroupList (req : GetGroupListReq)
  | applyGroup (req : ApplyGroupReq)
  | acceptGroup (req : AcceptGroupReq)

inductive Outcome
  | friendApplied (reply : Status × ApplyFriendResp)
  | friendAccepted (resp : AcceptFriendResp)
  | friends (resp : GetFriendListResp)
  | created (resp : CreateGroupResp)
  | joined (resp : JoinGroupResp)
  | groups (resp : GetGroupListResp)
  | groupApplied (resp : ApplyGroupResp)
  | groupAccepted (resp : AcceptGroupResp)

def Request.program : Request → Handler Outcome
  | .applyFriend req => do return .friendApplied (← RelationService.applyFriend req)
  | .acceptFriend req => do return .friendAccepted (← RelationService.acceptFriend req)
  | .getFriendList req => do return .friends (← RelationService.getFriendList req)
  | .createGroup req => do return .created (← RelationService.createGroup req)
  | .joinGroup req => do return .joined (← RelationService.joinGroup req)
  | .getGroupList req => do return .groups (← RelationService.getGroupList req)
  | .applyGroup req => do return .groupApplied (← RelationService.applyGroup req)
  | .acceptGroup req => do return .groupAccepted (← RelationService.acceptGroup req)

/-- The writes of each request. -/
def Request.Writes (r : Request) : Command → Prop
  | .friend (.insertRequest userId friendId remark) =>
    ∃ req, r = .applyFriend req ∧ userId = req.userId ∧ friendId = req.friendId ∧ remark = req.remark
  | .friend (.insertRelations userId requesterId) =>
    ∃ req, r = .acceptFriend req ∧ req.accept = true ∧ userId = req.userId ∧ requesterId = req.requesterId
  | .insertGroup groupName ownerId =>
    ∃ req, r = .createGroup req ∧ groupName = req.groupName ∧ ownerId = req.ownerId
  | .insertMember groupId userId role =>
    (∃ req, r = .createGroup req) ∨
    (∃ req, r = .joinGroup req ∧ groupId = req.groupId ∧ userId = req.userId ∧ role = 1) ∨
    (∃ req, r = .acceptGroup req ∧ req.accept = true ∧ groupId = req.groupId ∧ userId = req.requesterId ∧ role = 1)
  | .insertGroupRequest groupId userId remark =>
    ∃ req, r = .applyGroup req ∧ groupId = req.groupId ∧ userId = req.userId ∧ remark = req.remark
  | _ => True

section Writes

variable {t : Unit}

theorem applyFriend_writes (req : ApplyFriendReq) :
    Meets (permits (Request.applyFriend req).Writes) (fun _ _ ↦ True) t (applyFriend req) := by
  rw [applyFriend, meets_lift]
  refine meets_of_permits (FriendService.applyFriend_commands req) ?_
  rintro _ _ (rfl | rfl | rfl | rfl)
  · exact trivial
  · exact trivial
  · exact ⟨req, rfl, rfl, rfl, rfl⟩
  · exact trivial

theorem acceptFriend_writes (req : AcceptFriendReq) :
    Meets (permits (Request.acceptFriend req).Writes) (fun _ _ ↦ True) t (acceptFriend req) := by
  rw [acceptFriend, meets_lift]
  refine meets_of_permits (FriendService.acceptFriend_commands req) ?_
  rintro _ _ (rfl | ⟨haccept, rfl⟩ | rfl)
  · exact trivial
  · exact ⟨req, rfl, haccept, rfl, rfl⟩
  · exact trivial

theorem getFriendList_writes {r : Request} (req : GetFriendListReq) :
    Meets (permits r.Writes) (fun _ _ ↦ True) t (getFriendList req) := by
  refine meets_perform_bind.mpr ⟨trivial, fun _ _ ↦ meets_perform_bind.mpr ⟨trivial, ?_⟩⟩
  intro rows _
  cases rows <;> exact trivial

theorem addInitialMembers_writes (req : CreateGroupReq) (groupId ownerId : ℤ) (members : List ℤ) :
    Meets (permits (Request.createGroup req).Writes) (fun _ _ ↦ True) t
      (addInitialMembers groupId ownerId members) := by
  induction members with
  | nil => exact trivial
  | cons uid members ih =>
    rw [addInitialMembers]
    split_ifs
    · exact ih
    · exact meets_perform_bind.mpr ⟨.inl ⟨req, rfl⟩, fun _ _ ↦ ih⟩

theorem createGroup_writes (req : CreateGroupReq) :
    Meets (permits (Request.createGroup req).Writes) (fun _ _ ↦ True) t (createGroup req) := by
  refine meets_perform_bind.mpr ⟨trivial, fun _ _ ↦ ?_⟩
  refine meets_perform_bind.mpr ⟨⟨req, rfl, rfl, rfl⟩, ?_⟩
  intro id _
  cases id with
  | none => exact trivial
  | some groupId =>
    refine meets_perform_bind.mpr ⟨.inl ⟨req, rfl⟩, fun _ _ ↦ ?_⟩
    exact meets_bind.mpr (addInitialMembers_writes req _ _ _)

theorem joinGroup_commands (req : JoinGroupReq) :
    Meets (permits fun c ↦ c = .connectWrite ∨ c = .selectMember req.groupId req.userId ∨
      c = .insertMember req.groupId req.userId 1 ∨ c = .sendMessage (joinedMsg req.userId req.groupId))
      (fun _ _ ↦ True) () (joinGroup req) := by
  refine meets_perform_bind.mpr ⟨.inl rfl, fun _ _ ↦ meets_perform_bind.mpr ⟨.inr (.inl rfl), ?_⟩⟩
  intro found _
  split
  · exact trivial
  · refine meets_perform_bind.mpr ⟨.inr (.inr (.inl rfl)), ?_⟩
    intro inserted _
    cases inserted with
    | done => exact meets_perform_bind.mpr ⟨.inr (.inr (.inr rfl)), fun _ _ ↦ trivial⟩
    | duplicate => exact trivial
    | failed => exact trivial

theorem joinGroup_writes (req : JoinGroupReq) :
    Meets (permits (Request.joinGroup req).Writes) (fun _ _ ↦ True) t (joinGroup req) := by
  refine meets_of_permits (joinGroup_commands req) ?_
  rintro _ _ (rfl | rfl | rfl | rfl)
  · exact trivial
  · exact trivial
  · exact .inr (.inl ⟨req, rfl, rfl, rfl, rfl⟩)
  · exact trivial

theorem getGroupList_writes {r : Request} (req : GetGroupListReq) :
    Meets (permits r.Writes) (fun _ _ ↦ True) t (getGroupList req) := by
  refine meets_perform_bind.mpr ⟨trivial, fun _ _ ↦ meets_perform_bind.mpr ⟨trivial, ?_⟩⟩
  intro rows _
  cases rows <;> exact trivial

theorem applyGroup_commands (req : ApplyGroupReq) :
    Meets (permits fun c ↦ c = .connectWrite ∨ c = .selectMember req.groupId req.userId ∨
      c = .insertGroupRequest req.groupId req.userId req.remark ∨ c = .selectOwner req.groupId ∨
      ∃ ownerId, c = .sendMessage (groupRequestMsg ownerId)) (fun _ _ ↦ True) () (applyGroup req) := by
  refine meets_perform_bind.mpr ⟨.inl rfl, fun _ _ ↦ meets_perform_bind.mpr ⟨.inr (.inl rfl), ?_⟩⟩
  intro found _
  split
  · exact trivial
  · refine meets_perform_bind.mpr ⟨.inr (.inr (.inl rfl)), ?_⟩
    intro applyId _
    cases applyId with
    | none => exact trivial
    | some applyId =>
      refine meets_perform_bind.mpr ⟨.inr (.inr (.inr (.inl rfl))), ?_⟩
      intro owner _
      match owner with
      | none => exact trivial
      | some none => exact trivial
      | some (some ownerId) =>
        exact meets_perform_bind.mpr ⟨.inr (.inr (.inr (.inr ⟨ownerId, rfl⟩))), fun _ _ ↦ trivial⟩

theorem applyGroup_writes (req : ApplyGroupReq) :
    Meets (permits (Request.applyGroup req).Writes) (fun _ _ ↦ True) t (applyGroup req) := by
  refine meets_of_permits (applyGroup_commands req) ?_
  rintro _ _ (rfl | rfl | rfl | rfl | ⟨ownerId, rfl⟩)
  · exact trivial
  · exact trivial
  · exact ⟨req, rfl, rfl, rfl, rfl⟩
  · exact trivial
  · exact trivial

theorem acceptGroup_commands (req : AcceptGroupReq) :
    Meets (permits fun c ↦ c = .connectWrite ∨
      (req.accept = true ∧ c = .insertMember req.groupId req.requesterId 1) ∨
      c = .sendMessage (acceptedMsg req.requesterId)) (fun _ _ ↦ True) () (acceptGroup req) := by
  refine meets_perform_bind.mpr ⟨.inl rfl, fun _ _ ↦ ?_⟩
  split_ifs with haccept
  · refine meets_perform_bind.mpr ⟨.inr (.inl ⟨haccept, rfl⟩), fun _ _ ↦ ?_⟩
    exact meets_perform_bind.mpr ⟨.inr (.inr rfl), fun _ _ ↦ trivial⟩
  · exact trivial

theorem acceptGroup_writes (req : AcceptGroupReq) :
    Meets (permits (Request.acceptGroup req).Writes) (fun _ _ ↦ True) t (acceptGroup req) := by
  refine meets_of_permits (acceptGroup_commands req) ?_
  rintro _ _ (rfl | ⟨haccept, rfl⟩ | rfl)
  · exact trivial
  · exact .inr (.inr ⟨req, rfl, haccept, rfl, rfl, rfl⟩)
  · exact trivial

theorem program_writes (r : Request) : Meets (permits r.Writes) (fun _ _ ↦ True) t r.program := by
  cases r with
  | applyFriend req => exact meets_bind.mpr (applyFriend_writes req)
  | acceptFriend req => exact meets_bind.mpr (acceptFriend_writes req)
  | getFriendList req => exact meets_bind.mpr (getFriendList_writes req)
  | createGroup req => exact meets_bind.mpr (createGroup_writes req)
  | joinGroup req => exact meets_bind.mpr (joinGroup_writes req)
  | getGroupList req => exact meets_bind.mpr (getGroupList_writes req)
  | applyGroup req => exact meets_bind.mpr (applyGroup_writes req)
  | acceptGroup req => exact meets_bind.mpr (acceptGroup_writes req)

end Writes

end TinyIM.Relation.RelationService
