import Mathlib.Data.Finset.Dedup
import TinyIM.Library.Service
import TinyIM.Relation.TextFields

namespace TinyIM.Relation.SocialNetwork

open Library.ByteOrder Library.Delimited Library.Program Library.Service Library.SqlStatement Library.Table
  Protocol RelationService
open Chat (RelationRow)
open Friendship (stored)

/-- What the relation service is for: who is whose friend, which groups there
are and who is in them. Groups are numbered from 1, in order of creation. -/
structure Network where
  nickname : ℤ → Option Bytes
  friends : Finset (ℤ × ℤ)
  applied : Finset (ℤ × ℤ)
  friendRequests : ℕ
  groups : List GroupRow
  members : Finset (ℤ × ℤ)
  groupRequests : ℕ

/-- A call of the relation service, with the tables on the slave that it lists friends
or groups from, or a change of `im_user`. -/
inductive Call
  | request (slave : Tables) (r : Request)
  | users (nicknames : List (ℤ × Bytes))

/-- A reply without the order of what it lists: no query has an `ORDER BY`. -/
inductive View
  | friendApplied (reply : Status × ApplyFriendResp)
  | friendAccepted (resp : AcceptFriendResp)
  | friends (success : Bool) (friends : Multiset FriendInfo)
  | created (resp : CreateGroupResp)
  | joined (resp : JoinGroupResp)
  | groups (success : Bool) (groups : Multiset GroupInfo)
  | groupApplied (resp : ApplyGroupResp)
  | groupAccepted (resp : AcceptGroupResp)
  | changed

def view : RelationService.Outcome → View
  | .friendApplied reply => .friendApplied reply
  | .friendAccepted resp => .friendAccepted resp
  | .friends resp => .friends resp.success resp.friends
  | .created resp => .created resp
  | .joined resp => .joined resp
  | .groups resp => .groups resp.success resp.groups
  | .groupApplied resp => .groupApplied resp
  | .groupAccepted resp => .groupAccepted resp

def notice : RelationService.Command → Option SendMessageReq
  | .friend (.sendMessage req) => some req
  | .sendMessage req => some req
  | _ => none

/-- What a caller sees, and the messages that the chat service is asked to send. -/
abbrev Answered := View × List SendMessageReq

def finish (d : Finished Tables RelationService.Command RelationService.Outcome) : Tables × Answered :=
  (d.state, view d.value, d.issued.filterMap notice)

/-- An insert of the text that MySQL reads out of the statement. -/
def inserting (w : Tables) (i : TextFields.Insert) (insert : Bytes → Tables × Option ℕ) : Tables × Option ℕ :=
  match i.textRead with
  | some text => insert text
  | none => (w, none)

/-- The handlers write to the master and list friends and groups from a slave. -/
def execute (slave w : Tables) : (c : RelationService.Command) → Tables × RelationService.Answer c
  | .friend (.insertRequest userId friendId remark) =>
    inserting w (.applyFriend { userId := userId, friendId := friendId, remark := remark }) fun text ↦
      w.succeed (.friend (.insertRequest userId friendId text))
  | .insertGroup groupName ownerId =>
    inserting w (.createGroup { ownerId := ownerId, groupName := groupName }) fun text ↦
      w.succeed (.insertGroup text ownerId)
  | .insertGroupRequest groupId userId remark =>
    inserting w (.applyGroup { groupId := groupId, userId := userId, remark := remark }) fun text ↦
      w.succeed (.insertGroupRequest groupId userId text)
  | .selectFriends userId => (w, some (slave.friendsOf userId))
  | .selectGroups userId => (w, some (slave.groupsOf userId))
  | c => w.succeed c

/-- The service as it is, while statements fail on unique keys only. -/
def serve : Server Tables Call Answered
  | w, .request slave r => finish (run (fun _ w c ↦ execute slave w c) 0 w r.program)
  | w, .users nicknames => ({ w with nicknames := nicknames }, .changed, [])

namespace Network

variable (n : Network)

def groupInfo (groupId : ℤ) : Option GroupInfo :=
  if 0 < groupId then
    n.groups[(groupId - 1).toNat]?.map fun g ↦ { groupId := groupId, groupName := g.groupName, ownerId := g.ownerId }
  else none

def friendsOf (userId : ℤ) : Multiset FriendInfo :=
  (n.friends.filter fun e ↦ e.1 = userId).val.filterMap fun e ↦
    (n.nickname e.2).map fun nickname ↦ { userId := e.2, nickname := nickname }

def groupsOf (userId : ℤ) : Multiset GroupInfo :=
  (n.members.filter fun e ↦ e.2 = userId).val.filterMap fun e ↦ n.groupInfo e.1

/-- A request stays pending for good, also when it has been accepted. -/
def applyFriend (req : ApplyFriendReq) : Network × Answered :=
  if req.userId = req.friendId then
    (n, .friendApplied (none, { success := false, errorMessage := ascii "Cannot add self" }), [])
  else if (req.userId, req.friendId) ∈ n.applied then
    (n, .friendApplied (none, { success := false, errorMessage := ascii "Request already pending" }), [])
  else
    ({ n with
        applied := insert (stored req.userId, stored req.friendId) n.applied
        friendRequests := n.friendRequests + 1 },
      .friendApplied (none, { success := true, applyId := n.friendRequests + 1 }),
      [FriendService.requestMsg req.userId req.friendId])

def acceptFriend (req : AcceptFriendReq) : Network × Answered :=
  if req.accept then
    ({ n with
        friends := n.friends ∪
          {(stored req.userId, stored req.requesterId), (stored req.requesterId, stored req.userId)} },
      .friendAccepted { success := true }, [FriendService.acceptedMsg req.requesterId])
  else (n, .friendAccepted { success := true }, [])

/-- The owner and the initial members are in the group. -/
def createGroup (req : CreateGroupReq) : Network × Answered :=
  let groupId := n.groups.length + 1
  ({ n with
      groups := n.groups ++ [⟨req.groupName, stored req.ownerId⟩]
      members := n.members ∪ ((req.ownerId :: req.initialMembers).map fun u ↦ ((groupId : ℤ), stored u)).toFinset },
    .created { success := true, groupId := groupId }, [])

/-- Only the call that adds the member tells the group. -/
def joinGroup (req : JoinGroupReq) : Network × Answered :=
  if (stored req.groupId, stored req.userId) ∈ n.members then (n, .joined { success := true }, [])
  else
    ({ n with members := insert (stored req.groupId, stored req.userId) n.members },
      .joined { success := true }, [joinedMsg req.userId req.groupId])

def applyGroup (req : ApplyGroupReq) : Network × Answered :=
  if (req.groupId, req.userId) ∈ n.members then
    (n, .groupApplied { success := false, errorMessage := ascii "Already a member" }, [])
  else
    ({ n with groupRequests := n.groupRequests + 1 },
      .groupApplied { success := true, applyId := n.groupRequests + 1 },
      ((n.groupInfo req.groupId).map fun g ↦ groupRequestMsg g.ownerId).toList)

/-- No application is needed, and a member is told again. -/
def acceptGroup (req : AcceptGroupReq) : Network × Answered :=
  if req.accept then
    ({ n with members := insert (stored req.groupId, stored req.requesterId) n.members },
      .groupAccepted { success := true }, [acceptedMsg req.requesterId])
  else (n, .groupAccepted { success := true }, [])

def request : Request → Network × Answered
  | .applyFriend req => n.applyFriend req
  | .acceptFriend req => n.acceptFriend req
  | .getFriendList req => (n, .friends true (n.friendsOf req.userId), [])
  | .createGroup req => n.createGroup req
  | .joinGroup req => n.joinGroup req
  | .getGroupList req => (n, .groups true (n.groupsOf req.userId), [])
  | .applyGroup req => n.applyGroup req
  | .acceptGroup req => n.acceptGroup req

def setNicknames (nicknames : List (ℤ × Bytes)) : Network :=
  { n with nickname := fun u ↦ (nicknames.find? fun r ↦ r.1 = u).map fun r ↦ cString r.2 }

def serve : Server Network Call Answered
  | n, .request _ r => n.request r
  | n, .users nicknames => (n.setNicknames nicknames, .changed, [])

def empty : Network := ⟨fun _ ↦ none, ∅, ∅, 0, [], ∅, 0⟩

end Network

/-- The texts that a request puts into a statement. -/
def texts : Request → List Bytes
  | .applyFriend req => [req.remark]
  | .createGroup req => [req.groupName]
  | .applyGroup req => [req.remark]
  | _ => []

/-- Texts that are stored as they are given, and a slave that is up to date. -/
def Sound (w : Tables) : Call → Prop
  | .request slave r => (∀ t ∈ texts r, Plain t ∧ t.length ≤ 64) ∧ slave = w
  | .users _ => True

/-- The tables that say just what the network says. -/
structure Holds (w : Tables) (n : Network) : Prop where
  nickname : ∀ u, ((w.nicknames.find? fun r ↦ r.1 = u).map fun r ↦ cString r.2) = n.nickname u
  friends : (w.relations.rows.map RelationRow.key).toFinset = n.friends
  normal : ∀ r ∈ w.relations.rows, r.status = 1
  applied : ∀ u v, (∃ r ∈ w.friendRequests.rows, r.2.userId = u ∧ r.2.friendId = v ∧ r.2.status = 0) ↔
    (u, v) ∈ n.applied
  friendRequests : w.friendRequests.next = n.friendRequests + 1
  groups : w.groups.rows = n.groups.mapIdx fun i g ↦ (i + 1, g)
  names : ∀ g ∈ n.groups, 0 ∉ g.groupName
  nextGroup : w.groups.next = n.groups.length + 1
  members : (w.members.rows.map MemberRow.key).toFinset = n.members
  unsigned : ∀ m ∈ w.members.rows, stored m.groupId = m.groupId ∧ stored m.userId = m.userId
  groupRequests : w.groupRequests.next = n.groupRequests + 1

end TinyIM.Relation.SocialNetwork
