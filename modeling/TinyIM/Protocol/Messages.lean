import TinyIM.Library.ByteOrder

namespace TinyIM.Protocol

open Library.ByteOrder

structure SendMessageReq where
  senderId : ℤ := 0
  receiverId : ℤ := 0
  groupId : ℤ := 0
  type : ℤ := 0
  content : Bytes := []
  deriving DecidableEq, Repr

structure SendMessageResp where
  msgId : ℤ := 0
  seqId : ℤ := 0
  success : Bool := false
  errorMessage : Bytes := []
  timestamp : ℤ := 0
  deriving DecidableEq, Repr

structure SyncMessagesReq where
  userId : ℤ := 0
  localSeq : ℤ := 0
  limit : ℤ := 0
  reverse : Bool := false
  deriving DecidableEq, Repr

structure MessageItem where
  msgId : ℤ := 0
  seqId : ℤ := 0
  senderId : ℤ := 0
  groupId : ℤ := 0
  type : ℤ := 0
  content : Bytes := []
  createdAt : Bytes := []
  deriving DecidableEq, Repr

structure SyncMessagesResp where
  maxSeq : ℤ := 0
  msgs : List MessageItem := []
  success : Bool := false
  deriving DecidableEq, Repr

structure ApplyFriendReq where
  userId : ℤ := 0
  friendId : ℤ := 0
  remark : Bytes := []
  deriving DecidableEq, Repr

structure ApplyFriendResp where
  success : Bool := false
  errorMessage : Bytes := []
  applyId : ℤ := 0
  deriving DecidableEq, Repr

structure AcceptFriendReq where
  userId : ℤ := 0
  applyId : ℤ := 0
  requesterId : ℤ := 0
  accept : Bool := false
  deriving DecidableEq, Repr

structure AcceptFriendResp where
  success : Bool := false
  errorMessage : Bytes := []
  deriving DecidableEq, Repr

structure GetFriendListReq where
  userId : ℤ := 0
  deriving DecidableEq, Repr

structure FriendInfo where
  userId : ℤ := 0
  nickname : Bytes := []
  remark : Bytes := []
  avatarUrl : Bytes := []
  deriving DecidableEq, Repr

structure GetFriendListResp where
  friends : List FriendInfo := []
  success : Bool := false
  deriving DecidableEq, Repr

structure CreateGroupReq where
  ownerId : ℤ := 0
  groupName : Bytes := []
  initialMembers : List ℤ := []
  deriving DecidableEq, Repr

structure CreateGroupResp where
  groupId : ℤ := 0
  success : Bool := false
  errorMessage : Bytes := []
  deriving DecidableEq, Repr

structure JoinGroupReq where
  userId : ℤ := 0
  groupId : ℤ := 0
  deriving DecidableEq, Repr

structure JoinGroupResp where
  success : Bool := false
  errorMessage : Bytes := []
  deriving DecidableEq, Repr

structure GetGroupListReq where
  userId : ℤ := 0
  deriving DecidableEq, Repr

structure GroupInfo where
  groupId : ℤ := 0
  groupName : Bytes := []
  ownerId : ℤ := 0
  deriving DecidableEq, Repr

structure GetGroupListResp where
  groups : List GroupInfo := []
  success : Bool := false
  deriving DecidableEq, Repr

structure ApplyGroupReq where
  userId : ℤ := 0
  groupId : ℤ := 0
  remark : Bytes := []
  deriving DecidableEq, Repr

structure ApplyGroupResp where
  success : Bool := false
  errorMessage : Bytes := []
  applyId : ℤ := 0
  deriving DecidableEq, Repr

structure AcceptGroupReq where
  userId : ℤ := 0
  applyId : ℤ := 0
  requesterId : ℤ := 0
  groupId : ℤ := 0
  accept : Bool := false
  deriving DecidableEq, Repr

structure AcceptGroupResp where
  success : Bool := false
  errorMessage : Bytes := []
  deriving DecidableEq, Repr

structure LoginReq where
  username : Bytes := []
  password : Bytes := []
  device : Bytes := []
  deriving DecidableEq, Repr

structure LoginResp where
  userId : ℤ := 0
  token : Bytes := []
  nickname : Bytes := []
  success : Bool := false
  errorMessage : Bytes := []
  deriving DecidableEq, Repr

/-- `grpc::Status`: `none` is OK, an error carries its message. -/
abbrev Status := Option Bytes

/-- The remote procedures that a gateway session calls. -/
inductive Rpc
  | sendMessage
  | syncMessages
  | applyFriend
  | acceptFriend
  | getFriendList
  | createGroup
  | joinGroup
  | getGroupList
  | applyGroup
  | acceptGroup
  deriving DecidableEq, Repr

namespace Rpc

abbrev Req : Rpc → Type
  | sendMessage => SendMessageReq
  | syncMessages => SyncMessagesReq
  | applyFriend => ApplyFriendReq
  | acceptFriend => AcceptFriendReq
  | getFriendList => GetFriendListReq
  | createGroup => CreateGroupReq
  | joinGroup => JoinGroupReq
  | getGroupList => GetGroupListReq
  | applyGroup => ApplyGroupReq
  | acceptGroup => AcceptGroupReq

abbrev Resp : Rpc → Type
  | sendMessage => SendMessageResp
  | syncMessages => SyncMessagesResp
  | applyFriend => ApplyFriendResp
  | acceptFriend => AcceptFriendResp
  | getFriendList => GetFriendListResp
  | createGroup => CreateGroupResp
  | joinGroup => JoinGroupResp
  | getGroupList => GetGroupListResp
  | applyGroup => ApplyGroupResp
  | acceptGroup => AcceptGroupResp

instance : (m : Rpc) → Inhabited m.Resp
  | sendMessage | syncMessages | applyFriend | acceptFriend | getFriendList | createGroup
  | joinGroup | getGroupList | applyGroup | acceptGroup => ⟨{}⟩

/-- The id on whose behalf a request is made. -/
def actingId : (m : Rpc) → m.Req → ℤ
  | sendMessage, r => r.senderId
  | syncMessages, r => r.userId
  | applyFriend, r => r.userId
  | acceptFriend, r => r.userId
  | getFriendList, r => r.userId
  | createGroup, r => r.ownerId
  | joinGroup, r => r.userId
  | getGroupList, r => r.userId
  | applyGroup, r => r.userId
  | acceptGroup, r => r.userId

def setActingId (id : ℤ) : (m : Rpc) → m.Req → m.Req
  | sendMessage, r => { r with senderId := id }
  | syncMessages, r => { r with userId := id }
  | applyFriend, r => { r with userId := id }
  | acceptFriend, r => { r with userId := id }
  | getFriendList, r => { r with userId := id }
  | createGroup, r => { r with ownerId := id }
  | joinGroup, r => { r with userId := id }
  | getGroupList, r => { r with userId := id }
  | applyGroup, r => { r with userId := id }
  | acceptGroup, r => { r with userId := id }

@[simp] theorem actingId_setActingId (id : ℤ) (m : Rpc) (r : m.Req) :
    m.actingId (m.setActingId id r) = id := by
  cases m <;> rfl

@[simp] theorem setActingId_setActingId (id id' : ℤ) (m : Rpc) (r : m.Req) :
    m.setActingId id (m.setActingId id' r) = m.setActingId id r := by
  cases m <;> rfl

end Rpc

end TinyIM.Protocol
