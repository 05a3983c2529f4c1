import TinyIM.Library.ProtoWire
import TinyIM.Library.Utf16
import TinyIM.Protocol.Messages

namespace TinyIM.Protocol

open Library.ByteOrder Library.ProtoWire Library.Utf16

namespace MsgType

def text : ℤ := 0

def image : ℤ := 1

end MsgType

/-- A `string` field has to be UTF-8. -/
def readString (bs : Bytes) : Option Bytes := if IsUtf8 bs then some bs else none

def toBool (n : ℕ) : Bool := n ≠ 0

/-- A field of another number or wire type is unknown, and skipped. -/
def SendMessageReq.merge (m : SendMessageReq) (f : WireField) : Option SendMessageReq :=
  match f.num, f.value with
  | 1, .varint n => some { m with senderId := toInt64 n }
  | 2, .varint n => some { m with receiverId := toInt64 n }
  | 3, .varint n => some { m with groupId := toInt64 n }
  | 4, .varint n => some { m with type := toInt32 n }
  | 5, .len bs => (readString bs).map fun s ↦ { m with content := s }
  | _, _ => some m

def SyncMessagesReq.merge (m : SyncMessagesReq) (f : WireField) : Option SyncMessagesReq :=
  match f.num, f.value with
  | 1, .varint n => some { m with userId := toInt64 n }
  | 2, .varint n => some { m with localSeq := toInt64 n }
  | 3, .varint n => some { m with limit := toInt32 n }
  | 4, .varint n => some { m with reverse := toBool n }
  | _, _ => some m

def ApplyFriendReq.merge (m : ApplyFriendReq) (f : WireField) : Option ApplyFriendReq :=
  match f.num, f.value with
  | 1, .varint n => some { m with userId := toInt64 n }
  | 2, .varint n => some { m with friendId := toInt64 n }
  | 3, .len bs => (readString bs).map fun s ↦ { m with remark := s }
  | _, _ => some m

def AcceptFriendReq.merge (m : AcceptFriendReq) (f : WireField) : Option AcceptFriendReq :=
  match f.num, f.value with
  | 1, .varint n => some { m with userId := toInt64 n }
  | 2, .varint n => some { m with applyId := toInt64 n }
  | 3, .varint n => some { m with requesterId := toInt64 n }
  | 4, .varint n => some { m with accept := toBool n }
  | _, _ => some m

def CreateGroupReq.merge (m : CreateGroupReq) (f : WireField) : Option CreateGroupReq :=
  match f.num, f.value with
  | 1, .varint n => some { m with ownerId := toInt64 n }
  | 2, .len bs => (readString bs).map fun s ↦ { m with groupName := s }
  | 3, .varint n => some { m with initialMembers := m.initialMembers ++ [toInt64 n] }
  | 3, .len bs => (readPacked bs).map fun ns ↦
      { m with initialMembers := m.initialMembers ++ ns.map toInt64 }
  | _, _ => some m

def JoinGroupReq.merge (m : JoinGroupReq) (f : WireField) : Option JoinGroupReq :=
  match f.num, f.value with
  | 1, .varint n => some { m with userId := toInt64 n }
  | 2, .varint n => some { m with groupId := toInt64 n }
  | _, _ => some m

def LoginReq.merge (m : LoginReq) (f : WireField) : Option LoginReq :=
  match f.num, f.value with
  | 1, .len bs => (readString bs).map fun s ↦ { m with username := s }
  | 2, .len bs => (readString bs).map fun s ↦ { m with password := s }
  | 3, .len bs => (readString bs).map fun s ↦ { m with device := s }
  | _, _ => some m

@[simp] theorem toBool_toNat (b : Bool) : toBool b.toNat = b := by
  cases b <;> rfl

@[simp] theorem readString_encodeUtf8 (s : CodeUnits) : readString (encodeUtf8 s) = some (encodeUtf8 s) :=
  if_pos (isUtf8_encodeUtf8 s)

end TinyIM.Protocol
