import TinyIM.Protocol.Schema
import TinyIM.Web.Encoders

namespace TinyIM.Web.RequestSchema

open Library.ByteOrder Library.Decimal Library.ProtoWire Library.Utf16 Protocol

/-- The request that the encoder's bytes are parsed as meets `P`. -/
def Yields {M : Type} (encoded : Option Bytes) (parsed : Bytes → Option M) (P : M → Prop) : Prop :=
  ∃ bytes req, encoded = some bytes ∧ parsed bytes = some req ∧ P req

/-- An encoder's bytes are parsed as `req`. It returns them unless the strings,
of `size` bytes together, are too long for an array. -/
structure Agrees {M : Type} (encoded : Option Bytes) (size : ℕ) (parsed : Bytes → Option M)
    (req : M) : Prop where
  parses : ∀ bytes, encoded = some bytes → parsed bytes = some req
  returns : size + 64 < 2 ^ 32 → ∃ bytes, encoded = some bytes

theorem encodeVarint_length {value : ℤ} (h : Uint32 value) : (encodeVarint value).length ≤ 5 := by
  have hlt : value.toNat < 128 ^ (4 + 1) := by
    have := h.2
    omega
  rw [encodeVarint_eq h]
  exact varint_length_le hlt

theorem uint32_length (bs : Bytes) (h : bs.length < 2 ^ 32) : Uint32 bs.length :=
  ⟨Int.natCast_nonneg _, by omega⟩

theorem byteField_eq {field n : ℕ} (hfield : field < 16) (hn : n < 128) :
    [tag field 0, UInt8.ofNat n] = WireField.encode ⟨field, .varint n⟩ := by
  rw [WireField.encode, Value.wireType, Value.payload, ← tag_eq hfield (by decide), varint, if_pos hn]
  rfl

theorem byte_wellFormed {field n : ℕ} (hfield : 1 ≤ field ∧ field < 16) (hn : n < 128) :
    (WireField.mk field (.varint n)).WellFormed :=
  varint_wellFormed hfield (show Uint32 n from ⟨Int.natCast_nonneg n, by omega⟩)

theorem parse_uint8Array {M : Type} {merge : M → WireField → Option M} {fresh : M} {fs : List WireField}
    (hfs : ∀ f ∈ fs, f.WellFormed) {bytes : Bytes}
    (h : uint8Array (fs.flatMap WireField.encode) = some bytes) :
    parse merge fresh bytes = fs.foldlM merge fresh := by
  obtain ⟨rfl, -⟩ := uint8Array_eq_some h
  exact parse_encode hfs

section groups

theorem encodeGroupJoinReq_eq {groupId userId : ℤ} (hgroup : Uint32 groupId)
    (huser : Uint32 userId) :
    encodeGroupJoinReq groupId userId = uint8Array (List.flatMap WireField.encode
      [⟨1, .varint groupId.toNat⟩, ⟨2, .varint userId.toNat⟩]) := by
  simp only [encodeGroupJoinReq, encodeIds, List.flatMap_cons, List.flatMap_nil, List.append_nil,
    varintField_eq (show 1 < 16 by decide) hgroup, varintField_eq (show 2 < 16 by decide) huser]

/-- The two ids change places. -/
theorem parse_groupJoin {groupId userId : ℤ} (hgroup : Uint32 groupId) (huser : Uint32 userId)
    {bytes : Bytes} (h : encodeGroupJoinReq groupId userId = some bytes) :
    parse JoinGroupReq.merge {} bytes = some { userId := groupId, groupId := userId } := by
  rw [encodeGroupJoinReq_eq hgroup huser] at h
  have hfs : ∀ f ∈ [WireField.mk 1 (.varint groupId.toNat), ⟨2, .varint userId.toNat⟩],
      f.WellFormed := by
    simp only [List.forall_mem_cons]
    exact ⟨varint_wellFormed (by decide) hgroup, varint_wellFormed (by decide) huser, nofun⟩
  rw [parse_uint8Array hfs h]
  simp [JoinGroupReq.merge, toInt64_toNat hgroup, toInt64_toNat huser]

theorem encodeGroupJoinReq_returns {groupId userId : ℤ} (hgroup : Uint32 groupId)
    (huser : Uint32 userId) : ∃ bytes, encodeGroupJoinReq groupId userId = some bytes := by
  have h1 := encodeVarint_length hgroup
  have h2 := encodeVarint_length huser
  refine ⟨_, if_pos ?_⟩
  simp only [List.length_append, List.length_cons]
  omega

theorem encodeGroupCreateReq_eq {ownerId : ℤ} (howner : Uint32 ownerId) {groupName : CodeUnits}
    (hlength : (encodeUtf8 groupName).length < 2 ^ 32) :
    encodeGroupCreateReq ownerId groupName = uint8Array (List.flatMap WireField.encode
      [⟨1, .len (encodeUtf8 groupName)⟩, ⟨2, .varint ownerId.toNat⟩]) := by
  simp only [encodeGroupCreateReq, List.flatMap_cons, List.flatMap_nil, List.append_nil,
    lenField_eq (show 1 < 16 by decide) hlength, varintField_eq (show 2 < 16 by decide) howner]

/-- Both fields have the wire type of the other, so that neither is known. -/
theorem parse_groupCreate {ownerId : ℤ} (howner : Uint32 ownerId) {groupName : CodeUnits}
    {bytes : Bytes} (h : encodeGroupCreateReq ownerId groupName = some bytes) :
    parse CreateGroupReq.merge {} bytes = some {} := by
  have hlength : (encodeUtf8 groupName).length < 2 ^ 32 := by
    have hlt := (uint8Array_eq_some h).2
    simp only [List.length_append, List.length_cons] at hlt
    omega
  rw [encodeGroupCreateReq_eq howner hlength] at h
  have hfs : ∀ f ∈ [WireField.mk 1 (.len (encodeUtf8 groupName)), ⟨2, .varint ownerId.toNat⟩],
      f.WellFormed := by
    simp only [List.forall_mem_cons]
    exact ⟨len_wellFormed (by decide) hlength, varint_wellFormed (by decide) howner, nofun⟩
  rw [parse_uint8Array hfs h]
  simp [CreateGroupReq.merge]

theorem encodeGroupCreateReq_returns {ownerId : ℤ} (howner : Uint32 ownerId)
    (groupName : CodeUnits) (hsize : (encodeUtf8 groupName).length + 64 < 2 ^ 32) :
    ∃ bytes, encodeGroupCreateReq ownerId groupName = some bytes := by
  have h1 := encodeVarint_length howner
  have h2 := encodeVarint_length (uint32_length (encodeUtf8 groupName) (by omega))
  refine ⟨_, if_pos ?_⟩
  simp only [List.length_append, List.length_cons]
  omega

/-- Both group requests arrive as they were meant. -/
structure GroupsAgree (groupId userId ownerId : ℤ) (groupName : CodeUnits) : Prop where
  join : Yields (encodeGroupJoinReq groupId userId) (parse JoinGroupReq.merge {}) fun req ↦
    req.groupId = groupId ∧ req.userId = userId
  create : Yields (encodeGroupCreateReq ownerId groupName) (parse CreateGroupReq.merge {}) fun req ↦
    req.ownerId = ownerId ∧ req.groupName = encodeUtf8 groupName

theorem groups_agree_iff {groupId userId ownerId : ℤ} (hgroup : Int31 groupId)
    (huser : Int31 userId) (howner : Int31 ownerId) (groupName : CodeUnits) :
    GroupsAgree groupId userId ownerId groupName ↔
      groupId = userId ∧ ownerId = 0 ∧ groupName = [] := by
  constructor
  · rintro ⟨⟨joined, req, hjoined, hparse, hgroupId, -⟩, created, req', hcreated, hparse', howner', hname⟩
    rw [parse_groupJoin hgroup.uint32 huser.uint32 hjoined] at hparse
    rw [parse_groupCreate howner.uint32 hcreated] at hparse'
    obtain rfl := Option.some.inj hparse
    obtain rfl := Option.some.inj hparse'
    exact ⟨hgroupId.symm, howner'.symm, encodeUtf8_eq_nil_iff.mp hname.symm⟩
  · rintro ⟨rfl, rfl, rfl⟩
    obtain ⟨joined, hjoined⟩ := encodeGroupJoinReq_returns hgroup.uint32 hgroup.uint32
    obtain ⟨created, hcreated⟩ := encodeGroupCreateReq_returns howner.uint32 []
      (by decide)
    exact ⟨⟨joined, _, hjoined, parse_groupJoin hgroup.uint32 hgroup.uint32 hjoined, rfl, rfl⟩,
      created, _, hcreated, parse_groupCreate howner.uint32 hcreated, rfl, rfl⟩

theorem groups_agree_iff_five :
    GroupsAgree 5 5 0 [] ↔ (5 : ℤ) = 5 ∧ (0 : ℤ) = 0 ∧ ([] : CodeUnits) = [] :=
  groups_agree_iff (by decide) (by decide) (by decide) []

/-- User 2 asks for group 7, and user 1 makes the group "a". -/
theorem not_groups_agree : ¬ GroupsAgree 7 2 1 [97] := by
  rintro ⟨⟨joined, req, hjoined, hparse, hgroupId, -⟩, -⟩
  rw [parse_groupJoin (by decide) (by decide) hjoined] at hparse
  obtain rfl := Option.some.inj hparse
  exact absurd hgroupId (by decide)

end groups

section messages

variable {idField : ℕ} {senderId receiverId groupId id : ℤ} {content : CodeUnits} {bytes : Bytes}

theorem encodeMessage_eq (hid : idField < 16) (hsender : Uint32 senderId) (hother : Uint32 id)
    (hlength : (encodeUtf8 content).length < 2 ^ 32) :
    encodeMessage idField senderId id content = uint8Array (List.flatMap WireField.encode
      [⟨1, .varint senderId.toNat⟩, ⟨idField, .varint id.toNat⟩, ⟨4, .varint 1⟩,
        ⟨5, .len (encodeUtf8 content)⟩]) := by
  have htype := byteField_eq (show 4 < 16 by decide) (show 1 < 128 by decide)
  simp only [encodeMessage, List.flatMap_cons, List.flatMap_nil, List.append_nil,
    List.append_assoc, varintField_eq (show 1 < 16 by decide) hsender, varintField_eq hid hother,
    ← htype, lenField_eq (show 5 < 16 by decide) hlength]
  rfl

theorem parse_message (hid : 1 ≤ idField ∧ idField < 16) (hsender : Uint32 senderId)
    (hother : Uint32 id) (h : encodeMessage idField senderId id content = some bytes) :
    parse SendMessageReq.merge {} bytes =
      [⟨1, .varint senderId.toNat⟩, ⟨idField, .varint id.toNat⟩, ⟨4, .varint 1⟩,
        ⟨5, .len (encodeUtf8 content)⟩].foldlM SendMessageReq.merge {} := by
  have hlength : (encodeUtf8 content).length < 2 ^ 32 := by
    have hlt := (uint8Array_eq_some h).2
    simp only [List.length_append, List.length_cons] at hlt
    omega
  rw [encodeMessage_eq hid.2 hsender hother hlength] at h
  refine parse_uint8Array ?_ h
  simp only [List.forall_mem_cons]
  exact ⟨varint_wellFormed (by decide) hsender, varint_wellFormed hid hother,
    byte_wellFormed (by decide) (by decide), len_wellFormed (by decide) hlength, nofun⟩

/-- The type byte is that of an image. -/
theorem parse_msgSend (hsender : Uint32 senderId) (hreceiver : Uint32 receiverId)
    (h : encodeMsgSendReq senderId receiverId content = some bytes) :
    parse SendMessageReq.merge {} bytes = some
      { senderId, receiverId, type := MsgType.image, content := encodeUtf8 content } := by
  rw [parse_message (by decide) hsender hreceiver h]
  simp [SendMessageReq.merge, toInt64_toNat hsender, toInt64_toNat hreceiver, toInt32_one, MsgType.image]

theorem parse_groupMsg (hsender : Uint32 senderId) (hgroup : Uint32 groupId)
    (h : encodeGroupMsgReq senderId groupId content = some bytes) :
    parse SendMessageReq.merge {} bytes = some
      { senderId, groupId, type := MsgType.image, content := encodeUtf8 content } := by
  rw [parse_message (by decide) hsender hgroup h]
  simp [SendMessageReq.merge, toInt64_toNat hsender, toInt64_toNat hgroup, toInt32_one, MsgType.image]

theorem image_ne_text : MsgType.image ≠ MsgType.text := by decide

def SendAgrees (senderId receiverId : ℤ) (content : CodeUnits) : Prop :=
  Yields (encodeMsgSendReq senderId receiverId content) (parse SendMessageReq.merge {}) fun req ↦
    req.senderId = senderId ∧ req.receiverId = receiverId ∧ req.groupId = 0 ∧
      req.type = MsgType.text ∧ req.content = encodeUtf8 content

def GroupMsgAgrees (senderId groupId : ℤ) (content : CodeUnits) : Prop :=
  Yields (encodeGroupMsgReq senderId groupId content) (parse SendMessageReq.merge {}) fun req ↦
    req.senderId = senderId ∧ req.groupId = groupId ∧
      req.type = MsgType.text ∧ req.content = encodeUtf8 content

theorem messages_never_agree (hsender : Int31 senderId) (hreceiver : Int31 receiverId)
    (hgroup : Int31 groupId) (content : CodeUnits) :
    ¬ SendAgrees senderId receiverId content ∧ ¬ GroupMsgAgrees senderId groupId content := by
  constructor
  · rintro ⟨bytes, req, hencode, hparse, -, -, -, htype, -⟩
    rw [parse_msgSend hsender.uint32 hreceiver.uint32 hencode] at hparse
    obtain rfl := Option.some.inj hparse
    exact image_ne_text htype
  · rintro ⟨bytes, req, hencode, hparse, -, -, htype, -⟩
    rw [parse_groupMsg hsender.uint32 hgroup.uint32 hencode] at hparse
    obtain rfl := Option.some.inj hparse
    exact image_ne_text htype

theorem messages_never_agree_hi :
    ¬ SendAgrees 1 2 [104, 105] ∧ ¬ GroupMsgAgrees 1 9 [104, 105] :=
  messages_never_agree (by decide) (by decide) (by decide) [104, 105]

theorem not_send_agrees : ¬ SendAgrees 1 2 [104, 105] := by
  rintro ⟨bytes, req, hencode, hparse, -, -, -, htype, -⟩
  rw [parse_msgSend (by decide) (by decide) hencode] at hparse
  obtain rfl := Option.some.inj hparse
  exact image_ne_text htype

end messages

section friends

variable {userId otherId : ℤ}

theorem encodeFriendApplyReq_eq (huser : Uint32 userId) (hother : Uint32 otherId)
    {reason : CodeUnits} (hlength : (encodeUtf8 reason).length < 2 ^ 32) :
    encodeFriendApplyReq userId otherId reason = uint8Array (List.flatMap WireField.encode
      [⟨1, .varint userId.toNat⟩, ⟨2, .varint otherId.toNat⟩, ⟨3, .len (encodeUtf8 reason)⟩]) := by
  simp only [encodeFriendApplyReq, List.flatMap_cons, List.flatMap_nil, List.append_nil,
    List.append_assoc, varintField_eq (show 1 < 16 by decide) huser,
    varintField_eq (show 2 < 16 by decide) hother, lenField_eq (show 3 < 16 by decide) hlength]

theorem friendApply_agrees (huser : Uint32 userId) (hother : Uint32 otherId)
    (reason : CodeUnits) :
    Agrees (encodeFriendApplyReq userId otherId reason) (encodeUtf8 reason).length
      (parse ApplyFriendReq.merge {})
      { userId, friendId := otherId, remark := encodeUtf8 reason } := by
  refine ⟨?_, ?_⟩
  · intro bytes h
    have hlength : (encodeUtf8 reason).length < 2 ^ 32 := by
      have hlt := (uint8Array_eq_some h).2
      simp only [List.length_append, List.length_cons] at hlt
      omega
    rw [encodeFriendApplyReq_eq huser hother hlength] at h
    refine (parse_uint8Array ?_ h).trans ?_
    · simp only [List.forall_mem_cons]
      exact ⟨varint_wellFormed (by decide) huser, varint_wellFormed (by decide) hother,
        len_wellFormed (by decide) hlength, nofun⟩
    · simp [ApplyFriendReq.merge, toInt64_toNat huser, toInt64_toNat hother]
  · intro hsize
    have h1 := encodeVarint_length huser
    have h2 := encodeVarint_length hother
    have h3 := encodeVarint_length (uint32_length (encodeUtf8 reason) (by omega))
    refine ⟨_, if_pos ?_⟩
    simp only [List.length_append, List.length_cons]
    omega

theorem encodeFriendHandleReq_eq (huser : Uint32 userId) (hother : Uint32 otherId) (agree : Bool) :
    encodeFriendHandleReq userId otherId agree = uint8Array (List.flatMap WireField.encode
      [⟨1, .varint userId.toNat⟩, ⟨2, .varint 0⟩, ⟨3, .varint otherId.toNat⟩,
        ⟨4, .varint agree.toNat⟩]) := by
  have happly := byteField_eq (show 2 < 16 by decide) (show 0 < 128 by decide)
  have haccept := byteField_eq (show 4 < 16 by decide) (show agree.toNat < 128 by cases agree <;> decide)
  simp only [encodeFriendHandleReq, List.flatMap_cons, List.flatMap_nil, List.append_nil,
    List.append_assoc, varintField_eq (show 1 < 16 by decide) huser,
    varintField_eq (show 3 < 16 by decide) hother, ← happly, ← haccept]
  cases agree <;> rfl

theorem friendHandle_agrees (huser : Uint32 userId) (hother : Uint32 otherId) (agree : Bool) :
    Agrees (encodeFriendHandleReq userId otherId agree) 0 (parse AcceptFriendReq.merge {})
      { userId, applyId := 0, requesterId := otherId, accept := agree } := by
  refine ⟨?_, ?_⟩
  · intro bytes h
    rw [encodeFriendHandleReq_eq huser hother] at h
    refine (parse_uint8Array ?_ h).trans ?_
    · simp only [List.forall_mem_cons]
      exact ⟨varint_wellFormed (by decide) huser, byte_wellFormed (by decide) (by decide),
        varint_wellFormed (by decide) hother,
        byte_wellFormed (by decide) (by cases agree <;> decide), nofun⟩
    · simp [AcceptFriendReq.merge, toInt64_toNat huser, toInt64_toNat hother, toInt64_zero]
  · intro _
    have h1 := encodeVarint_length huser
    have h2 := encodeVarint_length hother
    refine ⟨_, if_pos ?_⟩
    simp only [List.length_append, List.length_cons, List.length_nil]
    omega

end friends

section sync

variable {userId localMaxSeq limit : ℤ}

theorem encodeMsgSyncReq_eq (huser : Uint32 userId) (hseq : Uint32 localMaxSeq)
    (hlimit : Uint32 limit) :
    encodeMsgSyncReq userId localMaxSeq limit = uint8Array (List.flatMap WireField.encode
      [⟨1, .varint userId.toNat⟩, ⟨2, .varint localMaxSeq.toNat⟩, ⟨3, .varint limit.toNat⟩]) := by
  simp only [encodeMsgSyncReq, List.flatMap_cons, List.flatMap_nil, List.append_nil,
    List.append_assoc, varintField_eq (show 1 < 16 by decide) huser,
    varintField_eq (show 2 < 16 by decide) hseq, varintField_eq (show 3 < 16 by decide) hlimit]

theorem msgSync_agrees (huser : Uint32 userId) (hseq : Uint32 localMaxSeq)
    (hlimit : Int31 limit) :
    Agrees (encodeMsgSyncReq userId localMaxSeq limit) 0 (parse SyncMessagesReq.merge {})
      { userId, localSeq := localMaxSeq, limit, reverse := false } := by
  refine ⟨?_, ?_⟩
  · intro bytes h
    rw [encodeMsgSyncReq_eq huser hseq hlimit.uint32] at h
    refine (parse_uint8Array ?_ h).trans ?_
    · simp only [List.forall_mem_cons]
      exact ⟨varint_wellFormed (by decide) huser, varint_wellFormed (by decide) hseq,
        varint_wellFormed (by decide) hlimit.uint32, nofun⟩
    · simp [SyncMessagesReq.merge, toInt64_toNat huser, toInt64_toNat hseq, toInt32_toNat hlimit]
  · intro _
    have h1 := encodeVarint_length huser
    have h2 := encodeVarint_length hseq
    have h3 := encodeVarint_length hlimit.uint32
    refine ⟨_, if_pos ?_⟩
    simp only [List.length_append, List.length_cons]
    omega

end sync

section login

variable {username : Username} {password : CodeUnits} {deviceType : ℤ} {random : ℕ}

/-- The device id, of which the server makes the device. -/
def deviceId (random : ℕ) : Bytes := ascii "web-" ++ natToString random

theorem encodeUtf8_deviceId (random : ℕ) :
    encodeUtf8 (ofAscii (ascii "web-" ++ natToString random)) = deviceId random := by
  refine encodeUtf8_ascii ?_
  intro b hb
  rcases List.mem_append.mp hb with hb | hb
  · exact (show ∀ b ∈ ascii "web-", b.toNat < 128 by simp [ascii]) b hb
  · exact ascii_of_isDigit (isDigit_of_mem_natToString hb)

theorem deviceId_length (h : random < 10000) : (deviceId random).length ≤ 8 := by
  have hdigits := natToString_length (show random < 10 ^ (3 + 1) from h)
  rw [deviceId, List.length_append]
  exact Nat.add_le_add (show 4 ≤ 4 by decide) hdigits

theorem encodeLoginReq_eq (hdevice : Uint32 deviceType) (hrandom : random < 10000)
    (hname : (encodeUtf8 username.toString).length < 2 ^ 32)
    (hpassword : (encodeUtf8 password).length < 2 ^ 32) :
    encodeLoginReq username password deviceType random = uint8Array (List.flatMap WireField.encode
      [⟨1, .len (encodeUtf8 username.toString)⟩, ⟨2, .len (encodeUtf8 password)⟩,
        ⟨3, .len (deviceId random)⟩, ⟨4, .varint deviceType.toNat⟩]) := by
  have hid : (deviceId random).length < 2 ^ 32 := (deviceId_length hrandom).trans_lt (by decide)
  have h1 := lenField_eq (show 1 < 16 by decide) hname
  have h2 := lenField_eq (show 2 < 16 by decide) hpassword
  have h3 := lenField_eq (show 3 < 16 by decide) hid
  have h4 := varintField_eq (show 4 < 16 by decide) hdevice
  simp only [encodeLoginReq, encodeUtf8_deviceId, List.flatMap_cons, List.flatMap_nil,
    List.append_nil, List.append_assoc, ← h1, ← h2, ← h3, ← h4]
  rfl

/-- Field 4 is not in the schema, and skipped. -/
theorem login_agrees (username : Username) (password : CodeUnits) (hdevice : Uint32 deviceType)
    (hrandom : random < 10000) :
    Agrees (encodeLoginReq username password deviceType random)
      ((encodeUtf8 username.toString).length + (encodeUtf8 password).length)
      (parse LoginReq.merge {})
      { username := encodeUtf8 username.toString, password := encodeUtf8 password,
        device := deviceId random } := by
  have hid := deviceId_length hrandom
  have hutf8 : readString (deviceId random) = some (deviceId random) := by
    rw [← encodeUtf8_deviceId, readString_encodeUtf8]
  refine ⟨?_, ?_⟩
  · intro bytes h
    have hlt := (uint8Array_eq_some h).2
    simp only [List.length_append, List.length_cons] at hlt
    have hname : (encodeUtf8 username.toString).length < 2 ^ 32 := by omega
    have hpassword : (encodeUtf8 password).length < 2 ^ 32 := by omega
    rw [encodeLoginReq_eq hdevice hrandom hname hpassword] at h
    refine (parse_uint8Array ?_ h).trans ?_
    · simp only [List.forall_mem_cons]
      exact ⟨len_wellFormed (by decide) hname, len_wellFormed (by decide) hpassword,
        len_wellFormed (by decide) (by omega), varint_wellFormed (by decide) hdevice, nofun⟩
    · simp [LoginReq.merge, hutf8]
  · intro hsize
    have h1 := encodeVarint_length (uint32_length (encodeUtf8 username.toString) (by omega))
    have h2 := encodeVarint_length (uint32_length (encodeUtf8 password) (by omega))
    have h3 := encodeVarint_length (uint32_length (deviceId random) (by omega))
    have h4 := encodeVarint_length hdevice
    refine ⟨_, if_pos ?_⟩
    simp only [encodeUtf8_deviceId, List.length_append, List.length_cons]
    omega

/-- The server reads a numeric user name back. -/
theorem stoll_username {userId : ℤ} (h : Uint32 userId) :
    stoll (encodeUtf8 (Username.id userId).toString) = some userId := by
  have hascii : encodeUtf8 (Username.id userId).toString = stdToString userId := by
    refine encodeUtf8_ascii ?_
    intro b hb
    rcases isDigit_of_mem_stdToString hb with rfl | hdigit
    · decide
    · exact ascii_of_isDigit hdigit
  rw [hascii]
  exact stoll_stdToString ⟨(show -2 ^ 63 ≤ (0 : ℤ) by decide).trans h.1, h.2.trans (by decide)⟩

end login

/-- What the web client writes for login, friends and synchronisation is what
the server reads. -/
structure RequestsAgree (userId otherId localMaxSeq limit deviceType : ℤ) (random : ℕ)
    (name password reason : CodeUnits) (agree : Bool) : Prop where
  login : ∀ username ∈ [Username.id userId, .name name],
    Agrees (encodeLoginReq username password deviceType random)
      ((encodeUtf8 username.toString).length + (encodeUtf8 password).length)
      (parse LoginReq.merge {})
      { username := encodeUtf8 username.toString, password := encodeUtf8 password,
        device := deviceId random }
  numeric : stoll (encodeUtf8 (Username.id userId).toString) = some userId
  friendApply : Agrees (encodeFriendApplyReq userId otherId reason) (encodeUtf8 reason).length
    (parse ApplyFriendReq.merge {}) { userId, friendId := otherId, remark := encodeUtf8 reason }
  friendHandle : Agrees (encodeFriendHandleReq userId otherId agree) 0
    (parse AcceptFriendReq.merge {}) { userId, applyId := 0, requesterId := otherId, accept := agree }
  msgSync : Agrees (encodeMsgSyncReq userId localMaxSeq limit) 0 (parse SyncMessagesReq.merge {})
    { userId, localSeq := localMaxSeq, limit, reverse := false }

theorem requests_agree {userId otherId localMaxSeq limit deviceType : ℤ} {random : ℕ}
    (huser : Uint32 userId) (hother : Uint32 otherId) (hseq : Uint32 localMaxSeq)
    (hlimit : Int31 limit) (hdevice : Uint32 deviceType) (hrandom : random < 10000)
    (name password reason : CodeUnits) (agree : Bool) :
    RequestsAgree userId otherId localMaxSeq limit deviceType random name password reason agree :=
  ⟨fun username _ ↦ login_agrees username password hdevice hrandom, stoll_username huser,
    friendApply_agrees huser hother reason, friendHandle_agrees huser hother agree,
    msgSync_agrees huser hseq hlimit⟩

theorem requests_agree_seven :
    RequestsAgree 7 1 300 50 3 4242 [98, 111, 98] [112, 119] [0xD83D, 0xDE00] true :=
  requests_agree (by decide) (by decide) (by decide) (by decide) (by decide) (by decide)
    [98, 111, 98] [112, 119] [0xD83D, 0xDE00] true

end TinyIM.Web.RequestSchema
