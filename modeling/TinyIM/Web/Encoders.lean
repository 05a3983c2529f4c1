import TinyIM.Library.Decimal
import TinyIM.Library.ProtoWire
import TinyIM.Library.Utf16
import TinyIM.Protocol.Packet

namespace TinyIM.Web

open Library.ByteOrder Library.Decimal Library.ProtoWire Library.Utf16 Protocol

/-- `IMProtocol.encodeVarint`. The shift `>>>=` works on 32 bits. -/
def encodeVarint (value : ℤ) : Bytes :=
  if 127 < value then
    UInt8.ofNat ((value % 128).toNat ||| 0x80) :: encodeVarint (value % 2 ^ 32 / 128)
  else [UInt8.ofNat (value % 128).toNat]
termination_by value.toNat
decreasing_by omega

def tag (field wireType : ℕ) : UInt8 := UInt8.ofNat (field <<< 3 ||| wireType)

/-- `new Uint8Array(buffer)`. An array has at most 2^32 - 1 elements, and `push`
throws beyond them. -/
def uint8Array (buffer : Bytes) : Option Bytes :=
  if buffer.length < 2 ^ 32 then some buffer else none

/-- The first argument of `encodeLoginReq`: a user id or a name. -/
inductive Username
  | id (userId : ℤ)
  | name (s : CodeUnits)

def Username.toString : Username → CodeUnits
  | id userId => ofAscii (stdToString userId)
  | name s => s

/-- `random` is `Math.floor(Math.random() * 10000)`. -/
def encodeLoginReq (username : Username) (password : CodeUnits) (deviceType : ℤ) (random : ℕ) :
    Option Bytes :=
  let usernameBytes := encodeUtf8 username.toString
  let passwordBytes := encodeUtf8 password
  let deviceId := ofAscii (ascii "web-" ++ natToString random)
  let deviceIdBytes := encodeUtf8 deviceId
  uint8Array (
    10 :: encodeVarint usernameBytes.length ++ usernameBytes ++
    (18 :: encodeVarint passwordBytes.length ++ passwordBytes) ++
    (26 :: encodeVarint deviceIdBytes.length ++ deviceIdBytes) ++
    (32 :: encodeVarint deviceType))

/-- A message to the user or group in field `idField`. The type byte is the
literal of the source. -/
def encodeMessage (idField : ℕ) (senderId id : ℤ) (content : CodeUnits) : Option Bytes :=
  let contentBytes := encodeUtf8 content
  uint8Array (
    tag 1 0 :: encodeVarint senderId ++
    (tag idField 0 :: encodeVarint id) ++
    [tag 4 0, 1] ++
    (tag 5 2 :: encodeVarint contentBytes.length ++ contentBytes))

def encodeMsgSendReq (senderId receiverId : ℤ) (content : CodeUnits) : Option Bytes :=
  encodeMessage 2 senderId receiverId content

def encodeGroupMsgReq (senderId groupId : ℤ) (content : CodeUnits) : Option Bytes :=
  encodeMessage 3 senderId groupId content

def encodeFriendApplyReq (userId targetUserId : ℤ) (reason : CodeUnits) : Option Bytes :=
  let reasonBytes := encodeUtf8 reason
  uint8Array (
    tag 1 0 :: encodeVarint userId ++
    (tag 2 0 :: encodeVarint targetUserId) ++
    (tag 3 2 :: encodeVarint reasonBytes.length ++ reasonBytes))

def encodeFriendHandleReq (userId requestUserId : ℤ) (agree : Bool) : Option Bytes :=
  uint8Array (
    tag 1 0 :: encodeVarint userId ++
    [tag 2 0, 0] ++
    (tag 3 0 :: encodeVarint requestUserId) ++
    [tag 4 0, if agree then 1 else 0])

def encodeMsgSyncReq (userId localMaxSeq limit : ℤ) : Option Bytes :=
  uint8Array (
    tag 1 0 :: encodeVarint userId ++
    (tag 2 0 :: encodeVarint localMaxSeq) ++
    (tag 3 0 :: encodeVarint limit))

def encodeIds (first second : ℤ) : Option Bytes :=
  uint8Array (
    tag 1 0 :: encodeVarint first ++
    (tag 2 0 :: encodeVarint second))

def encodeFriendDelReq (userId friendId : ℤ) : Option Bytes := encodeIds userId friendId

def encodeGroupJoinReq (groupId userId : ℤ) : Option Bytes := encodeIds groupId userId

def encodeGroupQuitReq (userId groupId : ℤ) : Option Bytes := encodeIds userId groupId

def encodeGroupCreateReq (ownerId : ℤ) (groupName : CodeUnits) : Option Bytes :=
  let nameBytes := encodeUtf8 groupName
  uint8Array (
    tag 1 2 :: encodeVarint nameBytes.length ++ nameBytes ++
    (tag 2 0 :: encodeVarint ownerId))

/-- The numbers of which the shift keeps every bit. -/
def Uint32 (n : ℤ) : Prop := 0 ≤ n ∧ n < 2 ^ 32

instance (n : ℤ) : Decidable (Uint32 n) := inferInstanceAs (Decidable (_ ∧ _))

def Int31 (n : ℤ) : Prop := 0 ≤ n ∧ n < 2 ^ 31

instance (n : ℤ) : Decidable (Int31 n) := inferInstanceAs (Decidable (_ ∧ _))

theorem uint8Array_eq_some {buffer bytes : Bytes} (h : uint8Array buffer = some bytes) :
    bytes = buffer ∧ buffer.length < 2 ^ 32 := by
  rw [uint8Array] at h
  split_ifs at h with hlength
  exact ⟨(Option.some.inj h).symm, hlength⟩

theorem encodeVarint_natCast {n : ℕ} (h : n < 2 ^ 32) : encodeVarint n = varint n := by
  induction n using Nat.strong_induction_on with
  | _ n ih =>
    have hlow : ((n : ℤ) % 128).toNat = n % 128 := by omega
    rw [encodeVarint, varint, hlow]
    by_cases hsmall : n < 128
    · rw [if_neg (by omega), if_pos hsmall, Nat.mod_eq_of_lt hsmall]
    · have hor : n % 128 ||| 0x80 = n % 128 + 128 := by
        have hlt : n % 128 < 2 ^ 7 := Nat.mod_lt n (by decide)
        rw [Nat.or_comm, Nat.add_comm]
        exact (Nat.two_pow_add_eq_or_of_lt hlt 1).symm
      have hshift : (n : ℤ) % 2 ^ 32 / 128 = (n / 128 : ℕ) := by omega
      rw [if_pos (by omega), if_neg hsmall, hor, hshift, ih (n / 128) (by omega) (by omega)]

theorem encodeVarint_eq {value : ℤ} (h : Uint32 value) : encodeVarint value = varint value.toNat := by
  obtain ⟨n, rfl⟩ := Int.eq_ofNat_of_zero_le h.1
  have hn : n < 2 ^ 32 := by
    have := h.2
    omega
  rw [encodeVarint_natCast hn]
  rfl

theorem encodeVarint_length_le (value : ℤ) : (encodeVarint value).length ≤ 6 := by
  rw [encodeVarint]
  split_ifs
  · obtain ⟨n, hn⟩ := Int.eq_ofNat_of_zero_le (show 0 ≤ value % 2 ^ 32 / 128 by omega)
    have hlt : n < 128 ^ (4 + 1) := by omega
    rw [hn, encodeVarint_natCast (by omega), List.length_cons]
    exact Nat.succ_le_succ (varint_length_le hlt)
  · exact Nat.succ_le_succ (Nat.zero_le _)

theorem encodeMsgSyncReq_returns (userId localMaxSeq limit : ℤ) :
    ∃ bytes, encodeMsgSyncReq userId localMaxSeq limit = some bytes := by
  have h1 := encodeVarint_length_le userId
  have h2 := encodeVarint_length_le localMaxSeq
  have h3 := encodeVarint_length_le limit
  refine ⟨_, if_pos ?_⟩
  simp only [List.length_append, List.length_cons]
  omega

theorem tag_eq {field wireType : ℕ} (hfield : field < 16) (hwire : wireType < 8) :
    [tag field wireType] = varint (field * 8 + wireType) := by
  have hor : field <<< 3 ||| wireType = field * 8 + wireType := by
    rw [Nat.shiftLeft_eq, Nat.mul_comm, ← Nat.two_pow_add_eq_or_of_lt (show wireType < 2 ^ 3 by omega),
      Nat.mul_comm]
  rw [varint, if_pos (by omega), tag, hor]

/-- A hand-written integer field is a field of the wire format. -/
theorem varintField_eq {field : ℕ} (hfield : field < 16) {value : ℤ} (h : Uint32 value) :
    tag field 0 :: encodeVarint value = WireField.encode ⟨field, .varint value.toNat⟩ := by
  rw [WireField.encode, Value.wireType, Value.payload, ← tag_eq hfield (by decide), encodeVarint_eq h]
  rfl

theorem lenField_eq {field : ℕ} (hfield : field < 16) {bs : Bytes} (h : bs.length < 2 ^ 32) :
    tag field 2 :: encodeVarint bs.length ++ bs = WireField.encode ⟨field, .len bs⟩ := by
  rw [WireField.encode, Value.wireType, Value.payload, ← tag_eq hfield (by decide), encodeVarint_natCast h]
  rfl

theorem varint_wellFormed {field : ℕ} (hfield : 1 ≤ field ∧ field < 16) {value : ℤ}
    (h : Uint32 value) : WireField.WellFormed ⟨field, .varint value.toNat⟩ := by
  refine ⟨⟨hfield.1, hfield.2.trans (by decide)⟩, ⟨?_, nofun, nofun, nofun⟩⟩
  intro n hn
  obtain rfl := Value.varint.inj hn
  have := h.2
  omega

theorem len_wellFormed {field : ℕ} (hfield : 1 ≤ field ∧ field < 16) {bs : Bytes}
    (h : bs.length < 2 ^ 32) : WireField.WellFormed ⟨field, .len bs⟩ := by
  refine ⟨⟨hfield.1, hfield.2.trans (by decide)⟩, ⟨nofun, nofun, ?_, nofun⟩⟩
  intro bs' hbs
  obtain rfl := Value.len.inj hbs
  exact h.trans (by decide)

theorem toInt64_toNat {value : ℤ} (h : Uint32 value) : toInt64 value.toNat = value := by
  have hlt : value.toNat < 2 ^ 63 := by
    have := h.2
    omega
  rw [toInt64_natCast hlt, Int.toNat_of_nonneg h.1]

theorem Int31.uint32 {n : ℤ} (h : Int31 n) : Uint32 n := ⟨h.1, h.2.trans (by decide)⟩

theorem toInt32_toNat {n : ℤ} (h : Int31 n) : toInt32 n.toNat = n := by
  have hlt : n.toNat < 2 ^ 31 := by
    have := h.2
    omega
  rw [toInt32_natCast hlt, Int.toNat_of_nonneg h.1]

end TinyIM.Web
