import TinyIM.Library.ByteOrder

namespace TinyIM.Protocol

open Library.ByteOrder

/-- The bytes of a C++ string literal. -/
def ascii (s : String) : Bytes := s.toList.map fun c ↦ UInt8.ofNat c.toNat

inductive CommandID
  | loginReq
  | loginResp
  | heartbeatReq
  | heartbeatResp
  | logoutReq
  | logoutResp
  | msgSendReq
  | msgSendResp
  | msgPushNotify
  | msgSyncReq
  | msgSyncResp
  | friendApplyReq
  | friendApplyResp
  | friendAcceptReq
  | friendAcceptResp
  | friendListReq
  | friendListResp
  | groupCreateReq
  | groupCreateResp
  | groupJoinReq
  | groupJoinResp
  | groupListReq
  | groupListResp
  | groupApplyReq
  | groupApplyResp
  | groupAcceptReq
  | groupAcceptResp
  deriving DecidableEq, Repr

namespace CommandID

def value : CommandID → UInt16
  | loginReq => 0x1001
  | loginResp => 0x1002
  | heartbeatReq => 0x1003
  | heartbeatResp => 0x1004
  | logoutReq => 0x1005
  | logoutResp => 0x1006
  | msgSendReq => 0x2001
  | msgSendResp => 0x2002
  | msgPushNotify => 0x2003
  | msgSyncReq => 0x2004
  | msgSyncResp => 0x2005
  | friendApplyReq => 0x3001
  | friendApplyResp => 0x3002
  | friendAcceptReq => 0x3003
  | friendAcceptResp => 0x3004
  | friendListReq => 0x3005
  | friendListResp => 0x3006
  | groupCreateReq => 0x4001
  | groupCreateResp => 0x4002
  | groupJoinReq => 0x4003
  | groupJoinResp => 0x4004
  | groupListReq => 0x4005
  | groupListResp => 0x4006
  | groupApplyReq => 0x4007
  | groupApplyResp => 0x4008
  | groupAcceptReq => 0x4009
  | groupAcceptResp => 0x4010

theorem value_injective : Function.Injective value := by
  intro a b h
  cases a <;> cases b <;> first | rfl | exact absurd h (by decide)

end CommandID

/-- A command and its body, as the frame loops hand them on. -/
structure Packet where
  cmdId : UInt16
  body : Bytes
  deriving DecidableEq, Repr

def sizeofPacketHeader : ℕ := 9

/-- The packed header, its numbers as the host keeps them. -/
structure PacketHeader where
  magic : UInt8 × UInt8 := (73, 77)
  version : UInt8 := 1
  cmdId : UInt16 := 0
  bodyLen : UInt32 := 0
  deriving DecidableEq, Repr

variable (e : Endian)

/-- The memory of a header on a host with byte order `e`. -/
def PacketHeader.bytes (h : PacketHeader) : Bytes :=
  [h.magic.1, h.magic.2, h.version] ++ e.store 2 h.cmdId.toNat ++ e.store 4 h.bodyLen.toNat

/-- `memcpy(&header, raw, sizeof(PacketHeader))`. -/
def PacketHeader.ofBytes (raw : Bytes) : PacketHeader where
  magic := (raw.getD 0 0, raw.getD 1 0)
  version := raw.getD 2 0
  cmdId := UInt16.ofNat (e.load ((raw.drop 3).take 2))
  bodyLen := UInt32.ofNat (e.load ((raw.drop 5).take 4))

def htons (x : UInt16) : UInt16 := UInt16.ofNat (e.hton 2 x.toNat)

def ntohs (x : UInt16) : UInt16 := UInt16.ofNat (e.hton 2 x.toNat)

def htonl (x : UInt32) : UInt32 := UInt32.ofNat (e.hton 4 x.toNat)

def ntohl (x : UInt32) : UInt32 := UInt32.ofNat (e.hton 4 x.toNat)

/-- The bytes of a complete packet that carries `p`, read as a byte string:
magic, any version, command and body length in network order, body. -/
def IsPacket (raw : Bytes) (p : Packet) : Prop :=
  ∃ version, p.body.length < 2 ^ 32 ∧
    raw = 73 :: 77 :: version ::
      (bigEndian 2 p.cmdId.toNat ++ (bigEndian 4 p.body.length ++ p.body))

theorem PacketHeader.bytes_length (h : PacketHeader) :
    (h.bytes e).length = sizeofPacketHeader := by
  simp [PacketHeader.bytes, sizeofPacketHeader]

theorem store_htons (x : UInt16) : e.store 2 (htons e x).toNat = bigEndian 2 x.toNat := by
  have hx : e.hton 2 x.toNat < 256 ^ 2 := e.hton_lt x.toNat_lt
  have hmod : e.hton 2 x.toNat % 2 ^ 16 = e.hton 2 x.toNat := Nat.mod_eq_of_lt hx
  rw [htons, UInt16.toNat_ofNat', hmod, e.store_hton]

theorem store_htonl (x : UInt32) : e.store 4 (htonl e x).toNat = bigEndian 4 x.toNat := by
  have hx : e.hton 4 x.toNat < 256 ^ 4 := e.hton_lt x.toNat_lt
  have hmod : e.hton 4 x.toNat % 2 ^ 32 = e.hton 4 x.toNat := Nat.mod_eq_of_lt hx
  rw [htonl, UInt32.toNat_ofNat', hmod, e.store_hton]

theorem ntohs_load {bs : Bytes} (h : bs.length = 2) :
    ntohs e (UInt16.ofNat (e.load bs)) = UInt16.ofNat (fromBigEndian bs) := by
  have hx := e.load_lt bs
  have hn := e.hton_load bs
  rw [h] at hx hn
  have hmod : e.load bs % 2 ^ 16 = e.load bs := Nat.mod_eq_of_lt hx
  rw [ntohs, UInt16.toNat_ofNat', hmod, hn]

theorem ntohl_load {bs : Bytes} (h : bs.length = 4) :
    ntohl e (UInt32.ofNat (e.load bs)) = UInt32.ofNat (fromBigEndian bs) := by
  have hx := e.load_lt bs
  have hn := e.hton_load bs
  rw [h] at hx hn
  have hmod : e.load bs % 2 ^ 32 = e.load bs := Nat.mod_eq_of_lt hx
  rw [ntohl, UInt32.toNat_ofNat', hmod, hn]

end TinyIM.Protocol
