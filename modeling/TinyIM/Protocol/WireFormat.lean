import Mathlib.Data.List.Forall2
import TinyIM.Protocol.StreamFraming

namespace TinyIM.Protocol.WireFormat

open Library.ByteOrder Library.Framing StreamFraming

variable (e : Endian)

/-- A packet buffer of the right size into which header and body are copied. -/
def copyPacket (header : PacketHeader) (body : Bytes) : Bytes :=
  let packet := List.replicate (sizeofPacketHeader + body.length) 0
  let packet := write packet 0 (header.bytes e)
  write packet sizeofPacketHeader body

/-- The string that `WebsocketSession::SendPacket` hands to `Send`. -/
def sendPacket (cmdId : UInt16) (body : Bytes) : Bytes :=
  let header : PacketHeader :=
    { magic := (73, 77), version := 1, cmdId := htons e cmdId,
      bodyLen := htonl e (UInt32.ofNat body.length) }
  let packet := List.replicate (sizeofPacketHeader + body.length) 0
  let packet := write packet 0 (header.bytes e)
  if body.isEmpty then packet else write packet sizeofPacketHeader body

def kickBody : Bytes := ascii "Kicked by new login"

/-- The packet of `WebsocketSession::Kick`. -/
def kickPacket : Bytes :=
  copyPacket e { magic := (73, 77), version := 1, cmdId := htons e CommandID.logoutResp.value,
                 bodyLen := htonl e (UInt32.ofNat kickBody.length) } kickBody

/-- The packet of `GatewayServiceImpl::PushNotify` around a serialised
`MsgPushNotify`. -/
def pushNotifyPacket (body : Bytes) : Bytes :=
  copyPacket e { magic := (73, 77), version := 1, cmdId := htons e CommandID.msgPushNotify.value,
                 bodyLen := htonl e (UInt32.ofNat body.length) } body

/-- `TestClient::SendPacket` around a serialised message; magic and version are
the defaults of `PacketHeader`. -/
def testClientSendPacket (cmdId : UInt16) (body : Bytes) : Bytes :=
  copyPacket e { cmdId := htons e cmdId, bodyLen := htonl e (UInt32.ofNat body.length) } body

/-- `DataView.setUint8`. -/
def setUint8 (view : Bytes) (offset value : ℕ) : Bytes := write view offset [UInt8.ofNat value]

/-- `DataView.setUint16` in big-endian order. -/
def setUint16 (view : Bytes) (offset value : ℕ) : Bytes := write view offset (bigEndian 2 value)

/-- `DataView.setUint32` in big-endian order. -/
def setUint32 (view : Bytes) (offset value : ℕ) : Bytes := write view offset (bigEndian 4 value)

/-- `IMProtocol.buildMessage`. -/
def buildMessage (cmd : ℕ) (bodyArray : Bytes) : Bytes :=
  let headerLen := 9
  let view := List.replicate (headerLen + bodyArray.length) 0
  let view := setUint8 view 0 0x49
  let view := setUint8 view 1 0x4D
  let view := setUint8 view 2 1
  let view := setUint16 view 3 cmd
  let view := setUint32 view 5 bodyArray.length
  write view headerLen bodyArray

structure JsHeader where
  magic : ℕ × ℕ
  version : ℕ
  cmd : ℕ
  length : ℕ
  deriving DecidableEq, Repr

def getUint8 (view : Bytes) (offset : ℕ) : ℕ := (view.getD offset 0).toNat

def getUint16 (view : Bytes) (offset : ℕ) : ℕ := fromBigEndian ((view.drop offset).take 2)

def getUint32 (view : Bytes) (offset : ℕ) : ℕ := fromBigEndian ((view.drop offset).take 4)

/-- `IMProtocol.parseMessage`; the error is the text of the exception. -/
def parseMessage (data : Bytes) : Except String (JsHeader × Bytes) :=
  if data.length < 9 then .error "Message too short"
  else
    let header : JsHeader :=
      { magic := (getUint8 data 0, getUint8 data 1), version := getUint8 data 2,
        cmd := getUint16 data 3, length := getUint32 data 5 }
    .ok (header, data.drop 9)

def wire (p : Packet) : Bytes :=
  73 :: 77 :: 1 :: (bigEndian 2 p.cmdId.toNat ++ (bigEndian 4 p.body.length ++ p.body))

theorem wire_length (p : Packet) : (wire p).length = 9 + p.body.length := by
  simp [wire]
  omega

theorem wire_isPacket {p : Packet} (h : p.body.length < 2 ^ 32) : IsPacket (wire p) p :=
  ⟨1, h, rfl⟩

theorem header_bytes (cmdId : UInt16) {body : Bytes} (h : body.length < 2 ^ 32) :
    PacketHeader.bytes e { magic := (73, 77), version := 1, cmdId := htons e cmdId,
                           bodyLen := htonl e (UInt32.ofNat body.length) } ++ body =
      wire ⟨cmdId, body⟩ := by
  have hlen : (UInt32.ofNat body.length).toNat = body.length := by
    rw [UInt32.toNat_ofNat']
    exact Nat.mod_eq_of_lt h
  simp only [PacketHeader.bytes, store_htons, store_htonl, hlen, wire, List.cons_append,
    List.nil_append, List.append_assoc]

theorem copyPacket_eq (header : PacketHeader) (body : Bytes) :
    copyPacket e header body = header.bytes e ++ body := by
  have hhead := write_middle [] (List.replicate sizeofPacketHeader 0) (header.bytes e)
    (List.replicate body.length 0) (by rw [PacketHeader.bytes_length, List.length_replicate])
  have hbody := write_middle (header.bytes e) (List.replicate body.length 0) body []
    List.length_replicate
  simp only [List.nil_append, List.length_nil, List.replicate_append_replicate] at hhead
  simp only [PacketHeader.bytes_length, List.append_nil] at hbody
  simp only [copyPacket, hhead, hbody]

theorem sendPacket_eq_copyPacket (cmdId : UInt16) (body : Bytes) :
    sendPacket e cmdId body =
      copyPacket e { magic := (73, 77), version := 1, cmdId := htons e cmdId,
                     bodyLen := htonl e (UInt32.ofNat body.length) } body := by
  cases body with
  | cons b body => rfl
  | nil => simp [sendPacket, copyPacket, write, PacketHeader.bytes_length]

theorem sendPacket_length (cmdId : UInt16) (body : Bytes) :
    (sendPacket e cmdId body).length = sizeofPacketHeader + body.length := by
  rw [sendPacket_eq_copyPacket, copyPacket_eq, List.length_append, PacketHeader.bytes_length]

theorem eq_nil_of_sendPacket {cmdId : UInt16} {body : Bytes}
    (h : sendPacket e cmdId body = sendPacket e cmdId []) : body = [] := by
  have hlength := congrArg List.length h
  rw [sendPacket_length, sendPacket_length, List.length_nil] at hlength
  exact List.length_eq_zero_iff.mp (Nat.add_left_cancel hlength)

theorem sendPacket_eq_wire (cmdId : UInt16) {body : Bytes} (h : body.length < 2 ^ 32) :
    sendPacket e cmdId body = wire ⟨cmdId, body⟩ := by
  rw [sendPacket_eq_copyPacket, copyPacket_eq, header_bytes e cmdId h]

theorem buildMessage_eq_wire (cmdId : UInt16) (body : Bytes) :
    buildMessage cmdId.toNat body = wire ⟨cmdId, body⟩ := by
  obtain ⟨c₁, c₂, hcmd⟩ : ∃ c₁ c₂, bigEndian 2 cmdId.toNat = [c₁, c₂] := ⟨_, _, rfl⟩
  obtain ⟨l₁, l₂, l₃, l₄, hlen⟩ : ∃ l₁ l₂ l₃ l₄, bigEndian 4 body.length = [l₁, l₂, l₃, l₄] :=
    ⟨_, _, _, _, rfl⟩
  have hview : List.replicate (9 + body.length) (0 : UInt8) =
      0 :: 0 :: 0 :: 0 :: 0 :: 0 :: 0 :: 0 :: 0 :: List.replicate body.length 0 := by
    rw [Nat.add_comm]
    rfl
  simp only [buildMessage, hview, setUint8, setUint16, setUint32, hcmd, hlen, write, wire]
  simp [Nat.add_comm 9]

theorem parseMessage_wire {p : Packet} (h : p.body.length < 2 ^ 32) :
    parseMessage (wire p) =
      .ok (⟨(73, 77), 1, p.cmdId.toNat, p.body.length⟩, p.body) := by
  obtain ⟨c₁, c₂, hcmd, hc⟩ := exists_cmdId_bytes p.cmdId
  obtain ⟨l₁, l₂, l₃, l₄, hlen, hl⟩ := exists_length_bytes h
  have hshort : ¬ (wire p).length < 9 := by rw [wire_length]; omega
  rw [parseMessage, if_neg hshort]
  simp [wire, hcmd, hlen, getUint8, getUint16, getUint32, hc, hl]

/-- `wire` packets are frames for both stream decoders: the one that checks the
magic and the one that does not. -/
theorem isFrame_wire {rejects : UInt8 → UInt8 → Bool} (hr : rejects 73 77 = false) {p : Packet}
    (h : p.body.length < 2 ^ 32) : (wireFramer rejects).IsFrame (wire p) p := by
  have hnotIM : wireFront notIM (wire p) = .frame p (wire p).length :=
    (isFrame_iff_isPacket (wire p) p).mpr (wire_isPacket h)
  obtain ⟨m₁, m₂, v, c₁, c₂, l₁, l₂, l₃, l₄, rest, hraw, hm, hl, hn, hp⟩ := wireFront_frame hnotIM
  obtain ⟨rfl, rfl, -⟩ : m₁ = 73 ∧ m₂ = 77 ∧ True := by
    simp only [wire, List.cons.injEq] at hraw
    exact ⟨hraw.1.symm, hraw.2.1.symm, trivial⟩
  have hfront : wireFront rejects (73 :: 77 :: v :: c₁ :: c₂ :: l₁ :: l₂ :: l₃ :: l₄ :: rest) = _ :=
    wireFront_of_le hr hl
  rwa [← hraw, ← hn, ← hp] at hfront

theorem run_wire {rejects : UInt8 → UInt8 → Bool} (hr : rejects 73 77 = false) {ps : List Packet}
    (h : ∀ p ∈ ps, p.body.length < 2 ^ 32) :
    (wireFramer rejects).run (ps.map wire).flatten = ⟨ps, false, []⟩ := by
  have hframes : List.Forall₂ (wireFramer rejects).IsFrame (ps.map wire) ps := by
    rw [List.forall₂_map_left_iff, List.forall₂_same]
    exact fun p hp ↦ isFrame_wire hr (h p hp)
  have hnil : (wireFramer rejects).front [] = .wait := rfl
  simpa [Framer.run_wait hnil] using Framer.run_frames_append hframes []

/-- Hosts of any byte order `e` encode as the JavaScript client does, and hosts
of any byte order `d` decode it. -/
theorem one_wire_format (d : Endian) (cmdId : UInt16) {body : Bytes} (h : body.length < 2 ^ 32) :
    testClientSendPacket e cmdId body = sendPacket e cmdId body ∧
    buildMessage cmdId.toNat body = sendPacket e cmdId body ∧
    pushNotifyPacket e body = buildMessage CommandID.msgPushNotify.value.toNat body ∧
    kickPacket e = buildMessage CommandID.logoutResp.value.toNat kickBody ∧
    (sendPacket e cmdId body).length = 9 + body.length ∧
    (∀ ps : List Packet, (∀ p ∈ ps, p.body.length < 2 ^ 32) →
      onReadLoop d (ps.map fun p ↦ sendPacket e p.cmdId p.body).flatten = some ⟨ps, false, []⟩ ∧
      readLoop d (ps.map fun p ↦ sendPacket e p.cmdId p.body).flatten = some (ps, [])) ∧
    parseMessage (sendPacket e cmdId body) =
      .ok (⟨(73, 77), 1, cmdId.toNat, body.length⟩, body) := by
  have hkick : kickBody.length < 2 ^ 32 := by decide
  have hwire := sendPacket_eq_wire e cmdId h
  refine ⟨?_, ?_, ?_, ?_, ?_, fun ps hps ↦ ?_, ?_⟩
  · exact (sendPacket_eq_copyPacket e cmdId body).symm
  · rw [buildMessage_eq_wire, hwire]
  · rw [buildMessage_eq_wire, ← sendPacket_eq_wire e _ h, sendPacket_eq_copyPacket]
    rfl
  · rw [buildMessage_eq_wire, ← sendPacket_eq_wire e _ hkick, sendPacket_eq_copyPacket]
    rfl
  · rw [hwire, wire_length]
  · have hmap : (ps.map fun p ↦ sendPacket e p.cmdId p.body) = ps.map wire :=
      List.map_congr_left fun p hp ↦ sendPacket_eq_wire e p.cmdId (hps p hp)
    rw [hmap, onReadLoop_eq, readLoop_eq, run_wire rfl hps, run_wire rfl hps]
    exact ⟨rfl, rfl⟩
  · rw [hwire, parseMessage_wire h]

theorem one_wire_format_hello :
    buildMessage 0x2001 (ascii "hello") = sendPacket .little 0x2001 (ascii "hello") ∧
    onReadLoop .big ([Packet.mk 0x2001 (ascii "hello"), Packet.mk 0x1003 []].map fun p ↦
      sendPacket .little p.cmdId p.body).flatten =
        some ⟨[Packet.mk 0x2001 (ascii "hello"), Packet.mk 0x1003 []], false, []⟩ := by
  obtain ⟨-, hbuild, -, -, -, hdecode, -⟩ := one_wire_format .little .big 0x2001
    (show (ascii "hello").length < 2 ^ 32 by decide)
  exact ⟨hbuild, (hdecode _ (by decide)).1⟩

end TinyIM.Protocol.WireFormat
