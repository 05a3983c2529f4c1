import TinyIM.Library.Framing
import TinyIM.Protocol.Packet

namespace TinyIM.Protocol.StreamFraming

open Library.ByteOrder Library.Framing

variable (e : Endian)

/-- One turn of the loop of `WebsocketSession::OnRead` over `buffer_`. The
result is `none` when bytes past the end of the buffer would be read. -/
def onReadFront (buffer : Bytes) : Option (Front Packet) :=
  if buffer.length < sizeofPacketHeader then some .wait
  else
    (read? buffer 0 sizeofPacketHeader).bind fun raw ↦
      let header := PacketHeader.ofBytes e raw
      if header.magic.1 ≠ 73 ∨ header.magic.2 ≠ 77 then some .bad
      else
        let bodyLen := (ntohl e header.bodyLen).toNat
        -- `size_t` arithmetic
        if buffer.length < (sizeofPacketHeader + bodyLen) % 2 ^ 64 then some .wait
        else
          (read? buffer sizeofPacketHeader bodyLen).map fun body ↦
            .frame ⟨ntohs e header.cmdId, body⟩ (sizeofPacketHeader + bodyLen)

/-- One turn of the loop of `TestClient::ReadLoop`, which does not look at the
magic. The inner `none` is the `break`. -/
def readLoopFront (buffer : Bytes) : Option (Option (Packet × ℕ)) :=
  if buffer.length < sizeofPacketHeader then some none
  else
    (read? buffer 0 sizeofPacketHeader).bind fun raw ↦
      let header := PacketHeader.ofBytes e raw
      let len := (ntohl e header.bodyLen).toNat
      if buffer.length < (sizeofPacketHeader + len) % 2 ^ 64 then some none
      else
        (read? buffer sizeofPacketHeader len).map fun body ↦
          some (⟨ntohs e header.cmdId, body⟩, sizeofPacketHeader + len)

/-- The front of a byte stream in terms of the wire format alone: nine header
bytes, then as many body bytes as the last four of them say. -/
def wireFront (rejects : UInt8 → UInt8 → Bool) : Bytes → Front Packet
  | m₁ :: m₂ :: _ :: c₁ :: c₂ :: l₁ :: l₂ :: l₃ :: l₄ :: rest =>
    let n := fromBigEndian [l₁, l₂, l₃, l₄]
    if rejects m₁ m₂ then .bad
    else if rest.length < n then .wait
    else .frame ⟨UInt16.ofNat (fromBigEndian [c₁, c₂]), rest.take n⟩ (sizeofPacketHeader + n)
  | _ => .wait

def notIM (m₁ m₂ : UInt8) : Bool := m₁ ≠ 73 || m₂ ≠ 77

def noCheck (_ _ : UInt8) : Bool := false

theorem short_or_split (buffer : Bytes) :
    buffer.length < sizeofPacketHeader ∨
      ∃ m₁ m₂ v c₁ c₂ l₁ l₂ l₃ l₄ rest,
        buffer = m₁ :: m₂ :: v :: c₁ :: c₂ :: l₁ :: l₂ :: l₃ :: l₄ :: rest := by
  match buffer with
  | m₁ :: m₂ :: v :: c₁ :: c₂ :: l₁ :: l₂ :: l₃ :: l₄ :: rest =>
    exact .inr ⟨m₁, m₂, v, c₁, c₂, l₁, l₂, l₃, l₄, rest, rfl⟩
  | [] | [_] | [_, _] | [_, _, _] | [_, _, _, _] | [_, _, _, _, _] | [_, _, _, _, _, _]
  | [_, _, _, _, _, _, _] | [_, _, _, _, _, _, _, _] => exact .inl (by simp [sizeofPacketHeader])

theorem wireFront_short {rejects : UInt8 → UInt8 → Bool} {buffer : Bytes}
    (h : buffer.length < sizeofPacketHeader) : wireFront rejects buffer = .wait := by
  unfold wireFront
  split
  · simp only [List.length_cons, sizeofPacketHeader] at h
    omega
  · rfl

section Split

variable (m₁ m₂ v c₁ c₂ l₁ l₂ l₃ l₄ : UInt8) (rest : Bytes)

theorem read_header :
    read? (m₁ :: m₂ :: v :: c₁ :: c₂ :: l₁ :: l₂ :: l₃ :: l₄ :: rest) 0 sizeofPacketHeader =
      some [m₁, m₂, v, c₁, c₂, l₁, l₂, l₃, l₄] := by
  rw [read?_eq_some (by simp [sizeofPacketHeader])]
  simp [sizeofPacketHeader]

theorem read_body {n : ℕ} (hn : n ≤ rest.length) :
    read? (m₁ :: m₂ :: v :: c₁ :: c₂ :: l₁ :: l₂ :: l₃ :: l₄ :: rest) sizeofPacketHeader n =
      some (rest.take n) := by
  rw [read?_eq_some (by simp [sizeofPacketHeader]; omega)]
  simp [sizeofPacketHeader]

theorem ofBytes_split :
    PacketHeader.ofBytes e [m₁, m₂, v, c₁, c₂, l₁, l₂, l₃, l₄] =
      ⟨(m₁, m₂), v, UInt16.ofNat (e.load [c₁, c₂]), UInt32.ofNat (e.load [l₁, l₂, l₃, l₄])⟩ := by
  simp [PacketHeader.ofBytes]

theorem bodyLen_toNat :
    (ntohl e (UInt32.ofNat (e.load [l₁, l₂, l₃, l₄]))).toNat = fromBigEndian [l₁, l₂, l₃, l₄] := by
  have hlt : fromBigEndian [l₁, l₂, l₃, l₄] < 256 ^ 4 := fromBigEndian_lt [l₁, l₂, l₃, l₄]
  rw [ntohl_load e rfl, UInt32.toNat_ofNat']
  exact Nat.mod_eq_of_lt hlt

theorem size_lt_iff :
    (m₁ :: m₂ :: v :: c₁ :: c₂ :: l₁ :: l₂ :: l₃ :: l₄ :: rest).length <
        (sizeofPacketHeader + fromBigEndian [l₁, l₂, l₃, l₄]) % 2 ^ 64 ↔
      rest.length < fromBigEndian [l₁, l₂, l₃, l₄] := by
  have hlt : fromBigEndian [l₁, l₂, l₃, l₄] < 256 ^ 4 := fromBigEndian_lt [l₁, l₂, l₃, l₄]
  simp only [List.length_cons, sizeofPacketHeader]
  omega

end Split

theorem onReadFront_eq (buffer : Bytes) : onReadFront e buffer = some (wireFront notIM buffer) := by
  rcases short_or_split buffer with h | ⟨m₁, m₂, v, c₁, c₂, l₁, l₂, l₃, l₄, rest, rfl⟩
  · rw [wireFront_short h, onReadFront, if_pos h]
  · have hlen : ¬ (m₁ :: m₂ :: v :: c₁ :: c₂ :: l₁ :: l₂ :: l₃ :: l₄ :: rest).length <
        sizeofPacketHeader := by simp [sizeofPacketHeader]
    simp only [onReadFront, hlen, if_false, read_header, Option.bind_some, ofBytes_split,
      bodyLen_toNat, ntohs_load e (show [c₁, c₂].length = 2 from rfl), size_lt_iff, wireFront, notIM,
      Bool.or_eq_true, decide_eq_true_eq]
    by_cases hmagic : m₁ ≠ 73 ∨ m₂ ≠ 77
    · simp only [hmagic, if_true]
    · simp only [hmagic, if_false]
      by_cases hshort : rest.length < fromBigEndian [l₁, l₂, l₃, l₄]
      · simp only [hshort, if_true]
      · have hbody := read_body m₁ m₂ v c₁ c₂ l₁ l₂ l₃ l₄ rest (Nat.not_lt.mp hshort)
        simp only [hshort, if_false, hbody, Option.map_some]

theorem readLoopFront_eq (buffer : Bytes) :
    readLoopFront e buffer = some (match wireFront noCheck buffer with
      | .frame p n => some (p, n)
      | _ => none) := by
  rcases short_or_split buffer with h | ⟨m₁, m₂, v, c₁, c₂, l₁, l₂, l₃, l₄, rest, rfl⟩
  · rw [wireFront_short h, readLoopFront, if_pos h]
  · have hlen : ¬ (m₁ :: m₂ :: v :: c₁ :: c₂ :: l₁ :: l₂ :: l₃ :: l₄ :: rest).length <
        sizeofPacketHeader := by simp [sizeofPacketHeader]
    simp only [readLoopFront, hlen, if_false, read_header, Option.bind_some, ofBytes_split,
      bodyLen_toNat, ntohs_load e (show [c₁, c₂].length = 2 from rfl), size_lt_iff, wireFront,
      noCheck, Bool.false_eq_true]
    by_cases hshort : rest.length < fromBigEndian [l₁, l₂, l₃, l₄]
    · simp only [hshort, if_true]
    · have hbody := read_body m₁ m₂ v c₁ c₂ l₁ l₂ l₃ l₄ rest (Nat.not_lt.mp hshort)
      simp only [hshort, if_false, hbody, Option.map_some]

theorem wireFront_frame {rejects : UInt8 → UInt8 → Bool} {buffer : Bytes} {p : Packet} {n : ℕ}
    (h : wireFront rejects buffer = .frame p n) :
    ∃ m₁ m₂ v c₁ c₂ l₁ l₂ l₃ l₄ rest,
      buffer = m₁ :: m₂ :: v :: c₁ :: c₂ :: l₁ :: l₂ :: l₃ :: l₄ :: rest ∧
      rejects m₁ m₂ = false ∧ fromBigEndian [l₁, l₂, l₃, l₄] ≤ rest.length ∧
      n = sizeofPacketHeader + fromBigEndian [l₁, l₂, l₃, l₄] ∧
      p = ⟨UInt16.ofNat (fromBigEndian [c₁, c₂]), rest.take (fromBigEndian [l₁, l₂, l₃, l₄])⟩ := by
  unfold wireFront at h
  split at h
  · next m₁ m₂ v c₁ c₂ l₁ l₂ l₃ l₄ rest =>
    dsimp only at h
    split_ifs at h with hm hl
    obtain ⟨rfl, rfl⟩ := Front.frame.inj h
    exact ⟨m₁, m₂, v, c₁, c₂, l₁, l₂, l₃, l₄, rest, rfl, by simpa using hm, Nat.not_lt.mp hl,
      rfl, rfl⟩
  · cases h

theorem wireFront_of_le {rejects : UInt8 → UInt8 → Bool} {m₁ m₂ v c₁ c₂ l₁ l₂ l₃ l₄ : UInt8}
    {rest : Bytes} (hm : rejects m₁ m₂ = false)
    (hl : fromBigEndian [l₁, l₂, l₃, l₄] ≤ rest.length) :
    wireFront rejects (m₁ :: m₂ :: v :: c₁ :: c₂ :: l₁ :: l₂ :: l₃ :: l₄ :: rest) =
      .frame ⟨UInt16.ofNat (fromBigEndian [c₁, c₂]), rest.take (fromBigEndian [l₁, l₂, l₃, l₄])⟩
        (sizeofPacketHeader + fromBigEndian [l₁, l₂, l₃, l₄]) := by
  simp only [wireFront, hm, Bool.false_eq_true, if_false, Nat.not_lt.mpr hl]

theorem wireFront_bad {rejects : UInt8 → UInt8 → Bool} {buffer : Bytes} :
    wireFront rejects buffer = .bad ↔ sizeofPacketHeader ≤ buffer.length ∧
      ∃ m₁ m₂ rest, buffer = m₁ :: m₂ :: rest ∧ rejects m₁ m₂ = true := by
  rcases short_or_split buffer with h | ⟨m₁, m₂, v, c₁, c₂, l₁, l₂, l₃, l₄, rest, rfl⟩
  · simp [wireFront_short h, Nat.not_le.mpr h]
  · cases hm : rejects m₁ m₂ with
    | true => simp [wireFront, hm, sizeofPacketHeader]
    | false =>
      simp only [wireFront, hm, Bool.false_eq_true, if_false]
      split_ifs <;> simp [hm]

section Frame

variable {rejects : UInt8 → UInt8 → Bool} {buffer : Bytes} {p : Packet} {n : ℕ}

theorem wireFront_pos (h : wireFront rejects buffer = .frame p n) : 0 < n := by
  obtain ⟨_, _, _, _, _, _, _, _, _, _, -, -, -, rfl, -⟩ := wireFront_frame h
  exact Nat.add_pos_left (by decide) _

theorem wireFront_le_length (h : wireFront rejects buffer = .frame p n) : n ≤ buffer.length := by
  obtain ⟨_, _, _, _, _, _, _, _, _, _, rfl, -, hl, rfl, -⟩ := wireFront_frame h
  simp only [List.length_cons, sizeofPacketHeader]
  omega

theorem wireFront_append (more : Bytes) (h : wireFront rejects buffer = .frame p n) :
    wireFront rejects (buffer ++ more) = .frame p n := by
  obtain ⟨m₁, m₂, v, c₁, c₂, l₁, l₂, l₃, l₄, rest, rfl, hm, hl, rfl, rfl⟩ := wireFront_frame h
  simp only [List.cons_append]
  rw [wireFront_of_le hm (by rw [List.length_append]; omega), List.take_append_of_le_length hl]

theorem wireFront_take (h : wireFront rejects buffer = .frame p n) :
    wireFront rejects (buffer.take n) = .frame p n := by
  obtain ⟨m₁, m₂, v, c₁, c₂, l₁, l₂, l₃, l₄, rest, rfl, hm, hl, rfl, rfl⟩ := wireFront_frame h
  have htake : (m₁ :: m₂ :: v :: c₁ :: c₂ :: l₁ :: l₂ :: l₃ :: l₄ :: rest).take
      (sizeofPacketHeader + fromBigEndian [l₁, l₂, l₃, l₄]) =
      m₁ :: m₂ :: v :: c₁ :: c₂ :: l₁ :: l₂ :: l₃ :: l₄ ::
        rest.take (fromBigEndian [l₁, l₂, l₃, l₄]) := by
    rw [sizeofPacketHeader, Nat.add_comm]
    simp only [List.take_succ_cons]
  rw [htake, wireFront_of_le hm (by rw [List.length_take_of_le hl]), List.take_take, Nat.min_self]

theorem wireFront_bad_append (more : Bytes) (h : wireFront rejects buffer = .bad) :
    wireFront rejects (buffer ++ more) = .bad := by
  obtain ⟨hlen, m₁, m₂, rest, rfl, hm⟩ := wireFront_bad.mp h
  exact wireFront_bad.mpr ⟨by rw [List.length_append]; omega, m₁, m₂, rest ++ more, rfl, hm⟩

end Frame

/-- The wire format is a framing of the byte stream. -/
def wireFramer (rejects : UInt8 → UInt8 → Bool) : Framer UInt8 Packet where
  front := wireFront rejects
  pos := wireFront_pos
  le_length := wireFront_le_length
  frame_append := wireFront_append
  frame_take := wireFront_take
  bad_append := wireFront_bad_append

/-- The loop of `OnRead` on one buffer: the packets it dispatches, whether it
ended in `Close`, and what it leaves in `buffer_`. -/
def onReadLoop (buffer : Bytes) : Option (Receiver UInt8 Packet) :=
  match _h : onReadFront e buffer with
  | none => none
  | some .wait => some ⟨[], false, buffer⟩
  | some .bad => some ⟨[], true, buffer⟩
  | some (.frame p n) =>
    (onReadLoop (buffer.drop n)).map fun r ↦ { r with frames := p :: r.frames }
termination_by buffer.length
decreasing_by
  rw [onReadFront_eq] at _h
  have hn := (wireFramer notIM).pos (Option.some.inj _h)
  have hl := (wireFramer notIM).le_length (Option.some.inj _h)
  simp only [List.length_drop]
  omega

/-- `OnRead` when a message has been appended to `buffer_`. After `Close` the
read chain has ended and no further message is taken. -/
def onRead (r : Receiver UInt8 Packet) (msg : Bytes) : Option (Receiver UInt8 Packet) :=
  if r.closed then some r
  else (onReadLoop e (r.rest ++ msg)).map fun s ↦ { s with frames := r.frames ++ s.frames }

/-- The loop of `ReadLoop` on one buffer: the packets it queues and what it
leaves in the buffer. -/
def readLoop (buffer : Bytes) : Option (List Packet × Bytes) :=
  match _h : readLoopFront e buffer with
  | none => none
  | some none => some ([], buffer)
  | some (some (p, n)) => (readLoop (buffer.drop n)).map fun r ↦ (p :: r.1, r.2)
termination_by buffer.length
decreasing_by
  have hf : wireFront noCheck buffer = .frame p n := by
    rw [readLoopFront_eq] at _h
    split at _h <;> simp_all
  have hn := (wireFramer noCheck).pos hf
  have hl := (wireFramer noCheck).le_length hf
  simp only [List.length_drop]
  omega

theorem onReadLoop_eq (buffer : Bytes) :
    onReadLoop e buffer = some ((wireFramer notIM).run buffer) := by
  induction buffer using (wireFramer notIM).run_induction with
  | wait buffer h =>
    rw [onReadLoop, Framer.run_wait h]
    split <;> simp_all [onReadFront_eq, wireFramer]
  | bad buffer h =>
    rw [onReadLoop, Framer.run_bad h]
    split <;> simp_all [onReadFront_eq, wireFramer]
  | frame buffer p n h ih =>
    rw [onReadLoop, Framer.run_frame h]
    split <;> simp_all [onReadFront_eq, wireFramer]

theorem readLoop_eq (buffer : Bytes) :
    readLoop e buffer =
      some (((wireFramer noCheck).run buffer).frames, ((wireFramer noCheck).run buffer).rest) := by
  induction buffer using (wireFramer noCheck).run_induction with
  | wait buffer h =>
    rw [readLoop, Framer.run_wait h]
    split <;> simp_all [readLoopFront_eq, wireFramer]
  | bad buffer h =>
    obtain ⟨-, m₁, m₂, rest, -, hm⟩ := wireFront_bad.mp h
    cases hm
  | frame buffer p n h ih =>
    rw [readLoop, Framer.run_frame h]
    split <;> simp_all [readLoopFront_eq, wireFramer]

theorem onRead_eq (r : Receiver UInt8 Packet) (msg : Bytes) :
    onRead e r msg = some ((wireFramer notIM).feed r msg) := by
  by_cases hc : r.closed = true
  · simp [onRead, Framer.feed, hc]
  · simp [onRead, Framer.feed, hc, onReadLoop_eq]

theorem foldlM_onRead (r : Receiver UInt8 Packet) (msgs : List Bytes) :
    msgs.foldlM (onRead e) r = some (msgs.foldl (wireFramer notIM).feed r) := by
  induction msgs generalizing r with
  | nil => rfl
  | cons msg msgs ih => simp [List.foldlM_cons, onRead_eq, ih]

theorem isPacket_of_isFrame {raw : Bytes} {p : Packet} (h : (wireFramer notIM).IsFrame raw p) :
    IsPacket raw p := by
  obtain ⟨m₁, m₂, v, c₁, c₂, l₁, l₂, l₃, l₄, rest, rfl, hm, hl, hn, rfl⟩ := wireFront_frame h
  have hrest : rest.length = fromBigEndian [l₁, l₂, l₃, l₄] := by
    simp only [List.length_cons, sizeofPacketHeader] at hn
    omega
  have hlt : fromBigEndian [l₁, l₂, l₃, l₄] < 256 ^ 4 := fromBigEndian_lt [l₁, l₂, l₃, l₄]
  have hcmd : (UInt16.ofNat (fromBigEndian [c₁, c₂])).toNat = fromBigEndian [c₁, c₂] := by
    have hc : fromBigEndian [c₁, c₂] < 256 ^ 2 := fromBigEndian_lt [c₁, c₂]
    rw [UInt16.toNat_ofNat']
    exact Nat.mod_eq_of_lt hc
  have hc₂ := bigEndian_fromBigEndian [c₁, c₂]
  have hl₄ := bigEndian_fromBigEndian [l₁, l₂, l₃, l₄]
  simp only [List.length_cons, List.length_nil, Nat.zero_add, Nat.reduceAdd] at hc₂ hl₄
  simp only [notIM, Bool.or_eq_false_iff, decide_eq_false_iff_not, not_not] at hm
  obtain ⟨rfl, rfl⟩ := hm
  refine ⟨v, ?_, ?_⟩
  · rw [← hrest, List.take_length, hrest]
    exact hlt
  · simp only [← hrest, List.take_length, hcmd, hc₂]
    rw [hrest, hl₄]
    rfl

/-- The bytes of the two numbers of a header. -/
theorem exists_cmdId_bytes (cmdId : UInt16) :
    ∃ c₁ c₂, bigEndian 2 cmdId.toNat = [c₁, c₂] ∧ fromBigEndian [c₁, c₂] = cmdId.toNat := by
  refine ⟨_, _, rfl, ?_⟩
  exact (fromBigEndian_bigEndian 2 cmdId.toNat).trans (Nat.mod_eq_of_lt cmdId.toNat_lt)

theorem exists_length_bytes {n : ℕ} (h : n < 2 ^ 32) :
    ∃ l₁ l₂ l₃ l₄, bigEndian 4 n = [l₁, l₂, l₃, l₄] ∧ fromBigEndian [l₁, l₂, l₃, l₄] = n := by
  refine ⟨_, _, _, _, rfl, ?_⟩
  exact (fromBigEndian_bigEndian 4 n).trans (Nat.mod_eq_of_lt h)

theorem isFrame_of_isPacket {raw : Bytes} {p : Packet} (h : IsPacket raw p) :
    (wireFramer notIM).IsFrame raw p := by
  obtain ⟨v, hlen, rfl⟩ := h
  obtain ⟨c₁, c₂, hcs, hcmd⟩ := exists_cmdId_bytes p.cmdId
  obtain ⟨l₁, l₂, l₃, l₄, hls, hbody⟩ := exists_length_bytes hlen
  simp only [hcs, hls, List.cons_append, List.nil_append, Framer.IsFrame, wireFramer]
  have hsize : sizeofPacketHeader + p.body.length =
      (73 :: 77 :: v :: c₁ :: c₂ :: l₁ :: l₂ :: l₃ :: l₄ :: p.body).length := by
    simp only [List.length_cons, sizeofPacketHeader]
    omega
  rw [wireFront_of_le rfl hbody.le, hcmd, hbody, List.take_length, UInt16.ofNat_toNat, hsize]

theorem isFrame_iff_isPacket (raw : Bytes) (p : Packet) :
    (wireFramer notIM).IsFrame raw p ↔ IsPacket raw p :=
  ⟨isPacket_of_isFrame, isFrame_of_isPacket⟩

theorem wireFront_notIM_bad (buffer : Bytes) :
    wireFront notIM buffer = .bad ↔
      sizeofPacketHeader ≤ buffer.length ∧ ¬ [73, 77] <+: buffer := by
  rw [wireFront_bad]
  refine and_congr_right fun hlen ↦ ?_
  obtain _ | ⟨m₁, _ | ⟨m₂, rest⟩⟩ := buffer
  · simp [sizeofPacketHeader] at hlen
  · simp [sizeofPacketHeader] at hlen
  · simp only [List.cons_prefix_cons, List.nil_prefix, and_true, List.cons.injEq, notIM,
      Bool.or_eq_true, decide_eq_true_eq]
    constructor
    · intro hreject hmagic
      obtain ⟨h₁, h₂⟩ := hmagic
      obtain ⟨_, _, _, ⟨rfl, rfl, rfl⟩, h | h⟩ := hreject
      · exact h h₁.symm
      · exact h h₂.symm
    · intro h
      refine ⟨m₁, m₂, rest, ⟨rfl, rfl, rfl⟩, ?_⟩
      by_contra hm
      push Not at hm
      exact h ⟨hm.1.symm, hm.2.symm⟩

/-- The framing of `OnRead` does not depend on how the stream is cut. For every
cut the packets dispatched and the verdict are those of the whole stream, and
so are the bytes kept while the session is open. The packets are the longest
sequence of complete packets at the front of the stream, the session is closed
exactly when nine bytes or more remain and do not start with the magic, every
turn consumes at least a header, and no turn reads past the buffer. -/
theorem onRead_cut (msgs : List Bytes) :
    ∃ cut whole : Receiver UInt8 Packet,
      msgs.foldlM (onRead e) Framer.start = some cut ∧
      onRead e Framer.start msgs.flatten = some whole ∧
      cut.frames = whole.frames ∧ cut.closed = whole.closed ∧
      (cut.closed = false → cut.rest = whole.rest) ∧
      (∃ raws, msgs.flatten = raws.flatten ++ whole.rest ∧
        List.Forall₂ IsPacket raws whole.frames) ∧
      (∀ raws ps rest, msgs.flatten = raws.flatten ++ rest → List.Forall₂ IsPacket raws ps →
        ps <+: whole.frames) ∧
      (whole.closed = true ↔ sizeofPacketHeader ≤ whole.rest.length ∧ ¬ [73, 77] <+: whole.rest) ∧
      (∀ buffer p n, onReadFront e buffer = some (.frame p n) →
        sizeofPacketHeader ≤ n ∧ n ≤ buffer.length) ∧
      (∀ buffer, onReadFront e buffer ≠ none) := by
  have hframe : (wireFramer notIM).IsFrame = IsPacket := by
    funext raw p
    exact propext (isFrame_iff_isPacket raw p)
  have hstart : (wireFramer notIM).feed Framer.start msgs.flatten =
      (wireFramer notIM).run msgs.flatten := by simp [Framer.feed, Framer.start]
  obtain ⟨hframes, hclosed, hrest⟩ := (wireFramer notIM).foldl_feed_start rfl msgs
  refine ⟨msgs.foldl (wireFramer notIM).feed Framer.start, (wireFramer notIM).run msgs.flatten,
    foldlM_onRead e _ _, by rw [onRead_eq, hstart], hframes, hclosed, hrest, ?_, ?_, ?_, ?_, ?_⟩
  · rw [← hframe]
    exact (wireFramer notIM).run_decompose msgs.flatten
  · intro raws ps rest hcat hps
    rw [hcat]
    exact (wireFramer notIM).frames_longest (hframe ▸ hps) rest
  · rw [← wireFront_notIM_bad]
    rcases (wireFramer notIM).run_rest msgs.flatten with ⟨hc, hfront⟩ | ⟨hc, hfront⟩
    · exact iff_of_true hc hfront
    · have hne : wireFront notIM ((wireFramer notIM).run msgs.flatten).rest ≠ .bad := by
        intro hbad
        cases hbad.symm.trans hfront
      exact iff_of_false (by simp [hc]) hne
  · intro buffer p n h
    rw [onReadFront_eq] at h
    have hl := (wireFramer notIM).le_length (Option.some.inj h)
    obtain ⟨_, _, _, _, _, _, _, _, _, _, -, -, -, rfl, -⟩ := wireFront_frame (Option.some.inj h)
    exact ⟨Nat.le_add_right _ _, hl⟩
  · intro buffer
    simp [onReadFront_eq]

end TinyIM.Protocol.StreamFraming
