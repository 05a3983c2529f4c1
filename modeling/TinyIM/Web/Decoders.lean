import TinyIM.Library.ProtoWire

namespace TinyIM.Web

open Library.ByteOrder Library.ProtoWire

/-- The part of an `ArrayBuffer` that a `Uint8Array` or a `DataView` shows. -/
structure View where
  buffer : Bytes
  byteOffset : ℕ
  byteLength : ℕ
  within : byteOffset + byteLength ≤ buffer.length

namespace View

def bytes (view : View) : Bytes := (view.buffer.drop view.byteOffset).take view.byteLength

/-- `new Uint8Array(bytes)`. -/
def ofBytes (bs : Bytes) : View := ⟨bs, 0, bs.length, (Nat.zero_add _).le⟩

/-- `none` is a `RangeError`. -/
def getUint8 (view : View) (offset : ℤ) : Option UInt8 :=
  if 0 ≤ offset ∧ offset < view.byteLength then view.buffer[view.byteOffset + offset.toNat]?
  else none

/-- `new Uint8Array(view.buffer, view.byteOffset + offset, len)`. `none` is a
`RangeError`. -/
def subarray (view : View) (offset len : ℤ) : Option View :=
  if h : 0 ≤ view.byteOffset + offset ∧ 0 ≤ len ∧
      view.byteOffset + offset + len ≤ view.buffer.length then
    some ⟨view.buffer, (view.byteOffset + offset).toNat, len.toNat, by omega⟩
  else none

end View

/-- The loop of `IMProtocol.decodeVarint`. `|=` and `<<` work on 32 bits, and
the shift count on 5. -/
def decodeVarintFrom (view : View) (offset : ℤ) (value : BitVec 32) (shift length : ℕ) :
    Option (ℤ × ℕ) :=
  if view.byteLength ≤ offset + length then none
  else
    match view.getUint8 (offset + length) with
    | none => none
    | some byte =>
      let value := value ||| BitVec.ofNat 32 (byte.toNat % 128) <<< (shift % 32)
      if byte.toNat < 128 then some (value.toInt, length + 1)
      else decodeVarintFrom view offset value (shift + 7) (length + 1)
termination_by (view.byteLength - (offset + length)).toNat
decreasing_by omega

/-- `none` when the decoder throws. -/
def decodeVarint (view : View) (offset : ℤ) : Option (ℤ × ℕ) :=
  decodeVarintFrom view offset 0 0 0

/-- The bytes that are handed to `TextDecoder`. -/
def decodeString (view : View) (offset len : ℤ) : Option Bytes :=
  (view.subarray offset len).map View.bytes

inductive Outcome (α : Type)
  | returns (a : α)
  | throws
  | running
  deriving DecidableEq, Repr

/-- How a pass through a loop body ends when it does not throw. -/
inductive Pass (σ : Type)
  | next (s : σ) (offset : ℤ)
  | exit (s : σ)
  | running

/-- `while (offset < buffer.byteLength)`, for at most `fuel` passes. -/
def decodeLoop {σ : Type} (body : σ → ℤ → Option (Pass σ)) (byteLength : ℕ) :
    ℕ → σ → ℤ → Outcome σ
  | 0, s, offset => if offset < byteLength then .running else .returns s
  | fuel + 1, s, offset =>
    if offset < byteLength then
      match body s offset with
      | none => .throws
      | some (.next s offset) => decodeLoop body byteLength fuel s offset
      | some (.exit s) => .returns s
      | some .running => .running
    else .returns s

/-- The body that looks at the wire type first. -/
def fieldPass {σ : Type} (view : View) (onVarint : σ → ℤ → ℤ → σ)
    (onLen : σ → ℤ → ℤ → ℤ → Option σ) (other : σ → ℤ → Pass σ) (s : σ) (offset : ℤ) :
    Option (Pass σ) := do
  let (tag, tagLen) ← decodeVarint view offset
  let offset := offset + tagLen
  let fieldNum := tag / 8
  let wireType := tag % 8
  if wireType = 0 then
    let (value, length) ← decodeVarint view offset
    return .next (onVarint s fieldNum value) (offset + length)
  else if wireType = 2 then
    let (len, lenLen) ← decodeVarint view offset
    let offset := offset + lenLen
    let s ← onLen s fieldNum offset len
    return .next s (offset + len)
  else
    return other s offset

def skipUnknown {σ : Type} (view : View) (s : σ) (wireType offset : ℤ) : Option (Pass σ) := do
  if wireType = 0 then
    let (_, length) ← decodeVarint view offset
    return .next s (offset + length)
  else if wireType = 2 then
    let (len, lenLen) ← decodeVarint view offset
    return .next s (offset + lenLen + len)
  else
    return .exit s

/-- The record starts without `nickname`. -/
@[ext] structure LoginResult where
  userId : ℤ := 0
  token : Bytes := []
  nickname : Option Bytes := none
  success : Bool := false
  errMsg : Bytes := []
  deriving DecidableEq, Repr

def LoginResult.onVarint (r : LoginResult) (fieldNum value : ℤ) : LoginResult :=
  if fieldNum = 1 then { r with userId := value }
  else if fieldNum = 4 then { r with success := value ≠ 0 }
  else r

def LoginResult.onLen (view : View) (r : LoginResult) (fieldNum offset len : ℤ) :
    Option LoginResult :=
  if fieldNum = 2 then (decodeString view offset len).map fun s ↦ { r with token := s }
  else if fieldNum = 3 then (decodeString view offset len).map fun s ↦ { r with nickname := some s }
  else if fieldNum = 5 then (decodeString view offset len).map fun s ↦ { r with errMsg := s }
  else some r

def decodeLoginResp (fuel : ℕ) (view : View) : Outcome LoginResult :=
  decodeLoop (fieldPass view LoginResult.onVarint (LoginResult.onLen view) fun s _ ↦ .exit s)
    view.byteLength fuel {} 0

@[ext] structure SendResult where
  msgId : ℤ := 0
  seqId : ℤ := 0
  success : Bool := false
  errMsg : Bytes := []
  deriving DecidableEq, Repr

def SendResult.onVarint (r : SendResult) (fieldNum value : ℤ) : SendResult :=
  if fieldNum = 1 then { r with msgId := value }
  else if fieldNum = 2 then { r with seqId := value }
  else if fieldNum = 3 then { r with success := value ≠ 0 }
  else r

def SendResult.onLen (view : View) (r : SendResult) (fieldNum offset len : ℤ) :
    Option SendResult :=
  if fieldNum = 4 then (decodeString view offset len).map fun s ↦ { r with errMsg := s }
  else some r

def decodeMsgSendResp (fuel : ℕ) (view : View) : Outcome SendResult :=
  decodeLoop (fieldPass view SendResult.onVarint (SendResult.onLen view) fun s _ ↦ .exit s)
    view.byteLength fuel {} 0

/-- The record starts without `created_at`; `create_time` is never set. -/
@[ext] structure MessageData where
  msgId : ℤ := 0
  seqId : ℤ := 0
  senderId : ℤ := 0
  receiverId : ℤ := 0
  groupId : ℤ := 0
  type : ℤ := 0
  createTime : ℤ := 0
  content : Bytes := []
  createdAt : Option Bytes := none
  deriving DecidableEq, Repr

def MessageData.onVarint (m : MessageData) (fieldNum value : ℤ) : MessageData :=
  if fieldNum = 1 then { m with msgId := value }
  else if fieldNum = 2 then { m with seqId := value }
  else if fieldNum = 3 then { m with senderId := value }
  else if fieldNum = 4 then { m with groupId := value }
  else if fieldNum = 5 then { m with type := value }
  else m

def MessageData.onLen (view : View) (m : MessageData) (fieldNum offset len : ℤ) :
    Option MessageData :=
  if fieldNum = 6 then (decodeString view offset len).map fun s ↦ { m with content := s }
  else if fieldNum = 7 then (decodeString view offset len).map fun s ↦ { m with createdAt := some s }
  else some m

/-- A field of another wire type is read over its tag alone. -/
def decodeMessageData (fuel : ℕ) (view : View) : Outcome MessageData :=
  decodeLoop (fieldPass view MessageData.onVarint (MessageData.onLen view) .next)
    view.byteLength fuel {} 0

@[ext] structure SyncResult where
  maxSeq : ℤ := 0
  msgs : List MessageData := []
  hasMore : Bool := false
  deriving DecidableEq, Repr

/-- The body that looks at the field number first. -/
def syncPass (fuel : ℕ) (view : View) (r : SyncResult) (offset : ℤ) :
    Option (Pass SyncResult) := do
  let (tag, tagLen) ← decodeVarint view offset
  let offset := offset + tagLen
  let fieldNum := tag / 8
  let wireType := tag % 8
  if fieldNum = 1 then
    let (value, length) ← decodeVarint view offset
    return .next { r with maxSeq := value } (offset + length)
  else if fieldNum = 2 then
    let (len, lenLen) ← decodeVarint view offset
    let offset := offset + lenLen
    let sub ← view.subarray offset len
    match decodeMessageData fuel sub with
    | .returns msgData => return .next { r with msgs := r.msgs ++ [msgData] } (offset + len)
    | .throws => none
    | .running => return .running
  else if fieldNum = 3 then
    let (value, length) ← decodeVarint view offset
    return .next { r with hasMore := value ≠ 0 } (offset + length)
  else
    skipUnknown view r wireType offset

def decodeMsgSyncResp (fuel : ℕ) (view : View) : Outcome SyncResult :=
  decodeLoop (syncPass fuel view) view.byteLength fuel {} 0

structure HeartbeatResult where
  serverTime : ℤ := 0
  maxSeqId : ℤ := 0
  deriving DecidableEq, Repr

def heartbeatPass (view : View) (r : HeartbeatResult) (offset : ℤ) :
    Option (Pass HeartbeatResult) := do
  let (tag, tagLen) ← decodeVarint view offset
  let offset := offset + tagLen
  let fieldNum := tag / 8
  if fieldNum = 1 then
    let (value, length) ← decodeVarint view offset
    return .next { r with serverTime := value } (offset + length)
  else if fieldNum = 2 then
    let (value, length) ← decodeVarint view offset
    return .next { r with maxSeqId := value } (offset + length)
  else
    skipUnknown view r (tag % 8) offset

def decodeHeartbeatResp (fuel : ℕ) (view : View) : Outcome HeartbeatResult :=
  decodeLoop (heartbeatPass view) view.byteLength fuel {} 0

namespace View

theorem bytes_length (view : View) : view.bytes.length = view.byteLength := by
  rw [bytes, List.length_take, List.length_drop]
  have := view.within
  omega

theorem bytes_ofBytes (bs : Bytes) : (ofBytes bs).bytes = bs := by
  simp [bytes, ofBytes]

theorem getUint8_eq (view : View) (pos : ℕ) : view.getUint8 pos = view.bytes[pos]? := by
  rw [getUint8, bytes, List.getElem?_take, List.getElem?_drop]
  simp only [Int.natCast_nonneg, true_and, Nat.cast_lt, Int.toNat_natCast]

variable {view : View} {pos : ℕ}

theorem getUint8_cons {b : UInt8} {rest : Bytes} (h : view.bytes.drop pos = b :: rest) :
    view.getUint8 pos = some b := by
  rw [getUint8_eq, ← List.head?_drop, h, List.head?_cons]

theorem lt_byteLength {b : UInt8} {rest : Bytes} (h : view.bytes.drop pos = b :: rest) :
    pos < view.byteLength := by
  rw [← bytes_length]
  by_contra hle
  rw [List.drop_eq_nil_of_le (not_lt.mp hle)] at h
  cases h

theorem drop_append {pre rest : Bytes} (h : view.bytes.drop pos = pre ++ rest) :
    view.bytes.drop (pos + pre.length) = rest := by
  rw [← List.drop_drop, h, List.drop_left]

theorem le_byteLength {pre rest : Bytes} (h : view.bytes.drop pos = pre ++ rest) (hpre : pre ≠ []) :
    pos + pre.length ≤ view.byteLength := by
  have hlength := congrArg List.length h
  have hpos := List.length_pos_of_ne_nil hpre
  rw [List.length_drop, bytes_length, List.length_append] at hlength
  omega

theorem subarray_eq {bs rest : Bytes} (h : view.bytes.drop pos = bs ++ rest)
    (hpos : pos ≤ view.byteLength) :
    ∃ sub, view.subarray pos bs.length = some sub ∧ sub.bytes = bs := by
  have hlength : view.byteLength - pos = bs.length + rest.length := by
    rw [← bytes_length, ← List.length_drop, h, List.length_append]
  have hwithin := view.within
  refine ⟨_, dif_pos (by omega), ?_⟩
  have hbytes : (view.buffer.drop (view.byteOffset + pos)).take (view.byteLength - pos) =
      bs ++ rest := by
    rw [← h, bytes, List.drop_take, List.drop_drop]
  have htake : (view.buffer.drop (view.byteOffset + pos)).take bs.length =
      ((view.buffer.drop (view.byteOffset + pos)).take (view.byteLength - pos)).take bs.length := by
    rw [List.take_take, min_eq_left (by omega)]
  rw [bytes]
  simp only [Int.toNat_natCast, ← Nat.cast_add]
  rw [htake, hbytes, List.take_left]

end View

theorem group_or {k m g : ℕ} (hk : k ≤ 4) (hm : m < 128 ^ k) :
    BitVec.ofNat 32 m ||| BitVec.ofNat 32 g <<< (7 * k % 32) = BitVec.ofNat 32 (m + 128 ^ k * g) := by
  have hshift : 7 * k % 32 = 7 * k := Nat.mod_eq_of_lt (by omega)
  have hpow : 128 ^ k = 2 ^ (7 * k) := (pow_mul 2 7 k).symm
  have hleft : BitVec.ofNat 32 g <<< (7 * k) = BitVec.ofNat 32 (2 ^ (7 * k) * g) := by
    refine BitVec.eq_of_toNat_eq ?_
    simp [BitVec.toNat_ofNat, Nat.shiftLeft_eq, Nat.mul_comm]
  rw [hpow] at hm ⊢
  rw [hshift, hleft, ← BitVec.ofNat_or, Nat.add_comm, Nat.two_pow_add_eq_or_of_lt hm, Nat.or_comm]

/-- The groups of a number, each shifted as the decoder does. -/
def groupsFrom (value : BitVec 32) (shift n : ℕ) : BitVec 32 :=
  let value := value ||| BitVec.ofNat 32 (n % 128) <<< (shift % 32)
  if n < 128 then value else groupsFrom value (shift + 7) (n / 128)
termination_by n
decreasing_by omega

/-- The number that the decoder makes of a varint. -/
def jsInt (n : ℕ) : ℤ := (groupsFrom 0 0 n).toInt

theorem decodeVarintFrom_varint {view : View} {offset n : ℕ} {rest : Bytes} (shift length : ℕ)
    (h : view.bytes.drop (offset + length) = varint n ++ rest) (value : BitVec 32) :
    decodeVarintFrom view offset value shift length =
      some ((groupsFrom value shift n).toInt, length + (varint n).length) := by
  induction n using Nat.strong_induction_on generalizing shift length value with
  | _ n ih =>
    rw [varint] at h
    rw [varint, decodeVarintFrom, groupsFrom]
    split_ifs at h with hsmall
    · have hn : (UInt8.ofNat n).toNat = n := by
        rw [UInt8.toNat_ofNat']
        omega
      have hlt := View.lt_byteLength h
      rw [if_neg (by omega), ← Nat.cast_add, View.getUint8_cons h]
      simp only [hn, hsmall, if_true, List.length_singleton]
    · have hn : (UInt8.ofNat (n % 128 + 128)).toNat = n % 128 + 128 := by
        rw [UInt8.toNat_ofNat']
        omega
      have hlt := View.lt_byteLength h
      have hrest : view.bytes.drop (offset + (length + 1)) = varint (n / 128) ++ rest :=
        View.drop_append (show view.bytes.drop (offset + length) =
          [UInt8.ofNat (n % 128 + 128)] ++ (varint (n / 128) ++ rest) from h)
      rw [if_neg (by omega), ← Nat.cast_add, View.getUint8_cons h]
      have hnot : ¬ n % 128 + 128 < 128 := by omega
      have hgroup : (n % 128 + 128) % 128 = n % 128 := by omega
      have hlength : length + 1 + (varint (n / 128)).length =
          length + ((varint (n / 128)).length + 1) := by omega
      simp only [hn, hnot, if_false, hsmall, List.length_cons, hgroup]
      rw [ih (n / 128) (by omega) (shift + 7) (length + 1) hrest, hlength]

/-- At most five groups keep their places in the 32 bits. -/
theorem groupsFrom_eq {k m n : ℕ} (hk : k ≤ 4) (hm : m < 128 ^ k) (hn : n < 128 ^ (5 - k)) :
    groupsFrom (BitVec.ofNat 32 m) (7 * k) n = BitVec.ofNat 32 (m + 128 ^ k * n) := by
  induction n using Nat.strong_induction_on generalizing k m with
  | _ n ih =>
    rw [groupsFrom]
    simp only [group_or hk hm]
    split_ifs with hsmall
    · rw [Nat.mod_eq_of_lt hsmall]
    · have hk3 : k ≤ 3 := by
        by_contra hk4
        obtain rfl : k = 4 := by omega
        exact hsmall hn
      obtain ⟨j, hj⟩ : ∃ j, 5 - k = j + 1 := ⟨4 - k, by omega⟩
      have hdiv : n / 128 < 128 ^ (5 - (k + 1)) := by
        rw [hj, pow_succ] at hn
        rw [show 5 - (k + 1) = j by omega]
        exact Nat.div_lt_of_lt_mul (by rwa [Nat.mul_comm])
      have hm' : m + 128 ^ k * (n % 128) < 128 ^ (k + 1) := by
        have hmod : n % 128 ≤ 127 := by omega
        have hmul : 128 ^ k * (n % 128) ≤ 128 ^ k * 127 := Nat.mul_le_mul_left _ hmod
        rw [pow_succ]
        omega
      rw [show 7 * k + 7 = 7 * (k + 1) by ring, ih (n / 128) (by omega) (by omega) hm' hdiv,
        pow_succ, Nat.add_assoc, Nat.mul_assoc, ← Nat.mul_add, Nat.mod_add_div]

theorem jsInt_eq {n : ℕ} (h : n < 2 ^ 35) : jsInt n = toInt32 n := by
  have hgroups := groupsFrom_eq (Nat.zero_le 4) Nat.zero_lt_one (show n < 128 ^ (5 - 0) from h)
  rw [pow_zero, Nat.one_mul, Nat.zero_add, Nat.mul_zero] at hgroups
  exact congrArg BitVec.toInt hgroups

theorem jsInt_natCast {n : ℕ} (h : n < 2 ^ 31) : jsInt n = n := by
  rw [jsInt_eq (h.trans (by decide)), toInt32_natCast h]

theorem decodeVarint_eq {view : View} {pos n : ℕ} {rest : Bytes}
    (h : view.bytes.drop pos = varint n ++ rest) :
    decodeVarint view pos = some (jsInt n, (varint n).length) := by
  rw [decodeVarint, decodeVarintFrom_varint 0 0 h, jsInt, Nat.zero_add]

theorem toInt32_eq_or {n : ℕ} (h : n < 2 ^ 32) : toInt32 n = n ∨ toInt32 n = n - 2 ^ 32 := by
  rw [toInt32, BitVec.toInt_ofNat', Int.bmod_def]
  split_ifs <;> omega

/-- The wire type survives the 32 bits, and so does a small field number. -/
theorem toInt32_tag {num wireType : ℕ} (hnum : num < 2 ^ 29) (hwire : wireType < 8) :
    toInt32 (num * 8 + wireType) % 8 = wireType ∧
      ∀ k : ℕ, k < 2 ^ 28 → (toInt32 (num * 8 + wireType) / 8 = k ↔ num = k) := by
  obtain h | h := toInt32_eq_or (n := num * 8 + wireType) (by omega)
  · rw [h]
    exact ⟨by omega, fun k hk ↦ by omega⟩
  · have hsmall : toInt32 (num * 8 + wireType) = (num * 8 + wireType : ℕ) → False := by
      rw [h]
      omega
    have hlarge : 2 ^ 31 ≤ num * 8 + wireType := by
      by_contra hlt
      exact hsmall (toInt32_natCast (by omega))
    rw [h]
    exact ⟨by omega, fun k hk ↦ by omega⟩

/-- What a server may write: an integer, or bytes of which the length fits
31 bits. -/
structure Plain (f : WireField) : Prop where
  num : 1 ≤ f.num ∧ f.num < 2 ^ 29
  value : (∃ n, n < 2 ^ 64 ∧ f.value = .varint n) ∨ ∃ bs : Bytes, bs.length < 2 ^ 31 ∧ f.value = .len bs

theorem Plain.length_lt {f : WireField} (h : Plain f) {bs : Bytes} (hf : f.value = .len bs) :
    bs.length < 2 ^ 31 := by
  obtain ⟨n, -, hn⟩ | ⟨cs, hcs, hn⟩ := h.value
  · cases hf.symm.trans hn
  · obtain rfl := Value.len.inj (hf.symm.trans hn)
    exact hcs

theorem Plain.wellFormed {f : WireField} (h : Plain f) : f.WellFormed := by
  obtain ⟨num, value⟩ := f
  refine ⟨h.num, ?_⟩
  obtain ⟨n, hn, rfl⟩ | ⟨bs, hbs, rfl⟩ := h.value
  · exact ⟨fun m hm ↦ Value.varint.inj hm ▸ hn, nofun, nofun, nofun⟩
  · exact ⟨nofun, nofun, fun cs hcs ↦ Value.len.inj hcs ▸ hbs.trans (by decide), nofun⟩

/-- The loop runs over the fields of a message when its body passes over one. -/
theorem decodeLoop_fields {σ : Type} {body : σ → ℤ → Option (Pass σ)} {merge : σ → WireField → σ}
    {view : View} {fs : List WireField}
    (hbody : ∀ f ∈ fs, ∀ s (pos : ℕ) (rest : Bytes), view.bytes.drop pos = f.encode ++ rest →
      body s pos = some (.next (merge s f) ↑(pos + f.encode.length)))
    {fuel : ℕ} (hfuel : fs.length ≤ fuel) (pos : ℕ) (s : σ)
    (h : view.bytes.drop pos = fs.flatMap WireField.encode) (hpos : pos ≤ view.byteLength) :
    decodeLoop body view.byteLength fuel s pos = .returns (fs.foldl merge s) := by
  induction fs generalizing fuel pos s with
  | nil =>
    have hend : ¬ (pos : ℤ) < view.byteLength := by
      have hlength := List.drop_eq_nil_iff.mp h
      rw [View.bytes_length] at hlength
      omega
    cases fuel <;> exact if_neg hend
  | cons f fs ih =>
    obtain ⟨hf, hfs⟩ := List.forall_mem_cons.mp hbody
    rw [List.flatMap_cons] at h
    cases fuel with
    | zero => cases hfuel
    | succ fuel =>
      obtain ⟨b, bs, hcons⟩ := List.exists_cons_of_ne_nil (encode_ne_nil f)
      have hlt := View.lt_byteLength (h.trans (congrArg (· ++ _) hcons))
      have hrest := View.drop_append h
      have hle := View.le_byteLength h (encode_ne_nil f)
      rw [decodeLoop, if_pos (by omega), hf s pos _ h]
      exact ih hfs (Nat.le_of_succ_le_succ hfuel) _ (merge s f) hrest hle

theorem decodeLoop_message {σ : Type} {body : σ → ℤ → Option (Pass σ)}
    {merge : σ → WireField → σ} {view : View} {fs : List WireField}
    (hbytes : view.bytes = fs.flatMap WireField.encode)
    (hbody : ∀ f ∈ fs, ∀ s (pos : ℕ) (rest : Bytes), view.bytes.drop pos = f.encode ++ rest →
      body s pos = some (.next (merge s f) ↑(pos + f.encode.length)))
    {fuel : ℕ} (hfuel : view.byteLength ≤ fuel) (s : σ) :
    decodeLoop body view.byteLength fuel s 0 = .returns (fs.foldl merge s) := by
  have hlength : fs.length ≤ view.byteLength := by
    rw [← View.bytes_length, hbytes]
    exact length_le_encode fs
  exact decodeLoop_fields hbody (hlength.trans hfuel) 0 s hbytes (Nat.zero_le _)

section pass

variable {σ : Type} {view : View} {pos num : ℕ} {rest : Bytes}

theorem decodeVarint_tag {f : WireField} (hf : Plain f)
    (h : view.bytes.drop pos = f.encode ++ rest) :
    ∃ tagLen, decodeVarint view pos = some (toInt32 (f.num * 8 + f.value.wireType), tagLen) ∧
      view.bytes.drop (pos + tagLen) = f.value.payload ++ rest ∧
      f.encode.length = tagLen + f.value.payload.length := by
  have hwire := wireType_lt f.value
  have htag : f.num * 8 + f.value.wireType < 2 ^ 35 := by
    have := hf.num.2
    omega
  rw [WireField.encode, List.append_assoc] at h
  rw [← jsInt_eq htag]
  exact ⟨_, decodeVarint_eq h, View.drop_append h, List.length_append⟩

variable {onVarint : σ → ℤ → ℤ → σ} {onLen : σ → ℤ → ℤ → ℤ → Option σ} {other : σ → ℤ → Pass σ}

theorem skipUnknown_eq {f : WireField} (hf : Plain f)
    (h : view.bytes.drop pos = f.value.payload ++ rest) (s : σ) :
    skipUnknown view s f.value.wireType pos = some (.next s ↑(pos + f.value.payload.length)) := by
  obtain ⟨num, value⟩ := f
  obtain ⟨n, -, rfl⟩ | ⟨bs, hbs, rfl⟩ := hf.value
  · simp only [skipUnknown, Value.wireType, decodeVarint_eq h, Option.bind_eq_bind,
      Option.bind_some, Value.payload, Nat.cast_add]
    rfl
  · rw [Value.payload, List.append_assoc] at h
    simp only [skipUnknown, Value.wireType, decodeVarint_eq h, jsInt_natCast hbs,
      Option.bind_eq_bind, Option.bind_some, Value.payload, List.length_append, Nat.cast_add,
      ← add_assoc]
    rfl

theorem fieldPass_varint {n : ℕ} (hf : Plain ⟨num, .varint n⟩)
    (h : view.bytes.drop pos = WireField.encode ⟨num, .varint n⟩ ++ rest) (s : σ) :
    ∃ fieldNum, fieldPass view onVarint onLen other s pos = some (.next
        (onVarint s fieldNum (jsInt n)) ↑(pos + (WireField.encode ⟨num, .varint n⟩).length)) ∧
      ∀ k : ℕ, k < 2 ^ 28 → (fieldNum = k ↔ num = k) := by
  obtain ⟨tagLen, htag, hpayload, hlength⟩ := decodeVarint_tag hf h
  obtain ⟨hwire, hnum⟩ := toInt32_tag hf.num.2 (wireType_lt (.varint n))
  refine ⟨_, ?_, hnum⟩
  simp only [Value.wireType] at htag hwire
  simp only [fieldPass, htag, Option.bind_eq_bind, Option.bind_some, Value.wireType, hwire,
    ← Nat.cast_add, decodeVarint_eq hpayload, hlength, Value.payload, Nat.add_assoc]
  rfl

theorem fieldPass_len {bs : Bytes} (hf : Plain ⟨num, .len bs⟩) (hbs : bs.length < 2 ^ 31)
    (h : view.bytes.drop pos = WireField.encode ⟨num, .len bs⟩ ++ rest) (s : σ) :
    ∃ (fieldNum : ℤ) (start : ℕ),
      fieldPass view onVarint onLen other s pos = (onLen s fieldNum start bs.length).map (fun s ↦
        .next s ↑(pos + (WireField.encode ⟨num, .len bs⟩).length)) ∧
      (∀ k : ℕ, k < 2 ^ 28 → (fieldNum = k ↔ num = k)) ∧
      decodeString view start bs.length = some bs := by
  obtain ⟨tagLen, htag, hpayload, hlength⟩ := decodeVarint_tag hf h
  obtain ⟨hwire, hnum⟩ := toInt32_tag hf.num.2 (wireType_lt (.len bs))
  simp only [Value.wireType] at htag hwire hnum
  rw [Value.payload, List.append_assoc] at hpayload
  have hlen := decodeVarint_eq hpayload
  rw [jsInt_natCast hbs] at hlen
  have hbytes := View.drop_append hpayload
  have hpos : pos + tagLen + (varint bs.length).length ≤ view.byteLength :=
    View.le_byteLength hpayload (varint_ne_nil _)
  obtain ⟨sub, hsub, hsubBytes⟩ := View.subarray_eq hbytes hpos
  refine ⟨_, pos + tagLen + (varint bs.length).length, ?_, hnum, ?_⟩
  · rw [Value.payload, List.length_append] at hlength
    simp only [fieldPass, htag, Option.bind_eq_bind, Option.bind_some, hwire, ← Nat.cast_add, hlen,
      hlength, Nat.add_assoc]
    rw [if_neg (by decide), if_pos (by decide)]
    exact Option.map_eq_bind.symm
  · rw [decodeString, hsub, Option.map_some, hsubBytes]

end pass

end TinyIM.Web
