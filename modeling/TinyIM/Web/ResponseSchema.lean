import TinyIM.Protocol.Messages
import TinyIM.Web.Decoders
import TinyIM.Web.Encoders

namespace TinyIM.Web.ResponseSchema

open Library.ByteOrder Library.ProtoWire Protocol

section serialisation

/-- What a server writes for a field; a default value is left out. -/
def int (n : ℤ) : List Value := if n = 0 then [] else [.varint (ofInt n)]

def bool (b : Bool) : List Value := if b then [.varint 1] else []

def string (s : Bytes) : List Value := if s = [] then [] else [.len s]

/-- The values that carry the number `k`, in order. -/
def values (fs : List WireField) (k : ℕ) : List Value :=
  (fs.filter fun f ↦ f.num = k).map WireField.value

/-- The fields of a message in any order, among fields that are not in its
schema. `known` has the values of the fields 1, 2 and so on. -/
structure Serialises (known : List (List Value)) (fs : List WireField) : Prop where
  plain : ∀ f ∈ fs, Plain f
  known : ∀ k vs, known[k]? = some vs → values fs (k + 1) = vs

variable {known : List (List Value)} {fs : List WireField}

theorem Serialises.mem (h : Serialises known fs) {f : WireField} (hf : f ∈ fs)
    (hnum : f.num ≤ known.length) : ∃ vs, known[f.num - 1]? = some vs ∧ f.value ∈ vs := by
  have hpos := (h.plain f hf).num.1
  have hlt : f.num - 1 < known.length := by omega
  have hget := List.getElem?_eq_getElem hlt
  refine ⟨_, hget, ?_⟩
  rw [← h.known _ _ hget, Nat.sub_add_cancel hpos]
  exact List.mem_map_of_mem (List.mem_filter.mpr ⟨hf, by simp⟩)

end serialisation

section merging

def putInt : ℤ → Value → ℤ
  | _, .varint n => jsInt n
  | old, _ => old

def putBool : Bool → Value → Bool
  | _, .varint n => jsInt n ≠ 0
  | old, _ => old

def putBytes : Bytes → Value → Bytes
  | _, .len bs => bs
  | old, _ => old

def putSome : Option Bytes → Value → Option Bytes
  | _, .len bs => some bs
  | old, _ => old

variable {σ τ : Type}

theorem foldl_field (merge : σ → WireField → σ) (get : σ → τ) (put : τ → Value → τ) (k : ℕ)
    (hput : ∀ s f, get (merge s f) = if f.num = k then put (get s) f.value else get s)
    (fs : List WireField) (s : σ) :
    get (fs.foldl merge s) = (values fs k).foldl put (get s) := by
  induction fs generalizing s with
  | nil => rfl
  | cons f fs ih =>
    rw [List.foldl_cons, ih, hput, values, values, List.filter_cons]
    split_ifs <;> simp_all

/-- What the client makes of an integer. -/
def readInt (n : ℤ) : ℤ := jsInt (ofInt n)

theorem readInt_zero : readInt 0 = 0 := jsInt_natCast (n := 0) (by decide)

theorem readInt_eq {n : ℤ} (h : Int31 n) : readInt n = n := by
  obtain ⟨k, rfl⟩ := Int.eq_ofNat_of_zero_le h.1
  have hk : k < 2 ^ 31 := by
    have := h.2
    omega
  rw [readInt, ofInt_natCast (hk.trans (by decide)), jsInt_natCast hk]

theorem foldl_int (n : ℤ) : (int n).foldl putInt 0 = readInt n := by
  rw [int]
  split_ifs with hn
  · rw [hn, readInt_zero]
    rfl
  · rfl

theorem foldl_bool (b : Bool) : (bool b).foldl putBool false = b := by
  cases b with
  | false => rfl
  | true =>
    have hone : jsInt 1 ≠ 0 := by
      rw [jsInt_natCast (by decide)]
      decide
    exact decide_eq_true hone

theorem foldl_string (s : Bytes) : (string s).foldl putBytes [] = s := by
  rw [string]
  split_ifs with hs
  · exact hs.symm
  · rfl

theorem foldl_some (s : Bytes) :
    (string s).foldl putSome none = if s = [] then none else some s := by
  rw [string]
  split_ifs <;> rfl

theorem foldl_kept (merge : σ → WireField → σ) (get : σ → τ)
    (hkeep : ∀ s f, get (merge s f) = get s) (fs : List WireField) (s : σ) :
    get (fs.foldl merge s) = get s := by
  induction fs generalizing s with
  | nil => rfl
  | cons f fs ih => rw [List.foldl_cons, ih, hkeep]

theorem Serialises.get {known : List (List Value)} {fs : List WireField} (h : Serialises known fs)
    (merge : σ → WireField → σ) (get : σ → τ) (put : τ → Value → τ) (k : ℕ)
    (hput : ∀ s f, get (merge s f) = if f.num = k + 1 then put (get s) f.value else get s)
    {vs : List Value} (hk : known[k]? = some vs) (s : σ) :
    get (fs.foldl merge s) = vs.foldl put (get s) := by
  rw [foldl_field merge get put (k + 1) hput, h.known k vs hk]

end merging

section login

def LoginResult.merge (r : LoginResult) (f : WireField) : LoginResult where
  userId := if f.num = 1 then putInt r.userId f.value else r.userId
  token := if f.num = 2 then putBytes r.token f.value else r.token
  nickname := if f.num = 3 then putSome r.nickname f.value else r.nickname
  success := if f.num = 4 then putBool r.success f.value else r.success
  errMsg := if f.num = 5 then putBytes r.errMsg f.value else r.errMsg

def loginWire (resp : LoginResp) : List (List Value) :=
  [int resp.userId, string resp.token, string resp.nickname, bool resp.success,
    string resp.errorMessage]

theorem LoginResult.onVarint_eq (r : LoginResult) {num : ℕ} {fieldNum : ℤ} (n : ℕ)
    (h1 : fieldNum = 1 ↔ num = 1) (h4 : fieldNum = 4 ↔ num = 4) :
    r.onVarint fieldNum (jsInt n) = LoginResult.merge r ⟨num, .varint n⟩ := by
  simp only [LoginResult.onVarint, LoginResult.merge, h1, h4, putInt, putBool, putBytes, putSome, ite_self]
  by_cases hn1 : num = 1
  · simp [hn1]
  by_cases hn4 : num = 4
  · simp [hn4]
  simp [hn1, hn4]

theorem LoginResult.onLen_eq (r : LoginResult) {view : View} {num : ℕ} {fieldNum offset len : ℤ} {bs : Bytes}
    (h2 : fieldNum = 2 ↔ num = 2) (h3 : fieldNum = 3 ↔ num = 3) (h5 : fieldNum = 5 ↔ num = 5)
    (hstring : decodeString view offset len = some bs) :
    r.onLen view fieldNum offset len = some (LoginResult.merge r ⟨num, .len bs⟩) := by
  simp only [LoginResult.onLen, LoginResult.merge, h2, h3, h5, hstring, putInt, putBool, putBytes, putSome, ite_self,
    Option.map_some]
  by_cases hn2 : num = 2
  · simp [hn2]
  by_cases hn3 : num = 3
  · simp [hn3]
  by_cases hn5 : num = 5
  · simp [hn5]
  simp [hn2, hn3, hn5]

theorem login_pass {view : View} {pos : ℕ} {rest : Bytes} {f : WireField} (hf : Plain f)
    (h : view.bytes.drop pos = f.encode ++ rest)
    (s : LoginResult) :
    fieldPass view LoginResult.onVarint (LoginResult.onLen view) (fun s _ ↦ .exit s) s pos =
      some (.next (LoginResult.merge s f) ↑(pos + f.encode.length)) := by
  obtain ⟨num, value⟩ := f
  obtain ⟨n, -, rfl⟩ | ⟨bs, hbs, rfl⟩ := hf.value
  · obtain ⟨fieldNum, hpass, hnum⟩ := fieldPass_varint hf h s
    rw [hpass, LoginResult.onVarint_eq s n (hnum 1 (by decide)) (hnum 4 (by decide))]
  · obtain ⟨fieldNum, start, hpass, hnum, hstring⟩ := fieldPass_len hf hbs h s
    rw [hpass, LoginResult.onLen_eq s (hnum 2 (by decide)) (hnum 3 (by decide)) (hnum 5 (by decide)) hstring,
      Option.map_some]

/-- An empty nickname is not on the wire, and the record has none. -/
def loginOf (resp : LoginResp) : LoginResult where
  userId := readInt resp.userId
  token := resp.token
  nickname := if resp.nickname = [] then none else some resp.nickname
  success := resp.success
  errMsg := resp.errorMessage

theorem decodeLoginResp_eq {resp : LoginResp} {fs : List WireField}
    (h : Serialises (loginWire resp) fs) {view : View}
    (hbytes : view.bytes = fs.flatMap WireField.encode) {fuel : ℕ} (hfuel : view.byteLength ≤ fuel) :
    decodeLoginResp fuel view = .returns (loginOf resp) := by
  have hloop := decodeLoop_message hbytes (fun f hf s pos rest hdrop ↦
    login_pass (h.plain f hf) hdrop s) hfuel {}
  refine hloop.trans (congrArg Outcome.returns ?_)
  ext1
  · exact (h.get _ LoginResult.userId putInt 0 (fun _ _ ↦ rfl) rfl _).trans (foldl_int _)
  · exact (h.get _ LoginResult.token putBytes 1 (fun _ _ ↦ rfl) rfl _).trans (foldl_string _)
  · exact (h.get _ LoginResult.nickname putSome 2 (fun _ _ ↦ rfl) rfl _).trans (foldl_some _)
  · exact (h.get _ LoginResult.success putBool 3 (fun _ _ ↦ rfl) rfl _).trans (foldl_bool _)
  · exact (h.get _ LoginResult.errMsg putBytes 4 (fun _ _ ↦ rfl) rfl _).trans (foldl_string _)

end login

section send

def SendResult.merge (r : SendResult) (f : WireField) : SendResult where
  msgId := if f.num = 1 then putInt r.msgId f.value else r.msgId
  seqId := if f.num = 2 then putInt r.seqId f.value else r.seqId
  success := if f.num = 3 then putBool r.success f.value else r.success
  errMsg := if f.num = 4 then putBytes r.errMsg f.value else r.errMsg

def sendWire (resp : SendMessageResp) : List (List Value) :=
  [int resp.msgId, int resp.seqId, bool resp.success, string resp.errorMessage,
    int resp.timestamp]

theorem SendResult.onVarint_eq (r : SendResult) {num : ℕ} {fieldNum : ℤ} (n : ℕ)
    (h1 : fieldNum = 1 ↔ num = 1) (h2 : fieldNum = 2 ↔ num = 2) (h3 : fieldNum = 3 ↔ num = 3) :
    r.onVarint fieldNum (jsInt n) = SendResult.merge r ⟨num, .varint n⟩ := by
  simp only [SendResult.onVarint, SendResult.merge, h1, h2, h3, putInt, putBool, putBytes, ite_self]
  by_cases hn1 : num = 1
  · simp [hn1]
  by_cases hn2 : num = 2
  · simp [hn2]
  by_cases hn3 : num = 3
  · simp [hn3]
  simp [hn1, hn2, hn3]

theorem SendResult.onLen_eq (r : SendResult) {view : View} {num : ℕ} {fieldNum offset len : ℤ} {bs : Bytes}
    (h4 : fieldNum = 4 ↔ num = 4)
    (hstring : decodeString view offset len = some bs) :
    r.onLen view fieldNum offset len = some (SendResult.merge r ⟨num, .len bs⟩) := by
  simp only [SendResult.onLen, SendResult.merge, h4, hstring, putInt, putBool, putBytes, ite_self,
    Option.map_some]
  by_cases hn4 : num = 4
  · simp [hn4]
  simp [hn4]

theorem send_pass {view : View} {pos : ℕ} {rest : Bytes} {f : WireField} (hf : Plain f)
    (h : view.bytes.drop pos = f.encode ++ rest)
    (s : SendResult) :
    fieldPass view SendResult.onVarint (SendResult.onLen view) (fun s _ ↦ .exit s) s pos =
      some (.next (SendResult.merge s f) ↑(pos + f.encode.length)) := by
  obtain ⟨num, value⟩ := f
  obtain ⟨n, -, rfl⟩ | ⟨bs, hbs, rfl⟩ := hf.value
  · obtain ⟨fieldNum, hpass, hnum⟩ := fieldPass_varint hf h s
    rw [hpass, SendResult.onVarint_eq s n (hnum 1 (by decide)) (hnum 2 (by decide)) (hnum 3 (by decide))]
  · obtain ⟨fieldNum, start, hpass, hnum, hstring⟩ := fieldPass_len hf hbs h s
    rw [hpass, SendResult.onLen_eq s (hnum 4 (by decide)) hstring,
      Option.map_some]

def sendOf (resp : SendMessageResp) : SendResult where
  msgId := readInt resp.msgId
  seqId := readInt resp.seqId
  success := resp.success
  errMsg := resp.errorMessage

theorem decodeMsgSendResp_eq {resp : SendMessageResp} {fs : List WireField}
    (h : Serialises (sendWire resp) fs) {view : View}
    (hbytes : view.bytes = fs.flatMap WireField.encode) {fuel : ℕ} (hfuel : view.byteLength ≤ fuel) :
    decodeMsgSendResp fuel view = .returns (sendOf resp) := by
  have hloop := decodeLoop_message hbytes (fun f hf s pos rest hdrop ↦
    send_pass (h.plain f hf) hdrop s) hfuel {}
  refine hloop.trans (congrArg Outcome.returns ?_)
  ext1
  · exact (h.get _ SendResult.msgId putInt 0 (fun _ _ ↦ rfl) rfl _).trans (foldl_int _)
  · exact (h.get _ SendResult.seqId putInt 1 (fun _ _ ↦ rfl) rfl _).trans (foldl_int _)
  · exact (h.get _ SendResult.success putBool 2 (fun _ _ ↦ rfl) rfl _).trans (foldl_bool _)
  · exact (h.get _ SendResult.errMsg putBytes 3 (fun _ _ ↦ rfl) rfl _).trans (foldl_string _)

end send

section item

def MessageData.merge (m : MessageData) (f : WireField) : MessageData where
  msgId := if f.num = 1 then putInt m.msgId f.value else m.msgId
  seqId := if f.num = 2 then putInt m.seqId f.value else m.seqId
  senderId := if f.num = 3 then putInt m.senderId f.value else m.senderId
  groupId := if f.num = 4 then putInt m.groupId f.value else m.groupId
  type := if f.num = 5 then putInt m.type f.value else m.type
  content := if f.num = 6 then putBytes m.content f.value else m.content
  createdAt := if f.num = 7 then putSome m.createdAt f.value else m.createdAt
  receiverId := m.receiverId
  createTime := m.createTime

def itemWire (item : MessageItem) : List (List Value) :=
  [int item.msgId, int item.seqId, int item.senderId, int item.groupId, int item.type,
    string item.content, string item.createdAt]

theorem MessageData.onVarint_eq (r : MessageData) {num : ℕ} {fieldNum : ℤ} (n : ℕ)
    (h1 : fieldNum = 1 ↔ num = 1) (h2 : fieldNum = 2 ↔ num = 2) (h3 : fieldNum = 3 ↔ num = 3)
    (h4 : fieldNum = 4 ↔ num = 4) (h5 : fieldNum = 5 ↔ num = 5) :
    r.onVarint fieldNum (jsInt n) = MessageData.merge r ⟨num, .varint n⟩ := by
  simp only [MessageData.onVarint, MessageData.merge, h1, h2, h3, h4, h5, putInt, putBytes, putSome, ite_self]
  by_cases hn1 : num = 1
  · simp [hn1]
  by_cases hn2 : num = 2
  · simp [hn2]
  by_cases hn3 : num = 3
  · simp [hn3]
  by_cases hn4 : num = 4
  · simp [hn4]
  by_cases hn5 : num = 5
  · simp [hn5]
  simp [hn1, hn2, hn3, hn4, hn5]

theorem MessageData.onLen_eq (r : MessageData) {view : View} {num : ℕ} {fieldNum offset len : ℤ} {bs : Bytes}
    (h6 : fieldNum = 6 ↔ num = 6) (h7 : fieldNum = 7 ↔ num = 7)
    (hstring : decodeString view offset len = some bs) :
    r.onLen view fieldNum offset len = some (MessageData.merge r ⟨num, .len bs⟩) := by
  simp only [MessageData.onLen, MessageData.merge, h6, h7, hstring, putInt, putBytes, putSome, ite_self,
    Option.map_some]
  by_cases hn6 : num = 6
  · simp [hn6]
  by_cases hn7 : num = 7
  · simp [hn7]
  simp [hn6, hn7]

theorem item_pass {view : View} {pos : ℕ} {rest : Bytes} {f : WireField} (hf : Plain f)
    (h : view.bytes.drop pos = f.encode ++ rest)
    (s : MessageData) :
    fieldPass view MessageData.onVarint (MessageData.onLen view) .next s pos =
      some (.next (MessageData.merge s f) ↑(pos + f.encode.length)) := by
  obtain ⟨num, value⟩ := f
  obtain ⟨n, -, rfl⟩ | ⟨bs, hbs, rfl⟩ := hf.value
  · obtain ⟨fieldNum, hpass, hnum⟩ := fieldPass_varint hf h s
    rw [hpass, MessageData.onVarint_eq s n (hnum 1 (by decide)) (hnum 2 (by decide)) (hnum 3 (by decide))
      (hnum 4 (by decide)) (hnum 5 (by decide))]
  · obtain ⟨fieldNum, start, hpass, hnum, hstring⟩ := fieldPass_len hf hbs h s
    rw [hpass, MessageData.onLen_eq s (hnum 6 (by decide)) (hnum 7 (by decide)) hstring,
      Option.map_some]

def dataOf (item : MessageItem) : MessageData where
  msgId := readInt item.msgId
  seqId := readInt item.seqId
  senderId := readInt item.senderId
  groupId := readInt item.groupId
  type := readInt item.type
  content := item.content
  createdAt := if item.createdAt = [] then none else some item.createdAt

theorem foldl_item {item : MessageItem} {fs : List WireField}
    (h : Serialises (itemWire item) fs) : fs.foldl MessageData.merge {} = dataOf item := by
  ext1
  · exact (h.get _ MessageData.msgId putInt 0 (fun _ _ ↦ rfl) rfl _).trans (foldl_int _)
  · exact (h.get _ MessageData.seqId putInt 1 (fun _ _ ↦ rfl) rfl _).trans (foldl_int _)
  · exact (h.get _ MessageData.senderId putInt 2 (fun _ _ ↦ rfl) rfl _).trans (foldl_int _)
  · exact foldl_kept MessageData.merge MessageData.receiverId (fun _ _ ↦ rfl) fs {}
  · exact (h.get _ MessageData.groupId putInt 3 (fun _ _ ↦ rfl) rfl _).trans (foldl_int _)
  · exact (h.get _ MessageData.type putInt 4 (fun _ _ ↦ rfl) rfl _).trans (foldl_int _)
  · exact foldl_kept MessageData.merge MessageData.createTime (fun _ _ ↦ rfl) fs {}
  · exact (h.get _ MessageData.content putBytes 5 (fun _ _ ↦ rfl) rfl _).trans (foldl_string _)
  · exact (h.get _ MessageData.createdAt putSome 6 (fun _ _ ↦ rfl) rfl _).trans (foldl_some _)

theorem decodeMessageData_eq {item : MessageItem} {fs : List WireField}
    (h : Serialises (itemWire item) fs) {view : View}
    (hbytes : view.bytes = fs.flatMap WireField.encode) {fuel : ℕ} (hfuel : view.byteLength ≤ fuel) :
    decodeMessageData fuel view = .returns (dataOf item) := by
  have hloop := decodeLoop_message hbytes (fun f hf s pos rest hdrop ↦
    item_pass (h.plain f hf) hdrop s) hfuel {}
  exact hloop.trans (congrArg Outcome.returns (foldl_item h))

end item

section sync

def ItemBytes (item : MessageItem) (part : Bytes) : Prop :=
  ∃ gs, part = gs.flatMap WireField.encode ∧ Serialises (itemWire item) gs

def syncWire (resp : SyncMessagesResp) (parts : List Bytes) : List (List Value) :=
  [int resp.maxSeq, parts.map .len, bool resp.success]

def putItem : List MessageData → Value → List MessageData
  | ms, .len part => ms ++ [((readFields part).getD []).foldl MessageData.merge {}]
  | ms, _ => ms

/-- Field 3 is `success` in the schema. -/
def SyncResult.merge (r : SyncResult) (f : WireField) : SyncResult where
  maxSeq := if f.num = 1 then putInt r.maxSeq f.value else r.maxSeq
  msgs := if f.num = 2 then putItem r.msgs f.value else r.msgs
  hasMore := if f.num = 3 then putBool r.hasMore f.value else r.hasMore

theorem putItem_eq {item : MessageItem} {part : Bytes} (h : ItemBytes item part)
    (ms : List MessageData) : putItem ms (.len part) = ms ++ [dataOf item] := by
  obtain ⟨gs, rfl, hgs⟩ := h
  have hread := readFields_encode fun g hg ↦ (hgs.plain g hg).wellFormed
  rw [putItem, hread, Option.getD_some, foldl_item hgs]

theorem foldl_items {items : List MessageItem} {parts : List Bytes}
    (h : List.Forall₂ ItemBytes items parts) (ms : List MessageData) :
    (parts.map Value.len).foldl putItem ms = ms ++ items.map dataOf := by
  induction h generalizing ms with
  | nil => exact (List.append_nil ms).symm
  | @cons item part items parts hpart _ ih =>
    rw [List.map_cons, List.foldl_cons, putItem_eq hpart, ih, List.map_cons, List.append_assoc]
    rfl

structure SyncField (f : WireField) : Prop where
  plain : Plain f
  number : f.num = 1 ∨ f.num = 3 → ∃ n, f.value = .varint n
  item : f.num = 2 → ∃ item part, f.value = .len part ∧ ItemBytes item part

theorem sync_pass {view : View} {pos : ℕ} {rest : Bytes} {f : WireField} (hf : SyncField f)
    (h : view.bytes.drop pos = f.encode ++ rest) {fuel : ℕ} (hfuel : view.byteLength ≤ fuel)
    (r : SyncResult) :
    syncPass fuel view r pos = some (.next (SyncResult.merge r f) ↑(pos + f.encode.length)) := by
  obtain ⟨tagLen, htag, hpayload, hlength⟩ := decodeVarint_tag hf.plain h
  obtain ⟨hwire, hnum⟩ := toInt32_tag hf.plain.num.2 (wireType_lt f.value)
  have h1 := hnum 1 (by decide)
  have h2 := hnum 2 (by decide)
  have h3 := hnum 3 (by decide)
  rw [Nat.cast_one] at h1
  rw [Nat.cast_ofNat] at h2 h3
  simp only [syncPass, htag, Option.bind_eq_bind, Option.bind_some, ← Nat.cast_add, hwire]
  by_cases hn1 : f.num = 1
  · obtain ⟨n, hvalue⟩ := hf.number (.inl hn1)
    rw [hvalue] at hpayload hlength
    rw [if_pos (h1.mpr hn1), decodeVarint_eq hpayload, hlength]
    simp [SyncResult.merge, putInt, hn1, hvalue, Value.payload, add_assoc]
  by_cases hn2 : f.num = 2
  · obtain ⟨item, part, hvalue, hpart⟩ := hf.item hn2
    have hlen := hf.plain.length_lt hvalue
    rw [hvalue, Value.payload] at hpayload hlength
    rw [List.append_assoc] at hpayload
    obtain ⟨sub, hsub, hbytes⟩ := View.subarray_eq (View.drop_append hpayload)
      (View.le_byteLength hpayload (varint_ne_nil _))
    have hsubFuel : sub.byteLength ≤ fuel := by
      have hle := View.le_byteLength h (encode_ne_nil f)
      rw [← View.bytes_length, hbytes]
      rw [hlength, List.length_append] at hle
      omega
    obtain ⟨gs, hgs, hitem⟩ := hpart
    have hdata := decodeMessageData_eq hitem (hbytes.trans hgs) hsubFuel
    rw [if_neg (by omega), if_pos (h2.mpr hn2), decodeVarint_eq hpayload, jsInt_natCast hlen, hlength]
    simp only [Option.bind_some, ← Nat.cast_add, hsub, hdata, List.length_append]
    simp [SyncResult.merge, hn2, hvalue, putItem_eq ⟨gs, hgs, hitem⟩, add_assoc]
  by_cases hn3 : f.num = 3
  · obtain ⟨n, hvalue⟩ := hf.number (.inr hn3)
    rw [hvalue] at hpayload hlength
    rw [if_neg (by omega), if_neg (by omega), if_pos (h3.mpr hn3), decodeVarint_eq hpayload, hlength]
    simp [SyncResult.merge, putBool, hn3, hvalue, Value.payload, add_assoc]
  · have hskip := skipUnknown_eq hf.plain hpayload r
    rw [if_neg (by omega), if_neg (by omega), if_neg (by omega), hskip, hlength]
    simp [SyncResult.merge, hn1, hn2, hn3, add_assoc]

theorem mem_int {n : ℤ} {v : Value} (hv : v ∈ int n) : ∃ m, v = .varint m := by
  rw [int] at hv
  split_ifs at hv
  · cases hv
  · exact ⟨_, List.mem_singleton.mp hv⟩

theorem mem_bool {b : Bool} {v : Value} (hv : v ∈ bool b) : ∃ m, v = .varint m := by
  cases b with
  | false => cases hv
  | true => exact ⟨1, List.mem_singleton.mp hv⟩

theorem exists_item {items : List MessageItem} {parts : List Bytes}
    (h : List.Forall₂ ItemBytes items parts) {part : Bytes} (hpart : part ∈ parts) :
    ∃ item, ItemBytes item part := by
  induction h with
  | nil => cases hpart
  | @cons item part' items parts hitem _ ih =>
    rcases List.mem_cons.mp hpart with rfl | hpart
    · exact ⟨item, hitem⟩
    · exact ih hpart

theorem syncField {resp : SyncMessagesResp} {parts : List Bytes}
    (hparts : List.Forall₂ ItemBytes resp.msgs parts) {fs : List WireField}
    (h : Serialises (syncWire resp parts) fs) {f : WireField} (hf : f ∈ fs) : SyncField f := by
  have hlength : (syncWire resp parts).length = 3 := rfl
  refine ⟨h.plain f hf, ?_, ?_⟩
  · rintro (hnum | hnum)
    · obtain ⟨vs, hvs, hv⟩ := h.mem hf (by omega)
      rw [hnum] at hvs
      obtain rfl := Option.some.inj hvs
      exact mem_int hv
    · obtain ⟨vs, hvs, hv⟩ := h.mem hf (by omega)
      rw [hnum] at hvs
      obtain rfl := Option.some.inj hvs
      exact mem_bool hv
  · intro hnum
    obtain ⟨vs, hvs, hv⟩ := h.mem hf (by omega)
    rw [hnum] at hvs
    obtain rfl := Option.some.inj hvs
    obtain ⟨part, hpart, hvalue⟩ := List.mem_map.mp hv
    obtain ⟨item, hbytes⟩ := exists_item hparts hpart
    exact ⟨item, part, hvalue.symm, hbytes⟩

def syncOf (resp : SyncMessagesResp) : SyncResult where
  maxSeq := readInt resp.maxSeq
  msgs := resp.msgs.map dataOf
  hasMore := resp.success

theorem decodeMsgSyncResp_eq {resp : SyncMessagesResp} {parts : List Bytes}
    (hparts : List.Forall₂ ItemBytes resp.msgs parts) {fs : List WireField}
    (h : Serialises (syncWire resp parts) fs) {view : View}
    (hbytes : view.bytes = fs.flatMap WireField.encode) {fuel : ℕ} (hfuel : view.byteLength ≤ fuel) :
    decodeMsgSyncResp fuel view = .returns (syncOf resp) := by
  have hloop := decodeLoop_message hbytes (fun f hf s pos rest hdrop ↦
    sync_pass (syncField hparts h hf) hdrop hfuel s) hfuel {}
  refine hloop.trans (congrArg Outcome.returns ?_)
  ext1
  · exact (h.get _ SyncResult.maxSeq putInt 0 (fun _ _ ↦ rfl) rfl _).trans (foldl_int _)
  · exact (h.get _ SyncResult.msgs putItem 1 (fun _ _ ↦ rfl) rfl _).trans (foldl_items hparts [])
  · exact (h.get _ SyncResult.hasMore putBool 2 (fun _ _ ↦ rfl) rfl _).trans (foldl_bool _)

end sync

section kept

/-- `view` shows a serialisation of a message. -/
def OnWire (known : List (List Value)) (view : View) : Prop :=
  ∃ fs, view.bytes = fs.flatMap WireField.encode ∧ Serialises known fs

def SyncOnWire (resp : SyncMessagesResp) (view : View) : Prop :=
  ∃ parts, List.Forall₂ ItemBytes resp.msgs parts ∧ OnWire (syncWire resp parts) view

def Decodes {α : Type} (decode : ℕ → View → Outcome α) (view : View) (P : α → Prop) : Prop :=
  ∃ r, (∀ fuel, view.byteLength ≤ fuel → decode fuel view = .returns r) ∧ P r

structure SendInRange (resp : SendMessageResp) : Prop where
  msgId : Int31 resp.msgId
  seqId : Int31 resp.seqId
  timestamp : Int31 resp.timestamp

structure ItemInRange (item : MessageItem) : Prop where
  msgId : Int31 item.msgId
  seqId : Int31 item.seqId
  senderId : Int31 item.senderId
  groupId : Int31 item.groupId
  type : Int31 item.type

structure SyncInRange (resp : SyncMessagesResp) : Prop where
  maxSeq : Int31 resp.maxSeq
  msgs : ∀ item ∈ resp.msgs, ItemInRange item

structure LoginKept (resp : LoginResp) (r : LoginResult) : Prop where
  userId : r.userId = resp.userId
  token : r.token = resp.token
  nickname : r.nickname = some resp.nickname
  success : r.success = resp.success
  errMsg : r.errMsg = resp.errorMessage

structure SendKept (resp : SendMessageResp) (r : SendResult) : Prop where
  msgId : r.msgId = resp.msgId
  seqId : r.seqId = resp.seqId
  success : r.success = resp.success
  errMsg : r.errMsg = resp.errorMessage

structure ItemKept (item : MessageItem) (m : MessageData) : Prop where
  msgId : m.msgId = item.msgId
  seqId : m.seqId = item.seqId
  senderId : m.senderId = item.senderId
  groupId : m.groupId = item.groupId
  type : m.type = item.type
  content : m.content = item.content
  createdAt : m.createdAt = some item.createdAt

structure SyncKept (resp : SyncMessagesResp) (r : SyncResult) : Prop where
  maxSeq : r.maxSeq = resp.maxSeq
  msgs : List.Forall₂ ItemKept resp.msgs r.msgs

theorem decodes_iff {α : Type} {decode : ℕ → View → Outcome α} {view : View} {r : α}
    (h : ∀ fuel, view.byteLength ≤ fuel → decode fuel view = .returns r) (P : α → Prop) :
    Decodes decode view P ↔ P r := by
  constructor
  · rintro ⟨r', hr', hP⟩
    have heq := (h view.byteLength le_rfl).symm.trans (hr' view.byteLength le_rfl)
    exact Outcome.returns.inj heq ▸ hP
  · exact fun hP ↦ ⟨r, h, hP⟩

theorem login_kept_iff {resp : LoginResp} (huser : Int31 resp.userId) {view : View}
    (h : OnWire (loginWire resp) view) :
    Decodes decodeLoginResp view (LoginKept resp) ↔ resp.nickname ≠ [] := by
  obtain ⟨fs, hbytes, hfs⟩ := h
  rw [decodes_iff fun fuel hfuel ↦ decodeLoginResp_eq hfs hbytes hfuel]
  constructor
  · rintro ⟨-, -, hnickname, -, -⟩ hempty
    rw [loginOf, hempty] at hnickname
    cases hnickname
  · exact fun hne ↦ ⟨readInt_eq huser, rfl, if_neg hne, rfl, rfl⟩

theorem send_kept {resp : SendMessageResp} (hrange : SendInRange resp) {view : View}
    (h : OnWire (sendWire resp) view) : Decodes decodeMsgSendResp view (SendKept resp) := by
  obtain ⟨fs, hbytes, hfs⟩ := h
  exact ⟨_, fun fuel hfuel ↦ decodeMsgSendResp_eq hfs hbytes hfuel, readInt_eq hrange.msgId,
    readInt_eq hrange.seqId, rfl, rfl⟩

theorem itemKept_iff {item : MessageItem} (hrange : ItemInRange item) :
    ItemKept item (dataOf item) ↔ item.createdAt ≠ [] := by
  constructor
  · rintro ⟨-, -, -, -, -, -, hcreated⟩ hempty
    rw [dataOf, hempty] at hcreated
    cases hcreated
  · exact fun hne ↦ ⟨readInt_eq hrange.msgId, readInt_eq hrange.seqId, readInt_eq hrange.senderId,
      readInt_eq hrange.groupId, readInt_eq hrange.type, rfl, if_neg hne⟩

theorem sync_kept_iff {resp : SyncMessagesResp} (hrange : SyncInRange resp) {view : View}
    (h : SyncOnWire resp view) :
    Decodes decodeMsgSyncResp view (SyncKept resp) ↔ ∀ item ∈ resp.msgs, item.createdAt ≠ [] := by
  obtain ⟨parts, hparts, fs, hbytes, hfs⟩ := h
  rw [decodes_iff fun fuel hfuel ↦ decodeMsgSyncResp_eq hparts hfs hbytes hfuel]
  have hmsgs : List.Forall₂ ItemKept resp.msgs (resp.msgs.map dataOf) ↔
      ∀ item ∈ resp.msgs, item.createdAt ≠ [] := by
    rw [List.forall₂_map_right_iff, List.forall₂_same]
    exact forall₂_congr fun item hitem ↦ itemKept_iff (hrange.msgs item hitem)
  exact ⟨fun hkept ↦ hmsgs.mp hkept.msgs, fun hne ↦ ⟨readInt_eq hrange.maxSeq, hmsgs.mpr hne⟩⟩

/-- All that is lost is an empty nickname or time. -/
theorem responses_kept_iff {login : LoginResp} {send : SendMessageResp} {sync : SyncMessagesResp}
    (huser : Int31 login.userId) (hsend : SendInRange send) (hsync : SyncInRange sync)
    {loginView sendView syncView : View} (hlogin : OnWire (loginWire login) loginView)
    (hsendWire : OnWire (sendWire send) sendView) (hsyncWire : SyncOnWire sync syncView) :
    (Decodes decodeLoginResp loginView (LoginKept login) ∧
      Decodes decodeMsgSendResp sendView (SendKept send) ∧
      Decodes decodeMsgSyncResp syncView (SyncKept sync)) ↔
      login.nickname ≠ [] ∧ ∀ item ∈ sync.msgs, item.createdAt ≠ [] := by
  rw [login_kept_iff huser hlogin, sync_kept_iff hsync hsyncWire]
  exact and_congr_right fun _ ↦ and_iff_right (send_kept hsend hsendWire)

theorem serialises_of_values {known : List (List Value)} {fs : List WireField} (hplain : ∀ f ∈ fs, Plain f)
    (hknown : ∀ k < known.length, values fs (k + 1) = known.getD k []) : Serialises known fs := by
  refine ⟨hplain, ?_⟩
  intro k vs hk
  obtain ⟨hlt, rfl⟩ := List.getElem?_eq_some_iff.mp hk
  rw [hknown k hlt, List.getD_eq_getElem?_getD, hk, Option.getD_some]

theorem onWire_ofBytes {known : List (List Value)} {fs : List WireField} (h : Serialises known fs) :
    OnWire known (.ofBytes (fs.flatMap WireField.encode)) :=
  ⟨fs, View.bytes_ofBytes _, h⟩

/-- The reply of a login of user 7, without a nickname. -/
def plainLogin : LoginResp := { userId := 7, success := true }

def plainLoginFields : List WireField := [⟨1, .varint 7⟩, ⟨4, .varint 1⟩]

theorem onWire_plainLogin :
    OnWire (loginWire plainLogin) (.ofBytes (plainLoginFields.flatMap WireField.encode)) := by
  refine onWire_ofBytes (serialises_of_values ?_ (by decide))
  simp only [plainLoginFields, List.forall_mem_cons]
  exact ⟨⟨by decide, .inl ⟨7, by decide, rfl⟩⟩, ⟨by decide, .inl ⟨1, by decide, rfl⟩⟩, nofun⟩

theorem not_responses_kept :
    OnWire (loginWire plainLogin) (.ofBytes (plainLoginFields.flatMap WireField.encode)) ∧
      ¬ Decodes decodeLoginResp (.ofBytes (plainLoginFields.flatMap WireField.encode))
        (LoginKept plainLogin) :=
  ⟨onWire_plainLogin, fun h ↦ (login_kept_iff (by decide) onWire_plainLogin).mp h rfl⟩

/-- A named login, a message that is sent, and a page with two messages. -/
def namedLogin : LoginResp := { plainLogin with token := ascii "t", nickname := ascii "Ann" }

def namedLoginFields : List WireField :=
  [⟨4, .varint 1⟩, ⟨3, .len (ascii "Ann")⟩, ⟨9, .varint 300⟩, ⟨1, .varint 7⟩, ⟨2, .len (ascii "t")⟩]

def stored : SendMessageResp := { msgId := 5, seqId := 2, success := true }

def storedFields : List WireField := [⟨1, .varint 5⟩, ⟨2, .varint 2⟩, ⟨3, .varint 1⟩]

def greeted : MessageItem := { msgId := 4, seqId := 1, senderId := 8, content := ascii "hi", createdAt := ascii "noon" }

def greetedFields : List WireField :=
  [⟨7, .len (ascii "noon")⟩, ⟨6, .len (ascii "hi")⟩, ⟨3, .varint 8⟩, ⟨2, .varint 1⟩, ⟨1, .varint 4⟩]

def answered : MessageItem := { greeted with msgId := 5, seqId := 2, senderId := 7 }

def answeredFields : List WireField :=
  [⟨1, .varint 5⟩, ⟨2, .varint 2⟩, ⟨3, .varint 7⟩, ⟨6, .len (ascii "hi")⟩, ⟨7, .len (ascii "noon")⟩]

def page : SyncMessagesResp := { maxSeq := 2, msgs := [greeted, answered], success := true }

def pageFields : List WireField :=
  [⟨2, .len (greetedFields.flatMap WireField.encode)⟩, ⟨3, .varint 1⟩,
    ⟨2, .len (answeredFields.flatMap WireField.encode)⟩, ⟨8, .len []⟩, ⟨1, .varint 2⟩]

theorem plain_varint {num n : ℕ} (hnum : 1 ≤ num ∧ num < 2 ^ 29) (hn : n < 2 ^ 64) : Plain ⟨num, .varint n⟩ :=
  ⟨hnum, .inl ⟨n, hn, rfl⟩⟩

theorem plain_len {num : ℕ} {bs : Bytes} (hnum : 1 ≤ num ∧ num < 2 ^ 29) (hbs : bs.length < 2 ^ 31) :
    Plain ⟨num, .len bs⟩ :=
  ⟨hnum, .inr ⟨bs, hbs, rfl⟩⟩

theorem syncOnWire_page : SyncOnWire page (.ofBytes (pageFields.flatMap WireField.encode)) := by
  refine ⟨[greetedFields.flatMap WireField.encode, answeredFields.flatMap WireField.encode],
    .cons ⟨_, rfl, serialises_of_values ?greeted (by decide)⟩
      (.cons ⟨_, rfl, serialises_of_values ?answered (by decide)⟩ .nil),
    onWire_ofBytes (serialises_of_values ?page (by decide +kernel))⟩
  case greeted =>
    simp only [greetedFields, List.forall_mem_cons]
    exact ⟨plain_len (by decide) (by decide), plain_len (by decide) (by decide), plain_varint (by decide) (by decide),
      plain_varint (by decide) (by decide), plain_varint (by decide) (by decide), nofun⟩
  case answered =>
    simp only [answeredFields, List.forall_mem_cons]
    exact ⟨plain_varint (by decide) (by decide), plain_varint (by decide) (by decide),
      plain_varint (by decide) (by decide), plain_len (by decide) (by decide), plain_len (by decide) (by decide), nofun⟩
  case page =>
    simp only [pageFields, List.forall_mem_cons]
    exact ⟨plain_len (by decide) (by decide +kernel), plain_varint (by decide) (by decide),
      plain_len (by decide) (by decide +kernel), plain_len (by decide) (by decide),
      plain_varint (by decide) (by decide), nofun⟩

theorem responses_kept_iff_page :
    Decodes decodeLoginResp (.ofBytes (namedLoginFields.flatMap WireField.encode)) (LoginKept namedLogin) ∧
      Decodes decodeMsgSendResp (.ofBytes (storedFields.flatMap WireField.encode)) (SendKept stored) ∧
      Decodes decodeMsgSyncResp (.ofBytes (pageFields.flatMap WireField.encode)) (SyncKept page) := by
  have hlogin : OnWire (loginWire namedLogin) (.ofBytes (namedLoginFields.flatMap WireField.encode)) := by
    refine onWire_ofBytes (serialises_of_values ?_ (by decide))
    simp only [namedLoginFields, List.forall_mem_cons]
    exact ⟨plain_varint (by decide) (by decide), plain_len (by decide) (by decide),
      plain_varint (by decide) (by decide), plain_varint (by decide) (by decide), plain_len (by decide) (by decide), nofun⟩
  have hsend : OnWire (sendWire stored) (.ofBytes (storedFields.flatMap WireField.encode)) := by
    refine onWire_ofBytes (serialises_of_values ?_ (by decide))
    simp only [storedFields, List.forall_mem_cons]
    exact ⟨plain_varint (by decide) (by decide), plain_varint (by decide) (by decide),
      plain_varint (by decide) (by decide), nofun⟩
  have hrange : SyncInRange page := by
    refine ⟨by decide, ?_⟩
    simp only [page, List.forall_mem_cons]
    exact ⟨⟨by decide, by decide, by decide, by decide, by decide⟩,
      ⟨by decide, by decide, by decide, by decide, by decide⟩, nofun⟩
  exact (responses_kept_iff (by decide) ⟨by decide, by decide, by decide⟩ hrange hlogin hsend syncOnWire_page).mpr
    ⟨by decide, by decide⟩

end kept

end TinyIM.Web.ResponseSchema
