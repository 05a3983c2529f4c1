import TinyIM.Gateway.Dispatch
import TinyIM.Web.SyncLoop

namespace TinyIM.Web.LoginReplies

open Library.ByteOrder Library.ProtoWire Protocol Protocol.WireFormat Gateway Gateway.Dispatch
  ResponseSchema SyncLoop

/-- What protobuf writes for the reply of a login. -/
def WritesLogin (pb : Codec) : Prop :=
  ∀ id : ℤ, 0 < id → id < 2 ^ 31 →
    OnWire (loginWire { success := true, userId := id })
      (.ofBytes (pb.serializeLogin { success := true, userId := id }))

/-- With this body every page goes online that has an open socket. -/
def GoesOnline (body : Bytes) : Prop :=
  ∀ {m : Web.ConnectionManager} {u : ℤ} {n : ℕ} {c : Client} {sent : List Bytes}, Shows m u n c sent →
    ∃ m', m.handleMessage u body.length CMD.loginResp body = some m' ∧ (m'.states n).status = .online

/-- One reply is posted, which says who the user is. -/
def Truthful (e : Endian) (o : Gateway.Outcome) : Prop :=
  ∃ body, posted o.effects = [sendPacket e CommandID.loginResp.value body] ∧
    Decodes decodeLoginResp (.ofBytes body) (fun r ↦ r.success = true ∧ r.userId = o.session.userId) ∧
      GoesOnline body

variable {e : Endian} {pb : Codec} {s : Session} {p : Packet} {out : Surroundings} {id : ℤ}

theorem goesOnline {body : Bytes} {resp : LoginResp} (hsuccess : resp.success = true)
    (h : OnWire (loginWire resp) (.ofBytes body)) : GoesOnline body := by
  intro m u n c sent hshows
  have hcarries : Carries CMD.loginResp body (.loginResp true) := ⟨rfl, resp, hsuccess, h⟩
  obtain ⟨m', new, hm', hshown, -⟩ := handleMessage_refines hshows hcarries le_rfl
  exact ⟨m', hm', congrArg Handlers.Face.status hshown.face⟩

theorem truthful_of_written (hpb : WritesLogin pb) (hpos : 0 < id) (hrange : id < 2 ^ 31)
    {o : Gateway.Outcome} (hid : o.session.userId = id)
    (hposted : posted o.effects = [sendPacket e CommandID.loginResp.value
      (pb.serializeLogin { success := true, userId := id })]) : Truthful e o := by
  have hwire := hpb id hpos hrange
  refine ⟨_, hposted, ?_, goesOnline rfl hwire⟩
  obtain ⟨fs, hbytes, hfs⟩ := hwire
  exact ⟨_, fun fuel hfuel ↦ decodeLoginResp_eq hfs hbytes hfuel, rfl,
    (readInt_eq ⟨hpos.le, hrange⟩).trans hid.symm⟩

/-- The reply for a session that was authenticated before has an empty body. -/
theorem not_truthful_of_empty {o : Gateway.Outcome}
    (hposted : posted o.effects = [sendPacket e CommandID.loginResp.value []]) : ¬ Truthful e o := by
  rintro ⟨body, hbody, hdecodes, -⟩
  obtain rfl := eq_nil_of_sendPacket e (List.singleton_inj.mp (hbody.symm.trans hposted))
  obtain ⟨r, hr, hsuccess, -⟩ := hdecodes
  obtain rfl := Web.Outcome.returns.inj ((hr 0 le_rfl).symm.trans rfl)
  exact Bool.false_ne_true hsuccess

theorem truthful_iff (hpb : WritesLogin pb) (hlogin : p.cmdId = CommandID.loginReq.value)
    (hpos : 0 < (handlePacket e pb out s p).session.userId)
    (hrange : (handlePacket e pb out s p).session.userId < 2 ^ 31) :
    Truthful e (handlePacket e pb out s p) ↔ ¬ 0 < s.userId ∧ out.localEndpoint.isSome := by
  rw [handlePacket_login e pb out s hlogin.symm] at hpos hrange ⊢
  by_cases hauth : 0 < s.userId
  · rw [onLogin_authenticated e pb out hauth]
    exact iff_of_false (not_truthful_of_empty rfl) fun h ↦ h.1 hauth
  · rw [onLogin_anonymous e pb out hauth] at hpos hrange ⊢
    cases hid : loginId pb p.body with
    | none =>
      rw [hid] at hpos
      exact absurd hpos hauth
    | some id =>
      rw [hid] at hpos hrange
      cases hport : out.localEndpoint with
      | none =>
        refine iff_of_false ?_ fun h ↦ Bool.false_ne_true h.2
        rintro ⟨body, hposted, -⟩
        cases hposted
      | some port => exact iff_of_true (truthful_of_written hpb hpos hrange rfl rfl) ⟨hauth, rfl⟩

/-- For every session and all packets that came before the login. -/
theorem login_truthful_iff (hpb : WritesLogin pb) (s : Session) (ps : List (Packet × Surroundings))
    (hlogin : p.cmdId = CommandID.loginReq.value)
    (hpos : 0 < (handlePacket e pb out (after e pb s ps) p).session.userId)
    (hrange : (handlePacket e pb out (after e pb s ps) p).session.userId < 2 ^ 31) :
    Truthful e (handlePacket e pb out (after e pb s ps) p) ↔
      ¬ 0 < (after e pb s ps).userId ∧ out.localEndpoint.isSome :=
  truthful_iff hpb hlogin hpos hrange

section Codec

/-- The fields of the reply for user `id`. -/
def loginFields (id : ℤ) : List WireField := [⟨1, .varint (ofInt id)⟩, ⟨4, .varint 1⟩]

/-- protobuf on the login of user 7 and on the replies for a login. -/
def wireCodec : Codec where
  parse _ _ := none
  serialize _ _ := []
  parseLogin body := if body = [10, 1, 55] then some { username := [55] } else none
  serializeLogin resp := (loginFields resp.userId).flatMap WireField.encode

theorem writesLogin_wireCodec : WritesLogin wireCodec := by
  intro id hpos hrange
  refine ⟨loginFields id, View.bytes_ofBytes _, serialises_of_values ?_ ?_⟩
  · simp only [loginFields, List.forall_mem_cons]
    exact ⟨plain_varint (by decide) (BitVec.isLt _), plain_varint (by decide) (by decide), nofun⟩
  · have hint : int id = [.varint (ofInt id)] := if_neg hpos.ne'
    intro k hk
    rw [loginWire, hint]
    change k < 5 at hk
    interval_cases k <;> rfl

def firstLogin : Packet := ⟨CommandID.loginReq.value, [10, 1, 55]⟩

theorem login_truthful_iff_first :
    Truthful .little (handlePacket .little wireCodec backendsDown (after .little wireCodec ⟨0, ascii "PC"⟩ [])
      firstLogin) :=
  (login_truthful_iff writesLogin_wireCodec ⟨0, ascii "PC"⟩ [] rfl (by decide) (by decide)).mpr (by decide)

/-- The session was authenticated at the handshake. -/
theorem not_login_truthful : ¬ ∀ (e : Endian) (pb : Codec) (s : Session) (ps : List (Packet × Surroundings))
    (p : Packet) (out : Surroundings), WritesLogin pb → p.cmdId = CommandID.loginReq.value →
    0 < (handlePacket e pb out (after e pb s ps) p).session.userId →
    (handlePacket e pb out (after e pb s ps) p).session.userId < 2 ^ 31 →
    Truthful e (handlePacket e pb out (after e pb s ps) p) := by
  intro h
  have htruthful := h .little wireCodec ⟨7, ascii "PC"⟩ [] firstLogin backendsDown writesLogin_wireCodec rfl
    (by decide) (by decide)
  exact ((truthful_iff writesLogin_wireCodec rfl (by decide) (by decide)).mp htruthful).1 (by decide)

end Codec

end TinyIM.Web.LoginReplies
