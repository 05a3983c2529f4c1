import TinyIM.Auth.SessionLife
import TinyIM.Dispatch.Portal

namespace TinyIM.Dispatch.SignIn

open Auth.Accounts (Call Columns Sessions UserTable)
open Auth.AuthClient
open Auth.Handshake (connectTarget onRead)
open Auth.Registration (RegisterReq RegisterResp)
open Auth.SessionLife (Spares elapsed find_final find_of_registered handshake_in_time reply_of_find signedIn)
open HttpSession
open Library.ByteOrder Library.Decimal Library.Delimited Library.Json Library.Service Protocol Protocol.Http
open Portal (Sound callOf handle holds_handle loginAnswer offer start)

variable {c : Columns} {json : Codec}

/-- The call of the auth service that an event comes to. -/
def executed (json : Codec) {σ : Type} (st : State σ) : Event → Option Call
  | .read i req env _ =>
    match st.conn i with
    | some (.reading _) => if env.delivery.reaches then callOf json env req else none
    | _ => none
  | .elsewhere call => some call
  | _ => none

/-- The calls that reach the auth service in a run. -/
abbrev calls (json : Codec) (st : State (Auth.Accounts.World c)) (events : List Event) : List Call :=
  passed (HttpSession.serve (redis c) json) (fun st ev ↦ (executed json st ev).toList) st events

section Calls

theorem auth_serve (st : State (Auth.Accounts.World c)) (ev : Event) :
    (HttpSession.serve (redis c) json st ev).1.world.auth =
      final Auth.Accounts.serve st.world.auth (executed json st ev).toList := by
  cases ev with
  | accept i =>
    rw [HttpSession.serve, serveWith]
    split <;> rfl
  | read i req env drawn =>
    rw [HttpSession.serve, serveWith, executed]
    cases st.conn i with
    | none => rfl
    | some conn =>
      cases conn with
      | reading sendOpen =>
        dsimp only [State.setConn]
        rw [Portal.handleRequest_eq, handle]
        cases callOf json env req with
        | none =>
          rw [ite_self]
          rfl
        | some call =>
          refine (auth_rpc (redis c) env.delivery st.world call).trans ?_
          split_ifs <;> rfl
      | _ => rfl
  | readError i =>
    rw [HttpSession.serve, serveWith]
    split <;> rfl
  | written i ok shut =>
    rw [HttpSession.serve, serveWith]
    split <;> rfl
  | gateways newList => rfl
  | elsewhere call => rfl

theorem auth_final (st : State (Auth.Accounts.World c)) (events : List Event) :
    (final (HttpSession.serve (redis c) json) st events).world.auth =
      final Auth.Accounts.serve st.world.auth (calls json st events) :=
  final_passed (fun st : State (Auth.Accounts.World c) ↦ st.world.auth) auth_serve

theorem permits_executed (st : State (Auth.Accounts.World c)) (ev : Event) (h : Sound json st ev) :
    Permits Auth.Accounts.serve Auth.Accounts.Sound st.world.auth (executed json st ev).toList := by
  cases ev with
  | read i req env drawn =>
    rw [executed]
    cases st.conn i with
    | none => exact trivial
    | some conn =>
      cases conn with
      | reading sendOpen =>
        dsimp only
        split_ifs
        · cases hcall : callOf json env req with
          | none => exact trivial
          | some call => exact ⟨h call hcall, trivial⟩
        · exact trivial
      | _ => exact trivial
  | elsewhere call => exact ⟨h, trivial⟩
  | _ => exact trivial

theorem permits_calls {st : State (Auth.Accounts.World c)} {events : List Event}
    (h : Permits (HttpSession.serve (redis c) json) (Sound json) st events) :
    Permits Auth.Accounts.serve Auth.Accounts.Sound st.world.auth (calls json st events) :=
  h.passed (fun st ↦ st.world.auth) auth_serve permits_executed

end Calls

section Answers

variable {gateway : Bytes} {req : Request} {env : Env} {drawn i : ℕ} {res : Response}

/-- What a request that has been read gets. -/
theorem answers_read {σ : Type} {S : Service σ} {st : State σ}
    (h : (HttpSession.serve S json st (.read i req env drawn)).2 = .answers i res) :
    res = (handle S json env (st.pick drawn) st.world req).2 ∧
      (HttpSession.serve S json st (.read i req env drawn)).1.world =
        (handle S json env (st.pick drawn) st.world req).1 := by
  rw [HttpSession.serve, serveWith] at h ⊢
  cases hconn : st.conn i with
  | none =>
    rw [hconn] at h
    cases h
  | some conn =>
    rw [hconn] at h
    cases conn with
    | reading sendOpen =>
      dsimp only [State.setConn] at h ⊢
      rw [Portal.handleRequest_eq] at h ⊢
      exact ⟨(Outcome.answers.inj h).2.symm, rfl⟩
    | _ => cases h

theorem callOf_login (json : Codec) (env : Env) (hlogin : req.method = .post ∧ req.target = ascii "/api/login") :
    callOf json env req = (loginFields json req.body).map (.login env.auth) := by
  have hoptions : req.method ≠ .options := hlogin.1.trans_ne (by decide)
  rw [callOf, if_neg hoptions, if_pos hlogin]

theorem answers_of_reading {σ : Type} {S : Service σ} {st : State σ} {sendOpen : Bool}
    (h : st.conn i = some (.reading sendOpen)) :
    (HttpSession.serve S json st (.read i req env drawn)).2 =
      .answers i (handle S json env (st.pick drawn) st.world req).2 := by
  rw [HttpSession.serve, serveWith, h, ← Portal.handleRequest_eq]

theorem callOf_register (json : Codec) (env : Env) (hregister : req.method = .post ∧ req.target = ascii "/api/register") :
    callOf json env req = (registerFields json req.body).map (.register env.connected) := by
  have hoptions : req.method ≠ .options := hregister.1.trans_ne (by decide)
  have hlogin : ¬ (req.method = .post ∧ req.target = ascii "/api/login") := fun h ↦
    absurd (hregister.2.symm.trans h.2) (by decide)
  have hlogout : ¬ (req.method = .post ∧ req.target = ascii "/api/logout") := fun h ↦
    absurd (hregister.2.symm.trans h.2) (by decide)
  rw [callOf, if_neg hoptions, if_neg hlogin, if_neg hlogout, if_pos hregister]

theorem answer_register (hregister : req.method = .post ∧ req.target = ascii "/api/register") (reply : Reply) :
    Portal.answer json gateway req (some reply) = Portal.registerAnswer (registerReply reply) := by
  have hoptions : req.method ≠ .options := hregister.1.trans_ne (by decide)
  have hlogin : ¬ (req.method = .post ∧ req.target = ascii "/api/login") := fun h ↦
    absurd (hregister.2.symm.trans h.2) (by decide)
  have hlogout : ¬ (req.method = .post ∧ req.target = ascii "/api/logout") := fun h ↦
    absurd (hregister.2.symm.trans h.2) (by decide)
  rw [Portal.answer, if_neg hoptions, if_neg hlogin, if_neg hlogout, if_pos hregister]

theorem answer_login (hlogin : req.method = .post ∧ req.target = ascii "/api/login") (reply : Reply) :
    Portal.answer json gateway req (some reply) = loginAnswer json gateway (loginReply reply) := by
  have hoptions : req.method ≠ .options := hlogin.1.trans_ne (by decide)
  rw [Portal.answer, if_neg hoptions, if_pos hlogin]

/-- A login is answered with 200 only if it has succeeded and a gateway is known. -/
theorem loginAnswer_ok {reply : Status × LoginResp} (h : (loginAnswer json gateway reply).1 = 200) :
    (reply.1 = none ∧ reply.2.success = true) ∧ gateway ≠ [] ∧
      json.dump (loginData reply.2.userId reply.2.token reply.2.nickname gateway) =
        .ok (loginAnswer json gateway reply).2 := by
  rw [loginAnswer, offer] at h ⊢
  split_ifs at h ⊢ with hsuccess hgateway
  · cases h
  · cases hdump : json.dump (loginData reply.2.userId reply.2.token reply.2.nickname gateway) with
    | ok text => exact ⟨hsuccess.1, hgateway, rfl⟩
    | error what =>
      rw [hdump] at h
      cases h
  · cases h

theorem mem_of_pick {σ : Type} {st : State σ} (h : st.pick drawn ≠ []) : st.pick drawn ∈ st.gatewayList := by
  have hpick : st.pick drawn = (st.gatewayList[drawn % st.gatewayList.length]?).getD [] := rfl
  rw [hpick] at h ⊢
  cases hget : st.gatewayList[drawn % st.gatewayList.length]? with
  | none =>
    rw [hget] at h
    exact absurd rfl h
  | some addr => exact List.mem_of_getElem? hget

theorem parseTarget_connectTarget {uid : ℤ} {token device : Bytes} (hfits : FitsInt64 uid) (htoken : 38 ∉ token)
    (hdevice : 38 ∉ device) :
    Auth.Handshake.parseTarget (connectTarget uid token device) = some ⟨uid, token, device⟩ := by
  rw [Auth.Handshake.parse_eq_params, Auth.Handshake.params_connectTarget htoken hdevice,
    List.foldlM_cons]
  change (stoll (stdToString uid)).map (fun userId ↦ ({ userId := userId } : Auth.Handshake.Query)) >>= _ = _
  rw [stoll_stdToString hfits]
  rfl

end Answers

/-- Where `TestClient::Connect` connects to. -/
structure Address where
  host : Bytes
  port : Bytes
  path : Bytes
  deriving DecidableEq, Repr

/-- The way of `TestClient::Connect` with the url that it is given. -/
def overridden (host port url : Bytes) : Address :=
  let p := if (ascii "ws://").isPrefixOf url then url.drop 5 else url
  let colon := p.idxOf 58
  let slash := p.idxOf 47
  if 58 ∈ p then
    if 47 ∈ p then
      -- `slash - (colon + 1)` wraps around if the slash comes first
      let rest := p.drop (colon + 1)
      ⟨p.take colon, if colon < slash then rest.take (slash - (colon + 1)) else rest, p.drop slash⟩
    else ⟨p.take colon, p.drop (colon + 1), ascii "/ws"⟩
  else ⟨host, port, ascii "/ws"⟩

theorem overridden_gatewayUrl {ip : Bytes} (hcolon : 58 ∉ ip) (hslash : 47 ∉ ip) (port : ℤ) (host wsPort : Bytes) :
    overridden host wsPort (gatewayUrl (ServiceDiscovery.value ip port)) = ⟨ip, stdToString port, ascii "/ws"⟩ := by
  have hurl : gatewayUrl (ServiceDiscovery.value ip port) =
      ascii "ws://" ++ (ip ++ 58 :: (stdToString port ++ ascii "/ws")) := by
    simp only [gatewayUrl, ServiceDiscovery.value, List.append_assoc]
    rfl
  have hport : 47 ∉ stdToString port := not_mem_stdToString (by decide) (by decide) port
  have hp : (if (ascii "ws://").isPrefixOf (gatewayUrl (ServiceDiscovery.value ip port)) then
      (gatewayUrl (ServiceDiscovery.value ip port)).drop 5 else gatewayUrl (ServiceDiscovery.value ip port)) =
      ip ++ 58 :: (stdToString port ++ ascii "/ws") := by
    rw [hurl]
    rfl
  rw [overridden, hp]
  have hcolonAt : (ip ++ 58 :: (stdToString port ++ ascii "/ws")).idxOf 58 = ip.length := by
    rw [List.idxOf_append_of_notMem hcolon, List.idxOf_cons_self, Nat.add_zero]
  have hslashAt : (ip ++ 58 :: (stdToString port ++ ascii "/ws")).idxOf 47 = ip.length + 1 + (stdToString port).length := by
    have hnone : 47 ∉ ip ++ 58 :: stdToString port := by
      rw [List.mem_append, List.mem_cons, not_or, not_or]
      exact ⟨hslash, by decide, hport⟩
    have hsplit : ip ++ 58 :: (stdToString port ++ ascii "/ws") = (ip ++ 58 :: stdToString port) ++ 47 :: ascii "ws" := by
      rw [List.append_assoc]
      rfl
    rw [hsplit, List.idxOf_append_of_notMem hnone, List.idxOf_cons_self, List.length_append, List.length_cons]
    omega
  have hrest : (ip ++ 58 :: (stdToString port ++ ascii "/ws")).drop (ip.length + 1) = stdToString port ++ ascii "/ws" := by
    rw [List.drop_append, List.drop_of_length_le (Nat.le_succ _), Nat.add_sub_cancel_left]
    rfl
  have hpath : (ip ++ 58 :: (stdToString port ++ ascii "/ws")).drop (ip.length + 1 + (stdToString port).length) =
      ascii "/ws" := by
    rw [← List.drop_drop, hrest, List.drop_left]
  have hhas : 58 ∈ ip ++ 58 :: (stdToString port ++ ascii "/ws") := List.mem_append_right _ List.mem_cons_self
  have hhas' : 47 ∈ ip ++ 58 :: (stdToString port ++ ascii "/ws") :=
    List.mem_append_right _ (List.mem_cons_of_mem _ (List.mem_append_right _ (by decide)))
  dsimp only
  rw [if_pos hhas, if_pos hhas', hcolonAt, hslashAt, hrest, hpath, List.take_left, if_pos (by omega),
    Nat.add_sub_cancel_left, List.take_left]

section Registration

variable {m : Sessions c} {connected : Bool} {reg : RegisterReq}

/-- A registration that succeeds tells the id alone. -/
theorem registered_reply {reply : Status × RegisterResp}
    (h : (Sessions.serve m (.register connected reg)).2.1 = .registered reply) (hsuccess : reply.2.success = true) :
    ∃ k, reply = (none, { success := true, userId := k }) := by
  rw [Sessions.serve, Sessions.register] at h
  split_ifs at h
  · obtain rfl := Auth.Accounts.Outcome.registered.inj h
    cases hsuccess
  · obtain rfl := Auth.Accounts.Outcome.registered.inj h
    dsimp only at hsuccess ⊢
    cases hid : (m.users.insert reg.username reg.password reg.nickname).2 with
    | none =>
      rw [hid] at hsuccess
      cases hsuccess
    | some id => exact ⟨id, rfl⟩
  · obtain rfl := Auth.Accounts.Outcome.registered.inj h
    cases hsuccess

theorem rpc_register (delivery : Delivery) (m : World (Sessions c)) (connected : Bool) (reg : RegisterReq) :
    let r := rpc (accounts c) delivery m (.register connected reg)
    (registerReply r.2).1 = none ∧ (registerReply r.2).2.success = true →
      r.1.auth = (Sessions.serve m.auth (.register connected reg)).1 ∧
        ∃ k, (Sessions.serve m.auth (.register connected reg)).2.1 =
          .registered (none, { success := true, userId := k }) := by
  intro r haccepted
  cases delivery with
  | failed executed message => cases haccepted.1
  | answered =>
    refine ⟨rfl, ?_⟩
    obtain ⟨k, hk⟩ := registered_reply rfl haccepted.2
    exact ⟨k, congrArg Auth.Accounts.Outcome.registered hk⟩

/-- What a login of a user gets, by the password alone. -/
def loginResult (json : Codec) (gateway : Bytes) (env : Env) (k : ℤ) (reg : RegisterReq) (l : LoginReq) : ℕ × Bytes :=
  if l.password = reg.password then
    offer json gateway (loginData k (Auth.generateToken k (env.auth .now)) reg.nickname) fun _ ↦
      (400, ascii "Invalid JSON")
  else (401, ascii "\x7b\"error\": \"Invalid credentials\"\x7d")

end Registration

/-- Who has registered over HTTP can sign in over HTTP for good. -/
theorem sign_up {before : List Event}
    (hbefore : Permits (HttpSession.serve (redis c) json) (Sound json) (start c) before) {i : ℕ} {req : Request}
    {env : Env} {drawn : ℕ} {res : Response} {reg : RegisterReq}
    (hregister : req.method = .post ∧ req.target = ascii "/api/register")
    (hfields : registerFields json req.body = some reg)
    (hsound : Sound json (final (HttpSession.serve (redis c) json) (start c) before) (.read i req env drawn))
    (hres : (HttpSession.serve (redis c) json (final (HttpSession.serve (redis c) json) (start c) before)
      (.read i req env drawn)).2 = .answers i res)
    (hbody : res.body = ascii "\x7b\"code\": 0, \"msg\": \"Registered\"\x7d") :
    ∃ k : ℤ, 0 < k ∧ ∀ middle,
      let st' := (HttpSession.serve (redis c) json (final (HttpSession.serve (redis c) json) (start c) before)
        (.read i req env drawn)).1
      Permits (HttpSession.serve (redis c) json) (Sound json) st' middle →
        let st := final (HttpSession.serve (redis c) json) st' middle
        ∀ j sendOpen req' env' drawn' l, st.conn j = some (.reading sendOpen) →
          req'.method = .post ∧ req'.target = ascii "/api/login" →
          loginFields json req'.body = some l → Sound json st (.read j req' env' drawn') →
          c.same l.username reg.username = true → env'.delivery = .answered → env'.auth .connectRead = true →
          (HttpSession.serve (redis c) json st (.read j req' env' drawn')).2 =
            .answers j (Portal.filled req' (loginResult json (st.pick drawn') env' k reg l)).preparePayload := by
  obtain ⟨hanswer, hworld⟩ := answers_read hres
  obtain ⟨-, hagrees⟩ := Portal.simulates.replies_eq hbefore (Portal.agrees_start c)
  have hcall := callOf_register json env hregister
  rw [hfields] at hcall
  obtain ⟨hnext, hreply⟩ := holds_rpc hagrees.world env.delivery (hsound _ hcall)
  rw [handle, hcall] at hanswer hworld
  dsimp only [Option.map_some] at hanswer hworld
  rw [hreply] at hanswer
  generalize (final (Portal.serve c json) (Portal.opened c) before).world = m at hagrees hnext hreply hanswer
  have haccepted : (registerReply (rpc (accounts c) env.delivery m (.register env.connected reg)).2).1 = none ∧
      (registerReply (rpc (accounts c) env.delivery m (.register env.connected reg)).2).2.success = true := by
    by_contra hfailed
    rw [hanswer] at hbody
    have htext : (Portal.answer json _ req (some (rpc (accounts c) env.delivery m (.register env.connected reg)).2)).2 =
      _ := hbody
    rw [answer_register hregister, Portal.registerAnswer, if_neg hfailed] at htext
    exact absurd htext (by decide)
  obtain ⟨hauth, k, hk⟩ := rpc_register env.delivery m env.connected reg haccepted
  have hopened : Auth.Accounts.Holds (HttpSession.serve (redis c) json
      (final (HttpSession.serve (redis c) json) (start c) before) (.read i req env drawn)).1.world.auth
      (Sessions.serve m.auth (.register env.connected reg)).1 := by
    rw [← hauth, hworld]
    exact hnext.auth
  refine ⟨k, ?_, ?_⟩
  · have hfind := find_of_registered hk (c.equivalence.refl reg.username)
    exact (UserTable.numbered _ _ (List.mem_of_find?_eq_some hfind)).1
  · intro middle st' hmiddle st j sendOpen req' env' drawn' l hreading hlogin hfields' hsound' hsame hdelivery hvalid
    obtain ⟨-, hlater⟩ := Auth.AccountService.simulates.replies_eq (permits_calls hmiddle) hopened
    rw [← auth_final] at hlater
    have hcall' := callOf_login json env' hlogin
    rw [hfields'] at hcall'
    have hfind := find_final (find_of_registered hk hsame) (calls json st' middle)
    have hreply' := congrArg Prod.fst (Auth.AccountService.simulates _ _ _ (hsound' _ hcall') hlater).2
    rw [reply_of_find hfind hvalid] at hreply'
    rw [answers_of_reading hreading, handle, hcall', hdelivery]
    refine congrArg (fun a ↦ Outcome.answers j (Portal.filled req' a).preparePayload) ?_
    rw [answer_login hlogin]
    refine (congrArg (fun reply ↦ loginAnswer json _ (loginReply (.ok reply))) hreply').trans ?_
    rw [loginResult]
    split_ifs
    · exact if_pos ⟨⟨rfl, rfl⟩, Auth.AccountService.generateToken_ne_nil _⟩
    · exact if_neg fun h ↦ Bool.false_ne_true h.1.2

/-- Ann registers, and comes back when more than a day has passed. -/
theorem sign_up_ann :
    let st := final Portal.annServer (start Auth.AccountService.binary)
      ([.gateways [ascii "10.0.0.1:9000"], .accept 0] ++
        [.read 0 (Portal.annRequest "/api/register" Portal.annBody) Portal.calmly 0, .accept 1, .elsewhere (.pass 100000)])
    ∃ k, 0 < k ∧ (Portal.annServer st (.read 1 (Portal.annRequest "/api/login" Portal.annBody) Portal.calmly 0)).2 =
      .answers 1 (Portal.filled (Portal.annRequest "/api/login" Portal.annBody) (loginResult Portal.annJson
        (ascii "10.0.0.1:9000") Portal.calmly k { username := ascii "ann", password := ascii "pw" }
          { username := ascii "ann", password := ascii "pw", device := ascii "PC" })).preparePayload := by
  have hbefore : Permits Portal.annServer (Sound Portal.annJson) (start Auth.AccountService.binary)
      [.gateways [ascii "10.0.0.1:9000"], .accept 0] := ⟨trivial, trivial, trivial⟩
  have hsound : Sound Portal.annJson (final Portal.annServer (start Auth.AccountService.binary)
      [.gateways [ascii "10.0.0.1:9000"], .accept 0])
        (.read 0 (Portal.annRequest "/api/register" Portal.annBody) Portal.calmly 0) := by
    intro call hcall
    obtain rfl := Option.some.inj (Portal.callOf_annRegister.symm.trans hcall)
    exact ⟨Portal.plain_annName, ⟨by decide, trivial⟩, List.not_mem_nil, trivial⟩
  obtain ⟨-, hagrees⟩ := Portal.simulates.replies_eq hbefore (Portal.agrees_start _)
  obtain ⟨-, hreply⟩ := Portal.simulates _ _ _ hsound hagrees
  have hanswer : (Portal.serve Auth.AccountService.binary Portal.annJson
      (final (Portal.serve Auth.AccountService.binary Portal.annJson) (Portal.opened Auth.AccountService.binary)
        [.gateways [ascii "10.0.0.1:9000"], .accept 0])
          (.read 0 (Portal.annRequest "/api/register" Portal.annBody) Portal.calmly 0)).2 =
      .answers 0 (Portal.respond Portal.annJson (ascii "10.0.0.1:9000")
        (Portal.annRequest "/api/register" Portal.annBody)
          (some (.ok (.registered (none, { success := true, userId := 1 }))))) := by
    decide +kernel
  obtain ⟨k, hk, hlater⟩ := sign_up hbefore ⟨rfl, rfl⟩ (by rfl) hsound (hreply.trans hanswer) rfl
  refine ⟨k, hk, ?_⟩
  rw [Portal.annServer, final_append, final]
  exact hlater [.accept 1, .elsewhere (.pass 100000)] ⟨trivial, trivial, trivial⟩ 1 true _ _ 0 _ rfl ⟨rfl, rfl⟩ (by rfl)
    (Portal.sound_annLogin _ _ _) rfl rfl rfl

/-- What Ann is answered tells her who she is. -/
theorem annJson_dump {uid : ℤ} {token nick addr text : Bytes}
    (h : Portal.annJson.dump (loginData uid token nick addr) = .ok text) : uid = 1 ∧ token = ascii "token_1_7" := by
  by_contra hother
  have herror : Portal.annJson.dump (loginData uid token nick addr) = .error [] := if_neg hother
  cases herror.symm.trans h

end TinyIM.Dispatch.SignIn
