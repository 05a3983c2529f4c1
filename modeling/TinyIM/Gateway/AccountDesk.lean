import TinyIM.Gateway.HttpApi

namespace TinyIM.Gateway.AccountDesk

open Auth.Accounts (Call Columns Sessions)
open Auth.AuthClient
open Auth.Registration (RegisterReq)
open Auth.SessionLife (signedIn token_signedIn)
open HttpApi
open Library.ByteOrder Library.Delimited Library.Json Library.Program Library.Service Protocol Protocol.Http

/-- The call of the auth service that a request makes. -/
def callOf (json : Library.Json.Codec) (env : Env) (req : Request) : Option Call :=
  if req.method = .options then none
  else if req.method ≠ .post then none
  else if req.target = ascii "/api/register" then (registerFields json req.body).map (.register env.connected)
  else if req.target = ascii "/api/login" then (loginFields json req.body).map (.login env.auth)
  else if req.target = ascii "/api/logout" then (logoutFields json req.body).map (.logout env.auth)
  else none

/-- The response to a request that makes no call. -/
def refusal (req : Request) : Response :=
  if req.method = .options then (blank req).preparePayload
  else if req.method ≠ .post then { blank req with result := 400, body := ascii "Only POST allowed" }
  else if req.target = ascii "/api/register" then (badRequest (blank req)).preparePayload
  else if req.target = ascii "/api/login" then (badRequest (blank req)).preparePayload
  else if req.target = ascii "/api/logout" then (badRequest (blank req)).preparePayload
  else { blank req with result := 404, body := ascii "Not Found" }.preparePayload

/-- What the client is told about a call. -/
def valueOf (addr : Bytes) : Call → Reply → Value
  | .register _ _, reply => registered (registerReply reply)
  | .login _ _, reply =>
    if Accepted reply then loggedIn (loginReply reply).2 addr
    else failed (loginReply reply).1 (loginReply reply).2.errorMessage
  | _, reply => loggedOut (logoutReply reply)

/-- The token of a login, stored once more for the device that the request names. -/
def noted {σ : Type} (S : Service σ) : Call → World σ × Reply → World σ
  | .login _ req, r =>
    if Accepted r.2 then
      let resp := (loginReply r.2).2
      { r.1 with auth := S.store resp.userId req.device resp.token r.1.auth }
    else r.1
  | _, r => r.1

/-- A login that names no device has signed in the PC, and opens a session for
the empty name as well. -/
def doubled {c : Columns} : Call → World (Sessions c) × Reply → World (Sessions c)
  | .login _ req, r =>
    if Accepted r.2 ∧ req.device = [] then
      let resp := (loginReply r.2).2
      { r.1 with auth := r.1.auth.setToken resp.userId [] (some resp.token) }
    else r.1
  | _, r => r.1

section Handle

variable {σ : Type} (S : Service σ) (json : Library.Json.Codec) (env : Env) (addr : Bytes) (w : World σ) (req : Request)

/-- A request is at most one call, what is stored behind it, and its response. -/
def handleWith (store : Call → World σ × Reply → World σ) : World σ × Response :=
  match callOf json env req with
  | none => (w, refusal req)
  | some call =>
    let r := rpc S env.delivery w call
    (store call r, (finish json (blank req) (valueOf addr call r.2)).preparePayload)

theorem perform_apiLogin {l : LoginReq} (hfields : loginFields json req.body = some l) :
    let r := rpc S env.delivery w (.login env.auth l)
    perform S env addr w (apiLogin json (blank req) req.body) =
      (noted S (.login env.auth l) r, finish json (blank req) (valueOf addr (.login env.auth l) r.2)) := by
  intro r
  rw [apiLogin, hfields]
  dsimp only
  rw [perform_bind, noted, valueOf]
  change perform S env addr r.1 (if Accepted r.2 then _ else _) = _
  split_ifs <;> rfl

theorem perform_apiRegister {l : RegisterReq} (hfields : registerFields json req.body = some l) :
    let r := rpc S env.delivery w (.register env.connected l)
    perform S env addr w (apiRegister json (blank req) req.body) =
      (r.1, finish json (blank req) (valueOf addr (.register env.connected l) r.2)) := by
  intro r
  rw [apiRegister, hfields]
  rfl

theorem perform_apiLogout {l : Auth.LogoutReq} (hfields : logoutFields json req.body = some l) :
    let r := rpc S env.delivery w (.logout env.auth l)
    perform S env addr w (apiLogout json (blank req) req.body) =
      (r.1, finish json (blank req) (valueOf addr (.logout env.auth l) r.2)) := by
  intro r
  rw [apiLogout, hfields]
  rfl

theorem perform_prepared (p : Handler Response) :
    perform S env addr w (do return (← p).preparePayload) =
      ((perform S env addr w p).1, (perform S env addr w p).2.preparePayload) := perform_bind S env addr w _ _

theorem perform_handleRequest :
    perform S env addr w (handleRequest json req) = handleWith S json env addr w req (noted S) := by
  rw [handleWith, callOf, refusal, handleRequest]
  dsimp only
  split_ifs with hoptions hpost hregister hlogin hlogout
  · rfl
  · rfl
  · rw [perform_prepared]
    cases hfields : registerFields json req.body with
    | none =>
      rw [apiRegister, hfields]
      rfl
    | some l =>
      rw [perform_apiRegister S json env addr w req hfields]
      rfl
  · rw [perform_prepared]
    cases hfields : loginFields json req.body with
    | none =>
      rw [apiLogin, hfields]
      rfl
    | some l =>
      rw [perform_apiLogin S json env addr w req hfields]
      rfl
  · rw [perform_prepared]
    cases hfields : logoutFields json req.body with
    | none =>
      rw [apiLogout, hfields]
      rfl
    | some l =>
      rw [perform_apiLogout S json env addr w req hfields]
      rfl
  · rfl

end Handle

section Store

variable {c : Columns}

/-- The token of the login is there already. -/
theorem setToken_signedIn (m : Sessions c) (u : Auth.PasswordLogin.User) (device : Bytes) (now : ℕ) :
    (signedIn m u device now).setToken u.userId device (some (Auth.generateToken u.userId now)) =
      signedIn m u device now := by
  have hstored : (signedIn m u device now).token u.userId device = some (Auth.generateToken u.userId now) :=
    (token_signedIn m u device now _ _).trans (if_pos ⟨rfl, rfl⟩)
  rw [Sessions.setToken, ← hstored, Function.update_eq_self, Function.update_eq_self]

theorem noted_accounts (delivery : Delivery) (m : World (Sessions c)) (call : Call) :
    noted (accounts c) call (rpc (accounts c) delivery m call) =
      doubled call (rpc (accounts c) delivery m call) := by
  cases call with
  | login env req =>
    rw [noted, doubled]
    obtain hnot | ⟨u, -, hauth, hreply⟩ := rpc_login delivery m env req
    · rw [if_neg hnot, if_neg fun h ↦ hnot h.1]
    · have haccepted : Accepted (.ok (.loggedIn (none, Auth.SessionLife.loginReply u (env .now)))) :=
        accepted_loggedIn rfl
      have htoken : cString (Auth.generateToken u.userId (env .now)) = Auth.generateToken u.userId (env .now) :=
        cString_eq_self (Auth.zero_not_mem_generateToken _ _)
      rw [hreply, hauth, if_pos haccepted]
      by_cases hdevice : req.device = []
      · rw [if_pos ⟨haccepted, hdevice⟩, hdevice]
        refine congrArg (fun auth ↦ (⟨auth, _⟩ : World (Sessions c))) ?_
        exact congrArg (fun token ↦ Sessions.setToken _ u.userId [] (some token)) htoken
      · have hsame : Auth.deviceOf req = req.device := if_neg hdevice
        rw [if_neg fun h ↦ hdevice h.2]
        refine (congrArg (fun auth ↦ (⟨auth, _⟩ : World (Sessions c))) ?_).trans
          (congrArg (fun auth ↦ (⟨auth, _⟩ : World (Sessions c))) hauth.symm)
        rw [hsame]
        refine (congrArg (fun token ↦ Sessions.setToken _ u.userId _ (some token)) htoken).trans ?_
        exact setToken_signedIn m.auth u (cString req.device) (env .now)
  | _ => rfl

/-- A token may be stored in a session that is there. -/
theorem holds_store {w : Auth.Accounts.World c} {m : Sessions c} (h : Auth.Accounts.Holds w m) {u : ℤ} {d : Bytes}
    (hopen : m.token u d ≠ none) (device token : Bytes) :
    Auth.Accounts.Holds ((redis c).store u device token w) ((accounts c).store u device token m) where
  users := h.users
  texts := h.texts
  location v d := by
    have hother : locationKey v ≠ cString (sessionKey u) := by
      rw [Auth.AccountService.cString_sessionKey]
      exact (Location.sessionKey_ne_locationKey u v).symm
    exact (Store.Redis.hget_hset_of_ne _ (.inl hother)).trans (h.location v d)
  token := by
    have hset := Auth.AccountService.hget_session_hset h u (cString device) (cString token)
    rw [← Auth.AccountService.cString_sessionKey] at hset
    exact hset
  written := Auth.AccountService.written_hSet h.written _ _ _
  expiry v d' hv := by
    by_cases huser : v = u
    · rw [huser]
      exact h.expiry u d hopen
    · refine h.expiry v d' ?_
      rwa [accounts, Sessions.token_setToken, if_neg fun hboth ↦ huser hboth.1] at hv
  lasting := h.lasting
  now := h.now

variable {w : World (Auth.Accounts.World c)} {m : World (Sessions c)}

theorem holds_noted (h : Auth.AuthClient.Holds w m) (delivery : Delivery) {call : Call}
    (hsound : Auth.Accounts.Sound w.auth call) :
    Auth.AuthClient.Holds (noted (redis c) call (rpc (redis c) delivery w call))
      (noted (accounts c) call (rpc (accounts c) delivery m call)) := by
  obtain ⟨hholds, hreply⟩ := holds_rpc h delivery hsound
  cases call with
  | login env req =>
    rw [noted, noted, hreply]
    obtain hnot | ⟨u, -, hauth, haccepted⟩ := rpc_login delivery m env req
    · rw [if_neg hnot, if_neg hnot]
      exact hholds
    · have hopen : (rpc (accounts c) delivery m (.login env req)).1.auth.token u.userId (cString (Auth.deviceOf req)) ≠
          none := by
        rw [hauth, token_signedIn, if_pos ⟨rfl, rfl⟩]
        exact Option.some_ne_none _
      rw [haccepted, if_pos (accepted_loggedIn rfl), if_pos (accepted_loggedIn rfl)]
      exact ⟨holds_store hholds.auth hopen _ _, hholds.published⟩
  | _ => exact hholds

theorem holds_handleWith {json : Library.Json.Codec} (h : Auth.AuthClient.Holds w m) (env : Env) (addr : Bytes)
    {req : Request} (hsound : ∀ call, callOf json env req = some call → Auth.Accounts.Sound w.auth call) :
    Auth.AuthClient.Holds (handleWith (redis c) json env addr w req (noted (redis c))).1
        (handleWith (accounts c) json env addr m req doubled).1 ∧
      (handleWith (redis c) json env addr w req (noted (redis c))).2 =
        (handleWith (accounts c) json env addr m req doubled).2 := by
  rw [handleWith, handleWith]
  cases hcall : callOf json env req with
  | none => exact ⟨h, rfl⟩
  | some call =>
    have hnoted := holds_noted h env.delivery (hsound call hcall)
    rw [noted_accounts] at hnoted
    refine ⟨hnoted, ?_⟩
    exact congrArg (fun reply ↦ (finish json (blank req) (valueOf addr call reply)).preparePayload)
      (holds_rpc h env.delivery (hsound call hcall)).2

end Store

/-- The desk: accounts, at which a login opens one session, and a second one if
it names no device. -/
def serve (c : Columns) (json : Library.Json.Codec) : Server (World (Sessions c)) Event Served :=
  serveWith (accounts c) fun env addr m req ↦ handleWith (accounts c) json env addr m req doubled

/-- The texts of the calls stand in a statement as they are. -/
def Sound {c : Columns} (json : Library.Json.Codec) (w : World (Auth.Accounts.World c)) : Event → Prop
  | .request env _ req => ∀ call, callOf json env req = some call → Auth.Accounts.Sound w.auth call
  | .elsewhere call => Auth.Accounts.Sound w.auth call

theorem simulates (c : Columns) (json : Library.Json.Codec) :
    Simulates (HttpApi.serve (redis c) json) (Sound json) (serve c json) Auth.AuthClient.Holds := by
  intro w m ev hsound h
  cases ev with
  | request env addr req =>
    rw [HttpApi.serve, serve, serveWith, serveWith, perform_handleRequest]
    obtain ⟨hholds, hres⟩ := holds_handleWith h env addr hsound
    exact ⟨hholds, congrArg Served.response hres⟩
  | elsewhere call =>
    obtain ⟨hholds, hreply⟩ := holds_called h hsound
    exact ⟨hholds, congrArg Served.called hreply⟩

/-- The body by which Ann registers and signs in, from no device. -/
def annBody : Bytes :=
  ascii "\x7b\"username\":\"ann\",\"password\":\"pw\",\"device\":\"\"\x7d"

/-- `nlohmann::json` on the body of Ann. -/
def annJson : Library.Json.Codec where
  parse body :=
    if body = annBody then some (.object [(ascii "username", .string (ascii "ann")),
      (ascii "password", .string (ascii "pw")), (ascii "device", .string [])])
    else none
  dump
    | .object [_, _] => .ok (ascii "\x7b\"code\":0,\"msg\":\"Logout Success\"\x7d")
    | .object [_, _, (_, .object [_])] =>
      .ok (ascii "\x7b\"code\":0,\"data\":\x7b\"user_id\":1\x7d,\"msg\":\"Register Success\"\x7d")
    | _ => .ok (ascii ("\x7b\"code\":0,\"data\":\x7b\"gateway_url\":\"ws://127.0.0.1:8080/ws\"," ++
        "\"token\":\"token_1_7\",\"user_id\":1\x7d,\"msg\":\"Login Success\"\x7d"))

def annEvents : List Event :=
  let env : Env := { auth := Auth.AccountService.calm }
  [.request env [] { method := .post, target := ascii "/api/register", body := annBody },
    .request env [] { method := .post, target := ascii "/api/login", body := annBody },
    .elsewhere (.logout Auth.AccountService.calm { userId := 1, device := ascii "PC" }),
    .elsewhere (.handshake ⟨1, ascii "token_1_7", []⟩)]

end TinyIM.Gateway.AccountDesk
