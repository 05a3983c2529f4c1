import TinyIM.Dispatch.Connections

namespace TinyIM.Dispatch.Portal

open Auth.Accounts (Answered Call Columns Sessions)
open Auth.AuthClient
open Auth.Registration (RegisterReq RegisterResp)
open HttpSession
open Library.ByteOrder Library.Json Library.Program Library.Service Protocol Protocol.Http

/-- The call of the auth service that a request makes. -/
def callOf (json : Codec) (env : Env) (req : Request) : Option Call :=
  if req.method = .options then none
  else if req.method = .post ∧ req.target = ascii "/api/login" then
    (loginFields json req.body).map (.login env.auth)
  else if req.method = .post ∧ req.target = ascii "/api/logout" then
    (logoutFields json req.body).bind fun p ↦
      if 0 < p.1 then some (.logout env.auth { userId := p.1, device := p.2 }) else none
  else if req.method = .post ∧ req.target = ascii "/api/register" then
    (registerFields json req.body).map (.register env.connected)
  else none

/-- What the client is told about a gateway. -/
def offer (json : Codec) (gateway : Bytes) (data : Bytes → Value) (failure : Bytes → ℕ × Bytes) : ℕ × Bytes :=
  if gateway = [] then (503, noGateways)
  else
    match json.dump (data gateway) with
    | .ok text => (200, text)
    | .error what => failure what

def loginAnswer (json : Codec) (gateway : Bytes) (reply : Status × LoginResp) : ℕ × Bytes :=
  if (reply.1 = none ∧ reply.2.success) ∧ reply.2.token ≠ [] then
    offer json gateway (loginData reply.2.userId reply.2.token reply.2.nickname) fun _ ↦ (400, ascii "Invalid JSON")
  else (401, ascii "\x7b\"error\": \"Invalid credentials\"\x7d")

def registerAnswer (reply : Status × RegisterResp) : ℕ × Bytes :=
  if reply.1 = none ∧ reply.2.success then (200, ascii "\x7b\"code\": 0, \"msg\": \"Registered\"\x7d")
  else (200, ascii "\x7b\"code\": 1, \"msg\": \"Register Failed\"\x7d")

/-- Status and body of the response, by the reply to the call. -/
def answer (json : Codec) (gateway : Bytes) (req : Request) (reply : Option Reply) : ℕ × Bytes :=
  if req.method = .options then (200, [])
  else if req.method = .post ∧ req.target = ascii "/api/login" then
    match reply with
    | some reply => loginAnswer json gateway (loginReply reply)
    | none => (400, ascii "Invalid JSON")
  else if req.method = .post ∧ req.target = ascii "/api/logout" then
    match logoutFields json req.body with
    | some _ => (200, ascii "\x7b\"code\": 0, \"msg\": \"Logged out\"\x7d")
    | none => (400, ascii "Invalid JSON")
  else if req.method = .post ∧ req.target = ascii "/api/register" then
    match reply with
    | some reply => registerAnswer (registerReply reply)
    | none => (400, ascii "Invalid JSON")
  else if req.method = .get ∧ req.target = ascii "/api/discover/chat" then
    offer json gateway discoverData fun what ↦ (500, ascii "\x7b\"error\": \"" ++ what ++ ascii "\"\x7d")
  else (404, ascii "Not Found")

def filled (req : Request) (a : ℕ × Bytes) : Response := { blank req with result := a.1, body := a.2 }

def respond (json : Codec) (gateway : Bytes) (req : Request) (reply : Option Reply) : Response :=
  (filled req (answer json gateway req reply)).preparePayload

section Handle

variable {σ : Type} (S : Service σ) (json : Codec) (env : Env) (gateway : Bytes) (w : World σ) (req : Request)

/-- A request is at most one call, and its response. -/
def handle : World σ × Response :=
  match callOf json env req with
  | none => (w, respond json gateway req none)
  | some call =>
    let r := rpc S env.delivery w call
    (r.1, respond json gateway req (some r.2))

/-- What `Auth` makes of the reply. -/
def admitted (reply : Status × LoginResp) : Bytes × ℤ × Bytes :=
  if reply.1 = none ∧ reply.2.success then (reply.2.token, reply.2.userId, reply.2.nickname) else ([], 0, [])

theorem perform_auth (l : LoginReq) :
    let r := rpc S env.delivery w (.login env.auth l)
    perform S env gateway w (HttpSession.auth l.username l.password l.device) = (r.1, admitted (loginReply r.2)) := by
  intro r
  rw [HttpSession.auth, perform_bind, admitted]
  change perform S env gateway r.1 (if (loginReply r.2).1 = none ∧ (loginReply r.2).2.success then _ else _) = _
  split_ifs <;> rfl

theorem perform_apiLogin {l : LoginReq} (hfields : loginFields json req.body = some l) :
    let r := rpc S env.delivery w (.login env.auth l)
    perform S env gateway w (apiLogin json (blank req) req.body) =
      (r.1, filled req (loginAnswer json gateway (loginReply r.2))) := by
  intro r
  rw [apiLogin, hfields]
  dsimp only
  rw [perform_bind, perform_auth]
  change perform S env gateway r.1 (if (admitted (loginReply r.2)).1 ≠ [] then _ else _) = _
  rw [loginAnswer, admitted]
  by_cases hsuccess : (loginReply r.2).1 = none ∧ (loginReply r.2).2.success
  · simp only [if_pos hsuccess]
    by_cases htoken : (loginReply r.2).2.token = []
    · rw [if_neg (not_not_intro htoken), if_neg fun h ↦ h.2 htoken]
      rfl
    · rw [if_pos htoken, if_pos ⟨hsuccess, htoken⟩, perform_pick, offer]
      split_ifs
      · rfl
      · cases json.dump (loginData (loginReply r.2).2.userId (loginReply r.2).2.token
          (loginReply r.2).2.nickname gateway) <;> rfl
  · simp only [if_neg hsuccess]
    rw [if_neg (not_not_intro rfl), if_neg fun h ↦ hsuccess h.1]
    rfl

theorem perform_discoverChat : perform S env gateway w (discoverChat json (blank req)) =
    (w, filled req (offer json gateway discoverData fun what ↦
      (500, ascii "\x7b\"error\": \"" ++ what ++ ascii "\"\x7d"))) := by
  rw [discoverChat, perform_pick, offer]
  split_ifs
  · rfl
  · cases json.dump (discoverData gateway) <;> rfl

theorem perform_apiLogout {p : ℤ × Bytes} (hfields : logoutFields json req.body = some p) :
    perform S env gateway w (apiLogout json (blank req) req.body) =
      (if 0 < p.1 then (rpc S env.delivery w (.logout env.auth { userId := p.1, device := p.2 })).1 else w,
        filled req (200, ascii "\x7b\"code\": 0, \"msg\": \"Logged out\"\x7d")) := by
  rw [apiLogout, hfields]
  dsimp only
  split_ifs <;> rfl

theorem perform_apiRegister {l : RegisterReq} (hfields : registerFields json req.body = some l) :
    let r := rpc S env.delivery w (.register env.connected l)
    perform S env gateway w (apiRegister json (blank req) req.body) =
      (r.1, filled req (registerAnswer (registerReply r.2))) := by
  intro r
  rw [apiRegister, hfields, registerAnswer]
  change perform S env gateway w (registerUser l >>= _) = _
  rw [perform_bind]
  change perform S env gateway r.1
    (if decide ((registerReply r.2).1 = none ∧ (registerReply r.2).2.success) = true then _ else _) = _
  simp only [decide_eq_true_eq]
  split_ifs <;> rfl

theorem handleRequest_eq : handleRequest S json env gateway w req = handle S json env gateway w req := by
  have hserved : handleRequest S json env gateway w req =
      ((perform S env gateway w (route json req)).1, (perform S env gateway w (route json req)).2.preparePayload) :=
    perform_bind S env gateway w _ _
  have hroute : ∀ r : World σ × (ℕ × Bytes), perform S env gateway w (route json req) = (r.1, filled req r.2) →
      handleRequest S json env gateway w req = (r.1, (filled req r.2).preparePayload) := by
    intro r hr
    rw [hserved, hr]
  rw [handle, callOf]
  simp only [respond, answer]
  rw [route] at hroute
  split_ifs at hroute ⊢ with hoptions hlogin hlogout hregister hdiscover
  · exact hroute (w, 200, []) rfl
  · cases hfields : loginFields json req.body with
    | none =>
      refine hroute (w, 400, ascii "Invalid JSON") ?_
      rw [apiLogin, hfields]
      rfl
    | some l => exact hroute (_, _) (perform_apiLogin S json env gateway w req hfields)
  · cases hfields : logoutFields json req.body with
    | none =>
      refine hroute (w, 400, ascii "Invalid JSON") ?_
      rw [apiLogout, hfields]
      rfl
    | some p =>
      have hdone := perform_apiLogout S json env gateway w req hfields
      rw [Option.bind_some]
      split_ifs at hdone ⊢
      · exact hroute (_, _) hdone
      · exact hroute (_, _) hdone
  · cases hfields : registerFields json req.body with
    | none =>
      refine hroute (w, 400, ascii "Invalid JSON") ?_
      rw [apiRegister, hfields]
      rfl
    | some l => exact hroute (_, _) (perform_apiRegister S json env gateway w req hfields)
  · exact hroute (w, _) (perform_discoverChat S json env gateway w req)
  · exact hroute (w, 404, ascii "Not Found") rfl

end Handle

/-- The portal: the same connections, with accounts behind them. -/
def serve (c : Columns) (json : Codec) : Server (State (Sessions c)) Event Outcome :=
  serveWith (handle (accounts c) json) (accounts c)

/-- The texts of the calls stand in a statement as they are. -/
def Sound {c : Columns} (json : Codec) (st : State (Auth.Accounts.World c)) : Event → Prop
  | .read _ req env _ => ∀ call, callOf json env req = some call → Auth.Accounts.Sound st.world.auth call
  | .elsewhere call => Auth.Accounts.Sound st.world.auth call
  | _ => True

section Simulation

variable {c : Columns} {json : Codec}

/-- The two sides of a server that have met the same events. -/
structure Agrees (st : State (Auth.Accounts.World c)) (st' : State (Sessions c)) : Prop where
  world : Holds st.world st'.world
  gatewayList : st.gatewayList = st'.gatewayList
  conn : st.conn = st'.conn

theorem holds_handle {w : World (Auth.Accounts.World c)} {m : World (Sessions c)} (h : Holds w m) (env : Env)
    (gateway : Bytes) {req : Request}
    (hsound : ∀ call, callOf json env req = some call → Auth.Accounts.Sound w.auth call) :
    Holds (handle (redis c) json env gateway w req).1 (handle (accounts c) json env gateway m req).1 ∧
      (handle (redis c) json env gateway w req).2 = (handle (accounts c) json env gateway m req).2 := by
  rw [handle, handle]
  cases hcall : callOf json env req with
  | none => exact ⟨h, rfl⟩
  | some call =>
    obtain ⟨hholds, hreply⟩ := holds_rpc h env.delivery (hsound call hcall)
    exact ⟨hholds, congrArg (fun reply ↦ respond json gateway req (some reply)) hreply⟩

theorem simulates : Simulates (HttpSession.serve (redis c) json) (Sound json) (serve c json) Agrees := by
  rintro ⟨w, gateways, conn⟩ ⟨m, _, _⟩ ev hsound ⟨hworld, rfl, rfl⟩
  cases ev with
  | accept i =>
    rw [HttpSession.serve, serve, serveWith, serveWith]
    dsimp only
    split
    · exact ⟨⟨hworld, rfl, rfl⟩, rfl⟩
    · exact ⟨⟨hworld, rfl, rfl⟩, rfl⟩
  | read i req env drawn =>
    rw [HttpSession.serve, serve, serveWith, serveWith]
    dsimp only
    split
    · next sendOpen _ =>
      rw [handleRequest_eq]
      obtain ⟨hholds, hres⟩ := holds_handle hworld env (State.pick ⟨w, gateways, conn⟩ drawn) hsound
      rw [hres]
      exact ⟨⟨hholds, rfl, rfl⟩, rfl⟩
    · exact ⟨⟨hworld, rfl, rfl⟩, rfl⟩
  | readError i =>
    rw [HttpSession.serve, serve, serveWith, serveWith]
    dsimp only
    split
    · exact ⟨⟨hworld, rfl, rfl⟩, rfl⟩
    · exact ⟨⟨hworld, rfl, rfl⟩, rfl⟩
  | written i ok shut =>
    rw [HttpSession.serve, serve, serveWith, serveWith]
    dsimp only
    split
    · exact ⟨⟨hworld, rfl, rfl⟩, rfl⟩
    · exact ⟨⟨hworld, rfl, rfl⟩, rfl⟩
  | gateways newList => exact ⟨⟨hworld, rfl, rfl⟩, rfl⟩
  | elsewhere call =>
    obtain ⟨hholds, hreply⟩ := holds_called hworld hsound
    exact ⟨⟨hholds, rfl, rfl⟩, congrArg Outcome.called hreply⟩

end Simulation

/-- Before the first client connects. -/
def start (c : Columns) : State (Auth.Accounts.World c) := { world := { auth := .start } }

def opened (c : Columns) : State (Sessions c) := { world := { auth := .start } }

theorem agrees_start (c : Columns) : Agrees (start c) (opened c) :=
  ⟨⟨Auth.AccountService.holds_start, rfl⟩, rfl, rfl⟩

/-- The body by which Ann registers and signs in. -/
def annBody : Bytes := ascii "\x7b\"username\":\"ann\",\"password\":\"pw\"\x7d"

/-- `nlohmann::json` on the body of Ann, and on what she is answered. -/
def annJson : Codec where
  parse body :=
    if body = annBody then
      some (.object [(ascii "username", .string (ascii "ann")), (ascii "password", .string (ascii "pw"))])
    else none
  dump
    | .object [_, (_, .object ((_, .integer uid) :: (_, .string token) :: _))] =>
      if uid = 1 ∧ token = ascii "token_1_7" then
        .ok (ascii ("\x7b\"code\":0,\"data\":\x7b\"gateway_url\":\"ws://10.0.0.1:9000/ws\",\"nickname\":\"\"," ++
          "\"token\":\"token_1_7\",\"user_id\":1\x7d\x7d"))
      else .error []
    | _ => .error []

def calmly : Env := { auth := Auth.AccountService.calm }

def annRequest (target : String) (body : Bytes) : Request := { method := .post, target := ascii target, body := body }

abbrev annServer : Server (State (Auth.Accounts.World Auth.AccountService.binary)) Event Outcome :=
  HttpSession.serve (redis Auth.AccountService.binary) annJson

/-- Ann registers on a connection, and opens another one. -/
def annRegisters : List Event :=
  [.gateways [ascii "10.0.0.1:9000"], .accept 0, .read 0 (annRequest "/api/register" annBody) calmly 0,
    .written 0 true true, .accept 1]

theorem callOf_annRegister : callOf annJson calmly (annRequest "/api/register" annBody) =
    some (.register true { username := ascii "ann", password := ascii "pw" }) := by rfl

theorem callOf_annLogin : callOf annJson calmly (annRequest "/api/login" annBody) =
    some (.login Auth.AccountService.calm { username := ascii "ann", password := ascii "pw", device := ascii "PC" }) := by
  rfl

theorem plain_annName : Library.SqlStatement.Plain (ascii "ann") := ⟨by decide, trivial⟩

theorem sound_annRegisters :
    Permits annServer (Sound annJson) (start Auth.AccountService.binary) annRegisters := by
  refine ⟨trivial, trivial, ?_, trivial, trivial, trivial⟩
  intro call hcall
  obtain rfl := Option.some.inj (callOf_annRegister.symm.trans hcall)
  exact ⟨plain_annName, ⟨by decide, trivial⟩, List.not_mem_nil, trivial⟩

theorem sound_annLogin (st : State (Auth.Accounts.World Auth.AccountService.binary)) (i drawn : ℕ) :
    Sound annJson st (.read i (annRequest "/api/login" annBody) calmly drawn) := by
  intro call hcall
  obtain rfl := Option.some.inj (callOf_annLogin.symm.trans hcall)
  exact ⟨plain_annName, by decide⟩

/-- She writes a request that is not JSON on the first connection, and signs in
on the second one. -/
def annEvents : List Event :=
  annRegisters ++ [.read 0 (annRequest "/api/login" (ascii "?")) calmly 0,
    .read 1 (annRequest "/api/login" annBody) calmly 0, .written 0 true true, .written 1 true true]

end TinyIM.Dispatch.Portal
