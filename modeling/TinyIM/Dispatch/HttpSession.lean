import TinyIM.Auth.AuthClient
import TinyIM.Dispatch.ServiceDiscovery
import TinyIM.Library.Json
import TinyIM.Protocol.Http

namespace TinyIM.Dispatch.HttpSession

open Auth.Accounts (Answered Call)
open Auth.AuthClient
open Auth.Registration (RegisterReq)
open Library.ByteOrder Library.Json Library.Program Library.Service Protocol Protocol.Http

/-- `Auth`: the token, the user and the nickname, and no token if the login failed. -/
def auth (username password device : Bytes) : Handler (Bytes × ℤ × Bytes) := do
  let (status, resp) ← ask (.login { username := username, password := password, device := device })
  if status = none ∧ resp.success then return (resp.token, resp.userId, resp.nickname)
  else return ([], 0, [])

def logout (uid : ℤ) (device : Bytes) : Handler Bool := do
  let (status, success) ← ask (.logout { userId := uid, device := device })
  return status = none ∧ success

def registerUser (req : RegisterReq) : Handler Bool := do
  let (status, resp) ← ask (.register req)
  return status = none ∧ resp.success

def gatewayUrl (gw : Bytes) : Bytes := ascii "ws://" ++ gw ++ ascii "/ws"

def loginData (uid : ℤ) (token nick gw : Bytes) : Value :=
  .object [(ascii "code", .integer 0), (ascii "data", .object [(ascii "user_id", .integer uid),
    (ascii "token", .string token), (ascii "nickname", .string nick),
    (ascii "gateway_url", .string (gatewayUrl gw))])]

def discoverData (gw : Bytes) : Value :=
  .object [(ascii "code", .integer 0), (ascii "data", .object [(ascii "gateway_url", .string (gatewayUrl gw))])]

def noGateways : Bytes := ascii "\x7b\"error\": \"No gateways available\"\x7d"

/-- The user id passes through an `int`. -/
def logoutFields (json : Codec) (body : Bytes) : Option (ℤ × Bytes) := do
  let j ← json.parse body
  let uid ← j.int (ascii "user_id")
  let dev ← j.text (ascii "device") []
  return (uid, dev)

section Request

variable (json : Codec)

def apiLogin (res : Response) (body : Bytes) : Handler Response :=
  match loginFields json body with
  | none => return badRequest res
  | some req => do
    let (token, uid, nick) ← auth req.username req.password req.device
    if token ≠ [] then
      let gw ← ask .pickGateway
      if gw = [] then return { res with result := 503, body := noGateways }
      else
        -- a nickname that is not UTF-8 makes `dump` throw when the user is signed in
        match json.dump (loginData uid token nick gw) with
        | .ok text => return { res with body := text }
        | .error _ => return badRequest res
    else return { res with result := 401, body := ascii "\x7b\"error\": \"Invalid credentials\"\x7d" }

/-- The reply of the auth service is not looked at. -/
def apiLogout (res : Response) (body : Bytes) : Handler Response :=
  match logoutFields json body with
  | none => return badRequest res
  | some (uid, dev) => do
    if 0 < uid then
      let _done ← logout uid dev
    return { res with body := ascii "\x7b\"code\": 0, \"msg\": \"Logged out\"\x7d" }

def apiRegister (res : Response) (body : Bytes) : Handler Response :=
  match registerFields json body with
  | none => return badRequest res
  | some req => do
    if ← registerUser req then return { res with body := ascii "\x7b\"code\": 0, \"msg\": \"Registered\"\x7d" }
    else return { res with body := ascii "\x7b\"code\": 1, \"msg\": \"Register Failed\"\x7d" }

def discoverChat (res : Response) : Handler Response := do
  let gw ← ask .pickGateway
  if gw = [] then return { res with result := 503, body := noGateways }
  else
    match json.dump (discoverData gw) with
    | .ok text => return { res with body := text }
    | .error what => return { res with result := 500, body := ascii "\x7b\"error\": \"" ++ what ++ ascii "\"\x7d" }

def blank (req : Request) : Response where
  version := req.version
  keepAlive := req.keepAlive
  fields := commonFields "TinyIM Dispatch"

def route (req : Request) : Handler Response :=
  if req.method = .options then return blank req
  else if req.method = .post ∧ req.target = ascii "/api/login" then apiLogin json (blank req) req.body
  else if req.method = .post ∧ req.target = ascii "/api/logout" then apiLogout json (blank req) req.body
  else if req.method = .post ∧ req.target = ascii "/api/register" then apiRegister json (blank req) req.body
  else if req.method = .get ∧ req.target = ascii "/api/discover/chat" then discoverChat json (blank req)
  else return { blank req with result := 404, body := ascii "Not Found" }

/-- What `ProcessRequest` hands to `WriteResponse`. -/
def processRequest (req : Request) : Handler Response := do
  let res ← route json req
  return res.preparePayload

end Request

/-- A connection waits for a request or for the end of a write, or its session
has ended. The client can be sent something until `shutdown_send`. -/
inductive Conn
  | reading (sendOpen : Bool)
  | writing (res : Response) (sendOpen : Bool)
  | ended
  deriving DecidableEq, Repr

structure State (σ : Type) where
  world : World σ
  gatewayList : List Bytes := []
  conn : ℕ → Option Conn := fun _ ↦ none

/-- A client connects, its next request has been read, or none comes, or a
response has been written. The list of gateways is stored anew, or somebody
else calls the auth service. -/
inductive Event
  | accept (i : ℕ)
  | read (i : ℕ) (req : Request) (env : Env) (drawn : ℕ)
  | readError (i : ℕ)
  | written (i : ℕ) (ok shut : Bool)
  | gateways (newList : List Bytes)
  | elsewhere (call : Call)

inductive Outcome
  | answers (i : ℕ) (res : Response)
  | sent (i : ℕ) (res : Response)
  | called (answered : Answered)
  | quiet
  deriving DecidableEq

namespace State

variable {σ : Type} (st : State σ)

def setConn (i : ℕ) (conn : Conn) : State σ := { st with conn := Function.update st.conn i (some conn) }

/-- `GetRandomGateway`. -/
def pick (drawn : ℕ) : Bytes := ({ ServiceDiscovery.start with gatewayList := st.gatewayList }).pickGateway drawn

end State

section Serve

variable {σ : Type} (handle : Env → Bytes → World σ → Request → World σ × Response) (S : Service σ)

/-- The session over any way to handle a request. When a write has ended, the
error that it may have met is overwritten by the outcome of `shutdown`. -/
def serveWith : Server (State σ) Event Outcome
  | st, .accept i =>
    match st.conn i with
    | none => (st.setConn i (.reading true), .quiet)
    | some _ => (st, .quiet)
  | st, .read i req env drawn =>
    match st.conn i with
    | some (.reading sendOpen) =>
      let r := handle env (st.pick drawn) st.world req
      ({ st with world := r.1 }.setConn i (.writing r.2 sendOpen), .answers i r.2)
    | _ => (st, .quiet)
  | st, .readError i =>
    match st.conn i with
    | some (.reading _) => (st.setConn i .ended, .quiet)
    | _ => (st, .quiet)
  | st, .written i ok shut =>
    match st.conn i with
    | some (.writing res sendOpen) =>
      (st.setConn i (if shut ∧ res.keepAlive then .reading false else .ended),
        if ok ∧ sendOpen then .sent i res else .quiet)
    | _ => (st, .quiet)
  | st, .gateways newList => ({ st with gatewayList := newList }, .quiet)
  | st, .elsewhere call =>
    let r := S.serve st.world.auth call
    ({ st with world := ⟨r.1, st.world.published ++ r.2.2⟩ }, .called r.2)

/-- `ProcessRequest` alone. The process has one thread. -/
def handleRequest (json : Codec) (env : Env) (gateway : Bytes) (w : World σ) (req : Request) : World σ × Response :=
  let d := run (fun _ ↦ exec S env gateway) 0 w (processRequest json req)
  (d.state, d.value)

def serve (json : Codec) : Server (State σ) Event Outcome := serveWith (handleRequest S json) S

end Serve

end TinyIM.Dispatch.HttpSession
