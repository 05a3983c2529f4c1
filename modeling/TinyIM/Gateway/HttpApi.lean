import TinyIM.Auth.AuthClient
import TinyIM.Protocol.Http

namespace TinyIM.Gateway.HttpApi

open Auth.Accounts (Answered Call Columns Sessions)
open Auth.AuthClient
open Auth.Registration (RegisterResp)
open Library.ByteOrder Library.Delimited Library.Json Library.Program Library.Service Protocol Protocol.Http

/-- A device that is not named is the PC. -/
def logoutFields (json : Library.Json.Codec) (body : Bytes) : Option Auth.LogoutReq := do
  let j ← json.parse body
  let userId ← j.int (ascii "user_id")
  let token ← j.text (ascii "token") []
  let device ← j.text (ascii "device") (ascii "PC")
  return { userId := userId, token := token, device := device }

def success (msg : String) (data : List (Bytes × Value)) : Value :=
  .object ([(ascii "code", .integer 0), (ascii "msg", .string (ascii msg))] ++ data)

def failed (status : Status) (errorMessage : Bytes) : Value :=
  .object [(ascii "code", .integer 1),
    (ascii "msg", .string (status.elim errorMessage fun message ↦ ascii "RPC Error: " ++ message))]

def registered (reply : Status × RegisterResp) : Value :=
  if reply.1 = none ∧ reply.2.success then
    success "Register Success" [(ascii "data", .object [(ascii "user_id", .integer reply.2.userId)])]
  else failed reply.1 reply.2.errorMessage

/-- The gateway that `Discover` has found, or the local one. -/
def gatewayUrl (addr : Bytes) : Bytes :=
  if addr = [] then ascii "ws://127.0.0.1:8080/ws" else ascii "ws://" ++ addr ++ ascii "/ws"

def loggedIn (resp : LoginResp) (addr : Bytes) : Value :=
  success "Login Success" [(ascii "data", .object [(ascii "user_id", .integer resp.userId),
    (ascii "token", .string resp.token), (ascii "gateway_url", .string (gatewayUrl addr))])]

def loggedOut (reply : Status × Bool) : Value :=
  if reply.1 = none ∧ reply.2 then success "Logout Success" []
  else failed reply.1 (ascii "Logout Failed")

section Request

variable (json : Library.Json.Codec)

def finish (res : Response) (respJson : Value) : Response :=
  match json.dump respJson with
  | .ok text => { res with body := text }
  | .error _ => badRequest res

def apiRegister (res : Response) (body : Bytes) : Handler Response :=
  match registerFields json body with
  | none => return badRequest res
  | some req => do return finish json res (registered (← ask (.register req)))

def apiLogin (res : Response) (body : Bytes) : Handler Response :=
  match loginFields json body with
  | none => return badRequest res
  | some req => do
    let (status, resp) ← ask (.login req)
    if status = none ∧ resp.success then
      -- the auth service has stored the token for the device, or for the PC
      ask (.hset resp.userId req.device resp.token)
      let addr ← ask .pickGateway
      return finish json res (loggedIn resp addr)
    else return finish json res (failed status resp.errorMessage)

def apiLogout (res : Response) (body : Bytes) : Handler Response :=
  match logoutFields json body with
  | none => return badRequest res
  | some req => do return finish json res (loggedOut (← ask (.logout req)))

def blank (req : Request) : Response where
  version := req.version
  keepAlive := req.keepAlive
  fields := commonFields "TinyIM Gateway"

/-- Each connection ends with its response. -/
def handleRequest (req : Request) : Handler Response :=
  let res := blank req
  if req.method = .options then return res.preparePayload
  else if req.method ≠ .post then return { res with result := 400, body := ascii "Only POST allowed" }
  else if req.target = ascii "/api/register" then do return (← apiRegister json res req.body).preparePayload
  else if req.target = ascii "/api/login" then do return (← apiLogin json res req.body).preparePayload
  else if req.target = ascii "/api/logout" then do return (← apiLogout json res req.body).preparePayload
  else return { res with result := 404, body := ascii "Not Found" }.preparePayload

end Request

/-- A request with what `Discover` answers, or a call of somebody else. -/
inductive Event
  | request (env : Env) (addr : Bytes) (req : Request)
  | elsewhere (call : Call)

inductive Served
  | response (res : Response)
  | called (answered : Answered)
  deriving DecidableEq

section Serve

variable {σ : Type} (S : Service σ) (handle : Env → Bytes → World σ → Request → World σ × Response)

def serveWith : Server (World σ) Event Served
  | w, .request env addr req => ((handle env addr w req).1, .response (handle env addr w req).2)
  | w, .elsewhere call =>
    let r := S.serve w.auth call
    (⟨r.1, w.published ++ r.2.2⟩, .called r.2)

/-- Each request alone. -/
def serve (json : Library.Json.Codec) : Server (World σ) Event Served :=
  serveWith S fun env addr w req ↦ perform S env addr w (handleRequest json req)

end Serve

end TinyIM.Gateway.HttpApi
