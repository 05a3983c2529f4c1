import TinyIM.Auth.SessionLife
import TinyIM.Library.Json

namespace TinyIM.Auth.AuthClient

open Accounts (Answered Call Columns Outcome Sessions)
open Gateway (sessionKey)
open Library.ByteOrder Library.Delimited Library.Json Library.Program Library.Service Protocol
open Registration (RegisterReq RegisterResp)

variable {σ : Type}

/-- The auth service, and `HSet` on the session hash of a user. -/
structure Service (σ : Type) where
  serve : Server σ Call Answered
  store : ℤ → Bytes → Bytes → σ → σ

def redis (c : Columns) : Service (Accounts.World c) where
  serve := Accounts.serve
  store userId device token w :=
    { w with redis := w.redis.hset (cString (sessionKey userId)) (cString device) (cString token) }

def accounts (c : Columns) : Service (Sessions c) where
  serve := Sessions.serve
  store userId device token m := m.setToken userId (cString device) (some (cString token))

/-- What becomes of a gRPC call. One that fails may have been executed. -/
inductive Delivery
  | answered
  | failed (executed : Bool) (message : Bytes)
  deriving DecidableEq, Repr

/-- The call is executed. -/
def Delivery.reaches : Delivery → Bool
  | answered => true
  | failed executed _ => executed

/-- What one request meets. -/
structure Env where
  delivery : Delivery := .answered
  auth : Accounts.Env
  connected : Bool := true

/-- The state of the service, and what has been published. -/
structure World (σ : Type) where
  auth : σ
  published : List (Bytes × Bytes) := []

/-- What a server asks of the auth service, of Redis and of its list of gateways. -/
inductive Command
  | register (req : RegisterReq)
  | login (req : LoginReq)
  | logout (req : LogoutReq)
  | hset (userId : ℤ) (device token : Bytes)
  | pickGateway
  deriving DecidableEq, Repr

/-- The flag of a logout is `success`. There may be no gateway to pick. -/
abbrev Answer : Command → Type
  | .register _ => Status × RegisterResp
  | .login _ => Status × LoginResp
  | .logout _ => Status × Bool
  | .hset _ _ _ => Unit
  | .pickGateway => Bytes

abbrev Handler := Prog Command Answer

abbrev ask (q : Command) : Handler (Answer q) := Prog.perform q

/-- What both HTTP servers read from the body of a login. -/
def loginFields (json : Codec) (body : Bytes) : Option LoginReq := do
  let j ← json.parse body
  let u ← j.text (ascii "username") []
  let p ← j.text (ascii "password") []
  let d ← j.text (ascii "device") (ascii "PC")
  return { username := u, password := p, device := d }

def registerFields (json : Codec) (body : Bytes) : Option RegisterReq := do
  let j ← json.parse body
  let username ← j.text (ascii "username") []
  let password ← j.text (ascii "password") []
  let nickname ← j.text (ascii "nickname") []
  return { username := username, password := password, nickname := nickname }

abbrev Reply := Except Bytes Outcome

def registerReply : Reply → Status × RegisterResp
  | .ok (.registered reply) => reply
  | .ok _ => (none, {})
  | .error message => (some message, {})

def loginReply : Reply → Status × LoginResp
  | .ok (.loggedIn reply) => reply
  | .ok _ => (none, {})
  | .error message => (some message, {})

/-- The login has succeeded, as far as the client can tell. -/
def Accepted (reply : Reply) : Prop := (loginReply reply).1 = none ∧ (loginReply reply).2.success

instance (reply : Reply) : Decidable (Accepted reply) := inferInstanceAs (Decidable (_ ∧ _))

theorem accepted_loggedIn {resp : LoginResp} (h : resp.success = true) : Accepted (.ok (.loggedIn (none, resp))) :=
  ⟨rfl, h⟩

def logoutReply : Reply → Status × Bool
  | .ok _ => (none, true)
  | .error message => (some message, false)

def rpc (S : Service σ) (delivery : Delivery) (w : World σ) (call : Call) : World σ × Reply :=
  let r := S.serve w.auth call
  let w' : World σ := ⟨r.1, w.published ++ r.2.2⟩
  match delivery with
  | .answered => (w', .ok r.2.1)
  | .failed executed message => (if executed then w' else w, .error message)

theorem auth_rpc (S : Service σ) (delivery : Delivery) (w : World σ) (call : Call) :
    (rpc S delivery w call).1.auth = if delivery.reaches then (S.serve w.auth call).1 else w.auth := by
  cases delivery with
  | answered => rfl
  | failed executed message => cases executed <;> rfl

def exec (S : Service σ) (env : Env) (gateway : Bytes) (w : World σ) : (q : Command) → World σ × Answer q
  | .register req =>
    let r := rpc S env.delivery w (.register env.connected req)
    (r.1, registerReply r.2)
  | .login req =>
    let r := rpc S env.delivery w (.login env.auth req)
    (r.1, loginReply r.2)
  | .logout req =>
    let r := rpc S env.delivery w (.logout env.auth req)
    (r.1, logoutReply r.2)
  | .hset userId device token => ({ w with auth := S.store userId device token w.auth }, ())
  | .pickGateway => (w, gateway)

section Perform

variable (S : Service σ) (env : Env) (gateway : Bytes) (w : World σ) {α β : Type}

/-- What a program leaves and returns. -/
def perform (p : Handler α) : World σ × α :=
  let d := run (fun _ ↦ exec S env gateway) 0 w p
  (d.state, d.value)

theorem run_shift (n : ℕ) (p : Handler α) :
    run (fun _ ↦ exec S env gateway) n w p = run (fun _ ↦ exec S env gateway) 0 w p := by
  induction p generalizing n w with
  | done a => rfl
  | call q k ih => rw [run_call, run_call, ih, ih _ _ (0 + 1)]

theorem perform_bind (p : Handler α) (f : α → Handler β) :
    perform S env gateway w (p >>= f) =
      perform S env gateway (perform S env gateway w p).1 (f (perform S env gateway w p).2) := by
  rw [perform, run_bind, run_shift]
  rfl

theorem perform_pick (f : Bytes → Handler β) :
    perform S env gateway w (ask .pickGateway >>= f) = perform S env gateway w (f gateway) :=
  perform_bind S env gateway w _ f

end Perform

section Holds

variable {c : Columns}

/-- The tables and hashes say what the accounts say, and the same has been published. -/
structure Holds (w : World (Accounts.World c)) (m : World (Sessions c)) : Prop where
  auth : Accounts.Holds w.auth m.auth
  published : w.published = m.published

variable {w : World (Accounts.World c)} {m : World (Sessions c)}

theorem holds_called (h : Holds w m) {call : Call} (hsound : Accounts.Sound w.auth call) :
    let r := Accounts.serve w.auth call
    let r' := Sessions.serve m.auth call
    Holds ⟨r.1, w.published ++ r.2.2⟩ ⟨r'.1, m.published ++ r'.2.2⟩ ∧ r.2 = r'.2 := by
  intro r r'
  obtain ⟨hauth, hreply⟩ := AccountService.simulates w.auth m.auth call hsound h.auth
  exact ⟨⟨hauth, by rw [h.published, hreply]⟩, hreply⟩

theorem holds_rpc (h : Holds w m) (delivery : Delivery) {call : Call} (hsound : Accounts.Sound w.auth call) :
    Holds (rpc (redis c) delivery w call).1 (rpc (accounts c) delivery m call).1 ∧
      (rpc (redis c) delivery w call).2 = (rpc (accounts c) delivery m call).2 := by
  obtain ⟨hholds, hreply⟩ := holds_called h hsound
  cases delivery with
  | answered => exact ⟨hholds, congrArg (fun r : Answered ↦ (.ok r.1 : Reply)) hreply⟩
  | failed executed message =>
    cases executed with
    | false => exact ⟨h, rfl⟩
    | true => exact ⟨hholds, rfl⟩

/-- A login is not accepted, or it has opened a session. -/
theorem rpc_login (delivery : Delivery) (m : World (Sessions c)) (env : Accounts.Env) (req : LoginReq) :
    let r := rpc (accounts c) delivery m (.login env req)
    ¬ Accepted r.2 ∨ ∃ u ∈ m.auth.users.rows,
      r.1.auth = SessionLife.signedIn m.auth u (cString (deviceOf req)) (env .now) ∧
        r.2 = .ok (.loggedIn (none, SessionLife.loginReply u (env .now))) := by
  intro r
  cases delivery with
  | failed executed message => exact .inl fun haccepted ↦ Option.some_ne_none _ haccepted.1
  | answered =>
    obtain ⟨reply, hlogin, hrefused⟩ | ⟨u, hu, hlogin⟩ := SessionLife.login_cases m.auth env req
    · refine .inl fun haccepted ↦ ?_
      change Accepted (.ok (Sessions.serve m.auth (.login env req)).2.1) at haccepted
      rw [hlogin] at haccepted
      exact Bool.false_ne_true (hrefused.symm.trans haccepted.2)
    · refine .inr ⟨u, hu, congrArg Prod.fst hlogin, ?_⟩
      change (.ok (Sessions.serve m.auth (.login env req)).2.1 : Reply) = _
      rw [hlogin]

end Holds

end TinyIM.Auth.AuthClient
