import TinyIM.Gateway.Session
import TinyIM.Library.Delimited
import TinyIM.Library.Program

namespace TinyIM.Auth

open Library.ByteOrder Library.Decimal Library.Delimited Library.Program Protocol Gateway

/-- A row of `SELECT user_id, nickname, password_hash FROM im_user`. -/
structure UserRow where
  userId : ℤ
  nickname : Bytes
  passwordHash : Bytes
  deriving DecidableEq, Repr

structure LogoutReq where
  userId : ℤ := 0
  token : Bytes := []
  device : Bytes := []
  deriving DecidableEq, Repr

/-- What the auth server asks of MySQL, of its clock and of Redis. -/
inductive Command
  | connectRead
  | selectUser (sql : Bytes)
  | now
  | hget (key field : Bytes)
  | publish (channel msg : Bytes)
  | hset (key field value : Bytes)
  | expire (key : Bytes) (seconds : ℕ)
  | keys (pattern : Bytes)
  | uniform (bound : ℕ)
  | get (key : Bytes)
  | del (key : Bytes)
  | hdel (key field : Bytes)
  deriving DecidableEq, Repr

/-- A query fails (`none`) or finds a row or not. `HGet` and `Get` answer the
empty string for what is not there. -/
abbrev Answer : Command → Type
  | .connectRead => Bool
  | .selectUser _ => Option (Option UserRow)
  | .now => ℕ
  | .hget _ _ => Bytes
  | .publish _ _ => Unit
  | .hset _ _ _ => Unit
  | .expire _ _ => Unit
  | .keys _ => List Bytes
  | .uniform _ => ℕ
  | .get _ => Bytes
  | .del _ => Unit
  | .hdel _ _ => Unit

abbrev Handler := Prog Command Answer

abbrev ask (c : Command) : Handler (Answer c) := Prog.perform c

def generateToken (userId : ℤ) (now : ℕ) : Bytes :=
  ascii "token_" ++ stdToString userId ++ ascii "_" ++ natToString now

/-- The text that `snprintf` leaves in `char sql[256]`. -/
def loginSql (username : Bytes) : Bytes :=
  (ascii "SELECT user_id, nickname, password_hash FROM im_user WHERE username='" ++
    cString username ++ ascii "'").take 255

def kickMsg (userId : ℤ) (device : Bytes) : Bytes := stdToString userId ++ ascii ":" ++ device

def publishKick (userId : ℤ) (device : Bytes) : Handler Unit :=
  ask (.publish (ascii "im:kick") (kickMsg userId device))

def unlessEmpty (s : Bytes) (act : Handler Unit) : Handler Unit := if s = [] then return () else act

def kickOut (userId : ℤ) (device : Bytes) : Handler Unit := do
  let existingAddr ← ask (.hget (locationKey userId) device)
  unlessEmpty existingAddr (publishKick userId device)
  let oldToken ← ask (.hget (sessionKey userId) device)
  unlessEmpty oldToken (publishKick userId device)

def storeToken (userId : ℤ) (device token : Bytes) : Handler Unit := do
  ask (.hset (sessionKey userId) device token)
  ask (.expire (sessionKey userId) (3600 * 24))

/-- The choice of a gateway, which the reply has no field for. -/
def pickGateway : Handler Bytes := do
  let keys ← ask (.keys (ascii "im:gateway:*"))
  if keys = [] then return ascii "ws://127.0.0.1:8080/ws"
  else
    let i ← ask (.uniform (keys.length - 1))
    let addr ← ask (.get (keys.getD i []))
    if addr = [] then return ascii "ws://127.0.0.1:8080/ws"
    else return ascii "ws://" ++ addr ++ ascii "/ws"

/-- `Login` once the password has been accepted. -/
def openSession (row : UserRow) (device : Bytes) : Handler (Status × LoginResp) := do
  let now ← ask .now
  let token := generateToken row.userId now
  kickOut row.userId device
  storeToken row.userId device token
  let _gatewayUrl ← pickGateway
  return (none, { success := true, userId := row.userId, token := token, nickname := row.nickname })

def refuse (message : String) : Handler (Status × LoginResp) :=
  return (none, { success := false, errorMessage := ascii message })

def deviceOf (req : LoginReq) : Bytes := if req.device = [] then ascii "PC" else req.device

def login (req : LoginReq) : Handler (Status × LoginResp) := do
  let valid ← ask .connectRead
  if !valid then return (some (ascii "Database error"), {})
  else
    let found ← ask (.selectUser (loginSql req.username))
    match found with
    | none => refuse "DB Query Error"
    | some none => refuse "User not found"
    | some (some row) =>
      if row.passwordHash ≠ req.password then refuse "Invalid password"
      else openSession row (deviceOf req)

/-- The reply of `Logout` is always a success. -/
def logout (req : LogoutReq) : Handler Unit := do
  if req.device = [] then ask (.del (sessionKey req.userId))
  else
    ask (.hdel (sessionKey req.userId) req.device)
    publishKick req.userId req.device

theorem zero_not_mem_sessionKey {u : ℤ} : 0 ∉ sessionKey u := by
  rw [sessionKey, List.mem_append, not_or]
  exact ⟨by decide, not_mem_stdToString (by decide) (by decide) u⟩

theorem not_mem_generateToken {b : UInt8} (htext : b ∉ ascii "token_") (hminus : b ≠ 45)
    (hdigit : isDigit b = false) (owner : ℤ) (now : ℕ) : b ∉ generateToken owner now := by
  simp only [generateToken, List.mem_append, not_or]
  refine ⟨⟨⟨htext, not_mem_stdToString hminus hdigit owner⟩, ?_⟩, ?_⟩
  · exact fun h ↦ htext (List.mem_of_mem_getLast? (List.mem_singleton.mp h ▸ rfl))
  · intro h
    exact absurd (isDigit_of_mem_natToString h) (by rw [hdigit]; decide)

theorem zero_not_mem_generateToken (owner : ℤ) (now : ℕ) : 0 ∉ generateToken owner now :=
  not_mem_generateToken (by decide) (by decide) (by decide) owner now

theorem cString_kickMsg (userId : ℤ) (device : Bytes) :
    cString (kickMsg userId device) = kickMsg userId (cString device) := by
  have hhead : 0 ∉ stdToString userId ++ ascii ":" := by
    rw [List.mem_append, not_or]
    exact ⟨not_mem_stdToString (by decide) (by decide) userId, by decide⟩
  exact cString_append hhead device

/-- A contract for which the choice of a gateway is of no account. -/
structure AllowsPick {τ : Type} (K : Contract Command Answer τ) : Prop where
  keys : ∀ t pattern, K.may t (.keys pattern) ∧ ∀ a, K.after t (.keys pattern) a = t
  uniform : ∀ t n, K.may t (.uniform n) ∧ ∀ a, K.after t (.uniform n) a = t
  get : ∀ t key, K.may t (.get key) ∧ ∀ a, K.after t (.get key) a = t

section Contracts

variable {τ : Type} {K : Contract Command Answer τ} {t : τ}

theorem pickGateway_meets (h : AllowsPick K) : Meets K (fun t' _ ↦ t' = t) t pickGateway := by
  refine meets_perform_bind.mpr ⟨(h.keys t _).1, ?_⟩
  intro keys _
  rw [(h.keys t _).2]
  split_ifs
  · exact rfl
  · refine meets_perform_bind.mpr ⟨(h.uniform t _).1, ?_⟩
    intro i _
    rw [(h.uniform t _).2]
    refine meets_perform_bind.mpr ⟨(h.get t _).1, ?_⟩
    intro addr _
    rw [(h.get t _).2]
    split_ifs <;> exact rfl

theorem unlessEmpty_meets (s : Bytes) {act : Handler Unit} (h : Meets K (fun t' _ ↦ t' = t) t act) :
    Meets K (fun t' _ ↦ t' = t) t (unlessEmpty s act) := by
  rw [unlessEmpty]
  split_ifs
  · exact rfl
  · exact h

/-- Under a contract that takes no account of the kick messages. -/
theorem kickOut_meets {userId : ℤ} {device : Bytes}
    (hget : ∀ key, K.may t (.hget key device) ∧ ∀ a, K.after t (.hget key device) a = t)
    (hpublish : Meets K (fun t' _ ↦ t' = t) t (publishKick userId device)) :
    Meets K (fun t' _ ↦ t' = t) t (kickOut userId device) := by
  refine meets_perform_bind.mpr ⟨(hget _).1, ?_⟩
  intro addr _
  rw [(hget _).2]
  refine meets_bind.mpr ((unlessEmpty_meets addr hpublish).mono ?_)
  rintro t' _ rfl
  refine meets_perform_bind.mpr ⟨(hget _).1, ?_⟩
  intro token _
  rw [(hget _).2]
  exact unlessEmpty_meets token hpublish

variable {Q : τ → Status × LoginResp → Prop}

theorem openSession_meets {row : UserRow} {device : Bytes}
    (hnow : K.may t .now ∧ ∀ now, K.after t .now now = t)
    (hkick : Meets K (fun t' _ ↦ t' = t) t (kickOut row.userId device)) (hpick : AllowsPick K)
    (hstore : ∀ now, Meets K
      (fun t' _ ↦ Q t' (none,
        { success := true, userId := row.userId, token := generateToken row.userId now, nickname := row.nickname }))
      t (storeToken row.userId device (generateToken row.userId now))) :
    Meets K Q t (openSession row device) := by
  refine meets_perform_bind.mpr ⟨hnow.1, ?_⟩
  intro now _
  rw [hnow.2]
  refine meets_bind.mpr (hkick.mono ?_)
  rintro t' _ rfl
  refine meets_bind.mpr ((hstore _).mono ?_)
  intro t' _ hreply
  refine meets_bind.mpr ((pickGateway_meets hpick).mono ?_)
  rintro _ _ rfl
  exact hreply

/-- The way of `Login` to an accepted password. -/
theorem login_meets {req : LoginReq}
    (hconnect : K.may t .connectRead ∧ ∀ valid, K.after t .connectRead valid = t)
    (hselect : K.may t (.selectUser (loginSql req.username)))
    (hrefused : ∀ t' reply, reply.2.success = false → Q t' reply)
    (hopen : ∀ row, K.answers t (.selectUser (loginSql req.username)) (some (some row)) →
      row.passwordHash = req.password → Meets K Q
        (K.after t (.selectUser (loginSql req.username)) (some (some row))) (openSession row (deviceOf req))) :
    Meets K Q t (login req) := by
  refine meets_perform_bind.mpr ⟨hconnect.1, ?_⟩
  intro valid _
  rw [hconnect.2]
  split_ifs
  · exact hrefused t _ rfl
  · refine meets_perform_bind.mpr ⟨hselect, ?_⟩
    intro found hfound
    match found with
    | none => exact hrefused _ _ rfl
    | some none => exact hrefused _ _ rfl
    | some (some row) =>
      change Meets K Q _ (if row.passwordHash ≠ req.password then _ else _)
      split_ifs with hpassword
      · exact hrefused _ _ rfl
      · exact hopen row hfound (not_not.mp hpassword)

end Contracts

end TinyIM.Auth
