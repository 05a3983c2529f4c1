import TinyIM.Auth.Handshake
import TinyIM.Auth.PasswordLogin
import TinyIM.Auth.Registration
import TinyIM.Library.Service
import TinyIM.Library.SqlStatement

namespace TinyIM.Auth.Accounts

open Gateway Library.ByteOrder Library.Delimited Library.Program Library.Service Library.SqlStatement Protocol Store
open Handshake (Query authenticate)
open PasswordLogin (User)
open Registration (RegisterReq RegisterResp register finishRegister)

/-- How `im_user` compares usernames, and which texts its columns take. -/
structure Columns where
  same : Bytes → Bytes → Bool
  equivalence : Equivalence fun a b ↦ same a b = true
  takes : Bytes → Bytes → Bytes → Bool

/-- `im_user` with its `AUTO_INCREMENT` and the unique key of its usernames. -/
structure UserTable (c : Columns) where
  rows : List User
  next : ℕ
  positive : 0 < next
  numbered : ∀ u ∈ rows, 0 < u.userId ∧ u.userId < next
  usernames : rows.Pairwise fun u v ↦ c.same u.username v.username = false

variable {c : Columns}

namespace UserTable

variable (t : UserTable c)

def empty : UserTable c := ⟨[], 1, Nat.one_pos, fun _ hu ↦ absurd hu List.not_mem_nil, .nil⟩

/-- The row that the table would get. -/
def newRow (username password nickname : Bytes) : User := ⟨t.next, username, password, nickname⟩

def add (username password nickname : Bytes) (h : ∀ u ∈ t.rows, c.same u.username username = false) :
    UserTable c where
  rows := t.rows ++ [t.newRow username password nickname]
  next := t.next + 1
  positive := Nat.succ_pos _
  numbered := by
    intro u hu
    rcases List.mem_append.mp hu with hu | hu
    · obtain ⟨hpos, hlt⟩ := t.numbered u hu
      exact ⟨hpos, hlt.trans (Int.ofNat_lt.mpr (Nat.lt_succ_self _))⟩
    · rw [List.mem_singleton.mp hu]
      exact ⟨Int.ofNat_lt.mpr t.positive, Int.ofNat_lt.mpr (Nat.lt_succ_self _)⟩
  usernames := by
    refine List.pairwise_append.mpr ⟨t.usernames, List.pairwise_singleton _ _, ?_⟩
    intro u hu v hv
    rw [List.mem_singleton.mp hv]
    exact h u hu

/-- The table that has used up a number. -/
def skip : UserTable c where
  rows := t.rows
  next := t.next + 1
  positive := Nat.succ_pos _
  numbered u hu := ⟨(t.numbered u hu).1, (t.numbered u hu).2.trans (Int.ofNat_lt.mpr (Nat.lt_succ_self _))⟩
  usernames := t.usernames

/-- An `INSERT` of one row. A duplicate uses up a number. -/
def insert (username password nickname : Bytes) : UserTable c × Option ℕ :=
  if c.takes username password nickname = false then (t, none)
  else if h : ∀ u ∈ t.rows, c.same u.username username = false then
    (t.add username password nickname h, some t.next)
  else (t.skip, none)

def find (username : Bytes) : Option User := t.rows.find? fun u ↦ c.same username u.username

/-- The statement of `Register`. One of another shape is not followed. -/
def insertUser (sql : Bytes) : UserTable c × Option ℕ :=
  match pieces false sql with
  | some [_, username, _, password, _, nickname, _] => t.insert username password nickname
  | _ => (t, none)

/-- The query of `Login`. What follows its literal is not followed. -/
def selectUser (sql : Bytes) : Option (Option UserRow) :=
  match Library.SqlLiteral.read (sql.drop PasswordLogin.query.length) with
  | .exactly username => some ((t.find username).map User.fetched)
  | _ => none

end UserTable

/-- The users, and Redis with the time at which a key expires. -/
structure World (c : Columns) where
  users : UserTable c
  redis : Redis
  deadlines : Bytes → Option ℕ
  now : ℕ

/-- The answers that do not come from MySQL or from the hashes of Redis. -/
abbrev Env := (c : Auth.Command) → Auth.Answer c

namespace World

variable (w : World c)

def registerExec (connected : Bool) (w : World c) : (q : Registration.Command) → World c × Registration.Answer q
  | .connectWrite => (w, connected)
  | .insertUser sql => ({ w with users := (w.users.insertUser sql).1 }, (w.users.insertUser sql).2)

/-- A key without fields has no deadline. -/
def settle (r : Redis) (deadlines : Bytes → Option ℕ) (key : Bytes) : Bytes → Option ℕ :=
  if r.exists? key then deadlines else Function.update deadlines key none

/-- `RedisClient` hands C strings to Redis, and reads a reply as one. -/
def authExec (env : Env) (w : World c) : (q : Auth.Command) → World c × Auth.Answer q
  | .selectUser sql => (w, w.users.selectUser sql)
  | .hget key field => (w, w.redis.hGet key field)
  | .publish _ _ => (w, ())
  | .hset key field value => ({ w with redis := w.redis.hSet key field value }, ())
  | .expire key seconds =>
    let deadlines := Function.update w.deadlines (cString key) (some (w.now + seconds))
    ({ w with deadlines := settle w.redis deadlines (cString key) }, ())
  | .del key =>
    ({ w with redis := w.redis.del (cString key)
              deadlines := settle (w.redis.del (cString key)) w.deadlines (cString key) }, ())
  | .hdel key field =>
    ({ w with redis := w.redis.hDel key field
              deadlines := settle (w.redis.hDel key field) w.deadlines (cString key) }, ())
  | q => (w, env q)

def expired (now : ℕ) (deadline : Option ℕ) : Bool := deadline.any (· ≤ now)

/-- The keys whose time has come are gone. -/
def pass (seconds : ℕ) : World c where
  users := w.users
  redis := { w.redis with
    hashes := fun key ↦ if expired (w.now + seconds) (w.deadlines key) then ∅ else w.redis.hashes key }
  deadlines := fun key ↦ if expired (w.now + seconds) (w.deadlines key) then none else w.deadlines key
  now := w.now + seconds

/-- A gateway notes or forgets where a device is connected. -/
def locate (userId : ℤ) (device : Bytes) (addr : Option Bytes) : World c :=
  let r := match addr with
    | some addr => w.redis.hset (locationKey userId) (cString device) (cString addr)
    | none => w.redis.hdel (locationKey userId) (cString device)
  { w with redis := r, deadlines := settle r w.deadlines (locationKey userId) }

def start : World c := ⟨.empty, .empty, fun _ ↦ none, 0⟩

end World

/-- A call of the auth service, a handshake at a gateway, a connection that is
noted or forgotten, and time that passes. -/
inductive Call
  | register (connected : Bool) (req : RegisterReq)
  | login (env : Env) (req : LoginReq)
  | logout (env : Env) (req : LogoutReq)
  | handshake (q : Query)
  | locate (userId : ℤ) (device : Bytes) (addr : Option Bytes)
  | pass (seconds : ℕ)

inductive Outcome
  | registered (reply : Status × RegisterResp)
  | loggedIn (reply : Status × LoginResp)
  | loggedOut
  | authenticated (userId : ℤ)
  | done
  deriving DecidableEq, Repr

/-- What the caller sees, and what is published. -/
abbrev Answered := Outcome × List (Bytes × Bytes)

def notice : Auth.Command → Option (Bytes × Bytes)
  | .publish channel msg => some (cString channel, cString msg)
  | _ => none

/-- The service as it is. -/
def serve : Server (World c) Call Answered
  | w, .register connected req =>
    let d := run (fun _ ↦ World.registerExec connected) 0 w (register req)
    (d.state, .registered d.value, [])
  | w, .login env req =>
    let d := run (fun _ ↦ World.authExec env) 0 w (Auth.login req)
    (d.state, .loggedIn d.value, d.issued.filterMap notice)
  | w, .logout env req =>
    let d := run (fun _ ↦ World.authExec env) 0 w (Auth.logout req)
    (d.state, .loggedOut, d.issued.filterMap notice)
  | w, .handshake q => (w, .authenticated (authenticate w.redis q), [])
  | w, .locate userId device addr => (w.locate userId device addr, .done, [])
  | w, .pass seconds => (w.pass seconds, .done, [])

def Sound (_ : World c) : Call → Prop
  | .register _ req => Plain req.username ∧ Plain req.password ∧ Plain req.nickname
  | .login _ req => Plain req.username ∧ req.username.length ≤ 185
  | _ => True

/-- What the auth service is for: accounts, and for each device of a user the
token of its last login. The tokens of a user expire together, a day after the
last login of any device. -/
structure Sessions (c : Columns) where
  users : UserTable c
  location : ℤ → Bytes → Option Bytes
  token : ℤ → Bytes → Option Bytes
  expiry : ℤ → ℕ
  now : ℕ

namespace Sessions

variable (m : Sessions c)

def setToken (userId : ℤ) (device : Bytes) (token : Option Bytes) : Sessions c :=
  { m with token := Function.update m.token userId (Function.update (m.token userId) device token) }

theorem update_device (f : ℤ → Bytes → Option Bytes) (u v : ℤ) (device d : Bytes) (value : Option Bytes) :
    Function.update f u (Function.update (f u) device value) v d =
      if v = u ∧ d = device then value else f v d := by
  by_cases hu : v = u
  · subst hu
    rw [Function.update_self, Function.update_apply]
    simp
  · rw [Function.update_of_ne hu, if_neg fun hboth ↦ hu hboth.1]

@[simp] theorem token_setToken (u : ℤ) (device : Bytes) (token : Option Bytes) (v : ℤ) (d : Bytes) :
    (m.setToken u device token).token v d = if v = u ∧ d = device then token else m.token v d :=
  update_device m.token u v device d token

def kick (userId : ℤ) (device : Bytes) : Bytes × Bytes := (ascii "im:kick", kickMsg userId device)

/-- One kick for a connection that is known, and one for a token that is replaced. -/
def kicks (userId : ℤ) (device : Bytes) : List (Bytes × Bytes) :=
  (if (m.location userId device).getD [] = [] then [] else [kick userId device]) ++
    if (m.token userId device).getD [] = [] then [] else [kick userId device]

def register (connected : Bool) (req : RegisterReq) : Sessions c × Status × RegisterResp :=
  if req.username = [] ∨ req.password = [] then
    (m, none, { errorMessage := ascii "Username or password cannot be empty" })
  else if connected then
    let r := m.users.insert req.username req.password req.nickname
    ({ m with users := r.1 }, finishRegister r.2)
  else (m, some (ascii "Database error"), {})

def login (env : Env) (req : LoginReq) : Sessions c × Answered :=
  let device := cString (deviceOf req)
  if env .connectRead then
    match m.users.find req.username with
    | none => (m, .loggedIn (none, { errorMessage := ascii "User not found" }), [])
    | some u =>
      if u.passwordHash = req.password then
        let token := generateToken u.userId (env .now)
        ({ m.setToken u.userId device (some token) with
            expiry := Function.update m.expiry u.userId (m.now + 86400) },
          .loggedIn (none, { success := true, userId := u.userId, token := token, nickname := u.nickname }),
          m.kicks u.userId device)
      else (m, .loggedIn (none, { errorMessage := ascii "Invalid password" }), [])
  else (m, .loggedIn (some (ascii "Database error"), {}), [])

/-- Without a device all devices are logged out, and none is kicked. -/
def logout (req : LogoutReq) : Sessions c × Answered :=
  if req.device = [] then
    ({ m with token := Function.update m.token req.userId fun _ ↦ none }, .loggedOut, [])
  else
    (m.setToken req.userId (cString req.device) none, .loggedOut, [kick req.userId (cString req.device)])

def authenticate (q : Query) : ℤ :=
  if 0 < q.userId ∧ q.token ≠ [] ∧ m.token q.userId (cString q.device) = some q.token then q.userId else 0

def locate (userId : ℤ) (device : Bytes) (addr : Option Bytes) : Sessions c :=
  let devices := Function.update (m.location userId) (cString device) (addr.map cString)
  { m with location := Function.update m.location userId devices }

@[simp] theorem location_locate (u : ℤ) (device : Bytes) (addr : Option Bytes) (v : ℤ) (d : Bytes) :
    (m.locate u device addr).location v d =
      if v = u ∧ d = cString device then addr.map cString else m.location v d :=
  update_device m.location u v (cString device) d (addr.map cString)

def pass (seconds : ℕ) : Sessions c :=
  { m with
    token := fun u d ↦ if m.expiry u ≤ m.now + seconds then none else m.token u d
    now := m.now + seconds }

def serve : Server (Sessions c) Call Answered
  | m, .register connected req => ((m.register connected req).1, .registered (m.register connected req).2, [])
  | m, .login env req => m.login env req
  | m, .logout _ req => m.logout req
  | m, .handshake q => (m, .authenticated (m.authenticate q), [])
  | m, .locate userId device addr => (m.locate userId device addr, .done, [])
  | m, .pass seconds => (m.pass seconds, .done, [])

def start : Sessions c := ⟨.empty, fun _ _ ↦ none, fun _ _ ↦ none, fun _ ↦ 0, 0⟩

end Sessions

/-- What `RedisClient` leaves in the hashes, to which it hands C strings. -/
def Written (r : Redis) : Prop := ∀ key field value, r.hget key field = some value → 0 ∉ value

/-- The tables and hashes that say just what the sessions say. -/
structure Holds (w : World c) (m : Sessions c) : Prop where
  users : w.users = m.users
  texts : ∀ u ∈ w.users.rows, 0 ∉ u.passwordHash ∧ 0 ∉ u.nickname
  location : ∀ u d, w.redis.hget (locationKey u) d = m.location u d
  token : ∀ u d, w.redis.hget (sessionKey u) d = m.token u d
  written : Written w.redis
  expiry : ∀ u d, m.token u d ≠ none → w.deadlines (sessionKey u) = some (m.expiry u)
  lasting : ∀ u, w.deadlines (locationKey u) = none
  now : w.now = m.now

end TinyIM.Auth.Accounts
