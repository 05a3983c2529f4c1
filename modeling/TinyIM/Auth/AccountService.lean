import TinyIM.Auth.Accounts
import TinyIM.Gateway.Location
import TinyIM.Relation.TextFields

namespace TinyIM.Auth.AccountService

open Accounts Gateway Library.ByteOrder Library.Decimal Library.Delimited Library.Program Library.Service
  Library.SqlStatement Protocol Store
open Gateway.Location (locationKey_injective sessionKey_ne_locationKey)
open Handshake (Query)
open PasswordLogin (User)
open Registration (RegisterReq RegisterResp registerSql)

variable {c : Columns}

section Statements

variable {t : UserTable c}

theorem insertUser_of_plain {req : RegisterReq} (h : Plain req.username ∧ Plain req.password ∧ Plain req.nickname) :
    t.insertUser (cString (registerSql req)) = t.insert req.username req.password req.nickname := by
  obtain ⟨⟨hname, hname'⟩, ⟨hpassword, hpassword'⟩, hnick, hnick'⟩ := h
  have hnul : ∀ s ∈ (Relation.TextFields.Insert.register req).texts, 0 ∉ s := by
    simp [Relation.TextFields.Insert.texts, Relation.TextFields.Insert.fields, hname, hpassword, hnick]
  have hverbatim : ∀ f ∈ (Relation.TextFields.Insert.register req).fields, Verbatim f.1 := by
    simp [Relation.TextFields.Insert.fields, hname', hpassword', hnick']
  have hwhole : cString (registerSql req) = (Relation.TextFields.Insert.register req).sql :=
    cString_eq_self (Relation.TextFields.zero_not_mem_sql (.register req) hnul)
  have hpieces := (pieces_text_iff (Relation.TextFields.outside_head (.register req))
    (Relation.TextFields.outside_fields (.register req))).mpr hverbatim
  rw [hwhole, Relation.TextFields.Insert.sql_eq, UserTable.insertUser, hpieces]
  rfl

theorem selectUser_of_plain {username : Bytes} (h : Plain username) (hfits : username.length ≤ 185) :
    t.selectUser (loginSql username) = some ((t.find username).map User.fetched) := by
  rw [UserTable.selectUser, PasswordLogin.loginSql_plain h.1 hfits, read_of_verbatim h.2]

theorem rows_insert (username password nickname : Bytes) :
    ∀ u ∈ (t.insert username password nickname).1.rows,
      u ∈ t.rows ∨ u = t.newRow username password nickname := by
  intro u hu
  rw [UserTable.insert] at hu
  split_ifs at hu
  · exact .inl hu
  · exact (List.mem_append.mp hu).imp_right List.mem_singleton.mp
  · exact .inl hu

end Statements

section Runs

variable {env : Env} {w w' w'' : World c} {α β : Type} {userId : ℤ} {device : Bytes}

/-- What a part of a handler leaves, publishes and returns. -/
def Leaves (env : Env) (w : World c) (p : Handler α) (w' : World c) (published : List (Bytes × Bytes))
    (a : α) : Prop :=
  ∀ n, (run (fun _ ↦ World.authExec env) n w p).state = w' ∧
    (run (fun _ ↦ World.authExec env) n w p).issued.filterMap notice = published ∧
    (run (fun _ ↦ World.authExec env) n w p).value = a

theorem leaves_done (a : α) : Leaves env w (.done a) w [] a := fun _ ↦ ⟨rfl, rfl, rfl⟩

theorem leaves_ask (q : Auth.Command) :
    Leaves env w (ask q) (w.authExec env q).1 (notice q).toList (w.authExec env q).2 := by
  intro n
  refine ⟨rfl, ?_, rfl⟩
  change [q].filterMap notice = _
  cases hq : notice q with
  | none => rw [List.filterMap_cons_none hq, Option.toList_none, List.filterMap_nil]
  | some x => rw [List.filterMap_cons_some hq, Option.toList_some, List.filterMap_nil]

theorem Leaves.bind {p : Handler α} {f : α → Handler β} {l l' : List (Bytes × Bytes)} {a : α} {b : β}
    (h : Leaves env w p w' l a) (hf : Leaves env w' (f a) w'' l' b) : Leaves env w (p >>= f) w'' (l ++ l') b := by
  intro n
  obtain ⟨hstate, hissued, hvalue⟩ := h n
  obtain ⟨hstate', hissued', hvalue'⟩ := hf (n + (run (fun _ ↦ World.authExec env) n w p).issued.length)
  rw [run_bind, hstate, hvalue, List.filterMap_append, hissued]
  exact ⟨hstate', congrArg (l ++ ·) hissued', hvalue'⟩

theorem leaves_unlessEmpty (s : Bytes) :
    Leaves env w (unlessEmpty s (publishKick userId device)) w
      (if s = [] then [] else [(ascii "im:kick", cString (kickMsg userId device))]) () := by
  rw [unlessEmpty]
  split_ifs
  · exact leaves_done ()
  · exact leaves_ask (.publish (ascii "im:kick") (kickMsg userId device))

theorem leaves_kickOut : Leaves env w (kickOut userId device) w
    ((if w.redis.hGet (locationKey userId) device = [] then [] else
        [(ascii "im:kick", cString (kickMsg userId device))]) ++
      if w.redis.hGet (sessionKey userId) device = [] then [] else
        [(ascii "im:kick", cString (kickMsg userId device))]) () :=
  (leaves_ask (.hget (locationKey userId) device)).bind
    ((leaves_unlessEmpty _).bind ((leaves_ask (.hget (sessionKey userId) device)).bind (leaves_unlessEmpty _)))

theorem leaves_pickGateway : ∃ url, Leaves env w pickGateway w [] url := by
  have hurl : ∀ addr : Bytes, ∃ url : Bytes, Leaves env w (if addr = [] then return ascii "ws://127.0.0.1:8080/ws"
      else return ascii "ws://" ++ addr ++ ascii "/ws") w [] url := by
    intro addr
    split_ifs <;> exact ⟨_, leaves_done _⟩
  have hchosen : ∀ keys : List Bytes, ∃ url, Leaves env w
      (if keys = [] then return ascii "ws://127.0.0.1:8080/ws"
      else do
        let i ← ask (.uniform (keys.length - 1))
        let addr ← ask (.get (keys.getD i []))
        if addr = [] then return ascii "ws://127.0.0.1:8080/ws"
        else return ascii "ws://" ++ addr ++ ascii "/ws") w [] url := by
    intro keys
    split_ifs
    · exact ⟨_, leaves_done _⟩
    · obtain ⟨url, hleaves⟩ := hurl (env (.get (keys.getD (env (.uniform (keys.length - 1))) [])))
      exact ⟨url, (leaves_ask (.uniform _)).bind ((leaves_ask (.get _)).bind hleaves)⟩
  obtain ⟨url, hleaves⟩ := hchosen (env (.keys (ascii "im:gateway:*")))
  exact ⟨url, (leaves_ask (.keys _)).bind hleaves⟩

theorem cString_locationKey : cString (locationKey userId) = locationKey userId := by
  refine cString_eq_self ?_
  rw [locationKey, List.mem_append, not_or]
  exact ⟨by decide, not_mem_stdToString (by decide) (by decide) userId⟩

theorem cString_sessionKey : cString (sessionKey userId) = sessionKey userId :=
  cString_eq_self zero_not_mem_sessionKey

theorem generateToken_ne_nil (now : ℕ) : generateToken userId now ≠ [] := by
  simp [generateToken, ascii]

theorem exists_hset (r : Redis) (key field value : Bytes) : (r.hset key field value).exists? key = true := by
  simp [Redis.exists?, Redis.hset, AList.entries_insert]

/-- The world in which a session has been opened. -/
def opened (w : World c) (userId : ℤ) (device token : Bytes) : World c :=
  { w with
    redis := w.redis.hset (sessionKey userId) (cString device) token
    deadlines := Function.update w.deadlines (sessionKey userId) (some (w.now + 86400)) }

theorem leaves_storeToken {token : Bytes} (htoken : 0 ∉ token) :
    Leaves env w (storeToken userId device token) (opened w userId device token) [] () := by
  have hset : (w.authExec env (.hset (sessionKey userId) device token)).1 =
      { w with redis := w.redis.hset (sessionKey userId) (cString device) token } := by
    rw [World.authExec, Redis.hSet, cString_sessionKey, cString_eq_self htoken]
  refine (leaves_ask (.hset (sessionKey userId) device token)).bind ?_
  rw [hset]
  have hopened : ({ w with redis := w.redis.hset (sessionKey userId) (cString device) token } : World c).authExec env
      (.expire (sessionKey userId) (3600 * 24)) = (opened w userId device token, ()) := by
    rw [World.authExec, cString_sessionKey, World.settle, if_pos (exists_hset _ _ _ _)]
    rfl
  have hleaves : Leaves env { w with redis := w.redis.hset (sessionKey userId) (cString device) token }
      (ask (.expire (sessionKey userId) (3600 * 24))) _ _ _ := leaves_ask _
  rw [hopened] at hleaves
  exact hleaves

theorem leaves_openSession (row : UserRow) : Leaves env w (openSession row device)
    (opened w row.userId device (generateToken row.userId (env .now)))
    ((if w.redis.hGet (locationKey row.userId) device = [] then [] else
        [(ascii "im:kick", kickMsg row.userId (cString device))]) ++
      if w.redis.hGet (sessionKey row.userId) device = [] then [] else
        [(ascii "im:kick", kickMsg row.userId (cString device))])
    (none, { success := true, userId := row.userId, token := generateToken row.userId (env .now),
             nickname := row.nickname }) := by
  obtain ⟨url, hurl⟩ : ∃ url, Leaves env (opened w row.userId device (generateToken row.userId (env .now)))
      pickGateway _ [] url := leaves_pickGateway
  have hleaves : Leaves env w (openSession row device) _ ([] ++ (_ ++ ([] ++ ([] ++ [])))) _ :=
    (leaves_ask .now).bind
      (leaves_kickOut.bind ((leaves_storeToken (zero_not_mem_generateToken _ _)).bind (hurl.bind (leaves_done _))))
  simp only [List.nil_append, List.append_nil, cString_kickMsg] at hleaves
  exact hleaves

end Runs

section Keys

variable {r : Redis} {deadlines : Bytes → Option ℕ} {key key' field : Bytes}

theorem sessionKey_injective : Function.Injective sessionKey := by
  intro u v h
  exact stdToString_injective (List.append_cancel_left h)

theorem exists_of_hget (h : r.hget key field ≠ none) : r.exists? key = true := by
  rw [Redis.exists?, Bool.not_eq_true', List.isEmpty_eq_false_iff]
  intro hnil
  refine h (AList.lookup_eq_none.mpr ?_)
  rw [AList.mem_keys, AList.keys, hnil]
  exact List.not_mem_nil

/-- Only a key that has no field loses its deadline. -/
theorem settle_of_hget (h : r.hget key' field ≠ none) : World.settle r deadlines key key' = deadlines key' := by
  rw [World.settle]
  split_ifs with hexists
  · rfl
  · refine Function.update_of_ne ?_ _ _
    rintro rfl
    exact hexists (exists_of_hget h)

theorem settle_of_none (h : deadlines key' = none) : World.settle r deadlines key key' = none := by
  rw [World.settle]
  split_ifs
  · exact h
  · by_cases hkey : key' = key
    · rw [hkey, Function.update_self]
    · rw [Function.update_of_ne hkey, h]

theorem hget_pass {w : World c} (seconds : ℕ) (key field : Bytes) : (w.pass seconds).redis.hget key field =
    if World.expired (w.now + seconds) (w.deadlines key) then none else w.redis.hget key field := by
  rw [Redis.hget, World.pass]
  dsimp only
  split_ifs
  · exact AList.lookup_empty field
  · rfl

theorem hget_locate {w : World c} (u : ℤ) (device : Bytes) (addr : Option Bytes) (key d : Bytes) :
    (w.locate u device addr).redis.hget key d =
      if key = locationKey u ∧ d = cString device then addr.map cString else w.redis.hget key d := by
  cases addr with
  | none =>
    change (w.redis.hdel (locationKey u) (cString device)).hget key d = _
    split_ifs with hsame
    · rw [hsame.1, hsame.2]
      exact Redis.hget_hdel_same _ _
    · exact Redis.hget_hdel_of_ne (not_and_or.mp hsame)
  | some addr =>
    change (w.redis.hset (locationKey u) (cString device) (cString addr)).hget key d = _
    split_ifs with hsame
    · rw [hsame.1, hsame.2]
      exact Redis.hget_hset_same _ _ _
    · exact Redis.hget_hset_of_ne _ (not_and_or.mp hsame)

theorem written_hSet (h : Written r) (key field value : Bytes) : Written (r.hSet key field value) := by
  intro key' field' value' hvalue
  rw [Redis.hSet, Redis.hget_hset] at hvalue
  split_ifs at hvalue
  · obtain rfl := Option.some.inj hvalue
    exact zero_not_mem_cString
  · exact h key' field' value' hvalue

theorem written_hdel (h : Written r) (key field : Bytes) : Written (r.hdel key field) := by
  intro key' field' value hvalue
  by_cases hsame : key' = key ∧ field' = field
  · rw [hsame.1, hsame.2, Redis.hget_hdel_same] at hvalue
    cases hvalue
  · rw [Redis.hget_hdel_of_ne (not_and_or.mp hsame)] at hvalue
    exact h key' field' value hvalue

theorem written_del (h : Written r) (key : Bytes) : Written (r.del key) := by
  intro key' field' value hvalue
  by_cases hsame : key' = key
  · rw [hsame, Redis.hget_del_same] at hvalue
    cases hvalue
  · rw [Redis.hget_del_of_ne _ hsame] at hvalue
    exact h key' field' value hvalue

end Keys

section Holds

variable {w : World c} {m : Sessions c} (h : Holds w m)
include h

theorem hGet_location (u : ℤ) (device : Bytes) :
    w.redis.hGet (locationKey u) device = (m.location u (cString device)).getD [] := by
  rw [Redis.hGet, cString_locationKey, h.location]
  cases hvalue : m.location u (cString device) with
  | none => rfl
  | some value => exact cString_eq_self (h.written _ _ _ ((h.location u _).trans hvalue))

theorem hGet_session (u : ℤ) (device : Bytes) :
    w.redis.hGet (sessionKey u) device = (m.token u (cString device)).getD [] := by
  rw [Redis.hGet, cString_sessionKey, h.token]
  cases hvalue : m.token u (cString device) with
  | none => rfl
  | some value => exact cString_eq_self (h.written _ _ _ ((h.token u _).trans hvalue))

theorem hget_session_hset (u : ℤ) (device value : Bytes) (v : ℤ) (d : Bytes) :
    (w.redis.hset (sessionKey u) device value).hget (sessionKey v) d =
      (m.setToken u device (some value)).token v d := by
  rw [Sessions.token_setToken]
  split_ifs with hsame
  · rw [hsame.1, hsame.2, Redis.hget_hset_same]
  · rw [Redis.hget_hset_of_ne _ ((not_and_or.mp hsame).imp_left fun hne heq ↦ hne (sessionKey_injective heq)), h.token]

theorem holds_opened (u : ℤ) (device : Bytes) {token : Bytes} (htoken : 0 ∉ token) :
    Holds (opened w u device token) { m.setToken u (cString device) (some token) with
      expiry := Function.update m.expiry u (m.now + 86400) } where
  users := h.users
  texts := h.texts
  location v d := (Redis.hget_hset_of_ne _ (.inl (sessionKey_ne_locationKey u v).symm)).trans (h.location v d)
  token := hget_session_hset h u (cString device) token
  written := by
    have hwritten := written_hSet h.written (sessionKey u) device token
    rwa [Redis.hSet, cString_sessionKey, cString_eq_self htoken] at hwritten
  expiry := by
    intro v d hv
    dsimp only [opened]
    by_cases huser : v = u
    · rw [huser, Function.update_self, Function.update_self, h.now]
    · rw [Function.update_of_ne fun heq ↦ huser (sessionKey_injective heq), Function.update_of_ne huser]
      refine h.expiry v d ?_
      rwa [Sessions.token_setToken, if_neg fun hboth ↦ huser hboth.1] at hv
  lasting v := by
    have hsame : (opened w u device token).deadlines (locationKey v) = w.deadlines (locationKey v) := by
      dsimp only [opened]
      rw [Function.update_of_ne (sessionKey_ne_locationKey u v).symm]
    exact hsame.trans (h.lasting v)
  now := h.now

/-- Some tokens of a user are taken away. -/
theorem holds_removed (u : ℤ) {r : Redis} {token : ℤ → Bytes → Option Bytes}
    (hsession : ∀ v d, r.hget (sessionKey v) d = token v d)
    (hfewer : ∀ v d, token v d ≠ none → m.token v d ≠ none)
    (hlocation : ∀ v d, r.hget (locationKey v) d = w.redis.hget (locationKey v) d) (hwritten : Written r) :
    Holds { w with redis := r, deadlines := World.settle r w.deadlines (sessionKey u) }
      { m with token := token } where
  users := h.users
  texts := h.texts
  location v d := (hlocation v d).trans (h.location v d)
  token := hsession
  written := hwritten
  expiry v d hv := (settle_of_hget ((hsession v d).trans_ne hv)).trans (h.expiry v d (hfewer v d hv))
  lasting v := settle_of_none (h.lasting v)
  now := h.now

theorem holds_hdel (u : ℤ) (device : Bytes) :
    Holds { w with redis := w.redis.hdel (sessionKey u) device
                   deadlines := World.settle (w.redis.hdel (sessionKey u) device) w.deadlines (sessionKey u) }
      (m.setToken u device none) := by
  refine holds_removed h u ?_ ?_ ?_ (written_hdel h.written _ _)
  · intro v d
    rw [Sessions.update_device, ← h.token]
    split_ifs with hsame
    · rw [hsame.1, hsame.2, Redis.hget_hdel_same]
    · exact Redis.hget_hdel_of_ne ((not_and_or.mp hsame).imp_left fun hne heq ↦ hne (sessionKey_injective heq))
  · intro v d hv
    rw [Sessions.update_device] at hv
    split_ifs at hv
    · exact absurd rfl hv
    · exact hv
  · exact fun v d ↦ Redis.hget_hdel_of_ne (.inl (sessionKey_ne_locationKey u v).symm)

theorem holds_del (u : ℤ) :
    Holds { w with redis := w.redis.del (sessionKey u)
                   deadlines := World.settle (w.redis.del (sessionKey u)) w.deadlines (sessionKey u) }
      { m with token := Function.update m.token u fun _ ↦ none } := by
  refine holds_removed h u ?_ ?_ ?_ (written_del h.written _)
  · intro v d
    by_cases hv : v = u
    · rw [hv, Redis.hget_del_same, Function.update_self]
    · rw [Redis.hget_del_of_ne _ fun heq ↦ hv (sessionKey_injective heq), Function.update_of_ne hv, h.token]
  · intro v d hv
    by_cases huser : v = u
    · rw [huser, Function.update_self] at hv
      exact absurd rfl hv
    · rwa [Function.update_of_ne huser] at hv
  · exact fun v d ↦ Redis.hget_del_of_ne _ (sessionKey_ne_locationKey u v).symm

theorem holds_pass (seconds : ℕ) : Holds (w.pass seconds) (m.pass seconds) := by
  have hkept : ∀ u d, m.token u d ≠ none → (World.expired (w.now + seconds) (w.deadlines (sessionKey u)) = true ↔
      m.expiry u ≤ m.now + seconds) := by
    intro u d hu
    rw [h.expiry u d hu, h.now]
    exact decide_eq_true_iff
  refine ⟨h.users, h.texts, ?_, ?_, ?_, ?_, ?_, congrArg (· + seconds) h.now⟩
  · intro u d
    rw [hget_pass, h.lasting u]
    exact h.location u d
  · intro u d
    rw [hget_pass, h.token, Sessions.pass]
    by_cases hu : m.token u d = none
    · dsimp only
      rw [hu, ite_self, ite_self]
    · exact if_congr (hkept u d hu) rfl rfl
  · intro key field value hvalue
    rw [hget_pass] at hvalue
    split_ifs at hvalue
    exact h.written key field value hvalue
  · intro u d hu
    rw [Sessions.pass] at hu
    dsimp only at hu
    split_ifs at hu with hexpired
    · exact absurd rfl hu
    · have hlive : ¬ World.expired (w.now + seconds) (w.deadlines (sessionKey u)) = true :=
        fun hgone ↦ hexpired ((hkept u d hu).mp hgone)
      exact (if_neg hlive).trans (h.expiry u d hu)
  · intro u
    rw [World.pass]
    dsimp only
    rw [h.lasting u]
    rfl

theorem holds_locate (u : ℤ) (device : Bytes) (addr : Option Bytes) :
    Holds (w.locate u device addr) (m.locate u device addr) := by
  have hsession : ∀ v d, (w.locate u device addr).redis.hget (sessionKey v) d = m.token v d := fun v d ↦
    (hget_locate u device addr _ d).trans
      ((if_neg fun hboth ↦ sessionKey_ne_locationKey v u hboth.1).trans (h.token v d))
  refine ⟨h.users, h.texts, ?_, hsession, ?_, ?_, ?_, h.now⟩
  · intro v d
    rw [hget_locate, Sessions.location_locate, h.location]
    exact if_congr (and_congr_left' locationKey_injective.eq_iff) rfl rfl
  · intro key field value hvalue
    rw [hget_locate] at hvalue
    split_ifs at hvalue
    · obtain ⟨addr, -, rfl⟩ := Option.map_eq_some_iff.mp hvalue
      exact zero_not_mem_cString
    · exact h.written key field value hvalue
  · exact fun v d hv ↦ (settle_of_hget ((hsession v d).trans_ne hv)).trans (h.expiry v d hv)
  · exact fun v ↦ settle_of_none (h.lasting v)

theorem holds_insert (username password nickname : Bytes) (hpassword : 0 ∉ password) (hnickname : 0 ∉ nickname) :
    Holds { w with users := (w.users.insert username password nickname).1 }
      { m with users := (m.users.insert username password nickname).1 } := by
  refine { h with users := by rw [h.users], texts := ?_ }
  intro u hu
  rcases rows_insert username password nickname u hu with hu | rfl
  · exact h.texts u hu
  · exact ⟨hpassword, hnickname⟩

/-- What the columns of a user hold reaches `Login` whole. -/
theorem fetched_of_find {username : Bytes} {u : User} (hu : w.users.find username = some u) :
    u.fetched = ⟨u.userId, u.nickname, u.passwordHash⟩ := by
  obtain ⟨hpassword, hnickname⟩ := h.texts u (List.mem_of_find?_eq_some hu)
  rw [User.fetched, cString_eq_self hnickname, cString_eq_self hpassword]

end Holds

section Handlers

variable {w : World c} {m : Sessions c}

/-- The services stay together, and the caller cannot tell them apart. -/
def Agree (x : World c × Answered) (y : Sessions c × Answered) : Prop := Holds x.1 y.1 ∧ x.2 = y.2

theorem agree_register (h : Holds w m) (connected : Bool) {req : RegisterReq}
    (hplain : Plain req.username ∧ Plain req.password ∧ Plain req.nickname) :
    Agree (Accounts.serve w (.register connected req)) (Sessions.serve m (.register connected req)) := by
  rw [Accounts.serve, Sessions.serve, Registration.register, Sessions.register]
  by_cases hempty : req.username = [] ∨ req.password = []
  · rw [if_pos hempty, if_pos hempty]
    exact ⟨h, rfl⟩
  · rw [if_neg hempty, if_neg hempty, run_perform_bind]
    cases connected with
    | false => exact ⟨h, rfl⟩
    | true =>
      have hinsert := insertUser_of_plain (t := w.users) hplain
      have hholds := holds_insert h req.username req.password req.nickname hplain.2.1.1 hplain.2.2.1
      refine ⟨?_, ?_⟩
      · change Holds { w with users := (w.users.insertUser (cString (registerSql req))).1 } _
        rw [hinsert]
        exact hholds
      · change (Outcome.registered (Registration.finishRegister (w.users.insertUser (cString (registerSql req))).2),
          ([] : List (Bytes × Bytes))) = _
        rw [hinsert, h.users]
        rfl

/-- A handler whose run is known. -/
theorem agree_of_leaves {env : Env} {p : Handler (Status × LoginResp)} {w' : World c} {l : List (Bytes × Bytes)}
    {reply : Status × LoginResp} {y : Sessions c × Answered} (hleaves : Leaves env w p w' l reply)
    (hholds : Holds w' y.1) (hreply : y.2 = (.loggedIn reply, l)) :
    Agree ((run (fun _ ↦ World.authExec env) 0 w p).state,
      .loggedIn (run (fun _ ↦ World.authExec env) 0 w p).value,
      (run (fun _ ↦ World.authExec env) 0 w p).issued.filterMap notice) y := by
  obtain ⟨hstate, hissued, hvalue⟩ := hleaves 0
  refine ⟨?_, ?_⟩
  · rw [hstate]
    exact hholds
  · rw [hvalue, hissued, hreply]

theorem leaves_select {env : Env} {username : Bytes} (hplain : Plain username) (hfits : username.length ≤ 185) :
    Leaves env w (ask (.selectUser (loginSql username))) w [] (some ((w.users.find username).map User.fetched)) := by
  have hleaves : Leaves env w (ask (.selectUser (loginSql username))) _ _ _ := leaves_ask _
  rw [World.authExec, selectUser_of_plain hplain hfits] at hleaves
  exact hleaves

/-- What `Login` does with the answer to its query. -/
def found (req : LoginReq) : Option UserRow → Handler (Status × LoginResp)
  | none => refuse "User not found"
  | some row =>
    if row.passwordHash ≠ req.password then refuse "Invalid password" else openSession row (deviceOf req)

theorem leaves_login {env : Env} {req : LoginReq} (hvalid : env .connectRead = true) (hplain : Plain req.username)
    (hfits : req.username.length ≤ 185) {w' : World c} {l : List (Bytes × Bytes)} {reply : Status × LoginResp}
    (hfound : Leaves env w (found req ((w.users.find req.username).map User.fetched)) w' l reply) :
    Leaves env w (Auth.login req) w' l reply := by
  refine (leaves_ask (w := w) .connectRead).bind ?_
  change Leaves env w (if !env .connectRead then _ else _) w' l reply
  rw [hvalid]
  refine (leaves_select hplain hfits).bind ?_
  cases hfind : (w.users.find req.username).map User.fetched with
  | none =>
    rw [hfind] at hfound
    exact hfound
  | some row =>
    rw [hfind] at hfound
    exact hfound

theorem agree_login (h : Holds w m) (env : Env) {req : LoginReq} (hplain : Plain req.username)
    (hfits : req.username.length ≤ 185) :
    Agree (Accounts.serve w (.login env req)) (Sessions.serve m (.login env req)) := by
  rw [Accounts.serve, Sessions.serve, Sessions.login]
  cases hvalid : env .connectRead with
  | false =>
    have hleaves : Leaves env w (Auth.login req) w [] (some (ascii "Database error"), {}) := by
      refine (leaves_ask (w := w) .connectRead).bind ?_
      change Leaves env w (if !env .connectRead then _ else _) w [] _
      rw [hvalid]
      exact leaves_done _
    exact agree_of_leaves hleaves h rfl
  | true =>
    cases hfind : w.users.find req.username with
    | none =>
      have hleaves := leaves_login (w := w) hvalid hplain hfits (by rw [hfind]; exact leaves_done _)
      rw [← h.users, hfind]
      exact agree_of_leaves hleaves h rfl
    | some u =>
      rw [← h.users, hfind]
      by_cases hpassword : u.passwordHash = req.password
      · have hfound : found req ((w.users.find req.username).map User.fetched) =
            openSession ⟨u.userId, u.nickname, u.passwordHash⟩ (deviceOf req) := by
          rw [hfind, Option.map_some, fetched_of_find h hfind]
          exact if_neg (not_not_intro hpassword)
        have hleaves := leaves_login (w := w) hvalid hplain hfits (by rw [hfound]; exact leaves_openSession _)
        refine agree_of_leaves hleaves ?_ ?_
        · simp only [if_true, hpassword]
          exact holds_opened h u.userId (deviceOf req) (zero_not_mem_generateToken _ _)
        · simp only [if_true, hpassword, Sessions.kicks, Sessions.kick, hGet_location h, hGet_session h]
      · have hfound : found req ((w.users.find req.username).map User.fetched) = refuse "Invalid password" := by
          rw [hfind, Option.map_some, fetched_of_find h hfind]
          exact if_pos hpassword
        have hleaves := leaves_login (w := w) hvalid hplain hfits (by rw [hfound]; exact leaves_done _)
        refine agree_of_leaves hleaves ?_ ?_
        · simp only [if_true, hpassword, if_false]
          exact h
        · simp only [if_true, hpassword, if_false]

theorem agree_logout (h : Holds w m) (env : Env) (req : LogoutReq) :
    Agree (Accounts.serve w (.logout env req)) (Sessions.serve m (.logout env req)) := by
  rw [Accounts.serve, Sessions.serve, Auth.logout, Sessions.logout]
  by_cases hdevice : req.device = []
  · rw [if_pos hdevice, if_pos hdevice]
    refine ⟨?_, rfl⟩
    have hholds := holds_del h req.userId
    rw [← cString_sessionKey] at hholds
    exact hholds
  · rw [if_neg hdevice, if_neg hdevice]
    refine ⟨?_, ?_⟩
    · have hholds := holds_hdel h req.userId (cString req.device)
      rw [← cString_sessionKey] at hholds
      exact hholds
    · change (Outcome.loggedOut, [(cString (ascii "im:kick"), cString (kickMsg req.userId req.device))]) = _
      rw [cString_kickMsg]
      rfl

theorem agree_handshake (h : Holds w m) (q : Query) :
    Agree (Accounts.serve w (.handshake q)) (Sessions.serve m (.handshake q)) := by
  refine ⟨h, congrArg (fun u ↦ (Outcome.authenticated u, [])) ?_⟩
  rw [Handshake.authenticate_eq, Sessions.authenticate, hGet_session h]
  refine if_congr (and_congr_right fun _ ↦ and_congr_right fun htoken ↦ ?_) rfl rfl
  cases m.token q.userId (cString q.device) with
  | none => exact iff_of_false htoken.symm (Option.some_ne_none _).symm
  | some token => exact (Option.some_inj).symm

end Handlers

theorem simulates : Simulates (Accounts.serve (c := c)) Sound Sessions.serve Holds := by
  intro w m call hsound h
  cases call with
  | register connected req => exact agree_register h connected hsound
  | login env req => exact agree_login h env hsound.1 hsound.2
  | logout env req => exact agree_logout h env req
  | handshake q => exact agree_handshake h q
  | locate userId device addr => exact ⟨holds_locate h userId device addr, rfl⟩
  | pass seconds => exact ⟨holds_pass h seconds, rfl⟩

theorem holds_start : Holds (.start : World c) .start where
  users := rfl
  texts _ hu := absurd hu List.not_mem_nil
  location _ _ := rfl
  token _ _ := rfl
  written _ _ _ hvalue := absurd hvalue nofun
  expiry _ _ hv := absurd rfl hv
  lasting _ := rfl
  now := rfl

/-- Usernames that are compared byte by byte, and columns of any size. -/
def binary : Columns where
  same a b := a = b
  equivalence := ⟨fun _ ↦ decide_eq_true rfl, fun h ↦ decide_eq_true (of_decide_eq_true h).symm,
    fun h h' ↦ decide_eq_true ((of_decide_eq_true h).trans (of_decide_eq_true h'))⟩
  takes _ _ _ := true

/-- All connections work, and the clock says 7. -/
def calm : Env
  | .connectRead => true
  | .selectUser _ => none
  | .now => 7
  | .hget _ _ => []
  | .publish _ _ => ()
  | .hset _ _ _ => ()
  | .expire _ _ => ()
  | .keys _ => []
  | .uniform _ => 0
  | .get _ => []
  | .del _ => ()
  | .hdel _ _ => ()

/-- A user signs up, signs in twice, and comes back when the day is over. -/
def day : List Call :=
  [.register true { username := ascii "ann", password := ascii "pw" },
    .login calm { username := ascii "ann", password := ascii "pw" },
    .login calm { username := ascii "ann", password := ascii "pw", device := ascii "PC" },
    .pass 86399, .handshake ⟨1, ascii "token_1_7", ascii "PC"⟩,
    .pass 1, .handshake ⟨1, ascii "token_1_7", ascii "PC"⟩]

end TinyIM.Auth.AccountService
