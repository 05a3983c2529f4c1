import TinyIM.Auth.AccountService

namespace TinyIM.Auth.SessionLife

open Accounts AccountService Library.ByteOrder Library.Delimited Library.Service Protocol
open Handshake (Query)
open PasswordLogin (User)
open Library.SqlStatement (Plain)
open Registration (RegisterReq)

variable {c : Columns}

section Users

variable {t : UserTable c} {username : Bytes} {u : User}

theorem find_insert (h : t.find username = some u) (name password nickname : Bytes) :
    (t.insert name password nickname).1.find username = some u := by
  rw [UserTable.insert]
  split_ifs
  · exact h
  · rw [UserTable.find, UserTable.add, List.find?_append]
    exact Option.or_eq_some_iff.mpr (.inl h)
  · exact h

/-- A user whose row has been added is found by each username that is the same. -/
theorem find_of_insert {name password nickname : Bytes} {id : ℕ}
    (h : (t.insert name password nickname).2 = some id) (hsame : c.same username name = true) :
    (t.insert name password nickname).1.find username = some ⟨id, name, password, nickname⟩ := by
  rw [UserTable.insert] at h ⊢
  split_ifs at h ⊢ with htakes hfree
  · obtain rfl := Option.some.inj h
    have hnone : t.rows.find? (fun u ↦ c.same username u.username) = none := by
      refine List.find?_eq_none.mpr ?_
      intro u hu hmatch
      have htaken : c.same u.username name = true := c.equivalence.trans (c.equivalence.symm hmatch) hsame
      rw [hfree u hu] at htaken
      cases htaken
    rw [UserTable.find, UserTable.add, List.find?_append, hnone, List.find?_singleton]
    exact if_pos hsame

end Users

/-- No call forgets a user. -/
theorem find_serve {m : Sessions c} {username : Bytes} {u : User} (h : m.users.find username = some u) (call : Call) :
    (Sessions.serve m call).1.users.find username = some u := by
  cases call with
  | register connected req =>
    rw [Sessions.serve, Sessions.register]
    split_ifs
    · exact h
    · exact find_insert h _ _ _
    · exact h
  | login env req =>
    rw [Sessions.serve, Sessions.login]
    dsimp only
    split_ifs
    · split
      · exact h
      · split_ifs <;> exact h
    · exact h
  | logout env req =>
    rw [Sessions.serve, Sessions.logout]
    split_ifs <;> exact h
  | handshake q => exact h
  | locate userId device addr => exact h
  | pass seconds => exact h

theorem find_final {m : Sessions c} {username : Bytes} {u : User} (h : m.users.find username = some u)
    (calls : List Call) : (final Sessions.serve m calls).users.find username = some u :=
  final_invariant (I := fun m : Sessions c ↦ m.users.find username = some u) (fun _ call hfound ↦ find_serve hfound call) h

theorem find_of_registered {m : Sessions c} {connected : Bool} {req : RegisterReq} {k : ℤ} {username : Bytes}
    (h : (Sessions.serve m (.register connected req)).2.1 = .registered (none, { success := true, userId := k }))
    (hsame : c.same username req.username = true) :
    (Sessions.serve m (.register connected req)).1.users.find username =
      some ⟨k, req.username, req.password, req.nickname⟩ := by
  rw [Sessions.serve, Sessions.register] at h ⊢
  split_ifs at h ⊢
  · exact absurd h (by simp)
  · dsimp only at h ⊢
    cases hid : (m.users.insert req.username req.password req.nickname).2 with
    | none =>
      rw [hid] at h
      exact absurd h (by simp [Registration.finishRegister])
    | some id =>
      rw [hid] at h
      have hk : (id : ℤ) = k := by simpa [Registration.finishRegister] using h
      rw [← hk]
      exact find_of_insert hid hsame
  · exact absurd h (by simp)

theorem reply_of_find {m : Sessions c} {env : Env} {req : LoginReq} {u : User}
    (hfind : m.users.find req.username = some u) (hvalid : env .connectRead = true) :
    (Sessions.serve m (.login env req)).2.1 = .loggedIn (if req.password = u.passwordHash then
      (none, { success := true, userId := u.userId, token := generateToken u.userId (env .now), nickname := u.nickname })
    else (none, { errorMessage := ascii "Invalid password" })) := by
  rw [Sessions.serve, Sessions.login, hfind, if_pos hvalid]
  dsimp only
  by_cases hpassword : u.passwordHash = req.password
  · rw [if_pos hpassword, if_pos hpassword.symm]
  · rw [if_neg hpassword, if_neg fun heq ↦ hpassword heq.symm]

/-- Who has registered can sign in for good, by the password alone. -/
theorem registered_signs_in {earlier : List Call} (hearlier : Permits Accounts.serve Sound (.start : World c) earlier)
    {connected : Bool} {req : RegisterReq} {k : ℤ}
    (hsound : Sound (final Accounts.serve (.start : World c) earlier) (.register connected req))
    (hreply : (Accounts.serve (final Accounts.serve (.start : World c) earlier) (.register connected req)).2.1 =
      .registered (none, { success := true, userId := k }))
    {later : List Call} (hlater : Permits Accounts.serve Sound
      (Accounts.serve (final Accounts.serve (.start : World c) earlier) (.register connected req)).1 later)
    {env : Env} {login : LoginReq} (hplain : Plain login.username ∧ login.username.length ≤ 185)
    (hvalid : env .connectRead = true) (hsame : c.same login.username req.username = true) :
    (Accounts.serve (final Accounts.serve
      (Accounts.serve (final Accounts.serve (.start : World c) earlier) (.register connected req)).1 later)
        (.login env login)).2.1 =
      .loggedIn (if login.password = req.password then
        (none, { success := true, userId := k, token := generateToken k (env .now), nickname := req.nickname })
      else (none, { errorMessage := ascii "Invalid password" })) := by
  obtain ⟨-, hholds⟩ := simulates.replies_eq hearlier holds_start
  obtain ⟨hregistered, hsamereply⟩ := simulates _ _ _ hsound hholds
  obtain ⟨-, hholds'⟩ := simulates.replies_eq hlater hregistered
  obtain ⟨-, hlogin⟩ := simulates _ _ (.login env login) hplain hholds'
  rw [hsamereply] at hreply
  have hfind := find_final (find_of_registered hreply hsame) later
  rw [hlogin]
  exact reply_of_find hfind hvalid

/-- The call takes no part in the session of the device. -/
def Spares (k : ℤ) (device : Bytes) : Call → Answered → Prop
  | .login _ req, (.loggedIn (_, resp), _) =>
    ¬ (resp.success = true ∧ resp.userId = k ∧ cString (deviceOf req) = device)
  | .logout _ req, _ => req.userId = k → req.device ≠ [] ∧ cString req.device ≠ device
  | _, _ => True

/-- The call does not sign the user in. -/
def NoLogin (k : ℤ) : Call → Answered → Prop
  | .login _ _, (.loggedIn (_, resp), _) => ¬ (resp.success = true ∧ resp.userId = k)
  | _, _ => True

def seconds : Call → ℕ
  | .pass n => n
  | _ => 0

def elapsed (calls : List Call) : ℕ := (calls.map seconds).sum

section Steps

variable {m : Sessions c} {k : ℤ} {device token : Bytes}

/-- What a login by the right password leaves and replies. -/
def signedIn (m : Sessions c) (u : User) (device : Bytes) (now : ℕ) : Sessions c :=
  { m.setToken u.userId device (some (generateToken u.userId now)) with
    expiry := Function.update m.expiry u.userId (m.now + 86400) }

def loginReply (u : User) (now : ℕ) : LoginResp :=
  { success := true, userId := u.userId, token := generateToken u.userId now, nickname := u.nickname }

/-- A login is refused, or it opens a session. -/
theorem login_cases (m : Sessions c) (env : Env) (req : LoginReq) :
    (∃ reply, Sessions.serve m (.login env req) = (m, .loggedIn reply, []) ∧ reply.2.success = false) ∨
      ∃ u ∈ m.users.rows, Sessions.serve m (.login env req) =
        (signedIn m u (cString (deviceOf req)) (env .now), .loggedIn (none, loginReply u (env .now)),
          m.kicks u.userId (cString (deviceOf req))) := by
  rw [Sessions.serve, Sessions.login]
  dsimp only
  split_ifs
  · cases hfind : m.users.find req.username with
    | none => exact .inl ⟨_, rfl, rfl⟩
    | some u =>
      dsimp only
      split_ifs
      · exact .inr ⟨u, List.mem_of_find?_eq_some hfind, rfl⟩
      · exact .inl ⟨_, rfl, rfl⟩
  · exact .inl ⟨_, rfl, rfl⟩

theorem token_signedIn (m : Sessions c) (u : User) (device : Bytes) (now : ℕ) (v : ℤ) (d : Bytes) :
    (signedIn m u device now).token v d =
      if v = u.userId ∧ d = device then some (generateToken u.userId now) else m.token v d :=
  Sessions.token_setToken m u.userId device _ v d

theorem expiry_signedIn (m : Sessions c) (u : User) (device : Bytes) (now : ℕ) (v : ℤ) :
    (signedIn m u device now).expiry v = if v = u.userId then m.now + 86400 else m.expiry v :=
  Function.update_apply _ _ _ _

theorem now_serve (m : Sessions c) (call : Call) : (Sessions.serve m call).1.now = m.now + seconds call := by
  cases call with
  | register connected req =>
    rw [Sessions.serve, Sessions.register]
    split_ifs <;> rfl
  | login env req =>
    obtain ⟨reply, hlogin, -⟩ | ⟨u, -, hlogin⟩ := login_cases m env req
    · rw [hlogin]
      rfl
    · rw [hlogin]
      rfl
  | logout env req =>
    rw [Sessions.serve, Sessions.logout]
    split_ifs <;> rfl
  | handshake q => rfl
  | locate userId device addr => rfl
  | pass seconds => rfl

/-- Only a login of the user changes when the tokens expire. -/
theorem expiry_serve (m : Sessions c) (k : ℤ) (call : Call) :
    (Sessions.serve m call).1.expiry k = m.expiry k ∨
      ¬ NoLogin k call (Sessions.serve m call).2 ∧ (Sessions.serve m call).1.expiry k = m.now + 86400 := by
  cases call with
  | register connected req =>
    rw [Sessions.serve, Sessions.register]
    split_ifs <;> exact .inl rfl
  | login env req =>
    obtain ⟨reply, hlogin, -⟩ | ⟨u, -, hlogin⟩ := login_cases m env req
    · rw [hlogin]
      exact .inl rfl
    · rw [hlogin]
      rw [expiry_signedIn]
      split_ifs with hk
      · exact .inr ⟨fun hnone ↦ hnone ⟨rfl, hk.symm⟩, rfl⟩
      · exact .inl rfl
  | logout env req =>
    rw [Sessions.serve, Sessions.logout]
    split_ifs <;> exact .inl rfl
  | handshake q => exact .inl rfl
  | locate userId device addr => exact .inl rfl
  | pass seconds => exact .inl rfl

theorem token_serve {call : Call} (h : m.token k device = some token)
    (hspares : Spares k device call (Sessions.serve m call).2) (hlive : m.now + seconds call < m.expiry k) :
    (Sessions.serve m call).1.token k device = some token := by
  cases call with
  | register connected req =>
    rw [Sessions.serve, Sessions.register]
    split_ifs <;> exact h
  | login env req =>
    obtain ⟨reply, hlogin, -⟩ | ⟨u, -, hlogin⟩ := login_cases m env req
    · rw [hlogin]
      exact h
    · rw [hlogin] at hspares ⊢
      rw [token_signedIn, if_neg fun hsame ↦ hspares ⟨rfl, hsame.1.symm, hsame.2.symm⟩]
      exact h
  | logout env req =>
    rw [Sessions.serve, Sessions.logout]
    split_ifs with hdevice
    · have huser : k ≠ req.userId := fun heq ↦ (hspares heq.symm).1 hdevice
      exact (congrFun (Function.update_of_ne huser _ _) device).trans h
    · refine (Sessions.token_setToken m _ _ _ _ _).trans ?_
      rw [if_neg fun hsame ↦ (hspares hsame.1.symm).2 hsame.2.symm]
      exact h
  | handshake q => exact h
  | locate userId device addr => exact h
  | pass n => exact (if_neg (not_le.mpr hlive)).trans h

/-- A token that is left has not expired. -/
def Alive (m : Sessions c) : Prop := ∀ u d, m.token u d ≠ none → m.now < m.expiry u

theorem alive_serve (h : Alive m) (call : Call) : Alive (Sessions.serve m call).1 := by
  cases call with
  | register connected req =>
    rw [Sessions.serve, Sessions.register]
    split_ifs <;> exact h
  | login env req =>
    obtain ⟨reply, hlogin, -⟩ | ⟨u, -, hlogin⟩ := login_cases m env req
    · rw [hlogin]
      exact h
    · rw [hlogin]
      intro v d hv
      change m.now < _
      rw [expiry_signedIn]
      split_ifs with huser
      · exact Nat.lt_add_of_pos_right (by decide)
      · rw [token_signedIn, if_neg fun hsame ↦ huser hsame.1] at hv
        exact h v d hv
  | logout env req =>
    rw [Sessions.serve, Sessions.logout]
    split_ifs
    · intro v d hv
      dsimp only at hv
      by_cases huser : v = req.userId
      · rw [huser, Function.update_self] at hv
        exact absurd rfl hv
      · rw [Function.update_of_ne huser] at hv
        exact h v d hv
    · intro v d hv
      rw [Sessions.token_setToken] at hv
      split_ifs at hv
      · exact absurd rfl hv
      · exact h v d hv
  | handshake q => exact h
  | locate userId device addr => exact h
  | pass n =>
    intro v d hv
    by_cases hexpired : m.expiry v ≤ m.now + n
    · exact absurd (if_pos hexpired) hv
    · exact not_le.mp hexpired

end Steps

section Runs

variable {m : Sessions c} {k : ℤ} {device token : Bytes} {calls : List Call} {deadline : ℕ}

theorem elapsed_cons (call : Call) (calls : List Call) : elapsed (call :: calls) = seconds call + elapsed calls :=
  List.sum_cons

theorem now_final (m : Sessions c) (calls : List Call) :
    (final Sessions.serve m calls).now = m.now + elapsed calls := by
  induction calls generalizing m with
  | nil => rfl
  | cons call calls ih => rw [final, ih, now_serve, elapsed_cons, Nat.add_assoc]

theorem token_final (h : m.token k device = some token) (hexpiry : deadline ≤ m.expiry k)
    (hday : deadline ≤ m.now + 86400) (helapsed : m.now + elapsed calls < deadline)
    (hspares : ∀ x ∈ calls.zip (replies Sessions.serve m calls), Spares k device x.1 x.2) :
    (final Sessions.serve m calls).token k device = some token := by
  induction calls generalizing m with
  | nil => exact h
  | cons call calls ih =>
    rw [elapsed_cons] at helapsed
    have hnow := now_serve m call
    have hlive : m.now + seconds call < m.expiry k := by omega
    have hnext := token_serve h (hspares (call, _) List.mem_cons_self) hlive
    have hlater : deadline ≤ (Sessions.serve m call).1.expiry k := by
      obtain hsame | ⟨-, hlogin⟩ := expiry_serve m k call
      · exact hsame ▸ hexpiry
      · exact hlogin ▸ hday
    exact ih hnext hlater (by rw [hnow]; omega) (by rw [hnow]; omega) fun x hx ↦ hspares x (List.mem_cons_of_mem _ hx)

theorem expiry_final (h : m.expiry k ≤ deadline)
    (hnone : ∀ x ∈ calls.zip (replies Sessions.serve m calls), NoLogin k x.1 x.2) :
    (final Sessions.serve m calls).expiry k ≤ deadline := by
  induction calls generalizing m with
  | nil => exact h
  | cons call calls ih =>
    refine ih ?_ fun x hx ↦ hnone x (List.mem_cons_of_mem _ hx)
    obtain hsame | ⟨hlogin, -⟩ := expiry_serve m k call
    · exact hsame ▸ h
    · exact absurd (hnone (call, _) List.mem_cons_self) hlogin

theorem alive_final (h : Alive m) : Alive (final Sessions.serve m calls) :=
  final_invariant (fun _ call halive ↦ alive_serve halive call) h

theorem alive_start : Alive (.start : Sessions c) := fun _ _ hv ↦ absurd rfl hv

end Runs

section Handshake

variable {m : Sessions c} {u : User} {device : Bytes} {now : ℕ} {later : List Call}

theorem handshake_in_time (hu : 0 < u.userId)
    (hspares : ∀ x ∈ later.zip (replies Sessions.serve (signedIn m u device now) later),
      Spares u.userId device x.1 x.2) (helapsed : elapsed later < 86400) {d : Bytes} (hd : cString d = device) :
    (final Sessions.serve (signedIn m u device now) later).authenticate ⟨u.userId, generateToken u.userId now, d⟩ =
      u.userId := by
  have htoken : (signedIn m u device now).token u.userId device = some (generateToken u.userId now) :=
    (token_signedIn m u device now _ _).trans (if_pos ⟨rfl, rfl⟩)
  have hexpiry : (signedIn m u device now).expiry u.userId = m.now + 86400 :=
    (expiry_signedIn m u device now _).trans (if_pos rfl)
  have hkept := token_final htoken hexpiry.ge le_rfl (Nat.add_lt_add_left helapsed m.now) hspares
  rw [Sessions.authenticate, hd, if_pos ⟨hu, generateToken_ne_nil now, hkept⟩]

theorem handshake_too_late (halive : Alive (signedIn m u device now))
    (hnone : ∀ x ∈ later.zip (replies Sessions.serve (signedIn m u device now) later), NoLogin u.userId x.1 x.2)
    (helapsed : 86400 ≤ elapsed later) (token d : Bytes) :
    (final Sessions.serve (signedIn m u device now) later).authenticate ⟨u.userId, token, d⟩ = 0 := by
  have hexpiry : (signedIn m u device now).expiry u.userId = m.now + 86400 :=
    (expiry_signedIn m u device now _).trans (if_pos rfl)
  have hover := expiry_final hexpiry.le hnone
  have hnow := now_final (signedIn m u device now) later
  have hgone : (final Sessions.serve (signedIn m u device now) later).token u.userId (cString d) = none := by
    by_contra hleft
    have hlive : _ < (final Sessions.serve (signedIn m u device now) later).expiry u.userId :=
      alive_final halive u.userId (cString d) hleft
    rw [hnow] at hlive
    exact absurd (hlive.trans_le hover) (not_lt.mpr (Nat.add_le_add_left helapsed m.now))
  refine if_neg ?_
  rintro ⟨-, -, hleft⟩
  cases hgone.symm.trans hleft

end Handshake

/-- The request of a user that signs up, and what is asked of the texts in it. -/
def ann : RegisterReq := { username := ascii "ann", password := ascii "pw", nickname := ascii "A" }

theorem plain_ann : Plain ann.username ∧ Plain ann.password ∧ Plain ann.nickname :=
  ⟨⟨by decide, trivial⟩, ⟨by decide, trivial⟩, by decide, trivial⟩

theorem serve_ann : (Accounts.serve (.start : World binary) (.register true ann)).2 =
    (.registered (none, { success := true, userId := 1 }), []) := by
  rw [(simulates _ _ (.register true ann) plain_ann holds_start).2]
  decide

/-- Who has tried to take the name in the meantime does not matter. -/
theorem registered_signs_in_ann :
    (Accounts.serve (final Accounts.serve (Accounts.serve (.start : World binary) (.register true ann)).1
      [.register true { ann with password := ascii "x" }, .pass 100000])
        (.login calm { username := ascii "ann", password := ascii "pw" })).2.1 =
      .loggedIn (none, { success := true, userId := 1, token := generateToken 1 7, nickname := ascii "A" }) := by
  have hearlier : Permits Accounts.serve Sound (.start : World binary) [] := trivial
  have hlater : Permits Accounts.serve Sound (Accounts.serve (.start : World binary) (.register true ann)).1
      [.register true { ann with password := ascii "x" }, .pass 100000] :=
    ⟨⟨plain_ann.1, ⟨by decide, trivial⟩, plain_ann.2.2⟩, trivial, trivial⟩
  exact registered_signs_in hearlier plain_ann (congrArg Prod.fst serve_ann) hlater ⟨plain_ann.1, by decide⟩ rfl
    (by decide)

def fromPC : LoginReq := { username := ascii "ann", password := ascii "pw" }

def fromPad : LoginReq := { fromPC with device := ascii "iPad" }

/-- A login from another device, whatever comes of it. -/
theorem spares_pad (w : World binary) :
    ∀ x ∈ [Call.login calm fromPad, .pass 3600].zip (replies Accounts.serve w [.login calm fromPad, .pass 3600]),
      Spares 1 (cString (deviceOf fromPC)) x.1 x.2 := by
  have hdevice : cString (deviceOf fromPad) ≠ cString (deviceOf fromPC) := by decide
  intro x hx
  rcases List.mem_cons.mp hx with rfl | hx
  · exact fun hsame ↦ hdevice hsame.2.2
  · obtain rfl := List.mem_singleton.mp hx
    exact trivial

end TinyIM.Auth.SessionLife
