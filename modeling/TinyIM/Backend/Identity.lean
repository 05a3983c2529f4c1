import TinyIM.Auth.SessionLife
import TinyIM.Backend.Installation

namespace TinyIM.Backend.Identity

open Auth.Accounts (Answered Columns Sessions)
open Auth.AccountService (binary calm cString_locationKey exists_hset)
open Auth.Handshake (Query authenticate onRead parseTarget)
open Auth.SessionLife (Alive NoLogin Spares alive_serve ann expiry_serve fromPC login_cases now_serve plain_ann seconds
  token_signedIn)
open Gateway (Codec Effect Session handlePacket locationKey onAccept onReadError)
open Gateway.Dispatch (handlePacket_of_none handlePacket_of_some loginCodec newUser)
open Gateway.Location (OnLocation onLocation_of_local)
open Installation (Event Outcome State Sound answerOf)
open Library.ByteOrder Library.Delimited Library.Service Protocol
open Services (Env)

variable {c : Columns}

section Sessions

variable {m : Sessions c} {k : ℤ} {device token : Bytes}

/-- The reply of a login that has signed the user in on the device. -/
def SignsIn (k : ℤ) (device token : Bytes) : Auth.Accounts.Call → Answered → Prop
  | .login _ req, (.loggedIn (none, resp), _) =>
    resp.success = true ∧ resp.userId = k ∧ resp.token = token ∧ cString (Auth.deviceOf req) = device
  | _, _ => False

/-- A token was there before, or the call is the login that has set it. -/
theorem token_origin (call : Auth.Accounts.Call) (h : (Sessions.serve m call).1.token k device = some token) :
    m.token k device = some token ∧ Spares k device call (Sessions.serve m call).2 ∨
      SignsIn k device token call (Sessions.serve m call).2 := by
  cases call with
  | register connected req =>
    rw [Sessions.serve, Sessions.register] at h
    split_ifs at h <;> exact .inl ⟨h, trivial⟩
  | login env req =>
    obtain ⟨reply, hlogin, hfailed⟩ | ⟨u, -, hlogin⟩ := login_cases m env req
    · rw [hlogin] at h ⊢
      refine .inl ⟨h, ?_⟩
      rintro ⟨hsuccess, -⟩
      rw [hfailed] at hsuccess
      cases hsuccess
    · rw [hlogin] at h ⊢
      rw [token_signedIn] at h
      split_ifs at h with hsame
      · exact .inr ⟨rfl, hsame.1.symm, Option.some.inj h, hsame.2.symm⟩
      · exact .inl ⟨h, fun hspares ↦ hsame ⟨hspares.2.1.symm, hspares.2.2.symm⟩⟩
  | logout env req =>
    rw [Sessions.serve, Sessions.logout] at h
    split_ifs at h with hdevice
    · dsimp only at h
      by_cases huser : k = req.userId
      · rw [huser, Function.update_self] at h
        cases h
      · rw [Function.update_of_ne huser] at h
        exact .inl ⟨h, fun hsame ↦ absurd hsame.symm huser⟩
    · rw [Sessions.token_setToken] at h
      split_ifs at h with hsame
      exact .inl ⟨h, fun huser ↦ ⟨hdevice, fun hdev ↦ hsame ⟨huser.symm, hdev.symm⟩⟩⟩
  | handshake q => exact .inl ⟨h, trivial⟩
  | locate userId d addr => exact .inl ⟨h, trivial⟩
  | pass n =>
    dsimp only [Sessions.serve, Sessions.pass] at h
    split_ifs at h
    exact .inl ⟨h, trivial⟩

end Sessions

section Gateways

variable {st : State c} {m : Sessions c}

theorem auth_hset (env : Env) (st : State c) (u : ℤ) (device addr : Bytes) :
    (State.perform env st (.hset (locationKey u) device addr)).auth = st.auth.locate u device (some addr) := by
  rw [State.perform, State.setAuth, cString_locationKey, Auth.Accounts.World.locate]
  dsimp only
  rw [Auth.Accounts.World.settle, if_pos (exists_hset _ _ _ _)]

theorem auth_hdel (env : Env) (st : State c) (u : ℤ) (device : Bytes) :
    (State.perform env st (.hdel (locationKey u) device)).auth = st.auth.locate u device none := by
  rw [State.perform, State.setAuth, cString_locationKey, Auth.Accounts.World.locate]

/-- A gateway writes locations only. -/
theorem sessions_of_effects (st : State c) (h : Auth.Accounts.Holds st.auth m) (env : Env) (effects : List Effect)
    (hlocations : ∀ ef ∈ effects, ∃ u, OnLocation u ef) :
    ∃ m', Auth.Accounts.Holds (effects.foldl (State.perform env) st).auth m' ∧
      m'.token = m.token ∧ m'.expiry = m.expiry ∧ m'.now = m.now := by
  induction effects generalizing st m with
  | nil => exact ⟨m, h, rfl, rfl, rfl⟩
  | cons ef effects ih =>
    rw [List.forall_mem_cons] at hlocations
    obtain ⟨⟨u, hu⟩, hrest⟩ := hlocations
    have hone : ∃ m', Auth.Accounts.Holds (State.perform env st ef).auth m' ∧
        m'.token = m.token ∧ m'.expiry = m.expiry ∧ m'.now = m.now := by
      cases ef with
      | hset key field value =>
        obtain rfl := hu
        rw [auth_hset]
        exact ⟨_, Auth.AccountService.holds_locate h u field (some value), rfl, rfl, rfl⟩
      | hdel key field =>
        obtain rfl := hu
        rw [auth_hdel]
        exact ⟨_, Auth.AccountService.holds_locate h u field none, rfl, rfl, rfl⟩
      | _ => exact ⟨m, h, rfl, rfl, rfl⟩
    obtain ⟨m', hm', htoken, hexpiry, hnow⟩ := hone
    obtain ⟨m'', hm'', htoken', hexpiry', hnow'⟩ := ih _ hm' hrest
    exact ⟨m'', hm'', htoken'.trans htoken, hexpiry'.trans hexpiry, hnow'.trans hnow⟩

theorem session_of_effects (env : Env) (effects : List Effect) :
    (effects.foldl (State.perform env) st).session = st.session := by
  induction effects generalizing st with
  | nil => rfl
  | cons ef effects ih =>
    refine ih.trans ?_
    cases ef <;> rfl

end Gateways

section Histories

variable (e : Endian) (pb : Codec) (first : State c)

/-- The event takes no part in the session of the device. -/
def SparesToken (k : ℤ) (device : Bytes) : Event → Outcome → Prop
  | .account call, .account answered => Spares k device call answered
  | _, _ => True

def elapsed (events : List Event) : ℕ :=
  (events.map fun
    | .account call => seconds call
    | _ => 0).sum

/-- A login has returned the token for the device, and it has not been replaced
or revoked since. -/
def Issued (events : List Event) (k : ℤ) (device token : Bytes) : Prop :=
  ∃ before call after, events = before ++ .account call :: after ∧
    SignsIn k device token call (Auth.Accounts.serve (final (State.serve e pb) first before).auth call).2 ∧
    ∀ x ∈ after.zip (replies (State.serve e pb) (final (State.serve e pb) first (before ++ [.account call])) after),
      SparesToken k device x.1 x.2

/-- The user has signed in on some device, less than a day ago. -/
def Recent (events : List Event) (k : ℤ) : Prop :=
  ∃ before call after device token, events = before ++ .account call :: after ∧
    SignsIn k device token call (Auth.Accounts.serve (final (State.serve e pb) first before).auth call).2 ∧
    elapsed after < 86400

/-- The connection is open since a handshake with a good token of the user, or
an anonymous session on it has named the user in a login packet. -/
def Entered (events : List Event) (i : ℕ) (k : ℤ) : Prop :=
  (∃ before target port after q, events = before ++ .connect i target port :: after ∧ .close i ∉ after ∧
    parseTarget target = some q ∧ q.userId = k ∧ Issued e pb first before k (cString q.device) q.token ∧
    Recent e pb first before k) ∨
  ∃ before p port env after s, events = before ++ .packet i p port env :: after ∧ .close i ∉ after ∧
    (final (State.serve e pb) first before).session i = some s ∧ newUser pb s p = some k

variable {e pb first} {events : List Event} {k : ℤ} {device token : Bytes}

theorem Issued.concat (h : Issued e pb first events k device token) {ev : Event}
    (hspares : SparesToken k device ev (State.serve e pb (final (State.serve e pb) first events) ev).2) :
    Issued e pb first (events ++ [ev]) k device token := by
  obtain ⟨before, call, after, rfl, hsigned, hafter⟩ := h
  refine ⟨before, call, after ++ [ev], by simp, hsigned, ?_⟩
  intro x hx
  rw [replies_append, List.zip_append length_replies.symm] at hx
  rcases List.mem_append.mp hx with hold | hnew
  · exact hafter x hold
  · obtain rfl := List.mem_singleton.mp hnew
    rwa [← final_append, List.append_assoc, List.singleton_append]

theorem elapsed_concat (events : List Event) (ev : Event) :
    elapsed (events ++ [ev]) = elapsed events + elapsed [ev] := by
  rw [elapsed, List.map_append, List.sum_append]
  rfl

theorem Entered.concat {i : ℕ} (h : Entered e pb first events i k) {ev : Event} (hopen : ev ≠ .close i) :
    Entered e pb first (events ++ [ev]) i k := by
  have hstays : ∀ {after : List Event}, .close i ∉ after → .close i ∉ after ++ [ev] := by
    intro after hafter hclose
    rcases List.mem_append.mp hclose with hold | hnew
    · exact hafter hold
    · exact hopen (List.mem_singleton.mp hnew).symm
  obtain ⟨before, target, port, after, q, rfl, hafter, hrest⟩ |
    ⟨before, p, port, env, after, s, rfl, hafter, hrest⟩ := h
  · exact .inl ⟨before, target, port, after ++ [ev], q, by simp, hstays hafter, hrest⟩
  · exact .inr ⟨before, p, port, env, after ++ [ev], s, by simp, hstays hafter, hrest⟩

end Histories

section Events

variable {e : Endian} {pb : Codec} {st : State c} {m : Sessions c}

theorem onLocation_onAccept (s : Session) (port : Option ℕ) : ∀ ef ∈ onAccept s port, ∃ u, OnLocation u ef := by
  unfold onAccept
  split_ifs
  · cases port with
    | none => simp [OnLocation]
    | some port => simp [OnLocation]
  · simp

theorem onLocation_handlePacket (e : Endian) (pb : Codec) (out : Gateway.Surroundings) (s : Session) (p : Packet) :
    ∀ ef ∈ (handlePacket e pb out s p).effects, ∃ u, OnLocation u ef := by
  intro ef hef
  cases hnew : newUser pb s p with
  | none => exact ⟨0, onLocation_of_local (handlePacket_of_none e pb out s hnew).2 ef hef⟩
  | some id =>
    rw [handlePacket_of_some e pb out s hnew] at hef
    refine ⟨id, ?_⟩
    revert ef
    cases out.localEndpoint with
    | none => simp [OnLocation]
    | some port => simp [OnLocation, Gateway.reply]

/-- Only a call of the auth service, and time, change the tokens. -/
theorem sessions_of_event (h : Auth.Accounts.Holds st.auth m) {ev : Event} (hsound : Sound pb st ev) :
    ∃ m', Auth.Accounts.Holds (State.serve e pb st ev).1.auth m' ∧
      ((∃ call, ev = .account call ∧ m' = (Sessions.serve m call).1 ∧
          (Auth.Accounts.serve st.auth call).2 = (Sessions.serve m call).2) ∨
        (∀ call, ev ≠ .account call) ∧ m'.token = m.token ∧ m'.expiry = m.expiry ∧ m'.now = m.now) := by
  cases ev with
  | account call =>
    obtain ⟨hholds, hreply⟩ := Auth.AccountService.simulates st.auth m call hsound h
    exact ⟨_, hholds, .inl ⟨call, rfl, rfl, hreply⟩⟩
  | clock now => exact ⟨m, h, .inr ⟨by rintro _ ⟨⟩, rfl, rfl, rfl⟩⟩
  | connect i target port =>
    rw [State.serve]
    split
    · next s _ _ =>
      obtain ⟨m', hm', hsame⟩ := sessions_of_effects (st.setSession i (some s)) h .calm (onAccept s port)
        (onLocation_onAccept s port)
      exact ⟨m', hm', .inr ⟨by rintro _ ⟨⟩, hsame⟩⟩
    · exact ⟨m, h, .inr ⟨by rintro _ ⟨⟩, rfl, rfl, rfl⟩⟩
  | packet i p port env =>
    cases hs : st.session i with
    | none =>
      rw [State.serve_packet_none hs]
      exact ⟨m, h, .inr ⟨by rintro _ ⟨⟩, rfl, rfl, rfl⟩⟩
    | some s =>
      rw [State.serve_packet hs]
      obtain ⟨m', hm', hsame⟩ := sessions_of_effects (st.setSession i _) h env _
        (onLocation_handlePacket e pb ⟨answerOf st.servers env, port⟩ s p)
      exact ⟨m', hm', .inr ⟨by rintro _ ⟨⟩, hsame⟩⟩
  | close i =>
    rw [State.serve]
    split
    · next s _ =>
      obtain ⟨m', hm', hsame⟩ := sessions_of_effects (st.setSession i none) h .calm
        (onReadError s) (by simp [onReadError, OnLocation])
      exact ⟨m', hm', .inr ⟨by rintro _ ⟨⟩, hsame⟩⟩
    · exact ⟨m, h, .inr ⟨by rintro _ ⟨⟩, rfl, rfl, rfl⟩⟩

end Events

section Runs

variable {e : Endian} {pb : Codec} {first : State c} {events : List Event} {st : State c} {m : Sessions c}

theorem signsIn_of_login {k : ℤ} {call : Auth.Accounts.Call} (h : ¬ NoLogin k call (Sessions.serve m call).2) :
    seconds call = 0 ∧ ∃ device token, SignsIn k device token call (Sessions.serve m call).2 := by
  cases call with
  | login env req =>
    obtain ⟨reply, hlogin, hfailed⟩ | ⟨u, -, hlogin⟩ := login_cases m env req
    · rw [hlogin] at h
      refine absurd ?_ h
      rintro ⟨hsuccess, -⟩
      rw [hfailed] at hsuccess
      cases hsuccess
    · rw [hlogin] at h ⊢
      exact ⟨rfl, _, _, rfl, (not_not.mp h).2, rfl, rfl⟩
  | _ => exact absurd trivial h

/-- The tokens and their times, as the run explains them. -/
structure Explained (e : Endian) (pb : Codec) (first : State c) (events : List Event) (m : Sessions c) : Prop where
  alive : Alive m
  issued : ∀ k device token, m.token k device = some token → Issued e pb first events k device token
  recent : ∀ k, m.expiry k ≤ m.now ∨ ∃ before call after device token, events = before ++ .account call :: after ∧
    SignsIn k device token call (Auth.Accounts.serve (final (State.serve e pb) first before).auth call).2 ∧
    m.expiry k + elapsed after = m.now + 86400

theorem Explained.to_recent (h : Explained e pb first events m) {k : ℤ} (device : Bytes)
    (htoken : m.token k device ≠ none) : Recent e pb first events k := by
  have halive := h.alive k device htoken
  obtain hover | ⟨before, call, after, device', token, hevents, hsigned, htime⟩ := h.recent k
  · exact absurd halive (not_lt.mpr hover)
  · exact ⟨before, call, after, device', token, hevents, hsigned, by omega⟩

theorem Explained.call (h : Explained e pb first events m) {call : Auth.Accounts.Call}
    (hreply : (Auth.Accounts.serve (final (State.serve e pb) first events).auth call).2 = (Sessions.serve m call).2) :
    Explained e pb first (events ++ [.account call]) (Sessions.serve m call).1 where
  alive := alive_serve h.alive call
  issued k device token htoken := by
    obtain ⟨hold, hspares⟩ | hsigned := token_origin call htoken
    · refine (h.issued k device token hold).concat ?_
      rw [← hreply] at hspares
      exact hspares
    · rw [← hreply] at hsigned
      exact ⟨events, call, [], rfl, hsigned, fun _ hx ↦ absurd hx List.not_mem_nil⟩
  recent k := by
    have hnow := now_serve m call
    obtain hsame | ⟨hlogin, hexpiry⟩ := expiry_serve m k call
    · obtain hover | ⟨before, call', after, device, token, rfl, hsigned, htime⟩ := h.recent k
      · exact .inl (by omega)
      · refine .inr ⟨before, call', after ++ [.account call], device, token, by simp, hsigned, ?_⟩
        have hseconds : elapsed [.account call] = seconds call := List.sum_singleton
        rw [elapsed_concat, hseconds]
        omega
    · obtain ⟨hseconds, device, token, hsigned⟩ := signsIn_of_login hlogin
      rw [← hreply] at hsigned
      refine .inr ⟨events, call, [], device, token, rfl, hsigned, ?_⟩
      have hnone : elapsed [] = 0 := rfl
      omega

theorem Explained.other (h : Explained e pb first events m) {m' : Sessions c} {ev : Event}
    (hother : ∀ call, ev ≠ .account call) (htoken : m'.token = m.token) (hexpiry : m'.expiry = m.expiry)
    (hnow : m'.now = m.now) : Explained e pb first (events ++ [ev]) m' where
  alive k device hv := by
    rw [htoken] at hv
    rw [hnow, hexpiry]
    exact h.alive k device hv
  issued k device token hv := by
    rw [htoken] at hv
    refine (h.issued k device token hv).concat ?_
    cases ev with
    | account call => exact absurd rfl (hother call)
    | _ => exact trivial
  recent k := by
    rw [hexpiry, hnow]
    refine (h.recent k).imp_right ?_
    rintro ⟨before, call, after, device, token, rfl, hsigned, htime⟩
    refine ⟨before, call, after ++ [ev], device, token, by simp, hsigned, ?_⟩
    have hseconds : elapsed [ev] = 0 := by
      cases ev with
      | account call => exact absurd rfl (hother call)
      | _ => rfl
    rw [elapsed_concat, hseconds]
    exact htime

theorem token_of_authenticate (h : Auth.Accounts.Holds st.auth m) {q : Query}
    (hu : 0 < authenticate st.auth.redis q) : authenticate st.auth.redis q = q.userId ∧
      m.token (authenticate st.auth.redis q) (cString q.device) = some q.token := by
  rw [Auth.Handshake.authenticate_eq, Auth.AccountService.hGet_session h] at hu ⊢
  split_ifs at hu ⊢ with hgood
  · refine ⟨rfl, ?_⟩
    obtain ⟨-, htoken, hkept⟩ := hgood
    cases hvalue : m.token q.userId (cString q.device) with
    | none =>
      rw [hvalue] at hkept
      exact absurd hkept.symm htoken
    | some token =>
      rw [hvalue] at hkept
      exact congrArg some hkept
  · exact absurd hu (lt_irrefl 0)

/-- Every session of a user has been entered. -/
theorem entered_of_event (h : Auth.Accounts.Holds (final (State.serve e pb) first events).auth m)
    (hexplained : Explained e pb first events m) (ev : Event)
    (hentered : ∀ i s, (final (State.serve e pb) first events).session i = some s → 0 < s.userId →
      Entered e pb first events i s.userId) (i : ℕ) (s : Session)
    (hs : (State.serve e pb (final (State.serve e pb) first events) ev).1.session i = some s) (hu : 0 < s.userId) :
    Entered e pb first (events ++ [ev]) i s.userId := by
  cases ev with
  | account call => exact (hentered i s hs hu).concat (by rintro ⟨⟩)
  | clock now => exact (hentered i s hs hu).concat (by rintro ⟨⟩)
  | connect j target port =>
    rw [State.serve] at hs
    split at hs
    · next s' _ hread =>
      rw [session_of_effects] at hs
      by_cases hij : i = j
      · subst hij
        obtain rfl := Option.some.inj ((Function.update_self i _ _).symm.trans hs)
        obtain ⟨q, hq, rfl⟩ := Option.map_eq_some_iff.mp hread
        obtain ⟨huser, htoken⟩ := token_of_authenticate h hu
        refine .inl ⟨events, target, port, [], q, rfl, List.not_mem_nil, hq, huser.symm, ?_, ?_⟩
        · exact hexplained.issued _ _ _ htoken
        · exact hexplained.to_recent (cString q.device) (by rw [htoken]; exact Option.some_ne_none _)
      · exact (hentered i s ((Function.update_of_ne hij _ _).symm.trans hs) hu).concat (by rintro ⟨⟩)
    · exact (hentered i s hs hu).concat (by rintro ⟨⟩)
  | packet j p port env =>
    cases hj : (final (State.serve e pb) first events).session j with
    | none =>
      rw [State.serve_packet_none hj] at hs
      exact (hentered i s hs hu).concat (by rintro ⟨⟩)
    | some t =>
      rw [State.serve_packet hj, session_of_effects] at hs
      by_cases hij : i = j
      · subst hij
        obtain rfl := Option.some.inj ((Function.update_self i _ _).symm.trans hs)
        cases hnew : newUser pb t p with
        | none =>
          rw [(handlePacket_of_none e pb _ t hnew).1] at hu ⊢
          exact (hentered i t hj hu).concat (by rintro ⟨⟩)
        | some id =>
          rw [handlePacket_of_some e pb _ t hnew]
          exact .inr ⟨events, p, port, env, [], t, rfl, List.not_mem_nil, hj, hnew⟩
      · exact (hentered i s ((Function.update_of_ne hij _ _).symm.trans hs) hu).concat (by rintro ⟨⟩)
  | close j =>
    rw [State.serve] at hs
    split at hs
    · rw [session_of_effects] at hs
      by_cases hij : i = j
      · subst hij
        cases (Function.update_self i _ _).symm.trans hs
      · refine (hentered i s ((Function.update_of_ne hij _ _).symm.trans hs) hu).concat ?_
        rintro ⟨⟩
        exact hij rfl
    · next hnone =>
      refine (hentered i s hs hu).concat ?_
      rintro ⟨⟩
      cases hnone.symm.trans hs

end Runs

/-- User 1 registers, signs in and connects. The session outlives the token. -/
def connected : List Event :=
  [.account (.register true ann), .account (.login calm fromPC),
    .connect 0 (ascii "/ws?id=1&token=token_1_7&device=PC") (some 9000), .account (.pass 100000)]

theorem plain_connected : Permits Auth.Accounts.serve Auth.Accounts.Sound (.start : Auth.Accounts.World binary)
    [.register true ann, .login calm fromPC] := ⟨plain_ann, ⟨plain_ann.1, by decide⟩, trivial⟩

theorem session_connected (pb : Codec) :
    (final (State.serve .little pb) (.start [] : State binary) connected).session 0 = some ⟨1, ascii "PC"⟩ := by
  obtain ⟨-, hholds⟩ := Auth.AccountService.simulates.replies_eq plain_connected Auth.AccountService.holds_start
  have hshown := (Auth.AccountService.simulates _ _ (.handshake ⟨1, ascii "token_1_7", ascii "PC"⟩) trivial hholds).2
  have hone : (Sessions.serve (final Sessions.serve (.start : Sessions binary) [.register true ann, .login calm fromPC])
      (.handshake ⟨1, ascii "token_1_7", ascii "PC"⟩)).2 = (.authenticated 1, []) := by decide +kernel
  have huser := Auth.Accounts.Outcome.authenticated.inj (Prod.mk.inj (hshown.trans hone)).1
  rw [final, final, final] at huser
  have hquery : parseTarget (ascii "/ws?id=1&token=token_1_7&device=PC") =
      some ⟨1, ascii "token_1_7", ascii "PC"⟩ := by decide +kernel
  rw [connected, final, final, final, final, final, State.session_account]
  have hread : onRead (State.serve .little pb (State.serve .little pb (.start [] : State binary)
      (.account (.register true ann))).1 (.account (.login calm fromPC))).1.auth.redis
        (ascii "/ws?id=1&token=token_1_7&device=PC") = some ⟨1, ascii "PC"⟩ := by
    rw [onRead, hquery, Option.map_some, State.auth_account, State.auth_account, State.auth_start, huser]
  have hfree : (State.serve .little pb (State.serve .little pb (.start [] : State binary)
      (.account (.register true ann))).1 (.account (.login calm fromPC))).1.session 0 = none := by
    rw [State.session_account, State.session_account]
    rfl
  rw [State.serve_connect hfree hread, session_of_effects, State.session_setSession, Function.update_self]

end TinyIM.Backend.Identity
