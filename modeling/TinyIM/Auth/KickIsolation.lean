import TinyIM.Auth.KickRace

namespace TinyIM.Auth.KickIsolation

open Library.ByteOrder Library.Decimal Library.Delimited Library.Transition Library.Program
  Library.Interleaving Protocol Store Gateway Gateway.Cluster KickRace
open Dispatch (loginCodec)

/-- The user and device of a request. A login has none until it has found its
user. -/
def target : Request → Option ℤ → Option (ℤ × Bytes)
  | .login req, u => u.map fun userId ↦ (userId, deviceOf req)
  | .logout req, _ => some (req.userId, req.device)

def found : Option ℤ → (c : Command) → Answer c → Option ℤ
  | _, .selectUser _, some (some row) => some row.userId
  | u, _, _ => u

/-- A call publishes only for its own user and device, and only a logout
deletes. -/
def ownTarget (r : Request) : Contract Command Answer (Option ℤ) where
  may u
    | .publish channel msg => channel = ascii "im:kick" ∧
      ∃ userId device, target r u = some (userId, device) ∧ device ≠ [] ∧ msg = kickMsg userId device
    | .selectUser _ => u = none
    | .del _ | .hdel _ _ => ∃ req, r = .logout req
    | _ => True
  answers _ _ _ := True
  after := found

/-- The calls of `KickRace`, each with the user that it has found. -/
def system (e : Endian) (pb : Codec) :
    System Command Answer Unit (Option ℤ) World Request ((c : Command) → Answer c) Event where
  contract := ⟨fun _ _ ↦ True, fun _ _ _ ↦ True, found⟩
  fresh := none
  start := (KickRace.system e pb).start
  exec := exec
  outside := outside e pb

abbrev Calls := Served Command Answer Unit (Option ℤ) World Request

abbrev Step := Library.Interleaving.Action Request ((c : Command) → Answer c) Event

def start (r : Redis) : Calls := ⟨⟨KickRace.start r, []⟩, []⟩

/-- User ids have 64 bits, in the requests and in `im_user`. -/
def WellTyped (_ : Calls) : Step → Prop
  | .spawn (.logout req) => FitsInt64 req.userId
  | .step _ env => ∀ sql row, env (.selectUser sql) = some (some row) → FitsInt64 row.userId
  | _ => True

def BuiltFrom (requests : List Request) (users : List (Option ℤ)) (m : Message) (userId : ℤ)
    (device : Bytes) : Prop :=
  ∃ r u, requests[m.publisher]? = some r ∧ users[m.publisher]? = some u ∧
    target r u = some (userId, device) ∧ m.payload = cString (kickMsg userId device)

/-- Every message on its way to a gateway is read there as the user and device
it was built from, if the device has no NUL. -/
def Decoded (s : Calls) : Prop :=
  ∀ g, ∀ m ∈ s.pool.world.queues g, ∃ userId device,
    BuiltFrom s.requests s.pool.accounts m userId device ∧
      (0 ∉ device → decodeKick m.payload = some (userId, device)) ∧ device ≠ []

/-- A step kicks nobody, or it delivers a message and kicks sessions of the user
and device that the message was built from, if the device has no NUL. -/
def KicksOnlyTarget (s s' : Calls) (a : Step) : Prop :=
  s'.pool.world.gateways.kicked = s.pool.world.gateways.kicked ∨
  ∃ g m rest userId device, a = .outside (.deliver g) ∧ s.pool.world.queues g = m :: rest ∧
    BuiltFrom s.requests s.pool.accounts m userId device ∧ (0 ∉ device →
      s'.pool.world.gateways.kicked =
        s.pool.world.gateways.kicked ∪ s.pool.world.gateways.kicks g userId device ∧
      ∀ i ∈ s.pool.world.gateways.kicks g userId device,
        i ∈ (s.pool.world.gateways.managers g).sessions userId ∧
          s.pool.world.gateways.device i = device)

theorem decodeKick_kickMsg {userId : ℤ} (h : FitsInt64 userId) (device : Bytes) :
    decodeKick (kickMsg userId device) = some (userId, device) := by
  have hcolon : ∀ b ∈ stdToString userId, decide (b ≠ 58) = true := by
    intro b hb
    rw [decide_eq_true_eq]
    intro heq
    subst heq
    rcases isDigit_of_mem_stdToString hb with h | h <;> exact absurd h (by decide)
  have hmsg : kickMsg userId device = stdToString userId ++ 58 :: device := by
    rw [kickMsg, List.append_assoc]
    rfl
  rw [decodeKick, hmsg, List.dropWhile_append_of_pos hcolon, List.takeWhile_append_of_pos hcolon]
  simp [stoll_stdToString h]

section Contract

variable {r : Request} {t : Option ℤ} {userId : ℤ} {device : Bytes}

theorem publishKick_meets (htarget : target r t = some (userId, device)) (hdevice : device ≠ []) :
    Meets (ownTarget r) (fun t' _ ↦ t' = t) t (publishKick userId device) :=
  meets_perform.mpr ⟨⟨rfl, userId, device, htarget, hdevice, rfl⟩, fun _ _ ↦ rfl⟩

theorem storeToken_meets (token : Bytes) :
    Meets (ownTarget r) (fun _ _ ↦ True) t (storeToken userId device token) := by
  refine meets_perform_bind.mpr ⟨trivial, ?_⟩
  intro _ _
  exact meets_perform.mpr ⟨trivial, fun _ _ ↦ trivial⟩

theorem allowsPick : AllowsPick (ownTarget r) :=
  ⟨fun _ _ ↦ ⟨trivial, fun _ ↦ rfl⟩, fun _ _ ↦ ⟨trivial, fun _ ↦ rfl⟩,
    fun _ _ ↦ ⟨trivial, fun _ ↦ rfl⟩⟩

theorem deviceOf_ne_nil (req : LoginReq) : deviceOf req ≠ [] := by
  rw [deviceOf]
  split_ifs with hempty
  · decide
  · exact hempty

theorem login_ownTarget (req : LoginReq) :
    Meets (ownTarget (.login req)) (fun _ _ ↦ True) none (login req) := by
  refine login_meets ⟨trivial, fun _ ↦ rfl⟩ rfl (fun _ _ _ ↦ trivial) ?_
  intro row _ _
  have hkick := kickOut_meets (fun _ ↦ ⟨trivial, fun _ ↦ rfl⟩)
    (publishKick_meets (t := some row.userId) (r := .login req) rfl (deviceOf_ne_nil req))
  exact openSession_meets ⟨trivial, fun _ ↦ rfl⟩ hkick allowsPick fun _ ↦ storeToken_meets _

theorem logout_meets (req : LogoutReq) :
    Meets (ownTarget (.logout req)) (fun _ _ ↦ True) none (logout req) := by
  rw [logout]
  split_ifs with hempty
  · exact meets_perform.mpr ⟨⟨req, rfl⟩, fun _ _ ↦ trivial⟩
  · refine meets_perform_bind.mpr ⟨⟨req, rfl⟩, ?_⟩
    intro _ _
    exact (publishKick_meets rfl hempty).mono fun _ _ _ ↦ trivial

theorem start_meets (e : Endian) (pb : Codec) (r : Request) :
    Meets (ownTarget r) (fun _ _ ↦ True) none ((system e pb).start r) := by
  cases r with
  | login req => exact meets_bind.mpr ((login_ownTarget req).mono fun _ _ _ ↦ trivial)
  | logout req => exact logout_meets req

end Contract

/-- What carries `Decoded`. -/
structure Named (w : World) (requests : List Request) (users : List (Option ℤ)) : Prop where
  fits : ∀ (i : ℕ) (r : Request) (u : Option ℤ) (userId : ℤ) (device : Bytes), requests[i]? = some r →
    users[i]? = some u → target r u = some (userId, device) → FitsInt64 userId
  built : ∀ g, ∀ m ∈ w.queues g, ∃ userId device,
    BuiltFrom requests users m userId device ∧ device ≠ []

variable {e : Endian} {pb : Codec} {w w' : World} {requests : List Request}
  {users : List (Option ℤ)} {s s' : Calls}

theorem target_found {r : Request} {u : Option ℤ} {c : Command} {a : Answer c} {x : ℤ × Bytes}
    (hmay : (ownTarget r).may u c) (hx : target r u = some x) : target r (found u c a) = some x := by
  cases r with
  | logout req => exact hx
  | login req =>
    cases c with
    | selectUser sql =>
      obtain rfl : u = none := hmay
      cases hx
    | _ => exact hx

theorem fits_of_found {i : ℕ} {env : (c : Command) → Answer c} {c : Command} {r : Request}
    {u : Option ℤ} {userId : ℤ} {device : Bytes}
    (henv : ∀ sql row, env (.selectUser sql) = some (some row) → FitsInt64 row.userId)
    (hold : ∀ userId device, target r u = some (userId, device) → FitsInt64 userId)
    (hx : target r (found u c (exec i env w c).2) = some (userId, device)) : FitsInt64 userId := by
  cases r with
  | logout req => exact hold userId device hx
  | login req =>
    cases c with
    | selectUser sql =>
      simp only [KickRace.exec] at hx
      rcases hrow : env (.selectUser sql) with _ | _ | row
      · exact hold userId device (by rwa [hrow] at hx)
      · exact hold userId device (by rwa [hrow] at hx)
      · rw [hrow] at hx
        obtain ⟨rfl, -⟩ := Prod.mk.inj (Option.some.inj hx)
        exact henv sql row hrow
    | _ => exact hold userId device hx

theorem BuiltFrom.spawn {m : Message} {userId : ℤ} {device : Bytes} (r : Request)
    (h : BuiltFrom requests users m userId device) :
    BuiltFrom (requests ++ [r]) (users ++ [none]) m userId device := by
  obtain ⟨r₀, u, hr, hu, htarget, hpayload⟩ := h
  exact ⟨r₀, u, getElem?_append_of_some hr _, getElem?_append_of_some hu _, htarget, hpayload⟩

theorem BuiltFrom.step {m : Message} {userId : ℤ} {device : Bytes} {i : ℕ} {r : Request}
    {u : Option ℤ} {c : Command} {a : Answer c} (h : BuiltFrom requests users m userId device)
    (hr : requests[i]? = some r) (hu : users[i]? = some u) (hmay : (ownTarget r).may u c) :
    BuiltFrom requests (users.set i (found u c a)) m userId device := by
  obtain ⟨r₀, u₀, hr₀, hu₀, htarget, hpayload⟩ := h
  by_cases hi : m.publisher = i
  · subst hi
    obtain rfl := Option.some.inj (hr.symm.trans hr₀)
    obtain rfl := Option.some.inj (hu.symm.trans hu₀)
    exact ⟨r, _, hr, List.getElem?_set_self (List.getElem?_eq_some_iff.mp hu).1,
      target_found hmay htarget, hpayload⟩
  · exact ⟨r₀, u₀, hr₀, (List.getElem?_set_ne (Ne.symm hi)).trans hu₀, htarget, hpayload⟩

theorem Named.spawn {r : Request} (h : Named w requests users)
    (hlen : requests.length = users.length)
    (hr : ∀ req, r = .logout req → FitsInt64 req.userId) :
    Named w (requests ++ [r]) (users ++ [none]) := by
  refine ⟨?_, ?_⟩
  · intro i r' u userId device hr' hu hx
    rcases getElem?_concat_some hr' with hr' | ⟨hi, rfl⟩
    · rcases getElem?_concat_some hu with hu | ⟨hi, -⟩
      · exact h.fits i r' u userId device hr' hu hx
      · rw [hi, ← hlen] at hr'
        simp at hr'
    · rcases getElem?_concat_some hu with hu | ⟨-, rfl⟩
      · rw [hi, hlen] at hu
        simp at hu
      · cases r' with
        | login req => cases hx
        | logout req =>
          obtain ⟨rfl, -⟩ := Prod.mk.inj (Option.some.inj hx)
          exact hr req rfl
  · intro g m hm
    obtain ⟨userId, device, hbuilt, hdevice⟩ := h.built g m hm
    exact ⟨userId, device, hbuilt.spawn r, hdevice⟩

theorem exec_queues {i : ℕ} {env : (c : Command) → Answer c} {c : Command} {g : ℕ} {m : Message}
    (hm : m ∈ (exec i env w c).1.queues g) :
    m ∈ w.queues g ∨ ∃ channel msg, c = .publish channel msg ∧ m = ⟨cString msg, i⟩ := by
  cases c with
  | publish channel msg =>
    simp only [KickRace.exec] at hm
    split_ifs at hm
    · rcases List.mem_append.mp hm with hm | hm
      · exact .inl hm
      · exact .inr ⟨channel, msg, rfl, List.mem_singleton.mp hm⟩
    · exact .inl hm
  | _ => exact .inl hm

theorem Named.exec {i : ℕ} {env : (c : Command) → Answer c} {c : Command} {r : Request}
    {u : Option ℤ} (h : Named w requests users) (hr : requests[i]? = some r)
    (hu : users[i]? = some u) (hmay : (ownTarget r).may u c)
    (henv : ∀ sql row, env (.selectUser sql) = some (some row) → FitsInt64 row.userId) :
    Named (exec i env w c).1 requests (users.set i (found u c (exec i env w c).2)) := by
  refine ⟨?_, ?_⟩
  · intro j r' u' userId device hr' hu' hx
    rcases getElem?_set_cases hu' with ⟨rfl, rfl⟩ | ⟨-, hu'⟩
    · obtain rfl := Option.some.inj (hr.symm.trans hr')
      exact fits_of_found henv (fun userId device ↦ h.fits j r u userId device hr hu) hx
    · exact h.fits j r' u' userId device hr' hu' hx
  · intro g m hm
    rcases exec_queues hm with hm | ⟨_, msg, rfl, rfl⟩
    · obtain ⟨userId, device, hbuilt, hdevice⟩ := h.built g m hm
      exact ⟨userId, device, hbuilt.step hr hu hmay, hdevice⟩
    · obtain ⟨-, userId, device, htarget, hdevice, rfl⟩ := hmay
      exact ⟨userId, device, ⟨r, u, hr, List.getElem?_set_self (List.getElem?_eq_some_iff.mp hu).1,
        htarget, rfl⟩, hdevice⟩

theorem outside_queues {o : Event} (h : outside e pb o w = some w') (g : ℕ) :
    ∀ m ∈ w'.queues g, m ∈ w.queues g := by
  intro m hm
  cases o with
  | handshake g' userId token device =>
    obtain ⟨gs, ⟨-, -, rfl⟩ | ⟨-, -, rfl⟩⟩ := World.upgrade_cases h
    · exact hm
    · exact hm
  | handle i hd =>
    obtain ⟨gs, -, rfl⟩ := Option.map_eq_some_iff.mp h
    exact hm
  | perform i =>
    obtain ⟨gs, -, rfl⟩ := Option.map_eq_some_iff.mp h
    exact hm
  | deliver g' =>
    obtain ⟨m', rest, hqueue, ⟨-, rfl⟩ | ⟨_, _, _, -, -, rfl⟩⟩ := World.deliver_cases h
    · exact mem_of_mem_taken hqueue hm
    · exact mem_of_mem_taken hqueue hm
  | expired key =>
    obtain rfl := Option.some.inj h
    exact hm

theorem Named.outside {o : Event} (h : Named w requests users)
    (hw : outside e pb o w = some w') : Named w' requests users :=
  ⟨h.fits, fun g m hm ↦ h.built g m (outside_queues hw g m hm)⟩

theorem named_start (r : Redis) : Named (KickRace.start r) [] [] := by
  refine ⟨?_, ?_⟩
  · intro i r u userId device hr
    cases hr
  · intro g m hm
    cases hm

theorem named_of_reach {r : Redis} (h : Reach (system e pb).serve WellTyped (start r) s) :
    Named s.pool.world s.requests s.pool.accounts := by
  have hinv := System.serve_invariant (K := ownTarget) (Q := fun _ _ _ ↦ True) (J := Named)
    (fun _ ↦ rfl) ?start ?spawn ?exec ?outside h ⟨Served.keeps_nil _, named_start r⟩
  · exact hinv.2
  case start =>
    intro _ r _
    exact start_meets e pb r
  case spawn =>
    intro s r hok hlen hJ
    refine hJ.spawn hlen ?_
    intro req heq
    subst heq
    exact hok
  case exec =>
    intro s i env c k t r hok hi hr hmay hJ
    exact ⟨trivial, hJ.exec hr (Pool.accounts_of_threads hi) hmay hok⟩
  case outside =>
    intro s o w _ hw hJ
    exact hJ.outside hw

theorem effect_kicked (st : Gateways) (i g : ℕ) (ef : Effect) :
    (st.effect i g ef).kicked = st.kicked := by
  cases ef <;> rfl

theorem next_kicked {gs gs' : Gateways} {a : Cluster.Action} (h : next e pb gs a = some gs') :
    gs'.kicked = gs.kicked ∨
      ∃ g u d, a = .kick g u d ∧ gs'.kicked = gs.kicked ∪ gs.kicks g u d := by
  obtain ⟨_, _, -, -, rfl⟩ | ⟨_, _, _, _, -, -, -, -, rfl⟩ | ⟨i, c, ef, rest, -, -, -, rfl⟩ |
    ⟨g, u, d, rfl, rfl⟩ := next_cases h
  · exact .inl rfl
  · exact .inl rfl
  · exact .inl (effect_kicked _ _ _ _)
  · exact .inr ⟨g, u, d, rfl, rfl⟩

theorem next_keeps_kicked {gs gs' : Gateways} {a : Cluster.Action} (h : next e pb gs a = some gs')
    (ha : ∀ g u d, a ≠ .kick g u d) : gs'.kicked = gs.kicked := by
  obtain hkicked | ⟨g, u, d, rfl, -⟩ := next_kicked h
  · exact hkicked
  · exact absurd rfl (ha g u d)

theorem exec_kicked (i : ℕ) (env : (c : Command) → Answer c) (w : World) (c : Command) :
    (exec i env w c).1.gateways.kicked = w.gateways.kicked := by
  cases c with
  | publish channel msg =>
    simp only [KickRace.exec]
    split_ifs <;> rfl
  | _ => rfl

theorem outside_kicked {o : Event} (h : outside e pb o w = some w') :
    w'.gateways.kicked = w.gateways.kicked ∨ ∃ g m rest userId device, o = .deliver g ∧
      w.queues g = m :: rest ∧ decodeKick m.payload = some (userId, device) ∧
      w'.gateways.kicked = w.gateways.kicked ∪ w.gateways.kicks g userId device := by
  cases o with
  | handshake g userId token device =>
    obtain ⟨gs, ⟨-, hgs, rfl⟩ | ⟨-, hgs, rfl⟩⟩ := World.upgrade_cases h
    · exact .inl (next_keeps_kicked hgs (by simp))
    · exact .inl (next_keeps_kicked hgs (by simp))
  | handle i hd =>
    obtain ⟨gs, hgs, rfl⟩ := Option.map_eq_some_iff.mp h
    exact .inl (next_keeps_kicked hgs (by simp))
  | perform i =>
    obtain ⟨gs, hgs, rfl⟩ := Option.map_eq_some_iff.mp h
    exact .inl (next_keeps_kicked hgs (by simp))
  | deliver g =>
    obtain ⟨m, rest, hqueue, ⟨-, rfl⟩ | ⟨userId, device, gs, hdecode, hgs, rfl⟩⟩ := World.deliver_cases h
    · exact .inl rfl
    · obtain rfl := Option.some.inj hgs
      exact .inr ⟨g, m, rest, userId, device, rfl, hqueue, hdecode, rfl⟩
  | expired key =>
    obtain rfl := Option.some.inj h
    exact .inl rfl

theorem serve_kicked {a : Step} (hdecoded : Decoded s) (h : (system e pb).serve s a = some s') :
    KicksOnlyTarget s s' a := by
  obtain ⟨r, rfl, rfl⟩ | ⟨i, env, c, k, t, rfl, -, rfl⟩ | ⟨o, w, rfl, ho, rfl⟩ :=
    System.serve_cases h
  · exact .inl rfl
  · exact .inl (exec_kicked i env s.pool.world c)
  · obtain hkicked | ⟨g, m, rest, userId, device, rfl, hqueue, hdecode, hkicked⟩ :=
      outside_kicked ho
    · exact .inl hkicked
    · obtain ⟨userId', device', hbuilt, hdecode', hdevice⟩ :=
        hdecoded g m (by rw [hqueue]; exact List.mem_cons_self)
      refine .inr ⟨g, m, rest, userId', device', rfl, hqueue, hbuilt, fun hnul ↦ ?_⟩
      obtain ⟨rfl, rfl⟩ := Prod.mk.inj (Option.some.inj (hdecode.symm.trans (hdecode' hnul)))
      refine ⟨hkicked, ?_⟩
      intro i hi
      obtain ⟨hmem, hcase⟩ := Finset.mem_filter.mp hi
      exact ⟨hmem, hcase.resolve_left hdevice⟩

/-- Every published kick is read as the user and device of its call, and no
other session is kicked. -/
theorem kick_isolation {r : Redis} (h : Reach (system e pb).serve WellTyped (start r) s) :
    Decoded s ∧ ∀ a s', (system e pb).serve s a = some s' → KicksOnlyTarget s s' a := by
  have hnamed := named_of_reach h
  have hdecoded : Decoded s := by
    intro g m hm
    obtain ⟨userId, device, hbuilt, hdevice⟩ := hnamed.built g m hm
    have hbuilt' := hbuilt
    obtain ⟨r, u, hr, hu, htarget, hpayload⟩ := hbuilt'
    refine ⟨userId, device, hbuilt, fun hnul ↦ ?_, hdevice⟩
    rw [hpayload, cString_kickMsg, cString_eq_self hnul]
    exact decodeKick_kickMsg (hnamed.fits _ r u userId device hr hu htarget) device
  exact ⟨hdecoded, fun a s' hstep ↦ serve_kicked hdecoded hstep⟩

def signedIn : Redis := Redis.empty.hset (sessionKey 1) (ascii "a:b") (ascii "t")

theorem kick_isolation_colon :
    ∃ s s' : Calls, (Decoded s ∧ ∀ a s', (system .little loginCodec).serve s a = some s' →
      KicksOnlyTarget s s' a) ∧
      (system .little loginCodec).serve s (.outside (.deliver 8080)) = some s' ∧
      0 ∈ s'.pool.world.gateways.kicked := by
  have hjoined : Reach (system .little loginCodec).serve WellTyped (start signedIn) _ :=
    (Reach.refl _).tail (a := .outside (.handshake 8080 1 (ascii "t") (ascii "a:b"))) trivial rfl
      |>.tail (a := .outside (.handle 0 (.accept true))) trivial rfl
      |>.tail (a := .outside (.perform 0)) trivial rfl
  have hlogout := hjoined.tail (a := .spawn (.logout { userId := 1, device := ascii "a:b" }))
    ⟨by decide, by decide⟩ rfl
  have hdeleted := hlogout.tail (a := .step 0 backend) ?id rfl
  have hpublished := hdeleted.tail (a := .step 0 backend) ?id rfl
  case id =>
    intro sql row hrow
    obtain rfl := Option.some.inj (Option.some.inj hrow)
    exact ⟨by decide, by decide⟩
  exact ⟨_, _, kick_isolation hpublished, rfl, by decide⟩

end TinyIM.Auth.KickIsolation
