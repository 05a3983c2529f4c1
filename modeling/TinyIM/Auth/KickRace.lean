import Mathlib.Data.Finset.Image
import TinyIM.Auth.AuthService
import TinyIM.Gateway.Cluster
import TinyIM.Library.Interleaving

namespace TinyIM.Auth.KickRace

open Library.ByteOrder Library.Decimal Library.Delimited Library.Transition Library.Program
  Library.Interleaving Protocol Store Gateway Gateway.Cluster Gateway.Dispatch

/-- A message on its way from Redis to the subscriber of one gateway, with the
number of the call that published it. -/
structure Message where
  payload : Bytes
  publisher : ℕ
  deriving DecidableEq, Repr

/-- The gateways with the kicks they have not yet received. The rest is
bookkeeping: which call wrote each session token last, by whose token a session
was authenticated, and which sessions were kicked by whose messages. -/
structure World where
  gateways : Gateways
  queues : ℕ → List Message
  writer : Bytes → Bytes → Option ℕ
  authBy : ℕ → Option ℕ
  kickedBy : Finset (ℕ × ℕ)

inductive Request
  | login (req : LoginReq)
  | logout (req : LogoutReq)

inductive Event
  | handshake (gateway : ℕ) (userId : ℤ) (token device : Bytes)
  | handle (i : ℕ) (h : Gateway.Cluster.Handler)
  | perform (i : ℕ)
  | deliver (gateway : ℕ)
  | expired (key : Bytes)

def start (r : Redis) : World := ⟨Cluster.start r, fun _ ↦ [], fun _ _ ↦ none, fun _ ↦ none, ∅⟩

/-- The `im:kick` subscriber cuts a message at its first colon. -/
def decodeKick (msg : Bytes) : Option (ℤ × Bytes) :=
  match msg.dropWhile (· ≠ 58) with
  | [] => none
  | _ :: device => (stoll (msg.takeWhile (· ≠ 58))).map fun userId ↦ (userId, device)

/-- The token check of `HttpSession::OnRead`. -/
def authOk (r : Redis) (userId : ℤ) (token device : Bytes) : Prop :=
  0 < userId ∧ token ≠ [] ∧ r.hGet (sessionKey userId) device = token

instance (r : Redis) (userId : ℤ) (token device : Bytes) : Decidable (authOk r userId token device) :=
  inferInstanceAs (Decidable (_ ∧ _ ∧ _))

def World.setRedis (w : World) (r : Redis) : World :=
  { w with gateways := { w.gateways with redis := r } }

def World.noteWriter (w : World) (i : ℕ) (key field : Bytes) : World :=
  { w with writer := Function.update w.writer key (Function.update (w.writer key) field (some i)) }

/-- One command of call `i`; what Redis does not answer, `env` does. -/
def exec (i : ℕ) (env : (c : Command) → Answer c) (w : World) : (c : Command) → World × Answer c
  | .hget key field => (w, w.gateways.redis.hGet key field)
  | .hset key field value =>
    ((w.setRedis (w.gateways.redis.hSet key field value)).noteWriter i (cString key) (cString field), ())
  | .publish channel msg =>
    (if cString channel = ascii "im:kick" then
        { w with queues := fun g ↦ w.queues g ++ [⟨cString msg, i⟩] }
      else w, ())
  | .del key => (w.setRedis (w.gateways.redis.del (cString key)), ())
  | .hdel key field => (w.setRedis (w.gateways.redis.hDel key field), ())
  | .expire _ _ => (w, ())
  | c => (w, env c)

variable (e : Endian) (pb : Codec)

/-- `HttpSession::OnRead` upgrades with the parsed user when the token is right
and with user 0 otherwise. The HTTP parser lets no NUL through. -/
def World.upgrade (w : World) (g : ℕ) (userId : ℤ) (token device : Bytes) : Option World :=
  if 0 ∈ token ∨ 0 ∈ device then none
  else if authOk w.gateways.redis userId token device then
    (next e pb w.gateways (.upgrade g ⟨userId, device⟩)).map fun gs ↦
      { w with
        gateways := gs
        authBy := Function.update w.authBy w.gateways.conns.length
          (w.writer (sessionKey userId) device) }
  else (next e pb w.gateways (.upgrade g ⟨0, device⟩)).map fun gs ↦ { w with gateways := gs }

def World.deliver (w : World) (g : ℕ) : Option World :=
  match w.queues g with
  | [] => none
  | m :: rest =>
    let w := { w with queues := Function.update w.queues g rest }
    match decodeKick m.payload with
    | none => some w
    | some (userId, device) =>
      (next e pb w.gateways (.kick g userId device)).map fun gs ↦
        { w with
          gateways := gs
          kickedBy := w.kickedBy ∪
            (w.gateways.kicks g userId device).image fun s ↦ (s, m.publisher) }

def outside : Event → World → Option World
  | .handshake g userId token device, w => w.upgrade e pb g userId token device
  | .handle i h, w => (next e pb w.gateways (.handle i h)).map fun gs ↦ { w with gateways := gs }
  | .perform i, w => (next e pb w.gateways (.perform i)).map fun gs ↦ { w with gateways := gs }
  | .deliver g, w => w.deliver e pb g
  | .expired key, w => some (w.setRedis (w.gateways.redis.del key))

/-- A call publishes only while it has not stored a token. -/
def publishFirst : Contract Command Answer Bool where
  may stored c := ∀ channel msg, c = .publish channel msg → stored = false
  answers _ _ _ := True
  after stored c _ :=
    match c with
    | .hset _ _ _ => true
    | _ => stored

def system : System Command Answer Unit Bool World Request ((c : Command) → Answer c) Event where
  contract := publishFirst
  fresh := false
  start
    | .login req => do
      let _ ← login req
      return ()
    | .logout req => logout req
  exec := exec
  outside := outside e pb

/-- No session is kicked by a message of the call whose token authenticated it. -/
def NoOwnKick (w : World) : Prop := ∀ s L, (s, L) ∈ w.kickedBy → w.authBy s ≠ some L

/-- A session joins only when no kick of the call whose token authenticated it
is still on its way to the gateway. -/
def KicksArriveFirst (p : Pool Command Answer Unit Bool World) :
    Library.Interleaving.Action Request ((c : Command) → Answer c) Event → Prop
  | .outside (.perform s) => ∀ c, p.world.gateways.conns[s]? = some c →
    (∃ u rest, c.pending = .join u :: rest) →
      ∀ L, p.world.authBy s = some L → ∀ m ∈ p.world.queues c.gateway, m.publisher ≠ L
  | _ => True

section Contract

variable {t : Bool}

theorem publishKick_meets (userId : ℤ) (device : Bytes) :
    Meets publishFirst (fun t _ ↦ t = false) false (publishKick userId device) := by
  refine meets_perform.mpr ⟨?_, fun _ _ ↦ rfl⟩
  intro _ _ _
  rfl

theorem storeToken_meets (userId : ℤ) (device token : Bytes) :
    Meets publishFirst (fun _ _ ↦ True) t (storeToken userId device token) := by
  refine meets_perform_bind.mpr ⟨by simp [publishFirst], ?_⟩
  intro _ _
  exact meets_perform.mpr ⟨by simp [publishFirst], fun _ _ ↦ trivial⟩

theorem allowsPick : AllowsPick publishFirst :=
  ⟨fun _ _ ↦ ⟨nofun, fun _ ↦ rfl⟩, fun _ _ ↦ ⟨nofun, fun _ ↦ rfl⟩,
    fun _ _ ↦ ⟨nofun, fun _ ↦ rfl⟩⟩

theorem login_publishFirst (req : LoginReq) : Meets publishFirst (fun _ _ ↦ True) false (login req) := by
  refine login_meets ⟨by simp [publishFirst], fun _ ↦ rfl⟩ (by simp [publishFirst]) (fun _ _ _ ↦ trivial) ?_
  intro row _ _
  have hkick := kickOut_meets (fun _ ↦ ⟨by simp [publishFirst], fun _ ↦ rfl⟩)
    (publishKick_meets row.userId (deviceOf req))
  exact openSession_meets ⟨by simp [publishFirst], fun _ ↦ rfl⟩ hkick allowsPick
    fun _ ↦ storeToken_meets _ _ _

theorem logout_meets (req : LogoutReq) : Meets publishFirst (fun _ _ ↦ True) false (logout req) := by
  rw [logout]
  split_ifs
  · exact meets_perform.mpr ⟨by simp [publishFirst], fun _ _ ↦ trivial⟩
  · refine meets_perform_bind.mpr ⟨by simp [publishFirst], ?_⟩
    intro _ _
    exact (publishKick_meets _ _).mono fun _ _ _ ↦ trivial

theorem start_meets (r : Request) :
    Meets publishFirst (fun _ _ ↦ True) false ((system e pb).start r) := by
  cases r with
  | login req => exact meets_bind.mpr ((login_publishFirst req).mono fun _ _ _ ↦ trivial)
  | logout req => exact logout_meets req

end Contract

/-- What carries `NoOwnKick`: a call whose token is in use has stored it, so it
publishes no more, and where a session has joined its kicks are used up. -/
structure Safe (w : World) (stored : List Bool) : Prop where
  home : Home w.gateways
  writer : ∀ key field L, w.writer key field = some L → stored[L]? = some true
  auth : ∀ s L, w.authBy s = some L → stored[L]? = some true ∧ s < w.gateways.conns.length
  queue : ∀ s L, w.authBy s = some L → ∀ g, (sets w.gateways.managers s g).Nonempty →
    ∀ m ∈ w.queues g, m.publisher ≠ L
  kicked : ∀ s L, (s, L) ∈ w.kickedBy → s < w.gateways.conns.length ∧ w.authBy s ≠ some L

variable {e pb} {w w' : World} {ts : List Bool}

theorem Safe.mono {ts' : List Bool} (h : Safe w ts)
    (hle : ∀ L : ℕ, ts[L]? = some true → ts'[L]? = some true) : Safe w ts' where
  home := h.home
  writer key field L hL := hle L (h.writer key field L hL)
  auth s L hL := ⟨hle L (h.auth s L hL).1, (h.auth s L hL).2⟩
  queue := h.queue
  kicked := h.kicked

theorem Safe.setRedis (h : Safe w ts) (r : Redis) : Safe (w.setRedis r) ts :=
  ⟨h.home, h.writer, h.auth, h.queue, h.kicked⟩

theorem Safe.set {i : ℕ} {t t' : Bool} (h : Safe w ts) (hi : ts[i]? = some t)
    (ht : t = true → t' = true) : Safe w (ts.set i t') := by
  refine h.mono fun L hL ↦ ?_
  by_cases hLi : L = i
  · subst hLi
    rw [List.getElem?_set_self (List.getElem?_eq_some_iff.mp hi).1,
      ht (Option.some.inj (hi.symm.trans hL))]
  · rw [List.getElem?_set_ne (Ne.symm hLi), hL]

theorem Safe.noteWriter {i : ℕ} (h : Safe w ts) (hi : ts[i]? = some true) (key field : Bytes) :
    Safe (w.noteWriter i key field) ts := by
  refine ⟨h.home, ?_, h.auth, h.queue, h.kicked⟩
  intro key' field' L hL
  by_cases hkey : key' = key ∧ field' = field
  · obtain ⟨rfl, rfl⟩ := hkey
    simp only [World.noteWriter, Function.update_self, Option.some.injEq] at hL
    rw [← hL]
    exact hi
  · apply h.writer key' field' L
    simp only [World.noteWriter, Function.update_apply] at hL
    split_ifs at hL with hk
    · subst hk
      rwa [Function.update_of_ne fun hf ↦ hkey ⟨rfl, hf⟩] at hL
    · exact hL

/-- A call that has not stored its token has authenticated no session, so its
kick meets none. -/
theorem Safe.publish {i : ℕ} {env : (c : Command) → Answer c} (h : Safe w ts)
    (hi : ts[i]? = some false) (channel msg : Bytes) :
    Safe (exec i env w (.publish channel msg)).1 ts := by
  simp only [KickRace.exec]
  split_ifs
  · refine ⟨h.home, h.writer, h.auth, ?_, h.kicked⟩
    intro s L hL g hg m hm
    rcases List.mem_append.mp hm with hm | hm
    · exact h.queue s L hL g hg m hm
    · obtain rfl := List.mem_singleton.mp hm
      intro heq
      obtain rfl := heq
      exact absurd (hi.symm.trans (h.auth s i hL).1) (by simp)
  · exact h

theorem Safe.exec {i : ℕ} {env : (c : Command) → Answer c} {c : Command} {t : Bool}
    (h : Safe w ts) (hi : ts[i]? = some t) (hmay : publishFirst.may t c) :
    Safe (exec i env w c).1 (ts.set i (publishFirst.after t c (exec i env w c).2)) := by
  have hself : ∀ b, (ts.set i b)[i]? = some b := fun _ ↦
    List.getElem?_set_self (List.getElem?_eq_some_iff.mp hi).1
  cases c with
  | hset key field value =>
    exact ((h.set hi fun _ ↦ rfl).setRedis _).noteWriter (hself true) _ _
  | publish channel msg =>
    have hfalse : t = false := hmay channel msg rfl
    subst hfalse
    exact (h.set hi id).publish (hself false) channel msg
  | del key => exact (h.set hi id).setRedis _
  | hdel key field => exact (h.set hi id).setRedis _
  | _ => exact h.set hi id

theorem World.upgrade_cases {g : ℕ} {userId : ℤ} {token device : Bytes}
    (hw : w.upgrade e pb g userId token device = some w') :
    ∃ gs, (authOk w.gateways.redis userId token device ∧
        next e pb w.gateways (.upgrade g ⟨userId, device⟩) = some gs ∧
        w' = { w with
          gateways := gs
          authBy := Function.update w.authBy w.gateways.conns.length
            (w.writer (sessionKey userId) device) }) ∨
      (¬ authOk w.gateways.redis userId token device ∧
        next e pb w.gateways (.upgrade g ⟨0, device⟩) = some gs ∧ w' = { w with gateways := gs }) := by
  rw [World.upgrade] at hw
  split_ifs at hw with hnul hauth <;> obtain ⟨gs, hgs, rfl⟩ := Option.map_eq_some_iff.mp hw
  · exact ⟨gs, .inl ⟨hauth, hgs, rfl⟩⟩
  · exact ⟨gs, .inr ⟨hauth, hgs, rfl⟩⟩

/-- The next message of the queue is taken, and is a kick or cannot be read. -/
theorem World.deliver_cases {g : ℕ} (hw : w.deliver e pb g = some w') :
    ∃ m rest, w.queues g = m :: rest ∧
      ((decodeKick m.payload = none ∧ w' = { w with queues := Function.update w.queues g rest }) ∨
        ∃ userId device gs, decodeKick m.payload = some (userId, device) ∧
          next e pb w.gateways (.kick g userId device) = some gs ∧
          w' = { w with
            queues := Function.update w.queues g rest
            gateways := gs
            kickedBy := w.kickedBy ∪
              (w.gateways.kicks g userId device).image fun s ↦ (s, m.publisher) }) := by
  rw [World.deliver] at hw
  split at hw
  · cases hw
  · next m rest hqueue =>
    refine ⟨m, rest, hqueue, ?_⟩
    split at hw
    · next hdecode => exact .inl ⟨hdecode, (Option.some.inj hw).symm⟩
    · next userId device hdecode =>
      obtain ⟨gs, hgs, rfl⟩ := Option.map_eq_some_iff.mp hw
      exact .inr ⟨userId, device, gs, hdecode, hgs, rfl⟩

theorem mem_of_mem_taken {g g' : ℕ} {m x : Message} {rest : List Message}
    (hqueue : w.queues g = m :: rest) (hx : x ∈ Function.update w.queues g rest g') :
    x ∈ w.queues g' := by
  by_cases hg : g' = g
  · subst hg
    rw [Function.update_self] at hx
    rw [hqueue]
    exact List.mem_cons_of_mem m hx
  · rwa [Function.update_of_ne hg] at hx

theorem Safe.upgrade {g : ℕ} {userId : ℤ} {token device : Bytes} (h : Safe w ts)
    (hw : w.upgrade e pb g userId token device = some w') : Safe w' ts := by
  have hlen : ∀ s c, s < w.gateways.conns.length → s < (w.gateways.conns ++ [c]).length := by
    intro s c hs
    rw [List.length_append]
    omega
  obtain ⟨gs, ⟨-, hgs, rfl⟩ | ⟨-, hgs, rfl⟩⟩ := World.upgrade_cases hw
  · have hhome := home_next hgs h.home
    simp only [next] at hgs
    split_ifs at hgs
    obtain rfl := Option.some.inj hgs
    refine ⟨hhome, h.writer, ?_, ?_, ?_⟩
    · intro s L hL
      simp only [Function.update_apply] at hL
      split_ifs at hL with hs
      · exact ⟨h.writer _ _ _ hL, by simp [hs]⟩
      · exact ⟨(h.auth s L hL).1, hlen s _ (h.auth s L hL).2⟩
    · intro s L hL g' hg
      simp only [Function.update_apply] at hL
      split_ifs at hL with hs
      · have hempty := h.home.sets_new (g := g') hs.ge
        exact absurd hg (by rw [hempty]; exact Set.not_nonempty_empty)
      · exact h.queue s L hL g' hg
    · intro s L hk
      obtain ⟨hs, hL⟩ := h.kicked s L hk
      refine ⟨hlen s _ hs, ?_⟩
      simpa only [Function.update_of_ne hs.ne] using hL
  · have hhome := home_next hgs h.home
    simp only [next] at hgs
    split_ifs at hgs
    obtain rfl := Option.some.inj hgs
    exact ⟨hhome, h.writer, fun s L hL ↦ ⟨(h.auth s L hL).1, hlen s _ (h.auth s L hL).2⟩, h.queue,
      fun s L hk ↦ ⟨hlen s _ (h.kicked s L hk).1, (h.kicked s L hk).2⟩⟩

theorem Safe.deliver {g : ℕ} (h : Safe w ts) (hw : w.deliver e pb g = some w') : Safe w' ts := by
  obtain ⟨m, rest, hqueue, hcase⟩ := World.deliver_cases hw
  have hqueue' : ∀ s L, w.authBy s = some L → ∀ g', (sets w.gateways.managers s g').Nonempty →
      ∀ x ∈ Function.update w.queues g rest g', x.publisher ≠ L :=
    fun s L hL g' hg x hx ↦ h.queue s L hL g' hg x (mem_of_mem_taken hqueue hx)
  obtain ⟨-, rfl⟩ | ⟨userId, device, gs, -, hgs, rfl⟩ := hcase
  · exact ⟨h.home, h.writer, h.auth, hqueue', h.kicked⟩
  · obtain rfl := Option.some.inj hgs
    refine ⟨h.home, h.writer, h.auth, hqueue', ?_⟩
    intro s L hk
    rcases Finset.mem_union.mp hk with hk | hk
    · exact h.kicked s L hk
    · obtain ⟨s', hs', heq⟩ := Finset.mem_image.mp hk
      obtain ⟨rfl, rfl⟩ := Prod.mk.inj heq
      have hmem : userId ∈ sets w.gateways.managers s' g := (Finset.mem_filter.mp hs').1
      obtain ⟨c, hc, -⟩ := h.home g s' userId hmem
      refine ⟨(List.getElem?_eq_some_iff.mp hc).1, ?_⟩
      intro hL
      exact h.queue s' _ hL g ⟨userId, hmem⟩ m (by rw [hqueue]; exact List.mem_cons_self) rfl

theorem Safe.perform {s : ℕ} {gs : Gateways} (h : Safe w ts)
    (hjoin : ∀ c, w.gateways.conns[s]? = some c → (∃ u rest, c.pending = .join u :: rest) →
      ∀ L, w.authBy s = some L → ∀ m ∈ w.queues c.gateway, m.publisher ≠ L)
    (hgs : next e pb w.gateways (.perform s) = some gs) : Safe { w with gateways := gs } ts := by
  have hhome := home_next hgs h.home
  obtain ⟨_, _, ha, -⟩ | ⟨_, _, _, _, ha, -⟩ | ⟨i, c, ef, rest, ha, hc, hpending, rfl⟩ |
    ⟨_, _, _, ha, -⟩ := next_cases hgs
  · cases ha
  · cases ha
  · obtain rfl := Action.perform.inj ha
    refine ⟨hhome, h.writer, ?_, ?_, ?_⟩
    · intro s' L hL
      simpa only [effect_conns, List.length_set] using h.auth s' L hL
    · intro s' L hL g hg
      rw [sets_effect] at hg
      split_ifs at hg with hs
      · obtain ⟨rfl, rfl⟩ := hs
        cases ef with
        | join u => exact hjoin c hc ⟨u, rest, hpending⟩ L hL
        | leave u => exact h.queue s' L hL _ (hg.mono Set.sdiff_subset)
        | _ => exact h.queue s' L hL _ hg
      · exact h.queue s' L hL g hg
    · intro s' L hk
      simpa only [effect_conns, List.length_set] using h.kicked s' L hk
  · cases ha

theorem Safe.outside {o : Event} {p : Pool Command Answer Unit Bool World} (h : Safe p.world ts)
    (hok : KicksArriveFirst p (.outside o)) (hw : outside e pb o p.world = some w') :
    Safe w' ts := by
  cases o with
  | handshake g userId token device => exact h.upgrade hw
  | handle s hd =>
    obtain ⟨gs, hgs, rfl⟩ := Option.map_eq_some_iff.mp hw
    have hhome := home_next hgs h.home
    obtain ⟨_, _, ha, -⟩ | ⟨i, hd, c, c', ha, hc, -, hc', rfl⟩ | ⟨_, _, _, _, ha, -⟩ |
      ⟨_, _, _, ha, -⟩ := next_cases hgs
    · cases ha
    · refine ⟨hhome, h.writer, ?_, h.queue, ?_⟩
      · intro s' L hL
        simpa only [List.length_set] using h.auth s' L hL
      · intro s' L hk
        simpa only [List.length_set] using h.kicked s' L hk
    · cases ha
    · cases ha
  | perform s =>
    obtain ⟨gs, hgs, rfl⟩ := Option.map_eq_some_iff.mp hw
    exact h.perform hok hgs
  | deliver g => exact h.deliver hw
  | expired key =>
    obtain rfl := Option.some.inj hw
    exact h.setRedis _

theorem safe_start (r : Redis) : Safe (start r) [] := by
  refine ⟨home_start r, ?_, ?_, ?_, ?_⟩
  · rintro key field L ⟨⟩
  · rintro s L ⟨⟩
  · rintro s L ⟨⟩
  · intro s L hk
    exact absurd hk (Finset.notMem_empty _)

/-- In a run in which every session joins after the kicks of its own login have
arrived, no login kicks the session it opens. -/
theorem no_own_kick {r : Redis} {p : Pool Command Answer Unit Bool World}
    (h : Reach (system e pb).next KicksArriveFirst ⟨start r, []⟩ p) : NoOwnKick p.world := by
  have hsafe := System.invariant (J := Safe) (start_meets e pb) ?spawn ?exec ?outside h
    ⟨Pool.lawful_nil _ _, safe_start r⟩
  · intro s L hk
    exact (hsafe.2.kicked s L hk).2
  case spawn =>
    intro w ts hw
    exact hw.mono fun L hL ↦ getElem?_append_of_some hL _
  case exec =>
    intro p i env c k t _ hi hmay hJ
    exact ⟨trivial, hJ.exec (Pool.accounts_of_threads hi) hmay⟩
  case outside =>
    intro p o w hok hw hJ
    exact hJ.outside hok hw

def backend : (c : Command) → Answer c
  | .connectRead => true
  | .selectUser _ => some (some ⟨1, [], []⟩)
  | .now => 1
  | .hget _ _ => []
  | .keys _ => []
  | .uniform _ => 0
  | .get _ => []
  | .publish _ _ | .hset _ _ _ | .expire _ _ | .del _ | .hdel _ _ => ()

def oldToken : Redis := Redis.empty.hset (sessionKey 1) (ascii "PC") (generateToken 1 0)

/-- A login of user 1, up to the moment at which it has stored its token. -/
def loginSteps : List (Library.Interleaving.Action Request ((c : Command) → Answer c) Event) :=
  .spawn (.login { username := ascii "1", device := ascii "PC" }) ::
    List.replicate 7 (.step 0 backend)

theorem no_own_kick_delivered :
    ∃ w : World, NoOwnKick w ∧ w.authBy 0 = some 0 ∧ 1 ∈ sets w.gateways.managers 0 8080 := by
  let calm : Pool Command Answer Unit Bool World →
      Library.Interleaving.Action Request ((c : Command) → Answer c) Event → Prop := fun _ a ↦
    (match a with
      | .outside (.perform _) => false
      | _ => true) = true
  have hcalm : Reach (system .little loginCodec).next calm ⟨start oldToken, []⟩ _ :=
    reach_of_exec (loginSteps ++ [.outside (.deliver 8080),
      .outside (.handshake 8080 1 (generateToken 1 1) (ascii "PC")),
      .outside (.handle 0 (.accept true))]) rfl
  have hok : ∀ p a, calm p a → KicksArriveFirst p a := by
    intro p a ha
    unfold KicksArriveFirst
    split
    · cases ha
    · trivial
  have hjoin := (hcalm.mono hok).tail (a := .outside (.perform 0)) ?arrived rfl
  case arrived =>
    intro c hc _ L _ m hm
    obtain rfl := Option.some.inj hc
    cases hm
  exact ⟨_, no_own_kick hjoin, rfl, by decide⟩

/-- The kick that a login publishes for the session before reaches the gateway
only after the session it opened has joined there. -/
theorem not_no_own_kick :
    ¬ ∀ p : Pool Command Answer Unit Bool World,
      Reach (system .little loginCodec).next anyStep ⟨start oldToken, []⟩ p → NoOwnKick p.world := by
  intro h
  obtain ⟨p, hrun, hp⟩ : ∃ p, Reach (system .little loginCodec).next anyStep
      ⟨start oldToken, []⟩ p ∧ ¬ NoOwnKick p.world := by
    refine exists_reach_of_exec (loginSteps ++
      [.outside (.handshake 8080 1 (generateToken 1 1) (ascii "PC")),
        .outside (.handle 0 (.accept true)), .outside (.perform 0), .outside (.deliver 8080)])
      ⟨_, rfl, ?_⟩
    intro hkick
    exact hkick 0 0 (by decide) rfl
  exact hp (h p hrun)

end TinyIM.Auth.KickRace
