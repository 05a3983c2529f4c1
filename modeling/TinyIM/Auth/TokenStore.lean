import TinyIM.Auth.AuthService
import TinyIM.Library.Interleaving
import TinyIM.Store.Redis

namespace TinyIM.Auth.TokenStore

open Library.ByteOrder Library.Delimited Library.Transition Library.Program Library.Interleaving
  Protocol Store Gateway

/-- What the auth server does for a request, and what the gateway does itself. -/
inductive Command
  | auth (c : Auth.Command)
  | hset (key field value : Bytes)

abbrev Answer : Command → Type
  | .auth c => Auth.Answer c
  | .hset _ _ _ => Unit

abbrev Handler := Prog Command Answer

/-- `/api/login` of `HttpSession::HandleRequest`: the RPC, and then the token
once more. -/
def apiLogin (req : LoginReq) : Handler Unit := do
  let (status, resp) ← (login req).lift Command.auth
  if status = none ∧ resp.success then
    Prog.perform (A := Answer) (Command.hset (sessionKey resp.userId) req.device resp.token)
  else return ()

inductive Request
  | apiLogin (req : LoginReq)
  | logout (req : LogoutReq)

/-- What the auth server did to a field: the call and its token, or a delete. -/
inductive Operation
  | stored (call : ℕ) (token : Bytes)
  | deleted
  deriving DecidableEq

def Operation.token : Operation → Option Bytes
  | stored _ token => some token
  | deleted => none

/-- Redis, and what the auth server did last to each field. -/
structure World where
  redis : Redis
  last : Bytes → Bytes → Option Operation

def noted (last : Bytes → Bytes → Option Operation) (key field : Bytes) (o : Operation) :
    Bytes → Bytes → Option Operation :=
  Function.update last key (Function.update (last key) field (some o))

def exec (i : ℕ) (env : (c : Auth.Command) → Auth.Answer c) (w : World) :
    (c : Command) → World × Answer c
  | .hset key field value => ({ w with redis := w.redis.hSet key field value }, ())
  | .auth (.hset key field value) =>
    (⟨w.redis.hSet key field value, noted w.last key field (.stored i value)⟩, ())
  | .auth (.hdel key field) => (⟨w.redis.hDel key field, noted w.last key field .deleted⟩, ())
  | .auth (.del key) =>
    (⟨w.redis.del (cString key), Function.update w.last key fun _ ↦ some .deleted⟩, ())
  | .auth (.hget key field) => (w, w.redis.hGet key field)
  | .auth c => (w, env c)

/-- What a call has stored, which it does once. The gateway repeats the token.
Keys and tokens are whole as C strings. -/
def storesOnce : Contract Command Answer (Option (Bytes × Bytes × Bytes)) where
  may t
    | .auth (.hset key _ value) => t = none ∧ 0 ∉ key ∧ 0 ∉ value
    | .hset key _ value => (∃ field, t = some (key, field, value)) ∧ 0 ∉ key ∧ 0 ∉ value
    | .auth (.hdel key _) | .auth (.del key) => 0 ∉ key
    | _ => True
  answers _ _ _ := True
  after
    | _, .auth (.hset key field value), _ => some (key, field, value)
    | t, _, _ => t

def system : System Command Answer Unit (Option (Bytes × Bytes × Bytes)) World Request
    ((c : Auth.Command) → Auth.Answer c) Empty where
  contract := storesOnce
  fresh := none
  start
    | .apiLogin req => apiLogin req
    | .logout req => (logout req).lift Command.auth
  exec := exec
  outside o := nomatch o

abbrev Calls := Pool Command Answer Unit (Option (Bytes × Bytes × Bytes)) World

abbrev Step := Library.Interleaving.Action Request ((c : Auth.Command) → Auth.Answer c) Empty

def start (r : Redis) : Calls := ⟨⟨r, fun _ _ ↦ none⟩, []⟩

/-- When all calls have finished, a field is as the auth server left it. -/
def LastIssued (p : Calls) : Prop :=
  (∀ th ∈ p.threads, th.prog = .done ()) → ∀ u d o, d ≠ [] →
    p.world.last (sessionKey u) d = some o → p.world.redis.hget (sessionKey u) d = o.token

/-- The field that the auth server is about to store or delete has no NUL. -/
def NamesField : Auth.Command → Prop
  | .hset _ field _ | .hdel _ field => 0 ∉ field
  | _ => True

/-- The gateway repeats a token only while nothing has come after the store of
its own login, and the devices of the calls have no NUL. -/
def RepeatsInTime (p : Calls) : Step → Prop
  | .step i _ =>
    (∀ key field value k t, p.threads[i]? = some ⟨.call (.hset key field value) k, t⟩ →
      field ≠ [] → ∃ token, p.world.last key field = some (.stored i token)) ∧
    ∀ c k t, p.threads[i]? = some ⟨.call (.auth c) k, t⟩ → NamesField c
  | _ => True

section Contract

abbrev authContract : Contract Auth.Command Auth.Answer (Option (Bytes × Bytes × Bytes)) :=
  storesOnce.comap Command.auth

variable {t : Option (Bytes × Bytes × Bytes)}

theorem storeToken_meets (userId : ℤ) (device : Bytes) {token : Bytes} (htoken : 0 ∉ token) :
    Meets authContract (fun t _ ↦ t = some (sessionKey userId, device, token)) none
      (storeToken userId device token) := by
  refine meets_perform_bind.mpr ⟨⟨rfl, zero_not_mem_sessionKey, htoken⟩, ?_⟩
  intro _ _
  exact meets_perform.mpr ⟨trivial, fun _ _ ↦ rfl⟩

theorem allowsPick : AllowsPick authContract :=
  ⟨fun _ _ ↦ ⟨trivial, fun _ ↦ rfl⟩, fun _ _ ↦ ⟨trivial, fun _ ↦ rfl⟩,
    fun _ _ ↦ ⟨trivial, fun _ ↦ rfl⟩⟩

def RepliesStored (t : Option (Bytes × Bytes × Bytes)) (r : Status × LoginResp) : Prop :=
  r.2.success → 0 ∉ r.2.token ∧ ∃ device, t = some (sessionKey r.2.userId, device, r.2.token)

theorem login_repliesStored (req : LoginReq) : Meets authContract RepliesStored none (login req) := by
  refine login_meets ⟨trivial, fun _ ↦ rfl⟩ trivial ?_ ?_
  · exact fun _ _ hrefused hsuccess ↦ absurd hsuccess (hrefused ▸ Bool.false_ne_true)
  · intro row _ _
    have hkick : Meets authContract (fun t' _ ↦ t' = none) none (kickOut row.userId (deviceOf req)) :=
      kickOut_meets (fun _ ↦ ⟨trivial, fun _ ↦ rfl⟩) (meets_perform.mpr ⟨trivial, fun _ _ ↦ rfl⟩)
    refine openSession_meets ⟨trivial, fun _ ↦ rfl⟩ hkick allowsPick fun now ↦ ?_
    have htoken := zero_not_mem_generateToken row.userId now
    refine (storeToken_meets _ _ htoken).mono ?_
    rintro _ _ rfl _
    exact ⟨htoken, deviceOf req, rfl⟩

theorem start_meets (r : Request) :
    Meets storesOnce (fun _ _ ↦ True) none (system.start r) := by
  cases r with
  | apiLogin req =>
    refine meets_bind.mpr (meets_lift.mpr ((login_repliesStored req).mono ?_))
    intro t reply hstored
    dsimp only
    split_ifs with hsuccess
    · obtain ⟨htoken, device, rfl⟩ := hstored hsuccess.2
      exact meets_perform.mpr ⟨⟨⟨device, rfl⟩, zero_not_mem_sessionKey, htoken⟩, fun _ _ ↦ trivial⟩
    · exact trivial
  | logout req =>
    refine meets_lift.mpr ?_
    rw [logout]
    split_ifs
    · exact meets_perform.mpr ⟨zero_not_mem_sessionKey, fun _ _ ↦ trivial⟩
    · refine meets_perform_bind.mpr ⟨zero_not_mem_sessionKey, ?_⟩
      intro _ _
      exact meets_perform.mpr ⟨trivial, fun _ _ ↦ trivial⟩

end Contract

/-- Each field is as the auth server left it, and a call remembers its store,
which was of a field without NUL. -/
structure Faithful (w : World) (ts : List (Option (Bytes × Bytes × Bytes))) : Prop where
  token : ∀ key field o, field ≠ [] → w.last key field = some o →
    w.redis.hget key field = o.token
  stored : ∀ key field i token, w.last key field = some (.stored i token) →
    ts[i]? = some (some (key, field, token)) ∧ 0 ∉ field

variable {w : World} {ts : List (Option (Bytes × Bytes × Bytes))} {p : Calls}

theorem noted_eq (last : Bytes → Bytes → Option Operation) (key field : Bytes) (o : Operation)
    (key' field' : Bytes) :
    noted last key field o key' field' =
      if key' = key ∧ field' = field then some o else last key' field' := by
  by_cases hkey : key' = key
  · subst hkey
    by_cases hfield : field' = field
    · subst hfield
      simp [noted]
    · simp [noted, hfield]
  · simp [noted, hkey]

theorem hSet_eq {r : Redis} {key field value : Bytes} (hkey : 0 ∉ key) (hfield : 0 ∉ field)
    (hvalue : 0 ∉ value) : r.hSet key field value = r.hset key field value := by
  rw [Redis.hSet, cString_eq_self hkey, cString_eq_self hfield, cString_eq_self hvalue]

theorem Faithful.same {i : ℕ} {t : Option (Bytes × Bytes × Bytes)} (h : Faithful w ts)
    (hi : ts[i]? = some t) : Faithful w (ts.set i t) := by
  rwa [set_of_getElem? hi]

theorem Faithful.spawn (h : Faithful w ts) : Faithful w (ts ++ [none]) := by
  refine ⟨h.token, ?_⟩
  intro key field i token hlast
  obtain ⟨hi, hfield⟩ := h.stored key field i token hlast
  exact ⟨getElem?_append_of_some hi _, hfield⟩

theorem Faithful.store {i : ℕ} (h : Faithful w ts) (hi : ts[i]? = some none) {key field value : Bytes}
    (hkey : 0 ∉ key) (hfield : 0 ∉ field) (hvalue : 0 ∉ value) :
    Faithful ⟨w.redis.hSet key field value, noted w.last key field (.stored i value)⟩
      (ts.set i (some (key, field, value))) := by
  rw [hSet_eq hkey hfield hvalue]
  refine ⟨?_, ?_⟩
  · intro key' field' o hne hlast
    simp only [noted_eq] at hlast
    rw [Redis.hget_hset]
    split_ifs at hlast ⊢ with hsame
    · obtain rfl := Option.some.inj hlast
      rfl
    · exact h.token key' field' o hne hlast
  · intro key' field' j token hlast
    simp only [noted_eq] at hlast
    split_ifs at hlast with hsame
    · obtain ⟨rfl, rfl⟩ := hsame
      obtain ⟨rfl, rfl⟩ := Operation.stored.inj (Option.some.inj hlast)
      exact ⟨List.getElem?_set_self (List.getElem?_eq_some_iff.mp hi).1, hfield⟩
    · obtain ⟨hj, hfield'⟩ := h.stored key' field' j token hlast
      have hij : i ≠ j := by
        intro heq
        subst heq
        cases hi.symm.trans hj
      exact ⟨(List.getElem?_set_ne hij).trans hj, hfield'⟩

theorem Faithful.delete {r : Redis} {last : Bytes → Bytes → Option Operation} (h : Faithful w ts)
    (gone : Bytes → Bytes → Prop)
    (hgone : ∀ key field, gone key field → last key field = some .deleted ∧ r.hget key field = none)
    (hkept : ∀ key field, ¬ gone key field →
      last key field = w.last key field ∧ r.hget key field = w.redis.hget key field) :
    Faithful ⟨r, last⟩ ts := by
  refine ⟨?_, ?_⟩
  · intro key field o hfield hlast
    by_cases hcase : gone key field
    · obtain ⟨hdeleted, hnone⟩ := hgone key field hcase
      obtain rfl := Option.some.inj (hlast.symm.trans hdeleted)
      exact hnone
    · obtain ⟨hold, hget⟩ := hkept key field hcase
      exact hget.trans (h.token key field o hfield (hold ▸ hlast))
  · intro key field i token hlast
    by_cases hcase : gone key field
    · cases hlast.symm.trans (hgone key field hcase).1
    · exact h.stored key field i token ((hkept key field hcase).1 ▸ hlast)

/-- The gateway repeats the token that its login stored last. -/
theorem Faithful.repeat {i : ℕ} {key field value : Bytes} (h : Faithful w ts)
    (hmay : ∃ device, ts[i]? = some (some (key, device, value))) (hkey : 0 ∉ key) (hvalue : 0 ∉ value)
    (hlast : field ≠ [] → ∃ token, w.last key field = some (.stored i token)) :
    Faithful { w with redis := w.redis.hSet key field value } ts := by
  have hfield : 0 ∉ field := by
    by_cases hempty : field = []
    · rw [hempty]
      exact List.not_mem_nil
    · obtain ⟨token, htoken⟩ := hlast hempty
      exact (h.stored key field i token htoken).2
  rw [hSet_eq hkey hfield hvalue]
  refine ⟨?_, h.stored⟩
  intro key' field' o hne ho
  rw [Redis.hget_hset]
  split_ifs with hsame
  · obtain ⟨rfl, rfl⟩ := hsame
    obtain ⟨token, htoken⟩ := hlast hne
    obtain ⟨device, hmay⟩ := hmay
    obtain rfl := Option.some.inj (ho.symm.trans htoken)
    have hstored := Option.some.inj (Option.some.inj
      (hmay.symm.trans (h.stored key' field' i token htoken).1))
    rw [Operation.token, (Prod.mk.inj (Prod.mk.inj hstored).2).2]
  · exact h.token key' field' o hne ho

theorem Faithful.exec {i : ℕ} {env : (c : Auth.Command) → Auth.Answer c} {c : Command}
    {t : Option (Bytes × Bytes × Bytes)} (h : Faithful w ts) (hi : ts[i]? = some t)
    (hmay : storesOnce.may t c)
    (hlast : ∀ key field value, c = .hset key field value → field ≠ [] →
      ∃ token, w.last key field = some (.stored i token))
    (hnames : ∀ c', c = .auth c' → NamesField c') :
    Faithful (exec i env w c).1 (ts.set i (storesOnce.after t c (exec i env w c).2)) := by
  cases c with
  | hset key field value =>
    obtain ⟨⟨device, rfl⟩, hkey, hvalue⟩ := hmay
    exact (h.same hi).repeat ⟨device, List.getElem?_set_self (List.getElem?_eq_some_iff.mp hi).1⟩
      hkey hvalue (hlast key field value rfl)
  | auth c =>
    cases c with
    | hset key field value =>
      obtain ⟨rfl, hkey, hvalue⟩ := hmay
      exact h.store hi hkey (hnames _ rfl) hvalue
    | hdel key field =>
      have hkey : cString key = key := cString_eq_self hmay
      have hfield : cString field = field := cString_eq_self (hnames _ rfl)
      simp only [TokenStore.exec, Redis.hDel, hkey, hfield]
      refine (h.same hi).delete (fun key' field' ↦ key' = key ∧ field' = field) ?_ ?_
      · intro key' field' hsame
        obtain ⟨rfl, rfl⟩ := hsame
        exact ⟨by rw [noted_eq, if_pos ⟨rfl, rfl⟩], Redis.hget_hdel_same _ _⟩
      · intro key' field' hsame
        exact ⟨by rw [noted_eq, if_neg hsame], Redis.hget_hdel_of_ne (not_and_or.mp hsame)⟩
    | del key =>
      have hkey : cString key = key := cString_eq_self hmay
      simp only [TokenStore.exec, hkey]
      refine (h.same hi).delete (fun key' _ ↦ key' = key) ?_ ?_
      · intro key' field' hsame
        subst hsame
        exact ⟨by rw [Function.update_self], Redis.hget_del_same _ _⟩
      · intro key' field' hsame
        exact ⟨by rw [Function.update_of_ne hsame], Redis.hget_del_of_ne _ hsame⟩
    | _ => exact h.same hi

/-- In a run in which the gateway repeats tokens in time, the stored token is
the one issued last. -/
theorem last_issued {r : Redis} (h : Reach system.next RepeatsInTime (start r) p) :
    LastIssued p := by
  have hfaithful := System.invariant (J := Faithful) start_meets ?spawn ?exec ?outside h
    ⟨Pool.lawful_nil _ _, ⟨nofun, nofun⟩⟩
  · intro _ u d o hd hlast
    exact hfaithful.2.token _ d o hd hlast
  case spawn =>
    intro w ts hw
    exact hw.spawn
  case exec =>
    intro p i env c k t hok hi hmay hJ
    obtain ⟨hrepeats, hnames⟩ := hok
    refine ⟨trivial, hJ.exec (Pool.accounts_of_threads hi) hmay ?_ ?_⟩
    · intro key field value heq
      subst heq
      exact hrepeats key field value k t hi
    · intro c' heq
      subst heq
      exact hnames c' k t hi
  case outside =>
    intro p o
    exact o.elim

def backend : (c : Auth.Command) → Auth.Answer c
  | .connectRead => true
  | .selectUser _ => some (some ⟨1, [], []⟩)
  | .now => 1
  | .hget _ _ => []
  | .keys _ => []
  | .uniform _ => 0
  | .get _ => []
  | .publish _ _ | .hset _ _ _ | .expire _ _ | .del _ | .hdel _ _ => ()

/-- A login of user 1 from a PC, until the auth server has replied. -/
def loginSteps : List Step :=
  .spawn (.apiLogin { username := ascii "1", device := ascii "PC" }) ::
    List.replicate 8 (.step 0 backend)

def logoutSteps : List Step :=
  [.spawn (.logout { userId := 1, device := ascii "PC" }), .step 1 backend, .step 1 backend]

/-- The next command is not the gateway's, and names a field without NUL. -/
def harmless : Handler Unit → Bool
  | .call (.hset _ _ _) _ => false
  | .call (.auth (.hset _ field _)) _ | .call (.auth (.hdel _ field)) _ => decide (0 ∉ field)
  | _ => true

theorem namesField_of_harmless {c : Auth.Command} {k : Answer (.auth c) → Handler Unit}
    (h : harmless (.call (.auth c) k) = true) : NamesField c := by
  cases c with
  | hset key field value => exact of_decide_eq_true (p := 0 ∉ field) h
  | hdel key field => exact of_decide_eq_true (p := 0 ∉ field) h
  | _ => exact trivial

theorem last_issued_login :
    ∃ p : Calls, LastIssued p ∧
      p.world.last (sessionKey 1) (ascii "PC") = some (.stored 0 (generateToken 1 1)) := by
  let calm : Calls → Step → Prop := fun p a ↦
    (match a with
      | .step i _ => (p.threads[i]?).all fun th ↦ harmless th.prog
      | _ => true) = true
  have hcalm : Reach system.next calm (start .empty) _ := reach_of_exec loginSteps rfl
  have hok : ∀ p a, calm p a → RepeatsInTime p a := by
    intro p a ha
    unfold RepeatsInTime
    split
    · refine ⟨fun key field value k t hi ↦ ?_, fun c k t hi ↦ ?_⟩
      · simp [calm, hi, harmless] at ha
      · simp only [calm, hi, Option.all_some] at ha
        exact namesField_of_harmless ha
    · trivial
  have hrun := (hcalm.mono hok).tail (a := .step 0 backend) ?last rfl
  case last =>
    refine ⟨fun key field value k t hi hfield ↦ ?_, fun c k t hi ↦ ?_⟩
    · cases hi
      exact ⟨_, rfl⟩
    · cases hi
  exact ⟨_, last_issued hrun, rfl⟩

/-- A logout comes between the store of the auth server and that of the gateway,
and the token is back. -/
theorem not_last_issued :
    ¬ ∀ p : Calls, Reach system.next anyStep (start .empty) p → LastIssued p := by
  intro h
  obtain ⟨p, hrun, hdone, hlast, hget⟩ : ∃ p, Reach system.next anyStep (start .empty) p ∧
      (∃ t t', p.threads = [⟨.done (), t⟩, ⟨.done (), t'⟩]) ∧
      p.world.last (sessionKey 1) (ascii "PC") = some .deleted ∧
      p.world.redis.hget (sessionKey 1) (ascii "PC") = some (generateToken 1 1) := by
    refine exists_reach_of_exec (loginSteps ++ logoutSteps ++ [.step 0 backend])
      ⟨_, rfl, ⟨_, _, rfl⟩, ?_, ?_⟩ <;> decide +kernel
  have hall : ∀ th ∈ p.threads, th.prog = .done () := by
    obtain ⟨t, t', hthreads⟩ := hdone
    rw [hthreads]
    simp
  have hnone := h p hrun hall 1 (ascii "PC") .deleted (by decide) hlast
  rw [hget] at hnone
  cases hnone

end TinyIM.Auth.TokenStore
