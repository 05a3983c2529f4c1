import TinyIM.Dispatch.ServiceDiscovery

namespace TinyIM.Dispatch.LiveGateways

open Library.ByteOrder Library.Decimal Library.Delimited Library.Interleaving Library.Journal Library.Leases
  Library.Program Library.Transition Protocol ServiceDiscovery
open Store.ServiceRegistry (servicePrefix pattern)
open Store.Discovery (Plain Literal plain_servicePrefix zero_not_mem_servicePrefix cString_pattern prefix_cString
  servicePrefix_inj)

/-- What `UpdateGateways` does before it stores the list. -/
def fetch : Handler (List Bytes) := do
  let result ← ask (.keys (pattern (ascii "gateway")))
  fetchAll result

theorem updateGateways_eq : updateGateways = fetch >>= fun newList ↦ ask (.storeGateways newList) := rfl

section Programs

/-- A list is stored directly behind its reading, and announcements last ten seconds. -/
def May (l : List (Exchange Command Answer)) : Command → Prop
  | .storeGateways newList => ∃ asked, asked <:+ l ∧ Runs fetch asked newList
  | .setEx _ _ seconds => seconds = 10
  | _ => True

abbrev conduct : Contract Command Answer (List (Exchange Command Answer)) :=
  ⟨May, fun _ _ _ ↦ True, (keeping Command Answer).after⟩

theorem fetchAll_permitted (keys : List Bytes) :
    Meets (permits fun c ↦ ∀ l, May l c) (fun _ _ ↦ True) () (fetchAll keys) := by
  induction keys with
  | nil => exact trivial
  | cons key keys ih =>
    refine meets_perform_bind.mpr ⟨fun _ ↦ trivial, ?_⟩
    intro addr _
    refine meets_bind.mpr (ih.mono ?_)
    intro _ newList _
    split_ifs <;> exact trivial

theorem program_meets (r : Request) : Meets conduct (fun _ _ ↦ True) [] r.program := by
  cases r with
  | renew serviceName ip port => exact meets_perform_bind.mpr ⟨rfl, fun _ _ ↦ trivial⟩
  | getRandomGateway => exact meets_perform_bind.mpr ⟨trivial, fun _ _ ↦ trivial⟩
  | updateGateways =>
    have hfetch : Meets ⟨May, fun _ _ _ ↦ True, (keeping Command Answer).after⟩ _ [] fetch := meets_noting []
      (meets_perform_bind.mpr ⟨fun _ ↦ trivial, fun keys _ ↦ fetchAll_permitted keys⟩)
    refine meets_bind.mpr ?_
    rw [updateGateways_eq]
    refine meets_bind.mpr (hfetch.mono ?_)
    rintro t newList ⟨_, rfl, hruns⟩
    exact meets_perform.mpr ⟨⟨_, List.suffix_refl _, hruns⟩, fun _ _ ↦ trivial⟩

/-- Every key is asked for, and the answers that are not empty are the list. -/
theorem fetchAll_runs {keys newList : List Bytes} {l : List (Exchange Command Answer)}
    (h : Runs (fetchAll keys) l newList) :
    (∀ addr ∈ newList, addr ≠ [] ∧ ∃ key ∈ keys, ⟨.get key, addr⟩ ∈ l) ∧
      ∀ key ∈ keys, ∃ addr, ⟨.get key, addr⟩ ∈ l ∧ (addr ≠ [] → addr ∈ newList) := by
  induction keys generalizing l newList with
  | nil =>
    obtain ⟨-, rfl⟩ := h
    exact ⟨fun _ hmem ↦ absurd hmem List.not_mem_nil, fun _ hmem ↦ absurd hmem List.not_mem_nil⟩
  | cons key keys ih =>
    obtain ⟨addr, rest, rfl, hrest⟩ := runs_perform_bind.mp h
    obtain ⟨first, last, others, rfl, hfirst, hlast⟩ := runs_bind.mp hrest
    obtain ⟨hsound, hall⟩ := ih hfirst
    have hsubset : ∀ x ∈ first, x ∈ (⟨.get key, addr⟩ :: (first ++ last) : List (Exchange Command Answer)) :=
      fun x hx ↦ List.mem_cons_of_mem _ (List.mem_append_left _ hx)
    have hnew : newList = if addr = [] then others else addr :: others := by
      split_ifs at hlast ⊢ with hempty
      · exact hlast.2.symm
      · exact hlast.2.symm
    refine ⟨?_, ?_⟩
    · intro value hvalue
      have hcases : value ∈ others ∨ (addr ≠ [] ∧ value = addr) := by
        rw [hnew] at hvalue
        split_ifs at hvalue with hempty
        · exact .inl hvalue
        · exact (List.mem_cons.mp hvalue).symm.imp id fun heq ↦ ⟨hempty, heq⟩
      obtain hothers | ⟨hne, rfl⟩ := hcases
      · obtain ⟨hne, k, hk, hget⟩ := hsound value hothers
        exact ⟨hne, k, List.mem_cons_of_mem _ hk, hsubset _ hget⟩
      · exact ⟨hne, key, List.mem_cons_self, List.mem_cons_self⟩
    · intro k hk
      rcases List.mem_cons.mp hk with rfl | hk
      · refine ⟨addr, List.mem_cons_self, fun hne ↦ ?_⟩
        rw [hnew, if_neg hne]
        exact List.mem_cons_self
      · obtain ⟨value, hget, hlisted⟩ := hall k hk
        refine ⟨value, hsubset _ hget, fun hne ↦ ?_⟩
        rw [hnew]
        split_ifs
        · exact hlisted hne
        · exact List.mem_cons_of_mem _ (hlisted hne)

end Programs

section Reads

variable {glob : Bytes → Bytes → Bool} {w : World} {env : Env}

theorem plain_gateway : Plain (ascii "gateway") := by unfold Plain; decide +kernel

theorem glob_gateway (hglob : Literal glob) (key : Bytes) :
    glob (cString (pattern (ascii "gateway"))) key = true ↔ servicePrefix (ascii "gateway") <+: key := by
  rw [cString_pattern plain_gateway]
  exact hglob _ key fun b hb ↦ (plain_servicePrefix plain_gateway b hb).2

theorem keys_exec (hglob : Literal glob) {key : Bytes}
    (h : key ∈ (w.exec glob env (.keys (pattern (ascii "gateway")))).2) :
    servicePrefix (ascii "gateway") <+: key ∧ 0 ∉ key := by
  change key ∈ (if env.ok then w.keys glob _ else []) at h
  split_ifs at h with hok
  · obtain ⟨stored, hstored, rfl⟩ := List.mem_map.mp h
    have hstarts := (glob_gateway hglob stored).mp (List.mem_filter.mp hstored).2
    exact ⟨prefix_cString plain_gateway hstarts, zero_not_mem_cString⟩
  · cases h

theorem mem_keys_exec (hglob : Literal glob) {key value : Bytes} (hok : env.ok = true)
    (hread : read w.now key w.redis = some value) (hstarts : servicePrefix (ascii "gateway") <+: key)
    (hkey : 0 ∉ key) : key ∈ (w.exec glob env (.keys (pattern (ascii "gateway")))).2 := by
  change key ∈ (if env.ok then w.keys glob _ else [])
  rw [if_pos hok]
  refine List.mem_map.mpr ⟨key, List.mem_filter.mpr ⟨mem_held_of_read hread, ?_⟩, cString_eq_self hkey⟩
  exact (glob_gateway hglob key).mpr hstarts

theorem get_exec {key addr : Bytes} (h : (w.exec glob env (.get key)).2 = addr) (hne : addr ≠ []) :
    ∃ x ∈ w.redis, x.key = cString key ∧ cString x.value = addr ∧ w.now < x.expires := by
  subst h
  change (if env.ok then w.get key else []) ≠ [] at hne
  change ∃ x ∈ w.redis, _ ∧ _ = (if env.ok then w.get key else []) ∧ _
  split_ifs at hne ⊢ with hok
  · cases hread : read w.now (cString key) w.redis with
    | none =>
      rw [World.get, hread] at hne
      exact absurd rfl hne
    | some value =>
      obtain ⟨x, hx, hkey, hvalue, hlive⟩ := mem_of_read hread
      refine ⟨x, hx, hkey, ?_, hlive⟩
      rw [World.get, hread, hvalue]
      rfl
  · exact absurd rfl hne

end Reads

section Leased

variable {glob : Bytes → Bytes → Bool} {s : DiscoveryCalls} {ok : DiscoveryCalls → Action Request Env Event → Prop}

/-- Every key in Redis was announced, and lasts as long as it was given. -/
def Leased (w : World) (l : List Record) : Prop :=
  ∀ x ∈ w.redis, ∃ e ∈ l, ∃ key value seconds, e.exchange = ⟨.setEx key value seconds, true⟩ ∧
    cString key = x.key ∧ cString value = x.value ∧ x.expires = e.before.now + 1000 * seconds ∧
    e.before.now ≤ w.now

theorem Leased.later {w w' : World} {l l' : List Record} (h : Leased w l) (hredis : ∀ x ∈ w'.redis, x ∈ w.redis)
    (hnow : w.now ≤ w'.now) (hl : ∀ e ∈ l, e ∈ l') : Leased w' l' := by
  intro x hx
  obtain ⟨e, he, key, value, seconds, hexchange, hkey, hvalue, hexpires, hbefore⟩ := h x (hredis x hx)
  exact ⟨e, hl e he, key, value, seconds, hexchange, hkey, hvalue, hexpires, hbefore.trans hnow⟩

theorem leased_of_reach (h : Reach (system glob).serve ok (idle start) s) :
    Leased s.pool.world.world s.pool.world.entries ∧
      ∀ past e, past ++ [e] <+: s.pool.world.entries → Leased e.before past := by
  refine along_of_reach (fun _ hx ↦ absurd hx List.not_mem_nil) ?_ ?_ h
  · intro i env w l c hleased
    have hkept : ∀ e : Record, Leased w (l ++ [e]) :=
      fun e ↦ hleased.later (fun _ hx ↦ hx) le_rfl fun _ he ↦ List.mem_append_left _ he
    cases c with
    | setEx key value seconds =>
      obtain ⟨ok, drawn⟩ := env
      cases ok with
      | false => exact hkept _
      | true =>
        intro x hx
        rcases List.mem_cons.mp hx with rfl | hx
        · exact ⟨_, List.mem_append_right _ (List.mem_singleton_self _), key, value, seconds, rfl, rfl, rfl,
            rfl, le_rfl⟩
        · exact hkept _ x (mem_drop.mp hx).1
    | _ => exact hkept _
  · intro o w w' l hw hleased
    cases o with
    | pass milliseconds =>
      obtain rfl := Option.some.inj hw
      exact hleased.later (fun _ hx ↦ hx) (Nat.le_add_right _ _) fun _ he ↦ he
    | lose key =>
      obtain rfl := Option.some.inj hw
      exact hleased.later (fun _ hx ↦ (mem_drop.mp hx).1) le_rfl fun _ he ↦ he

/-- The list is empty or the last one stored. -/
def Listed (w : World) (l : List Record) : Prop :=
  w.gatewayList = [] ∨ ∃ before i, LastStored l before i w.gatewayList

theorem Listed.pass {w w' : World} {l : List Record} {e : Record} (h : Listed w l)
    (hlist : w'.gatewayList = w.gatewayList) (he : ∀ newList, e.exchange.1 ≠ .storeGateways newList) :
    Listed w' (l ++ [e]) := by
  rw [Listed, hlist]
  refine h.imp id ?_
  rintro ⟨before, i, stored, since, rfl, hcall, hexchange, hsince⟩
  refine ⟨before, i, stored, since ++ [e], by simp, hcall, hexchange, ?_⟩
  intro e' he'
  rcases List.mem_append.mp he' with he' | he'
  · exact hsince e' he'
  · exact List.mem_singleton.mp he' ▸ he

theorem listed_of_reach (h : Reach (system glob).serve ok (idle start) s) :
    Listed s.pool.world.world s.pool.world.entries ∧
      ∀ past e, past ++ [e] <+: s.pool.world.entries → Listed e.before past := by
  refine along_of_reach (.inl rfl) ?_ ?_ h
  · intro i env w l c hlisted
    cases c with
    | storeGateways newList =>
      exact .inr ⟨l, i, _, [], rfl, rfl, rfl, fun _ he ↦ absurd he List.not_mem_nil⟩
    | setEx key value seconds =>
      refine hlisted.pass ?_ (fun _ ↦ by simp)
      change (if env.ok then (w.setEx key value seconds, true) else (w, false)).1.gatewayList = _
      split_ifs <;> rfl
    | _ => exact hlisted.pass rfl fun _ ↦ by simp
  · intro o w w' l hw hlisted
    cases o with
    | pass milliseconds =>
      obtain rfl := Option.some.inj hw
      exact hlisted
    | lose key =>
      obtain rfl := Option.some.inj hw
      exact hlisted

end Leased

section Sound

variable {glob : Bytes → Bytes → Bool} {s : DiscoveryCalls}

theorem effects_of_reach (h : Reach (system glob).serve anyStep (idle start) s) :
    ∀ e ∈ s.pool.world.entries, ∃ env, e.before.exec glob env e.exchange.1 = (e.after, e.exchange.2) := by
  have hrecords : s.Keeps _ _ ∧
      Records (fun env (w : World) ↦ w.exec glob env) (fun _ ↦ ([] : List Unit)) (fun _ ↦ []) _ _ _ :=
    records_of_reach (fun _ _ _ _ ↦ rfl) (fun _ _ _ _ ↦ rfl) h
  exact hrecords.2.effects

theorem conducted (h : Reach (system glob).serve anyStep (idle start) s) :
    Conducted (fun _ ↦ May) (fun _ _ ↦ True) s.pool.world s.requests :=
  conducted_of_reach program_meets (fun _ _ _ _ _ _ _ _ _ _ ↦ trivial) h

/-- What a refresh stores was announced. -/
theorem announced_of_stored (hglob : Literal glob) (h : Reach (system glob).serve anyStep (idle start) s)
    {before : List Record} {stored : Record} (hbefore : before ++ [stored] <+: s.pool.world.entries)
    {newList : List Bytes} (hstored : stored.exchange.1 = .storeGateways newList) {addr : Bytes}
    (haddr : addr ∈ newList) : addr ≠ [] ∧ Announced before stored.call addr := by
  have heffects := effects_of_reach h
  obtain ⟨-, -, hmay, -⟩ := conducted h before stored hbefore
  rw [hstored] at hmay
  obtain ⟨asked, hsuffix, hruns⟩ := hmay
  obtain ⟨result, rest, rfl, hrest⟩ := runs_perform_bind.mp hruns
  obtain ⟨hne, key, hkey, hget⟩ := (fetchAll_runs hrest).1 addr haddr
  have hentry : ∀ x ∈ (⟨.keys (pattern (ascii "gateway")), result⟩ :: rest : List (Exchange Command Answer)),
      ∃ e ∈ before, e.call = stored.call ∧ e.exchange = x :=
    fun x hx ↦ mem_journalOf.mp (hsuffix.subset hx)
  have hstarts : servicePrefix (ascii "gateway") <+: key ∧ 0 ∉ key := by
    obtain ⟨e, he, -, hexchange⟩ := hentry _ List.mem_cons_self
    obtain ⟨env, hexec⟩ := heffects e (hbefore.subset (List.mem_append_left _ he))
    rw [hexchange] at hexec
    have hresult : (e.before.exec glob env (.keys (pattern (ascii "gateway")))).2 = result :=
      congrArg Prod.snd hexec
    exact keys_exec hglob (hresult.symm ▸ hkey)
  obtain ⟨reading, hreading, hcall, hexchange⟩ := hentry _ (List.mem_cons_of_mem _ hget)
  obtain ⟨past, hpast⟩ := exists_prefix_of_mem hreading
  have hwhole : past ++ [reading] <+: s.pool.world.entries :=
    hpast.trans ((List.prefix_append before [stored]).trans hbefore)
  obtain ⟨env, hexec⟩ := heffects reading (hbefore.subset (List.mem_append_left _ hreading))
  rw [hexchange] at hexec
  have hanswer : (reading.before.exec glob env (.get key)).2 = addr := congrArg Prod.snd hexec
  obtain ⟨x, hx, hxkey, hvalue, hlive⟩ := get_exec hanswer hne
  obtain ⟨e, he, key', value', seconds, hset, hkey', hvalue', hexpires, hnow⟩ :=
    (leased_of_reach h).2 past reading hwhole x hx
  have hten : seconds = 10 := by
    obtain ⟨before', hbefore'⟩ := exists_prefix_of_mem he
    obtain ⟨-, -, hmay, -⟩ := conducted h before' e
      (hbefore'.trans ((List.prefix_append past [reading]).trans hwhole))
    rw [hset] at hmay
    exact hmay
  subst hten
  refine ⟨hne, past, reading, hpast, hcall, key, hexchange, hstarts.1, e, he, key', value', hset, ?_, ?_, hnow, ?_⟩
  · rw [hkey', hxkey, cString_eq_self hstarts.2]
  · rwa [← hvalue', cString_eq_self zero_not_mem_cString] at hvalue
  · omega

/-- A client is sent to a gateway that announced itself less than ten seconds
before the latest refresh read it, and to none only when that refresh found none. -/
theorem picked_announced {glob : Bytes → Bytes → Bool} (hglob : Literal glob) {s : DiscoveryCalls}
    (h : Reach (system glob).serve anyStep (idle start) s) {past : List Record} {e : Record}
    (hpast : past ++ [e] <+: s.pool.world.entries) {addr : Bytes} (hpick : e.exchange = ⟨.pickGateway, addr⟩) :
    (addr = [] ∧ e.before.gatewayList = []) ∨
      ∃ before i newList, LastStored past before i newList ∧ addr ∈ newList ∧ addr ≠ [] ∧
        Announced before i addr := by
  obtain ⟨env, hexec⟩ := effects_of_reach h e (hpast.subset (List.mem_append_right _ (List.mem_singleton_self e)))
  rw [hpick] at hexec
  have haddr : (e.before.gatewayList[env.drawn % e.before.gatewayList.length]?).getD [] = addr :=
    congrArg Prod.snd hexec
  by_cases hempty : e.before.gatewayList = []
  · rw [hempty] at haddr
    exact .inl ⟨haddr.symm, hempty⟩
  · have hlt := Nat.mod_lt env.drawn (List.length_pos_iff.mpr hempty)
    rw [List.getElem?_eq_getElem hlt, Option.getD_some] at haddr
    obtain ⟨before, i, hlast⟩ := ((listed_of_reach h).2 past e hpast).resolve_left hempty
    have hmem : addr ∈ e.before.gatewayList := haddr ▸ List.getElem_mem hlt
    have hstored := hlast
    obtain ⟨stored, since, rfl, rfl, hstored, -⟩ := hstored
    have hbefore : before ++ [stored] <+: s.pool.world.entries := by
      refine List.IsPrefix.trans ?_ hpast
      exact ⟨since ++ [e], by simp⟩
    obtain ⟨hne, hannounced⟩ := announced_of_stored hglob h hbefore hstored hmem
    exact .inr ⟨before, stored.call, _, hlast, hmem, hne, hannounced⟩

end Sound

section Complete

variable {glob : Bytes → Bytes → Bool} {s : DiscoveryCalls} {ip : Bytes} {port : ℤ}

/-- Redis answers all but `SET`, and the lease of the key never runs out: it is
renewed every three seconds and lasts for ten. -/
def Timely (key : Bytes) (s : DiscoveryCalls) : Action Request Env Event → Prop
  | .spawn (.renew serviceName _ _) => Plain serviceName
  | .spawn _ => True
  | .step i env => env.ok = true ∨ ∃ key value seconds, s.pool.command i = some (.setEx key value seconds)
  | .outside (.pass milliseconds) =>
    ∀ x ∈ s.pool.world.world.redis, x.key = key → s.pool.world.world.now + milliseconds < x.expires
  | .outside (.lose key') => key' ≠ key

abbrev gatewayKey (ip : Bytes) (port : ℤ) : Bytes := serviceKey (ascii "gateway") ip port

theorem serviceKey_eq (serviceName ip : Bytes) (port : ℤ) :
    serviceKey serviceName ip port = servicePrefix serviceName ++ value ip port := by
  simp only [serviceKey, servicePrefix, value, List.append_assoc]

theorem zero_not_mem_value (hip : 0 ∉ ip) : 0 ∉ value ip port := by
  rw [value, List.mem_append, List.mem_append]
  rintro ((h | h) | h)
  · exact hip h
  · exact absurd h (by decide)
  · exact not_mem_stdToString (by decide) (by decide) port h

theorem prefix_gatewayKey : servicePrefix (ascii "gateway") <+: gatewayKey ip port := by
  rw [gatewayKey, serviceKey_eq]
  exact List.prefix_append _ _

theorem zero_not_mem_gatewayKey (hip : 0 ∉ ip) : 0 ∉ gatewayKey ip port := by
  rw [gatewayKey, serviceKey_eq, List.mem_append]
  rintro (h | h)
  · exact zero_not_mem_servicePrefix plain_gateway h
  · exact zero_not_mem_value hip h

/-- Services announce what their key says. -/
def Renews (c : Command) : Prop :=
  ∀ key value' seconds, c = .setEx key value' seconds →
    ∃ serviceName ip port, Plain serviceName ∧ key = serviceKey serviceName ip port ∧ value' = value ip port ∧
      seconds = 10

/-- Whoever announces the key of a gateway announces its address. -/
theorem value_of_key {key value' : Bytes} {seconds : ℕ} (h : Renews (.setEx key value' seconds))
    (hkey : cString key = gatewayKey ip port) : cString value' = value ip port ∧ seconds = 10 := by
  obtain ⟨serviceName, ip', port', hname, rfl, rfl, rfl⟩ := h key value' seconds rfl
  rw [serviceKey_eq, cString_append (zero_not_mem_servicePrefix hname)] at hkey
  have hsame : serviceName = ascii "gateway" :=
    servicePrefix_inj plain_gateway hname prefix_gatewayKey (hkey ▸ List.prefix_append _ _)
  rw [hsame, gatewayKey, serviceKey_eq] at hkey
  exact ⟨List.append_cancel_left hkey, rfl⟩

theorem program_renews {s : DiscoveryCalls} {r : Request} (hr : Timely (gatewayKey ip port) s (.spawn r)) :
    Meets (permits Renews) (fun _ _ ↦ True) () r.program := by
  have hother : ∀ c : Command, (∀ key value' seconds, c ≠ .setEx key value' seconds) → Renews c :=
    fun c hc key value' seconds heq ↦ absurd heq (hc key value' seconds)
  cases r with
  | renew serviceName ip' port' =>
    refine meets_perform_bind.mpr ⟨?_, fun _ _ ↦ trivial⟩
    intro key value' seconds heq
    obtain ⟨rfl, rfl, rfl⟩ := Command.setEx.inj heq
    exact ⟨serviceName, ip', port', hr, rfl, rfl, rfl⟩
  | getRandomGateway => exact meets_perform_bind.mpr ⟨hother _ (by simp), fun _ _ ↦ trivial⟩
  | updateGateways =>
    have hfetch : ∀ keys, Meets (permits Renews) (fun _ _ ↦ True) () (fetchAll keys) := by
      intro keys
      induction keys with
      | nil => exact trivial
      | cons key keys ih =>
        refine meets_perform_bind.mpr ⟨hother _ (by simp), ?_⟩
        intro addr _
        refine meets_bind.mpr (ih.mono ?_)
        intro _ newList _
        split_ifs <;> exact trivial
    refine meets_bind.mpr (meets_perform_bind.mpr ⟨hother _ (by simp), ?_⟩)
    intro keys _
    refine meets_bind.mpr ((hfetch keys).mono ?_)
    intro _ newList _
    exact meets_perform.mpr ⟨hother _ (by simp), fun _ _ ↦ trivial⟩

abbrev announcement (ip : Bytes) (port : ℤ) : Exchange Command Answer :=
  ⟨.setEx (gatewayKey ip port) (value ip port) 10, true⟩

/-- Once announced, the gateway stays in Redis. -/
def Present (ip : Bytes) (port : ℤ) (w : World) (l : List Record) : Prop :=
  (∃ e ∈ l, e.exchange = announcement ip port) →
    Standing w.now (gatewayKey ip port) (value ip port) w.redis

theorem present_of_reach (hip : 0 ∉ ip) (h : Reach (system glob).serve (Timely (gatewayKey ip port)) (idle start) s) :
    ∀ past e, past ++ [e] <+: s.pool.world.entries → Present ip port e.before past := by
  refine (along_of_meets Renews (Present ip port) (fun s r hr ↦ program_renews hr) ?_ ?_ ?_ h).2
  · rintro ⟨e, he, -⟩
    cases he
  · intro s i env c _ _ hrenews hpresent
    have hpass : ∀ (w' : World) (e : Record), w'.now = s.pool.world.world.now →
        w'.redis = s.pool.world.world.redis → e.exchange ≠ announcement ip port →
        Present ip port w' (s.pool.world.entries ++ [e]) := by
      rintro w' e hnow hredis hne ⟨e', he', hexchange⟩
      rw [hnow, hredis]
      rcases List.mem_append.mp he' with he' | he'
      · exact hpresent ⟨e', he', hexchange⟩
      · exact absurd (List.mem_singleton.mp he' ▸ hexchange) hne
    cases c with
    | setEx key value' seconds =>
      obtain ⟨ok, drawn⟩ := env
      cases ok with
      | false =>
        refine hpass _ _ rfl rfl ?_
        intro hexchange
        exact absurd (eq_of_heq (Sigma.mk.inj hexchange).2) Bool.false_ne_true
      | true =>
        intro hannounced
        change Standing _ _ _ (grant _ _ (cString key) (cString value') _)
        by_cases hkey : cString key = gatewayKey ip port
        · obtain ⟨hvalue, rfl⟩ := value_of_key hrenews hkey
          rw [hkey, hvalue]
          exact standing_grant (by omega)
        · obtain ⟨e', he', hexchange⟩ := hannounced
          rcases List.mem_append.mp he' with he' | he'
          · exact (hpresent ⟨e', he', hexchange⟩).grant_of_ne hkey _
          · obtain rfl := List.mem_singleton.mp he'
            have hsame : key = gatewayKey ip port := (Command.setEx.inj (Sigma.mk.inj hexchange).1).1
            exact absurd ((congrArg cString hsame).trans (cString_eq_self (zero_not_mem_gatewayKey hip))) hkey
    | _ => exact hpass _ _ rfl rfl (by simp [announcement])
  · intro s o w' hok hw hpresent hannounced
    have hstanding := hpresent hannounced
    cases o with
    | pass milliseconds =>
      obtain rfl := Option.some.inj hw
      exact ⟨hstanding.there, hstanding.value, hok⟩
    | lose key =>
      obtain rfl := Option.some.inj hw
      exact hstanding.drop_of_ne hok

/-- Call `i` began after the announcement. -/
def BegunAfter (ip : Bytes) (port : ℤ) (before : List Record) (i : ℕ) : Prop :=
  ∀ past e, past ++ [e] <+: before → e.call = i → ∃ e' ∈ past, e'.exchange = announcement ip port

theorem answered (h : Reach (system glob).serve (Timely (gatewayKey ip port)) (idle start) s) :
    Conducted (fun _ ↦ May) (fun _ e ↦ ∃ env : Env,
        (env.ok = true ∨ ∃ key value seconds, e.exchange.1 = .setEx key value seconds) ∧
        e.before.exec glob env e.exchange.1 = (e.after, e.exchange.2)) s.pool.world s.requests := by
  refine conducted_of_reach program_meets ?_ h
  intro s i env c k t r hok hi _
  refine ⟨env, hok.imp id ?_, rfl⟩
  rintro ⟨key, value', seconds, hcommand⟩
  rw [Pool.command_of_threads hi] at hcommand
  exact ⟨key, value', seconds, Option.some.inj hcommand⟩

/-- A gateway that keeps its lease is in every list read after its announcement. -/
theorem timely_listed {glob : Bytes → Bytes → Bool} (hglob : Literal glob) {ip : Bytes} (hip : 0 ∉ ip) {port : ℤ}
    {s : DiscoveryCalls} (h : Reach (system glob).serve (Timely (gatewayKey ip port)) (idle start) s)
    {before : List Record} {stored : Record} (hbefore : before ++ [stored] <+: s.pool.world.entries)
    {newList : List Bytes} (hstored : stored.exchange.1 = .storeGateways newList)
    (hbegun : BegunAfter ip port before stored.call) : value ip port ∈ newList := by
  obtain ⟨-, -, hmay, -⟩ := answered h before stored hbefore
  rw [hstored] at hmay
  obtain ⟨asked, hsuffix, hruns⟩ := hmay
  obtain ⟨result, rest, rfl, hrest⟩ := runs_perform_bind.mp hruns
  -- every exchange of the refresh found the gateway in Redis
  have hentry : ∀ x ∈ (⟨.keys (pattern (ascii "gateway")), result⟩ :: rest : List (Exchange Command Answer)),
      ∃ e : Record, e.exchange = x ∧ read e.before.now (gatewayKey ip port) e.before.redis = some (value ip port) ∧
        ∃ env : Env, (env.ok = true ∨ ∃ key value seconds, x.1 = .setEx key value seconds) ∧
          e.before.exec glob env x.1 = (e.after, x.2) := by
    intro x hx
    obtain ⟨e, he, hcall, rfl⟩ := mem_journalOf.mp (hsuffix.subset hx)
    obtain ⟨past, hpast⟩ := exists_prefix_of_mem he
    have hwhole := hpast.trans ((List.prefix_append before [stored]).trans hbefore)
    have hread := (present_of_reach hip h past e hwhole (hbegun past e hpast hcall)).read_eq
    obtain ⟨-, -, -, henv⟩ := answered h past e hwhole
    exact ⟨e, rfl, hread, henv⟩
  have hkey : gatewayKey ip port ∈ result := by
    obtain ⟨e, -, hread, env, hok, hexec⟩ := hentry _ List.mem_cons_self
    have hresult : (e.before.exec glob env (.keys (pattern (ascii "gateway")))).2 = result :=
      congrArg Prod.snd hexec
    rw [← hresult]
    refine mem_keys_exec hglob (hok.resolve_right ?_) hread prefix_gatewayKey (zero_not_mem_gatewayKey hip)
    rintro ⟨_, _, _, hset⟩
    cases hset
  obtain ⟨addr, hget, hlisted⟩ := (fetchAll_runs hrest).2 _ hkey
  obtain ⟨e, -, hread, env, hok, hexec⟩ := hentry _ (List.mem_cons_of_mem _ hget)
  have haddr : addr = value ip port := by
    have hanswer : (if env.ok then e.before.get (gatewayKey ip port) else []) = addr := congrArg Prod.snd hexec
    have hok : env.ok = true := by
      refine hok.resolve_right ?_
      rintro ⟨_, _, _, hset⟩
      cases hset
    rw [if_pos hok, World.get, cString_eq_self (zero_not_mem_gatewayKey hip), hread] at hanswer
    rw [← hanswer]
    exact cString_eq_self (zero_not_mem_value hip)
  rw [haddr] at hlisted
  exact hlisted (by simp [value, show ascii ":" = [58] from rfl])

end Complete

section Trace

open Store.Discovery (starGlob literal_starGlob)

/-- A gateway announces itself, a refresh reads it, and a client is sent there. -/
def refreshed : List (Action Request Env Event) :=
  [.spawn (.renew (ascii "gateway") [49] 1), .step 0 {}, .outside (.pass 4000), .spawn .updateGateways,
    .step 1 {}, .step 1 {}, .step 1 {}, .spawn .getRandomGateway, .outside (.pass 9000), .step 2 { drawn := 7 }]

theorem picked_announced_refreshed :
    ∃ s, Reach (system starGlob).serve anyStep (idle start) s ∧
      ∃ past e, past ++ [e] <+: s.pool.world.entries ∧ e.exchange = ⟨.pickGateway, value [49] 1⟩ ∧
        ∃ before i newList, LastStored past before i newList ∧ Announced before i (value [49] 1) := by
  obtain ⟨s, hreach, past, e, hpast, hpick⟩ : ∃ s, Reach (system starGlob).serve anyStep (idle start) s ∧
      ∃ past e, s.pool.world.entries = past ++ [e] ∧ e.exchange = ⟨.pickGateway, value [49] 1⟩ :=
    exists_reach_of_exec refreshed ⟨_, rfl, [_, _, _, _], _, rfl, rfl⟩
  have hstarts : past ++ [e] <+: s.pool.world.entries := hpast ▸ List.prefix_refl _
  obtain ⟨hempty, -⟩ | ⟨before, i, newList, hlast, -, -, hannounced⟩ :=
    picked_announced literal_starGlob hreach hstarts hpick
  · exact absurd hempty (by decide)
  · exact ⟨s, hreach, past, e, hstarts, hpick, before, i, newList, hlast, hannounced⟩

theorem timely_listed_refreshed :
    ∃ s, Reach (system starGlob).serve (Timely (gatewayKey [49] 1)) (idle start) s ∧
      ∃ before stored newList, before ++ [stored] <+: s.pool.world.entries ∧
        stored.exchange.1 = .storeGateways newList ∧ value [49] 1 ∈ newList := by
  obtain ⟨s, hreach, first, second, third, stored, hentries, hfirst, hcall, hstored⟩ :
      ∃ s, Reach (system starGlob).serve (Timely (gatewayKey [49] 1)) (idle start) s ∧
        ∃ first second third stored, s.pool.world.entries = [first, second, third, stored] ∧
          (first.call = 0 ∧ first.exchange = announcement [49] 1) ∧ stored.call = 1 ∧
          stored.exchange.1 = .storeGateways [value [49] 1] := by
    refine ⟨_, ((((((((Reach.refl (idle start)).tail (a := .spawn (.renew (ascii "gateway") [49] 1))
      plain_gateway rfl).tail (a := .step 0 {}) (.inl rfl) rfl).tail (a := .outside (.pass 4000)) ?_ rfl).tail
      (a := .spawn .updateGateways) trivial rfl).tail (a := .step 1 {}) (.inl rfl) rfl).tail
      (a := .step 1 {}) (.inl rfl) rfl).tail (a := .step 1 {}) (.inl rfl) rfl), _, _, _, _, rfl, ⟨rfl, rfl⟩, rfl, rfl⟩
    intro x hx _
    obtain rfl := List.mem_singleton.mp hx
    decide
  have hbefore : [first, second, third] ++ [stored] <+: s.pool.world.entries := hentries ▸ List.prefix_refl _
  refine ⟨s, hreach, [first, second, third], stored, _, hbefore, hstored, ?_⟩
  refine timely_listed literal_starGlob (by decide) hreach hbefore hstored ?_
  intro past e hpast he
  cases past with
  | nil =>
    obtain ⟨rfl, -⟩ := List.cons_prefix_cons.mp hpast
    rw [hcall, hfirst.1] at he
    cases he
  | cons x past =>
    obtain ⟨rfl, -⟩ := List.cons_prefix_cons.mp hpast
    exact ⟨x, List.mem_cons_self, hfirst.2⟩

end Trace

end TinyIM.Dispatch.LiveGateways
