import TinyIM.Auth.KickIsolation
import TinyIM.Gateway.Location

namespace TinyIM.Auth.Eviction

open Library.ByteOrder Library.Delimited Library.Transition Library.Program Library.Interleaving
  Protocol Store Gateway Gateway.Cluster Gateway.Location KickRace
open Dispatch (loginCodec)

/-- The world of `KickRace`, with the token by which the handshake of each
session was authenticated. -/
structure World where
  race : KickRace.World
  tokens : ℕ → Option Bytes

def exec (i : ℕ) (env : (c : Command) → Answer c) (w : World) (c : Command) : World × Answer c :=
  ({ w with race := (KickRace.exec i env w.race c).1 }, (KickRace.exec i env w.race c).2)

variable (e : Endian) (pb : Codec)

def noted (o : Event) (w : World) : ℕ → Option Bytes :=
  match o with
  | .handshake _ userId token device =>
    if authOk w.race.gateways.redis userId token device then
      Function.update w.tokens w.race.gateways.conns.length (some token)
    else w.tokens
  | _ => w.tokens

def outside (o : Event) (w : World) : Option World :=
  (KickRace.outside e pb o w.race).map fun race ↦ ⟨race, noted o w⟩

def system : System Command Answer Unit (Option ℤ) World Request ((c : Command) → Answer c) Event where
  contract := ⟨fun _ _ ↦ True, fun _ _ _ ↦ True, KickIsolation.found⟩
  fresh := none
  start := (KickRace.system e pb).start
  exec := exec
  outside := outside e pb

abbrev Calls := Served Command Answer Unit (Option ℤ) World Request

abbrev Step := Library.Interleaving.Action Request ((c : Command) → Answer c) Event

def start (r : Redis) : Calls := ⟨⟨⟨KickRace.start r, fun _ ↦ none⟩, []⟩, []⟩

/-- A session of user `u` on device `d` has joined at gateway `g`, was
authenticated by `token` and has not been kicked. -/
def Standing (w : World) (i : ℕ) (u : ℤ) (d token : Bytes) (g : ℕ) : Prop :=
  ∃ c, w.race.gateways.conns[i]? = some c ∧ c.session = ⟨u, d⟩ ∧ c.gateway = g ∧
    u ∈ sets w.race.gateways.managers i g ∧ i ∉ w.race.gateways.kicked ∧ w.tokens i = some token

def AboutToKick (u : ℤ) (d : Bytes) : Handler Unit → Prop
  | .call (.publish channel msg) _ => channel = ascii "im:kick" ∧ decodeKick (cString msg) = some (u, d)
  | _ => False

/-- A kick of the user and device has not yet reached the gateway, or is about
to be published. -/
def KickComing (s : Calls) (g : ℕ) (u : ℤ) (d : Bytes) : Prop :=
  (∃ m ∈ s.pool.world.race.queues g, decodeKick m.payload = some (u, d)) ∨
    ∃ th ∈ s.pool.threads, AboutToKick u d th.prog

/-- No call is in progress and no message is on its way to a gateway with
sessions. -/
def Quiet (s : Calls) : Prop :=
  (∀ th ∈ s.pool.threads, th.prog = .done ()) ∧
    ∀ c ∈ s.pool.world.race.gateways.conns, s.pool.world.race.queues c.gateway = []

def Evicted (s : Calls) : Prop :=
  Quiet s → ∀ i u d token g, Standing s.pool.world i u d token g →
    s.pool.world.race.gateways.redis.hget (sessionKey u) d = some token

/-- There are only logins and nothing expires. A login replaces a token only
when every session that stands by it will yet be kicked, and a session joins
only when its token is still the stored one or it will yet be kicked. -/
def Orderly (s : Calls) : Step → Prop
  | .spawn (.logout _) => False
  | .spawn (.login _) => True
  | .step i _ => ∀ key field value k t,
    s.pool.threads[i]? = some ⟨.call (.hset key field value) k, t⟩ →
      ∀ j u token g, Standing s.pool.world j u (cString field) token g → sessionKey u = cString key →
        token = cString value ∨ KickComing s g u (cString field)
  | .outside (.expired _) => False
  | .outside (.perform i) => ∀ c u rest token, s.pool.world.race.gateways.conns[i]? = some c →
    c.pending = .join u :: rest → s.pool.world.tokens i = some token →
      s.pool.world.race.gateways.redis.hget (sessionKey u) c.session.device = some token ∨
        KickComing s c.gateway u c.session.device
  | .outside _ => True

/-- A session that has a token is authenticated. -/
def Known (w : World) : Prop :=
  ∀ i token, w.tokens i = some token →
    ∃ c, w.race.gateways.conns[i]? = some c ∧ 0 < c.session.userId

/-- The token of every standing session is stored, or a kick is coming. -/
structure Inv (s : Calls) : Prop where
  keeps : s.Keeps KickIsolation.ownTarget fun _ _ _ ↦ True
  logins : ∀ r ∈ s.requests, ∃ req, r = .login req
  ordered : Ordered s.pool.world.race.gateways
  known : Known s.pool.world
  current : ∀ i u d token g, Standing s.pool.world i u d token g →
    s.pool.world.race.gateways.redis.hget (sessionKey u) d = some token ∨ KickComing s g u d

variable {e : Endian} {pb : Codec} {st st' : Gateways} {w w' : World} {s s' : Calls} {u : ℤ}
  {d token : Bytes} {g : ℕ}

/-- An authenticated session keeps its user and gateway, and comes into a set
only by joining. -/
theorem joined_next {a : Cluster.Action} {i : ℕ} {c c' : Conn} (hc : st.conns[i]? = some c)
    (hpos : 0 < c.session.userId) (hstep : next e pb st a = some st')
    (hc' : st'.conns[i]? = some c') :
    c'.session = c.session ∧ c'.gateway = c.gateway ∧
      (u ∈ sets st'.managers i c.gateway → u ∈ sets st.managers i c.gateway ∨
        ∃ rest, a = .perform i ∧ c.pending = .join u :: rest) := by
  obtain ⟨g, s, rfl, -, rfl⟩ | ⟨j, h, x, x', rfl, hx, -, hx', rfl⟩ |
    ⟨j, x, ef, rest, rfl, hx, hpending, rfl⟩ | ⟨g, u, d, rfl, rfl⟩ := next_cases hstep
  · rcases getElem?_concat_some hc' with hc' | ⟨hi, -⟩
    · obtain rfl := Option.some.inj (hc.symm.trans hc')
      exact ⟨rfl, rfl, .inl⟩
    · exact absurd (List.getElem?_eq_some_iff.mp hc).1 hi.ge.not_gt
  · rcases getElem?_set_some hx hc' with ⟨rfl, rfl⟩ | ⟨-, hc'⟩
    · obtain rfl := Option.some.inj (hc.symm.trans hx)
      exact ⟨(start_authenticated hx' hpos).1, (start_frame hx').1, .inl⟩
    · obtain rfl := Option.some.inj (hc.symm.trans hc')
      exact ⟨rfl, rfl, .inl⟩
  · rw [effect_conns] at hc'
    rw [sets_effect]
    rcases getElem?_set_some hx hc' with ⟨rfl, rfl⟩ | ⟨hj, hc'⟩
    · obtain rfl := Option.some.inj (hc.symm.trans hx)
      refine ⟨rfl, rfl, ?_⟩
      rw [if_pos ⟨rfl, rfl⟩]
      intro hu
      cases ef with
      | join v =>
        rcases Set.mem_insert_iff.mp hu with rfl | hu
        · exact .inr ⟨rest, rfl, hpending⟩
        · exact .inl hu
      | leave v => exact .inl hu.1
      | _ => exact .inl hu
    · obtain rfl := Option.some.inj (hc.symm.trans hc')
      refine ⟨rfl, rfl, ?_⟩
      rw [if_neg fun h ↦ hj h.1]
      exact .inl
  · obtain rfl := Option.some.inj (hc.symm.trans hc')
    exact ⟨rfl, rfl, .inl⟩

theorem hget_next {a : Cluster.Action} (hO : Ordered st) (hstep : next e pb st a = some st') :
    st'.redis.hget (sessionKey u) d = st.redis.hget (sessionKey u) d := by
  obtain ⟨g, s, -, -, rfl⟩ | ⟨j, h, x, x', -, -, -, -, rfl⟩ | ⟨j, x, ef, rest, -, hx, hpending, rfl⟩ |
    ⟨g, u, d, -, rfl⟩ := next_cases hstep
  · rfl
  · rfl
  · have hkey := (hO.shape j x hx).onLocation ef (by rw [hpending]; exact List.mem_cons_self)
    cases ef with
    | hset key field value =>
      obtain rfl : key = locationKey x.session.userId := hkey
      exact Redis.hget_hset_of_ne _ (.inl (sessionKey_ne_locationKey _ _))
    | hdel key field =>
      obtain rfl : key = locationKey x.session.userId := hkey
      exact Redis.hget_hdel_of_ne (.inl (sessionKey_ne_locationKey _ _))
    | _ => rfl
  · rfl

theorem exec_gateways (i : ℕ) (env : (c : Command) → Answer c) (w : KickRace.World) (c : Command) :
    ∃ r, (KickRace.exec i env w c).1.gateways = { w.gateways with redis := r } := by
  cases c with
  | publish channel msg =>
    simp only [KickRace.exec]
    split_ifs <;> exact ⟨_, rfl⟩
  | _ => exact ⟨_, rfl⟩

theorem exec_queues_subset (i : ℕ) (env : (c : Command) → Answer c) (w : KickRace.World)
    (c : Command) (g : ℕ) : w.queues g ⊆ (KickRace.exec i env w c).1.queues g := by
  intro m hm
  cases c with
  | publish channel msg =>
    simp only [KickRace.exec]
    split_ifs
    · exact List.mem_append_left _ hm
    · exact hm
  | _ => exact hm

theorem standing_exec {i j : ℕ} {env : (c : Command) → Answer c} {c : Command}
    (h : Standing (exec i env w c).1 j u d token g) : Standing w j u d token g := by
  obtain ⟨x, hx, hsession, hgateway, hmem, hkicked, htoken⟩ := h
  obtain ⟨r, hr⟩ := exec_gateways i env w.race c
  simp only [exec, hr] at hx hmem hkicked htoken
  exact ⟨x, hx, hsession, hgateway, hmem, hkicked, htoken⟩

/-- A kick that is about to be published is on its way afterwards. -/
theorem KickComing.exec {i : ℕ} {env : (c : Command) → Answer c} {c : Command}
    {k : Answer c → Handler Unit} {t : Option ℤ} {th : Thread Command Answer Unit (Option ℤ)}
    (hi : s.pool.threads[i]? = some ⟨.call c k, t⟩) (h : KickComing s g u d) :
    KickComing ⟨⟨(exec i env s.pool.world c).1, s.pool.threads.set i th⟩, s.requests⟩ g u d := by
  obtain ⟨m, hm, hdecode⟩ | ⟨th', hth, hkick⟩ := h
  · exact .inl ⟨m, exec_queues_subset i env _ c g hm, hdecode⟩
  · obtain ⟨j, hj⟩ := List.mem_iff_getElem?.mp hth
    by_cases hij : j = i
    · subst hij
      obtain rfl := Option.some.inj (hi.symm.trans hj)
      cases c with
      | publish channel msg =>
        obtain ⟨rfl, hdecode⟩ := hkick
        refine .inl ⟨⟨cString msg, j⟩, ?_, hdecode⟩
        simp [Eviction.exec, KickRace.exec, show cString (ascii "im:kick") = ascii "im:kick" by decide]
      | _ => exact hkick.elim
    · exact .inr ⟨th', List.mem_of_getElem? ((List.getElem?_set_ne (Ne.symm hij)).trans hj), hkick⟩

theorem KickComing.spawn {th : Thread Command Answer Unit (Option ℤ)} {r : Request}
    (h : KickComing s g u d) :
    KickComing ⟨⟨s.pool.world, s.pool.threads ++ [th]⟩, s.requests ++ [r]⟩ g u d := by
  obtain hqueued | ⟨th', hth, hkick⟩ := h
  · exact .inl hqueued
  · exact .inr ⟨th', List.mem_append_left _ hth, hkick⟩

theorem length_next {a : Cluster.Action} (hstep : next e pb st a = some st') :
    st.conns.length ≤ st'.conns.length := by
  obtain ⟨g, s, -, -, rfl⟩ | ⟨j, h, x, x', -, -, -, -, rfl⟩ | ⟨j, x, ef, rest, -, -, -, rfl⟩ |
    ⟨g, u, d, -, rfl⟩ := next_cases hstep
  · simp
  · simp
  · simp
  · exact le_rfl

theorem outside_cases {o : Event} (ho : ∀ key, o ≠ .expired key)
    (h : outside e pb o w = some w') :
    (∃ g session, next e pb w.race.gateways (.upgrade g session) = some w'.race.gateways ∧
      w'.race.queues = w.race.queues ∧ (w'.tokens = w.tokens ∨ (0 < session.userId ∧ ∃ token,
        w'.tokens = Function.update w.tokens w.race.gateways.conns.length (some token)))) ∨
    (∃ a, (∀ i, a = .perform i → o = .perform i) ∧
      next e pb w.race.gateways a = some w'.race.gateways ∧
      w'.race.queues = w.race.queues ∧ w'.tokens = w.tokens) ∨
    (∃ g m rest, o = .deliver g ∧ w.race.queues g = m :: rest ∧
      w'.race.queues = Function.update w.race.queues g rest ∧ w'.tokens = w.tokens ∧
      ((decodeKick m.payload = none ∧ w'.race.gateways = w.race.gateways) ∨
        ∃ u d, decodeKick m.payload = some (u, d) ∧
          next e pb w.race.gateways (.kick g u d) = some w'.race.gateways)) := by
  obtain ⟨race, hrace, rfl⟩ := Option.map_eq_some_iff.mp h
  cases o with
  | handshake g userId token device =>
    obtain ⟨gs, ⟨hauth, hgs, rfl⟩ | ⟨hauth, hgs, rfl⟩⟩ := KickRace.World.upgrade_cases hrace
    · refine .inl ⟨g, ⟨userId, device⟩, hgs, rfl, .inr ⟨hauth.1, token, ?_⟩⟩
      exact if_pos hauth
    · refine .inl ⟨g, ⟨0, device⟩, hgs, rfl, .inl ?_⟩
      exact if_neg hauth
  | handle i hd =>
    obtain ⟨gs, hgs, rfl⟩ := Option.map_eq_some_iff.mp hrace
    refine .inr (.inl ⟨.handle i hd, ?_, hgs, rfl, rfl⟩)
    intro j hj
    cases hj
  | perform i =>
    obtain ⟨gs, hgs, rfl⟩ := Option.map_eq_some_iff.mp hrace
    refine .inr (.inl ⟨.perform i, ?_, hgs, rfl, rfl⟩)
    intro j hj
    rw [Cluster.Action.perform.inj hj]
  | deliver g =>
    obtain ⟨m, rest, hqueue, hcase⟩ := KickRace.World.deliver_cases hrace
    refine .inr (.inr ⟨g, m, rest, rfl, hqueue, ?_⟩)
    obtain ⟨hdecode, rfl⟩ | ⟨u, d, gs, hdecode, hgs, rfl⟩ := hcase
    · exact ⟨rfl, rfl, .inl ⟨hdecode, rfl⟩⟩
    · exact ⟨rfl, rfl, .inr ⟨u, d, hdecode, hgs⟩⟩
  | expired key => exact absurd rfl (ho key)

/-- A session stands because it stood before or because it joins. -/
theorem standing_next {a : Cluster.Action} {j : ℕ} (hknown : Known w)
    (hstep : next e pb w.race.gateways a = some w'.race.gateways)
    (htokens : w'.tokens j = w.tokens j) (h : Standing w' j u d token g) :
    Standing w j u d token g ∨ ∃ c rest, a = .perform j ∧ w.race.gateways.conns[j]? = some c ∧
      c.pending = .join u :: rest ∧ c.session.device = d ∧ c.gateway = g ∧
      w.tokens j = some token := by
  obtain ⟨x, hx, hsession, rfl, hmem, hkicked, htoken⟩ := h
  rw [htokens] at htoken
  obtain ⟨c, hc, hpos⟩ := hknown j token htoken
  obtain ⟨hsame, hgateway, hin⟩ := joined_next hc hpos hstep hx (u := u)
  rw [hgateway] at hmem ⊢
  rw [hsame] at hsession
  have hkicked' : j ∉ w.race.gateways.kicked := by
    obtain heq | ⟨_, _, _, -, heq⟩ := KickIsolation.next_kicked hstep
    · rwa [heq] at hkicked
    · rw [heq] at hkicked
      exact fun hj ↦ hkicked (Finset.mem_union_left _ hj)
  obtain hmem | ⟨rest, rfl, hpending⟩ := hin hmem
  · exact .inl ⟨c, hc, hsession, rfl, hmem, hkicked', htoken⟩
  · exact .inr ⟨c, rest, rfl, hc, hpending, by rw [hsession], rfl, htoken⟩

theorem known_next {a : Cluster.Action} (hknown : Known w)
    (hstep : next e pb w.race.gateways a = some w'.race.gateways) {i : ℕ}
    (htokens : w'.tokens i = w.tokens i) (htoken : w'.tokens i = some token) :
    ∃ c, w'.race.gateways.conns[i]? = some c ∧ 0 < c.session.userId := by
  rw [htokens] at htoken
  obtain ⟨c, hc, hpos⟩ := hknown i token htoken
  have hlt := (List.getElem?_eq_some_iff.mp hc).1.trans_le (length_next hstep)
  obtain ⟨hsame, -⟩ := joined_next (u := 0) hc hpos hstep (List.getElem?_eq_getElem hlt)
  exact ⟨_, List.getElem?_eq_getElem hlt, hsame ▸ hpos⟩

theorem KickComing.outside
    (hqueue : ∀ m ∈ s.pool.world.race.queues g, decodeKick m.payload = some (u, d) →
      m ∈ w'.race.queues g) (h : KickComing s g u d) :
    KickComing ⟨⟨w', s.pool.threads⟩, s.requests⟩ g u d := by
  obtain ⟨m, hm, hdecode⟩ | hthread := h
  · exact .inl ⟨m, hqueue m hm hdecode, hdecode⟩
  · exact .inr hthread

theorem not_standing_new {session : Session} {h : ℕ} (hO : Ordered w.race.gateways)
    (hstep : next e pb w.race.gateways (.upgrade h session) = some w'.race.gateways) :
    ¬ Standing w' w.race.gateways.conns.length u d token g := by
  intro hstanding
  obtain ⟨c, -, -, -, hmem, -⟩ := hstanding
  simp only [next] at hstep
  split_ifs at hstep
  rw [← Option.some.inj hstep, hO.home.sets_new le_rfl] at hmem
  exact hmem

/-- The current token or a coming kick of each session, after a step of the
gateways that takes no kick of it away. -/
theorem current_next {a : Cluster.Action} {j : ℕ} (hinv : Inv s)
    (hstep : next e pb s.pool.world.race.gateways a = some w'.race.gateways)
    (htokens : w'.tokens j = s.pool.world.tokens j)
    (hqueue : ∀ m ∈ s.pool.world.race.queues g, decodeKick m.payload = some (u, d) →
      m ∈ w'.race.queues g)
    (hjoin : a = .perform j → Orderly s (.outside (.perform j)))
    (h : Standing w' j u d token g) :
    w'.race.gateways.redis.hget (sessionKey u) d = some token ∨
      KickComing ⟨⟨w', s.pool.threads⟩, s.requests⟩ g u d := by
  rw [hget_next hinv.ordered hstep]
  have hcase : s.pool.world.race.gateways.redis.hget (sessionKey u) d = some token ∨
      KickComing s g u d := by
    obtain hstood | ⟨c, rest, rfl, hc, hpending, rfl, rfl, htoken⟩ :=
      standing_next hinv.known hstep htokens h
    · exact hinv.current j u d token g hstood
    · exact hjoin rfl c u rest token hc hpending htoken
  exact hcase.imp_right (KickComing.outside hqueue)

theorem Inv.upgrade {session : Session} {h : ℕ} (hinv : Inv s)
    (hstep : next e pb s.pool.world.race.gateways (.upgrade h session) = some w'.race.gateways)
    (hqueues : w'.race.queues = s.pool.world.race.queues)
    (htokens : w'.tokens = s.pool.world.tokens ∨ (0 < session.userId ∧ ∃ token, w'.tokens =
      Function.update s.pool.world.tokens s.pool.world.race.gateways.conns.length (some token))) :
    Inv ⟨⟨w', s.pool.threads⟩, s.requests⟩ := by
  have hold : ∀ i, i ≠ s.pool.world.race.gateways.conns.length →
      w'.tokens i = s.pool.world.tokens i := by
    intro i hi
    obtain heq | ⟨-, _, heq⟩ := htokens <;> rw [heq]
    exact Function.update_of_ne hi _ _
  refine ⟨⟨hinv.keeps.length, hinv.keeps.meets⟩, hinv.logins, ordered_next hstep hinv.ordered, ?_, ?_⟩
  · intro i token htoken
    by_cases hi : i = s.pool.world.race.gateways.conns.length
    · subst hi
      obtain heq | ⟨hpos, _, -⟩ := htokens
      · exact known_next hinv.known hstep (by rw [heq]) htoken
      · have hnew := hstep
        simp only [next] at hnew
        split_ifs at hnew
        refine ⟨⟨session, h, .accepting, []⟩, ?_, hpos⟩
        rw [← Option.some.inj hnew]
        simp
    · exact known_next hinv.known hstep (hold i hi) htoken
  · intro j u d token g hstanding
    have hj : j ≠ s.pool.world.race.gateways.conns.length := by
      intro heq
      subst heq
      exact not_standing_new hinv.ordered hstep hstanding
    refine current_next hinv hstep (hold j hj) (by rw [hqueues]; exact fun m hm _ ↦ hm) ?_ hstanding
    intro heq
    cases heq

theorem Inv.gateways {a : Cluster.Action} (hinv : Inv s)
    (hstep : next e pb s.pool.world.race.gateways a = some w'.race.gateways)
    (hqueues : w'.race.queues = s.pool.world.race.queues)
    (htokens : w'.tokens = s.pool.world.tokens)
    (hjoin : ∀ j, a = .perform j → Orderly s (.outside (.perform j))) :
    Inv ⟨⟨w', s.pool.threads⟩, s.requests⟩ := by
  refine ⟨⟨hinv.keeps.length, hinv.keeps.meets⟩, hinv.logins, ordered_next hstep hinv.ordered, ?_, ?_⟩
  · intro i token htoken
    exact known_next hinv.known hstep (by rw [htokens]) htoken
  · intro j u d token g hstanding
    exact current_next hinv hstep (by rw [htokens]) (by rw [hqueues]; exact fun m hm _ ↦ hm)
      (hjoin j) hstanding

theorem mem_of_mem_update {queues : ℕ → List Message} {h : ℕ} {m m' : Message}
    {rest : List Message} (hqueue : queues h = m :: rest) (hm : m' ∈ queues g)
    (hne : g = h → m' ≠ m) : m' ∈ Function.update queues h rest g := by
  by_cases hg : g = h
  · subst hg
    rw [hqueue] at hm
    rw [Function.update_self]
    exact (List.mem_cons.mp hm).resolve_left (hne rfl)
  · rwa [Function.update_of_ne hg]

/-- The kick that a delivery takes away has hit the sessions it was for. -/
theorem not_standing_kicked {h j : ℕ}
    (hstep : next e pb w.race.gateways (.kick h u d) = some w'.race.gateways) :
    ¬ Standing w' j u d token h := by
  intro hstanding
  obtain ⟨c, hc, hsession, -, hmem, hkicked, -⟩ := hstanding
  rw [← Option.some.inj hstep] at hc hmem hkicked
  apply hkicked
  have hdevice : w.race.gateways.device j = d := by
    simp only [Gateways.device, hc, hsession]
  exact Finset.mem_union_right _ (Finset.mem_filter.mpr ⟨hmem, .inr hdevice⟩)

section Deliver

variable {h : ℕ} {m : Message} {rest : List Message}

theorem mem_of_delivered (hqueue : w.race.queues h = m :: rest)
    (hqueues : w'.race.queues = Function.update w.race.queues h rest)
    (hne : g = h → decodeKick m.payload ≠ some (u, d)) :
    ∀ m' ∈ w.race.queues g, decodeKick m'.payload = some (u, d) → m' ∈ w'.race.queues g := by
  intro m' hm' hdecode
  rw [hqueues]
  refine mem_of_mem_update hqueue hm' ?_
  intro hg heq
  rw [heq] at hdecode
  exact hne hg hdecode

theorem Inv.ignored (hinv : Inv s) (hqueue : s.pool.world.race.queues h = m :: rest)
    (hqueues : w'.race.queues = Function.update s.pool.world.race.queues h rest)
    (htokens : w'.tokens = s.pool.world.tokens) (hdecode : decodeKick m.payload = none)
    (hgateways : w'.race.gateways = s.pool.world.race.gateways) :
    Inv ⟨⟨w', s.pool.threads⟩, s.requests⟩ := by
  refine ⟨⟨hinv.keeps.length, hinv.keeps.meets⟩, hinv.logins, ?_, ?_, ?_⟩
  · dsimp only
    rw [hgateways]
    exact hinv.ordered
  · intro i token htoken
    rw [htokens] at htoken
    rw [hgateways]
    exact hinv.known i token htoken
  · intro j u d token g hstanding
    dsimp only at hstanding ⊢
    rw [Standing, hgateways, htokens] at hstanding
    rw [hgateways]
    refine (hinv.current j u d token g hstanding).imp_right (KickComing.outside ?_)
    exact mem_of_delivered hqueue hqueues (by simp [hdecode])

theorem Inv.kicked (hinv : Inv s) (hqueue : s.pool.world.race.queues h = m :: rest)
    (hqueues : w'.race.queues = Function.update s.pool.world.race.queues h rest)
    (htokens : w'.tokens = s.pool.world.tokens) (hdecode : decodeKick m.payload = some (u, d))
    (hstep : next e pb s.pool.world.race.gateways (.kick h u d) = some w'.race.gateways) :
    Inv ⟨⟨w', s.pool.threads⟩, s.requests⟩ := by
  refine ⟨⟨hinv.keeps.length, hinv.keeps.meets⟩, hinv.logins,
    ordered_next hstep hinv.ordered, ?_, ?_⟩
  · intro i token htoken
    exact known_next hinv.known hstep (by rw [htokens]) htoken
  · intro j u' d' token g hstanding
    refine current_next hinv hstep (by rw [htokens]) (mem_of_delivered hqueue hqueues ?_) ?_ hstanding
    · intro hg heq
      obtain ⟨rfl, rfl⟩ := Prod.mk.inj (Option.some.inj (hdecode.symm.trans heq))
      subst hg
      exact not_standing_kicked hstep hstanding
    · intro heq
      cases heq

end Deliver

theorem Inv.outside {o : Event} (hinv : Inv s) (hok : Orderly s (.outside o))
    (h : outside e pb o s.pool.world = some w') : Inv ⟨⟨w', s.pool.threads⟩, s.requests⟩ := by
  have hexpired : ∀ key, o ≠ .expired key := by
    intro key heq
    subst heq
    exact hok
  obtain ⟨g, session, hstep, hqueues, htokens⟩ | ⟨a, ha, hstep, hqueues, htokens⟩ |
    ⟨g, m, rest, -, hqueue, hqueues, htokens, ⟨hdecode, hgateways⟩ | ⟨u, d, hdecode, hstep⟩⟩ :=
      outside_cases hexpired h
  · exact hinv.upgrade hstep hqueues htokens
  · refine hinv.gateways hstep hqueues htokens fun j hj ↦ ?_
    rw [← ha j hj]
    exact hok
  · exact hinv.ignored hqueue hqueues htokens hdecode hgateways
  · exact hinv.kicked hqueue hqueues htokens hdecode hstep

theorem Inv.spawn {r : Request} (hinv : Inv s) (hok : Orderly s (.spawn r))
    (hs : (system e pb).serve s (.spawn r) = some s') : Inv s' := by
  have hkeeps := Served.Keeps.next (K := KickIsolation.ownTarget) (fun _ ↦ rfl) hinv.keeps hs
    (fun r _ ↦ KickIsolation.start_meets e pb r) (fun _ _ _ _ _ _ _ _ _ _ ↦ trivial)
  obtain rfl := (Option.some.inj hs).symm
  refine ⟨hkeeps, ?_, hinv.ordered, hinv.known, ?_⟩
  · intro r' hr'
    rcases List.mem_append.mp hr' with hr' | hr'
    · exact hinv.logins r' hr'
    · obtain rfl := List.mem_singleton.mp hr'
      cases r' with
      | login req => exact ⟨req, rfl⟩
      | logout req => exact hok.elim
  · intro j u d token g hstanding
    exact (hinv.current j u d token g hstanding).imp_right KickComing.spawn

theorem exec_hget (i : ℕ) (env : (c : Command) → Answer c) (w : KickRace.World) {c : Command}
    {req : LoginReq} {t : Option ℤ} (hmay : (KickIsolation.ownTarget (.login req)).may t c)
    (key field : Bytes) :
    (KickRace.exec i env w c).1.gateways.redis.hget key field = w.gateways.redis.hget key field ∨
      ∃ key' field' value, c = .hset key' field' value ∧ key = cString key' ∧ field = cString field' := by
  cases c with
  | hset key' field' value =>
    by_cases hkey : key = cString key' ∧ field = cString field'
    · exact .inr ⟨key', field', value, rfl, hkey⟩
    · exact .inl (Redis.hget_hset_of_ne _ (not_and_or.mp hkey))
  | publish channel msg =>
    simp only [KickRace.exec]
    split_ifs <;> exact .inl rfl
  | del key' =>
    obtain ⟨_, h⟩ := hmay
    cases h
  | hdel key' field' =>
    obtain ⟨_, h⟩ := hmay
    cases h
  | _ => exact .inl rfl

theorem Inv.exec {i : ℕ} {env : (c : Command) → Answer c} {c : Command}
    {k : Answer c → Handler Unit} {t : Option ℤ} (hinv : Inv s) (hok : Orderly s (.step i env))
    (hi : s.pool.threads[i]? = some ⟨.call c k, t⟩)
    (hs : (system e pb).serve s (.step i env) = some s')
    (heq : s' = ⟨⟨(exec i env s.pool.world c).1, s.pool.threads.set i
      ⟨k (exec i env s.pool.world c).2, KickIsolation.found t c (exec i env s.pool.world c).2⟩⟩,
      s.requests⟩) : Inv s' := by
  have hkeeps := Served.Keeps.next (K := KickIsolation.ownTarget) (fun _ ↦ rfl) hinv.keeps hs
    (fun r _ ↦ KickIsolation.start_meets e pb r) (fun _ _ _ _ _ _ _ _ _ _ ↦ trivial)
  subst heq
  obtain ⟨r, hr⟩ := hinv.keeps.request hi
  obtain ⟨req, rfl⟩ := hinv.logins r (List.mem_of_getElem? hr)
  have hmay := (hinv.keeps.meets i _ _ hr hi).1
  obtain ⟨redis, hredis⟩ := exec_gateways i env s.pool.world.race c
  refine ⟨hkeeps, hinv.logins, ?_, ?_, ?_⟩
  · simp only [Eviction.exec, hredis]
    exact ⟨hinv.ordered.home, hinv.ordered.shape, hinv.ordered.owned⟩
  · intro j token htoken
    simp only [Eviction.exec, hredis]
    exact hinv.known j token htoken
  · intro j u d token g hstanding
    have hstood := standing_exec hstanding
    obtain hget | ⟨key, field, value, rfl, hkey, rfl⟩ :=
      exec_hget i env s.pool.world.race hmay (sessionKey u) d
    · exact (hinv.current j u d token g hstood).imp (hget.trans ·) (KickComing.exec hi)
    · refine (hok _ _ _ k t hi j u token g hstood hkey).imp ?_ (KickComing.exec hi)
      intro hvalue
      subst hvalue
      rw [hkey]
      exact Redis.hget_hset_same _ _ _

theorem Inv.serve {a : Step} (hinv : Inv s) (hok : Orderly s a)
    (hs : (system e pb).serve s a = some s') : Inv s' := by
  obtain ⟨r, rfl, -⟩ | ⟨i, env, c, k, t, rfl, hi, heq⟩ | ⟨o, w, rfl, ho, rfl⟩ :=
    System.serve_cases hs
  · exact hinv.spawn hok hs
  · exact hinv.exec hok hi hs heq
  · exact hinv.outside hok ho

theorem inv_start (r : Redis) : Inv (start r) := by
  refine ⟨Served.keeps_nil _, ?_, ordered_start r, ?_, ?_⟩
  · intro r hr
    cases hr
  · intro i token htoken
    cases htoken
  · intro j u d token g hstanding
    obtain ⟨c, hc, -⟩ := hstanding
    cases hc

theorem evicted_of_inv (hinv : Inv s) : Evicted s := by
  intro hquiet i u d token g hstanding
  obtain hget | ⟨m, hm, -⟩ | ⟨th, hth, hkick⟩ := hinv.current i u d token g hstanding
  · exact hget
  · obtain ⟨c, hc, -, rfl, -⟩ := hstanding
    rw [hquiet.2 c (List.mem_of_getElem? hc)] at hm
    cases hm
  · rw [hquiet.1 th hth] at hkick
    exact hkick.elim

theorem evicted {r : Redis} (h : Reach (system e pb).serve Orderly (start r) s) : Evicted s :=
  evicted_of_inv (h.invariant (fun _ _ _ hok hs hinv ↦ hinv.serve hok hs) (inv_start r))

theorem orderly_of_current {i : ℕ} (hO : Ordered s.pool.world.race.gateways)
    (h : ∀ c ∈ s.pool.world.race.gateways.conns[i]?,
      s.pool.world.race.gateways.redis.hget (sessionKey c.session.userId) c.session.device =
        s.pool.world.tokens i) : Orderly s (.outside (.perform i)) := by
  intro c u rest token hc hpending htoken
  obtain ⟨rfl, -⟩ := (hO.shape i c hc).of_join hpending
  exact .inl ((h c hc).trans htoken)

def CallsOnly (_ : Calls) (a : Step) : Prop :=
  (match a with
    | .spawn (.login _) | .step _ _ => true
    | _ => false) = true

instance (s : Calls) (a : Step) : Decidable (CallsOnly s a) := inferInstanceAs (Decidable (_ = _))

/-- Where nobody is connected, every run of logins is orderly. -/
theorem orderly_of_calls {r : Redis} (h : Reach (system e pb).serve CallsOnly (start r) s) :
    Reach (system e pb).serve Orderly (start r) s ∧ s.pool.world.race.gateways.conns = [] := by
  induction h with
  | refl => exact ⟨.refl _, rfl⟩
  | @tail s s' _ hlast ih =>
    obtain ⟨a, ha, hs⟩ := hlast
    obtain ⟨hreach, hconns⟩ := ih
    obtain ⟨r, rfl, rfl⟩ | ⟨i, env, c, k, t, rfl, hi, rfl⟩ | ⟨o, w, rfl, ho, rfl⟩ :=
      System.serve_cases hs
    · cases r with
      | login req => exact ⟨hreach.tail (a := .spawn (.login req)) trivial hs, hconns⟩
      | logout req => cases ha
    · refine ⟨hreach.tail (a := .step i env) ?_ hs, ?_⟩
      · intro _ _ _ _ _ _ j u token g hstanding
        obtain ⟨c, hc, -⟩ := hstanding
        rw [hconns] at hc
        cases hc
      · obtain ⟨redis, hredis⟩ := exec_gateways i env s.pool.world.race c
        change (KickRace.exec i env s.pool.world.race c).1.gateways.conns = []
        rw [hredis]
        exact hconns
    · cases ha

/-- A login of user 1 from a PC, to its end. -/
def loginRun : List Step :=
  .spawn (.login { username := ascii "1", device := ascii "PC" }) ::
    List.replicate 9 (.step 0 backend)

def newToken : Bytes := generateToken 1 1

/-- One login has been answered, and the only session, of user 1 from a PC, is
still connected by `token`. -/
def OnlySession (s : Calls) (token : Bytes) : Prop :=
  (∃ t, s.pool.threads = [⟨.done (), t⟩]) ∧ s.pool.world.race.queues 8080 = [] ∧
    s.pool.world.race.gateways.conns.map (fun c ↦ (c.session, c.gateway)) =
      [(⟨1, ascii "PC"⟩, 8080)] ∧
    1 ∈ sets s.pool.world.race.gateways.managers 0 8080 ∧
    0 ∉ s.pool.world.race.gateways.kicked ∧ s.pool.world.tokens 0 = some token

theorem OnlySession.standing (h : OnlySession s token) :
    Quiet s ∧ Standing s.pool.world 0 1 (ascii "PC") token 8080 := by
  obtain ⟨⟨t, hthreads⟩, hqueue, hconns, hmem, hkicked, htoken⟩ := h
  obtain ⟨c, hc, heq⟩ := List.map_eq_singleton_iff.mp hconns
  obtain ⟨hsession, hgateway⟩ := Prod.mk.inj heq
  refine ⟨⟨?_, ?_⟩, c, by rw [hc]; rfl, hsession, hgateway, hmem, hkicked, htoken⟩
  · intro th hth
    rw [hthreads] at hth
    obtain rfl := List.mem_singleton.mp hth
    rfl
  · intro c' hc'
    rw [hc] at hc'
    obtain rfl := List.mem_singleton.mp hc'
    rw [hgateway]
    exact hqueue

theorem evicted_login :
    ∃ s : Calls, Evicted s ∧ Quiet s ∧ Standing s.pool.world 0 1 (ascii "PC") newToken 8080 := by
  have hjoining : Reach (system .little loginCodec).serve Orderly (start oldToken) _ :=
    (orderly_of_calls (reach_of_exec loginRun rfl)).1
      |>.tail (a := .outside (.deliver 8080)) trivial rfl
      |>.tail (a := .outside (.handshake 8080 1 newToken (ascii "PC"))) trivial rfl
      |>.tail (a := .outside (.handle 0 (.accept true))) trivial rfl
  have hinv := hjoining.invariant (fun _ _ _ hok hs hinv ↦ hinv.serve hok hs) (inv_start oldToken)
  have hjoin := hjoining.tail (a := .outside (.perform 0))
    (orderly_of_current hinv.ordered (by decide +kernel)) rfl
  refine ⟨_, evicted hjoin, OnlySession.standing ⟨⟨_, rfl⟩, ?_, ?_, ?_, ?_, rfl⟩⟩ <;> decide +kernel

def Undisturbed (_ : Calls) : Step → Prop
  | .spawn (.logout _) | .outside (.expired _) => False
  | _ => True

instance (s : Calls) : (a : Step) → Decidable (Undisturbed s a)
  | .spawn (.logout _) | .outside (.expired _) => .isFalse id
  | .spawn (.login _) | .step _ _ | .outside (.handshake _ _ _ _) | .outside (.handle _ _)
  | .outside (.perform _) | .outside (.deliver _) => .isTrue trivial

/-- The handshake accepts the old token. The login then publishes its kick,
which finds nobody, and stores its own token before the session joins. -/
theorem not_evicted :
    ¬ ∀ s : Calls, Reach (system .little loginCodec).serve Undisturbed (start oldToken) s →
      Evicted s := by
  intro h
  obtain ⟨s, hrun, honly, hget⟩ : ∃ s, Reach (system .little loginCodec).serve Undisturbed
      (start oldToken) s ∧ OnlySession s (generateToken 1 0) ∧
        s.pool.world.race.gateways.redis.hget (sessionKey 1) (ascii "PC") = some newToken := by
    refine exists_reach_of_exec (.outside (.handshake 8080 1 (generateToken 1 0) (ascii "PC")) ::
      loginRun ++ [.outside (.deliver 8080), .outside (.handle 0 (.accept true)),
        .outside (.perform 0)]) ⟨_, rfl, ⟨⟨_, rfl⟩, ?_, ?_, ?_, ?_, rfl⟩, ?_⟩ <;> decide +kernel
  obtain ⟨hquiet, hstanding⟩ := honly.standing
  have hold := h s hrun hquiet 0 1 _ _ _ hstanding
  rw [hget] at hold
  exact absurd hold (by decide)

end TinyIM.Auth.Eviction
