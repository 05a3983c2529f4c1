import TinyIM.Gateway.Cluster

namespace TinyIM.Gateway.Location

open Library.ByteOrder Library.Decimal Library.Transition Protocol Store Dispatch Cluster
open Library.Interleaving (getElem?_concat_some)

variable {e : Endian} {pb : Codec} {st st' : Gateways} {u : ℤ} {d : Bytes}

/-- Session `i` of user `u` on device `d` has joined and its read chain is alive. -/
def Open (st : Gateways) (u : ℤ) (d : Bytes) (i : ℕ) (c : Conn) : Prop :=
  st.conns[i]? = some c ∧ c.session = ⟨u, d⟩ ∧ c.chain = .reading ∧
    u ∈ sets st.managers i c.gateway

/-- The registry names the gateway of an open session. -/
def Named (st : Gateways) (u : ℤ) (d : Bytes) (i : ℕ) (c : Conn) : Prop :=
  Open st u d i c ∧ st.redis.hget (locationKey u) d = some (grpcAddr c.gateway)

def LocationInvariant (st : Gateways) : Prop :=
  (∀ c ∈ st.conns, c.pending = []) → ∀ u d, 0 < u →
    (∃ i c, Open st u d i c) → ∃ i c, Named st u d i c

/-- The running handler of a session will still set or delete the field. -/
def Rewrites (c : Conn) (u : ℤ) (d : Bytes) : Prop :=
  (∃ a, .hset (locationKey u) d a ∈ c.pending) ∨ .hdel (locationKey u) d ∈ c.pending

/-- An open session whose own registration is not still to come. -/
def Registered (st : Gateways) (u : ℤ) (d : Bytes) (i : ℕ) (c : Conn) : Prop :=
  Open st u d i c ∧ ∀ a, .hset (locationKey u) d a ∉ c.pending

def Covered (st : Gateways) (u : ℤ) (d : Bytes) : Prop :=
  (∃ i c, Named st u d i c) ∨ ∃ (i : ℕ) (c : Conn), st.conns[i]? = some c ∧ Rewrites c u d

/-- The field of a session is deleted only when no other session of its user
and device is registered. A session joins without a local endpoint only when
the field is covered by other sessions, and the same when it leaves others
behind on bad magic. -/
def KeepsLocation (st : Gateways) : Action → Prop
  | .perform i => ∀ c, st.conns[i]? = some c → 0 < c.session.userId →
    match c.pending with
    | .hdel _ _ :: _ => ∀ j c', ¬ Registered st c.session.userId c.session.device j c'
    | .join u :: rest => (∃ a, .hset (locationKey u) c.session.device a ∈ rest) ∨
      Covered st u c.session.device
    | _ => True
  | .handle i .badMagic => ∀ c, st.conns[i]? = some c →
    (∃ j c', j ≠ i ∧ Registered st c.session.userId c.session.device j c') →
      (∃ j c', j ≠ i ∧ Named st c.session.userId c.session.device j c') ∨
        ∃ (j : ℕ) (c' : Conn), st.conns[j]? = some c' ∧
          Rewrites c' c.session.userId c.session.device
  | _ => True

theorem locationKey_injective : Function.Injective locationKey := by
  intro u v h
  exact stdToString_injective (List.append_cancel_left h)

theorem sessionKey_ne_locationKey (u v : ℤ) : sessionKey u ≠ locationKey v := by
  intro h
  have hhead : ascii "im:s" = ascii "im:l" := congrArg (List.take 4) h
  exact absurd hhead (by decide)

def registration (c : Conn) : Effect :=
  .hset (locationKey c.session.userId) c.session.device (grpcAddr c.gateway)

/-- Where the running handler of a session in the sets `S` may stand in its
program. -/
inductive Shape (S : Set ℤ) (c : Conn) : Prop
  | idle (h : ∀ ef ∈ c.pending, Local ef)
  | joining (tail : List Effect) (hlocal : ∀ ef ∈ tail, Local ef) (hchain : c.chain = .reading)
      (h : c.pending = .join c.session.userId :: tail ∨
        c.pending = .join c.session.userId :: registration c :: tail)
  | registering (tail : List Effect) (hlocal : ∀ ef ∈ tail, Local ef) (hchain : c.chain = .reading)
      (hmem : c.session.userId ∈ S)
      (h : c.pending = registration c :: tail)
  | unregistering (hchain : c.chain = .ended) (h : c.pending = onReadError c.session)
  | leaving (hchain : c.chain = .ended) (h : c.pending = [.leave c.session.userId])

def Owned (S : Set ℤ) (c : Conn) : Prop :=
  ∀ u ∈ S, 0 < u → c.session.userId = u ∧ c.chain ≠ .accepting

structure Inv (st : Gateways) : Prop where
  home : Home st
  shape : ∀ i c, st.conns[i]? = some c → Shape (sets st.managers i c.gateway) c
  owned : ∀ i c, st.conns[i]? = some c → Owned (sets st.managers i c.gateway) c
  covered : ∀ u d, 0 < u → ∀ i c, Registered st u d i c → Covered st u d

theorem not_local_hset {k f a : Bytes} {effects : List Effect} (h : ∀ ef ∈ effects, Local ef) :
    .hset k f a ∉ effects := fun hmem ↦ h _ hmem

theorem not_local_hdel {k f : Bytes} {effects : List Effect} (h : ∀ ef ∈ effects, Local ef) :
    .hdel k f ∉ effects := fun hmem ↦ h _ hmem

theorem not_rewrites_of_local {c : Conn} (h : ∀ ef ∈ c.pending, Local ef) : ¬ Rewrites c u d := by
  intro hcase
  rcases hcase with ⟨a, hset⟩ | hdel
  · exact not_local_hset h hset
  · exact not_local_hdel h hdel

theorem session_eq_of_key {c : Conn} (hkey : locationKey u = locationKey c.session.userId)
    (hdevice : d = c.session.device) : c.session = ⟨u, d⟩ := by
  rw [locationKey_injective hkey, hdevice]

theorem session_eq_of_registration {c : Conn} {tail : List Effect} (hlocal : ∀ ef ∈ tail, Local ef)
    (h : (∃ a, .hset (locationKey u) d a ∈ registration c :: tail) ∨
      .hdel (locationKey u) d ∈ registration c :: tail) : c.session = ⟨u, d⟩ := by
  simp only [registration, List.mem_cons, reduceCtorEq, false_or, Effect.hset.injEq] at h
  rcases h with ⟨a, ⟨hkey, hdevice, -⟩ | h⟩ | h
  · exact session_eq_of_key hkey hdevice
  · exact absurd h (not_local_hset hlocal)
  · exact absurd h (not_local_hdel hlocal)

theorem Shape.own {S : Set ℤ} {c : Conn} (hshape : Shape S c) (h : Rewrites c u d) :
    c.session = ⟨u, d⟩ := by
  cases hshape with
  | idle hlocal => exact absurd h (not_rewrites_of_local hlocal)
  | joining tail hlocal _ hpending =>
    rcases hpending with hpending | hpending
    · simp only [Rewrites, hpending, List.mem_cons, reduceCtorEq, false_or] at h
      rcases h with ⟨a, h⟩ | h
      · exact absurd h (not_local_hset hlocal)
      · exact absurd h (not_local_hdel hlocal)
    · rw [Rewrites, hpending] at h
      simp only [List.mem_cons (b := Effect.join _), reduceCtorEq, false_or] at h
      exact session_eq_of_registration hlocal h
  | registering tail hlocal _ _ hpending =>
    rw [Rewrites, hpending] at h
    exact session_eq_of_registration hlocal h
  | unregistering _ hpending =>
    simp only [Rewrites, hpending, onReadError, List.mem_cons, reduceCtorEq, List.not_mem_nil,
      or_self, exists_false, false_or, or_false, Effect.hdel.injEq] at h
    exact session_eq_of_key h.1 h.2
  | leaving _ hpending => simp [Rewrites, hpending] at h

def OnLocation (u : ℤ) : Effect → Prop
  | .hset key _ _ | .hdel key _ => key = locationKey u
  | _ => True

theorem onLocation_of_local {effects : List Effect} (h : ∀ ef ∈ effects, Local ef) :
    ∀ ef ∈ effects, OnLocation u ef := by
  intro ef hef
  have hlocal := h ef hef
  cases ef with
  | hset _ _ _ => exact hlocal.elim
  | hdel _ _ => exact hlocal.elim
  | _ => exact trivial

theorem Shape.onLocation {S : Set ℤ} {c : Conn} (hshape : Shape S c) :
    ∀ ef ∈ c.pending, OnLocation c.session.userId ef := by
  cases hshape with
  | idle hlocal => exact onLocation_of_local hlocal
  | joining tail hlocal _ hpending =>
    rcases hpending with hpending | hpending <;> rw [hpending]
    · exact List.forall_mem_cons.mpr ⟨trivial, onLocation_of_local hlocal⟩
    · exact List.forall_mem_cons.mpr
        ⟨trivial, List.forall_mem_cons.mpr ⟨rfl, onLocation_of_local hlocal⟩⟩
  | registering tail hlocal _ _ hpending =>
    rw [hpending]
    exact List.forall_mem_cons.mpr ⟨rfl, onLocation_of_local hlocal⟩
  | unregistering _ hpending =>
    rw [hpending]
    exact List.forall_mem_cons.mpr ⟨rfl, List.forall_mem_singleton.mpr trivial⟩
  | leaving _ hpending =>
    rw [hpending]
    exact List.forall_mem_singleton.mpr trivial

theorem Shape.of_join {S : Set ℤ} {c : Conn} {v : ℤ} {rest : List Effect} (hshape : Shape S c)
    (hpending : c.pending = .join v :: rest) : c.session.userId = v ∧ c.chain = .reading := by
  cases hshape with
  | joining _ _ hchain h =>
    refine ⟨?_, hchain⟩
    rcases h with h | h <;> rw [hpending] at h <;> exact (Effect.join.inj (List.cons.inj h).1).symm
  | idle hlocal =>
    rw [hpending, List.forall_mem_cons] at hlocal
    exact hlocal.1.elim
  | registering _ _ _ _ h => simp [hpending, registration] at h
  | unregistering _ h => simp [hpending, onReadError] at h
  | leaving _ h => simp [hpending] at h

theorem shape_start {S : Set ℤ} {c c' : Conn} {h : Handler} (hc : c.start e pb h = some c')
    (hpending : c.pending = []) : Shape S c' := by
  unfold Conn.start at hc
  split at hc
  · cases hc
    exact .idle (by simp [hpending])
  · next endpoint _ =>
    cases hc
    by_cases hpos : 0 < c.session.userId
    · refine .joining [] (by simp) rfl ?_
      cases endpoint <;> simp [onAccept, hpos, Conn.localEndpoint, registration]
    · exact .idle (by simp [onAccept, hpos])
  · next p call endpoint hchain =>
    cases hc
    cases hnew : newUser pb c.session p with
    | none => exact .idle (handlePacket_of_none e pb _ _ hnew).2
    | some id =>
      rw [handlePacket_of_some e pb _ _ hnew]
      cases endpoint with
      | false => exact .joining [] (by simp) hchain (.inl rfl)
      | true => exact .joining [_] (by simp [reply, Local]) hchain (.inr rfl)
  · cases hc
    exact .idle (by simp [hpending])
  · cases hc
    exact .unregistering rfl rfl
  · cases hc

/-- A handler of an authenticated session keeps the session. It goes on reading
unless the magic was bad or it will delete the field. -/
theorem start_authenticated {c c' : Conn} {h : Handler} (hc : c.start e pb h = some c')
    (hpos : 0 < c.session.userId) :
    c'.session = c.session ∧ c'.chain ≠ .accepting ∧ (c.chain = .reading →
      (c'.chain = .reading ∧ ∀ ef ∈ c'.pending, Local ef) ∨ (h = .badMagic ∧ c'.chain = .ended) ∨
        (c'.chain = .ended ∧ Rewrites c' c.session.userId c.session.device)) := by
  unfold Conn.start at hc
  split at hc
  · next hchain =>
    cases hc
    simp [hchain]
  · next hchain =>
    cases hc
    simp [hchain]
  · next p call endpoint hchain =>
    cases hc
    have hnew : newUser pb c.session p = none := if_neg fun hlogin ↦ hlogin.2 hpos
    obtain ⟨hsession, hlocal⟩ := handlePacket_of_none e pb
      ⟨call, c.localEndpoint endpoint⟩ c.session hnew
    exact ⟨hsession, by simp [hchain], fun _ ↦ .inl ⟨hchain, hlocal⟩⟩
  · cases hc
    simp
  · cases hc
    simp [Rewrites, onReadError]
  · cases hc

theorem start_reading {c c' : Conn} {h : Handler} (hc : c.start e pb h = some c')
    (hacc : c.chain ≠ .accepting) (hchain : c'.chain = .reading) :
    c.chain = .reading ∧ h ≠ .badMagic := by
  unfold Conn.start at hc
  split at hc
  · next hcase => exact absurd hcase hacc
  · next hcase => exact absurd hcase hacc
  · next hcase => exact ⟨hcase, nofun⟩
  · cases hc
    cases hchain
  · cases hc
    cases hchain
  · cases hc

structure Frame (i : ℕ) (st st' : Gateways) : Prop where
  conns : ∀ j, j ≠ i → st'.conns[j]? = st.conns[j]?
  sets : ∀ j g, j ≠ i → sets st'.managers j g = sets st.managers j g

theorem Frame.open_iff {i j : ℕ} {c : Conn} (F : Frame i st st') (hj : j ≠ i) :
    Open st' u d j c ↔ Open st u d j c := by
  rw [Open, Open, F.conns j hj, F.sets j _ hj]

theorem Frame.registered_iff {i j : ℕ} {c : Conn} (F : Frame i st st') (hj : j ≠ i) :
    Registered st' u d j c ↔ Registered st u d j c := and_congr_left' (F.open_iff hj)

theorem Frame.covered {i : ℕ} (F : Frame i st st')
    (hget : st'.redis.hget (locationKey u) d = st.redis.hget (locationKey u) d)
    (hnamed : ∀ c, Named st u d i c → Covered st' u d)
    (hrewrites : ∀ c, st.conns[i]? = some c → Rewrites c u d → Covered st' u d)
    (h : Covered st u d) : Covered st' u d := by
  obtain ⟨j, c, hc⟩ | ⟨j, c, hc, hrew⟩ := h
  · by_cases hj : j = i
    · subst hj
      exact hnamed c hc
    · exact .inl ⟨j, c, (F.open_iff hj).mpr hc.1, hget.trans hc.2⟩
  · by_cases hj : j = i
    · subst hj
      exact hrewrites c hc hrew
    · exact .inr ⟨j, c, (F.conns j hj).trans hc, hrew⟩

section Handle

variable {i : ℕ} {h : Handler} {c c' : Conn}

theorem handled_self (hc : st.conns[i]? = some c) :
    ({ st with conns := st.conns.set i c' } : Gateways).conns[i]? = some c' :=
  List.getElem?_set_self (List.getElem?_eq_some_iff.mp hc).1

theorem frame_handled : Frame i st { st with conns := st.conns.set i c' } :=
  ⟨fun _ hj ↦ List.getElem?_set_ne (Ne.symm hj), fun _ _ _ ↦ rfl⟩

theorem registered_of_handled (hc : st.conns[i]? = some c) (hpending : c.pending = [])
    (hc' : c.start e pb h = some c') (hI : Inv st) (hu : 0 < u) {j : ℕ} {x : Conn}
    (hx : Registered { st with conns := st.conns.set i c' } u d j x) :
    ∃ x, Registered st u d j x ∧ (h = .badMagic → j ≠ i) := by
  by_cases hj : j = i
  · subst hj
    obtain ⟨⟨hxc, hsession, hchain, hmem⟩, -⟩ := hx
    obtain rfl := Option.some.inj ((handled_self hc).symm.trans hxc)
    rw [(start_frame hc').1] at hmem
    obtain ⟨hid, hacc⟩ := hI.owned j c hc u hmem hu
    obtain ⟨hsame, -⟩ := start_authenticated hc' (hid ▸ hu)
    obtain ⟨hreading, hmagic⟩ := start_reading hc' hacc hchain
    exact ⟨c, ⟨⟨hc, hsame ▸ hsession, hreading, hmem⟩, by simp [hpending]⟩,
      fun heq ↦ absurd heq hmagic⟩
  · exact ⟨x, (frame_handled.registered_iff hj).mp hx, fun _ ↦ hj⟩

/-- Where the handler of the session that names the gateway starts, the session
reads on, deletes the field or gives way to another one. -/
theorem covered_of_named (hc : st.conns[i]? = some c) (hpending : c.pending = [])
    (hc' : c.start e pb h = some c') (hok : KeepsLocation st (.handle i h)) (hu : 0 < u)
    (hother : h = .badMagic → ∃ j y, j ≠ i ∧ Registered st u d j y) (hnamed : Named st u d i c) :
    Covered { st with conns := st.conns.set i c' } u d := by
  obtain ⟨⟨-, hsession, hchain, hmem⟩, hget⟩ := hnamed
  have hgateway := (start_frame hc').1
  have hpos : 0 < c.session.userId := by rw [hsession]; exact hu
  obtain ⟨hsame, -, hread⟩ := start_authenticated hc' hpos
  obtain ⟨hreading, -⟩ | ⟨rfl, -⟩ | ⟨-, hrew⟩ := hread hchain
  · exact .inl ⟨i, c', ⟨handled_self hc, hsame.trans hsession, hreading, hgateway ▸ hmem⟩,
      hgateway ▸ hget⟩
  · have hcov := hok c hc
    rw [hsession] at hcov
    obtain ⟨m, z, hm, hz⟩ | ⟨m, z, hz, hrew⟩ := hcov (hother rfl)
    · exact .inl ⟨m, z, (frame_handled.open_iff hm).mpr hz.1, hz.2⟩
    · have hm : m ≠ i := by
        intro heq
        obtain rfl := heq
        obtain rfl := Option.some.inj (hc.symm.trans hz)
        simp [Rewrites, hpending] at hrew
      exact .inr ⟨m, z, (frame_handled.conns m hm).trans hz, hrew⟩
  · rw [hsession] at hrew
    exact .inr ⟨i, c', handled_self hc, hrew⟩

theorem covered_handle (hc : st.conns[i]? = some c) (hpending : c.pending = [])
    (hc' : c.start e pb h = some c') (hok : KeepsLocation st (.handle i h)) (hI : Inv st)
    (hu : 0 < u) {j : ℕ} {x : Conn}
    (hx : Registered { st with conns := st.conns.set i c' } u d j x) :
    Covered { st with conns := st.conns.set i c' } u d := by
  obtain ⟨y, hy, hji⟩ := registered_of_handled hc hpending hc' hI hu hx
  refine frame_handled.covered rfl ?_ ?_ (hI.covered u d hu j y hy)
  · intro c₀ hnamed
    obtain rfl := Option.some.inj (hc.symm.trans hnamed.1.1)
    exact covered_of_named hc hpending hc' hok hu (fun heq ↦ ⟨j, y, hji heq, hy⟩) hnamed
  · intro c₀ hc₀ hrew
    obtain rfl := Option.some.inj (hc.symm.trans hc₀)
    simp [Rewrites, hpending] at hrew

end Handle

section Perform

variable {i : ℕ} {c : Conn} {ef : Effect} {rest : List Effect}

def performed (st : Gateways) (i : ℕ) (c : Conn) (ef : Effect) (rest : List Effect) : Gateways :=
  { st with conns := st.conns.set i { c with pending := rest } }.effect i c.gateway ef

theorem performed_conns :
    (performed st i c ef rest).conns = st.conns.set i { c with pending := rest } := effect_conns _ _ _ _

theorem performed_self (hc : st.conns[i]? = some c) :
    (performed st i c ef rest).conns[i]? = some { c with pending := rest } := by
  rw [performed_conns]
  exact List.getElem?_set_self (List.getElem?_eq_some_iff.mp hc).1

theorem performed_sets (j g : ℕ) :
    sets (performed st i c ef rest).managers j g =
      if j = i ∧ g = c.gateway then onSets (sets st.managers j g) ef else sets st.managers j g :=
  sets_effect _ _ _ _ _ _

theorem frame_performed : Frame i st (performed st i c ef rest) := by
  refine ⟨?_, ?_⟩
  · intro j hj
    rw [performed_conns, List.getElem?_set_ne (Ne.symm hj)]
  · intro j g hj
    rw [performed_sets, if_neg fun h ↦ hj h.1]

theorem registered_of_performed (hc : st.conns[i]? = some c) (hpending : c.pending = ef :: rest)
    (hset : ∀ a, ef ≠ .hset (locationKey u) d a)
    (hjoin : ef ≠ .join u) {j : ℕ} {x : Conn}
    (hx : Registered (performed st i c ef rest) u d j x) : ∃ x, Registered st u d j x := by
  by_cases hj : j = i
  · subst hj
    obtain ⟨⟨hxc, hsession, hchain, hmem⟩, hnone⟩ := hx
    obtain rfl := Option.some.inj ((performed_self hc).symm.trans hxc)
    refine ⟨c, ⟨hc, hsession, hchain, ?_⟩, ?_⟩
    · rw [performed_sets, if_pos ⟨rfl, rfl⟩] at hmem
      cases ef with
      | join v =>
        rcases Set.mem_insert_iff.mp hmem with rfl | hmem
        · exact absurd rfl hjoin
        · exact hmem
      | leave v => exact hmem.1
      | _ => exact hmem
    · intro a ha
      rw [hpending] at ha
      rcases List.mem_cons.mp ha with ha | ha
      · exact hset a ha.symm
      · exact hnone a ha
  · exact ⟨x, (frame_performed.registered_iff hj).mp hx⟩

theorem covered_of_silent (hc : st.conns[i]? = some c)
    (hredis : (performed st i c ef rest).redis = st.redis)
    (hgrow : c.chain = .reading → onSets (sets st.managers i c.gateway) ef ⊇
      sets st.managers i c.gateway)
    (hrew : Rewrites c u d → Rewrites { c with pending := rest } u d) (h : Covered st u d) :
    Covered (performed st i c ef rest) u d := by
  refine frame_performed.covered (by rw [hredis]) ?_ ?_ h
  · intro c₀ hcase
    obtain ⟨⟨hc₀, hsession, hchain, hmem⟩, hget⟩ := hcase
    obtain rfl := Option.some.inj (hc.symm.trans hc₀)
    refine .inl ⟨i, _, ⟨performed_self hc, hsession, hchain, ?_⟩, by rw [hredis]; exact hget⟩
    rw [performed_sets, if_pos ⟨rfl, rfl⟩]
    exact hgrow hchain hmem
  · intro c₀ hc₀ h₀
    obtain rfl := Option.some.inj (hc.symm.trans hc₀)
    exact .inr ⟨i, _, performed_self hc, hrew h₀⟩

theorem key_ne_of_session_ne (h : c.session ≠ ⟨u, d⟩) :
    locationKey u ≠ locationKey c.session.userId ∨ d ≠ c.session.device := by
  by_contra hboth
  push Not at hboth
  exact h (session_eq_of_key hboth.1 hboth.2)

/-- A command on the field of one session leaves every other field covered. -/
theorem covered_of_other_session (hc : st.conns[i]? = some c) (hI : Inv st)
    (hother : c.session ≠ ⟨u, d⟩)
    (hget : (performed st i c ef rest).redis.hget (locationKey u) d =
      st.redis.hget (locationKey u) d)
    (h : Covered st u d) : Covered (performed st i c ef rest) u d := by
  refine frame_performed.covered hget ?_ ?_ h
  · intro c₀ hcase
    obtain ⟨⟨hc₀, hsession, -⟩, -⟩ := hcase
    obtain rfl := Option.some.inj (hc.symm.trans hc₀)
    exact absurd hsession hother
  · intro c₀ hc₀ hrew
    obtain rfl := Option.some.inj (hc.symm.trans hc₀)
    exact absurd ((hI.shape i c hc).own hrew) hother

theorem covered_local (hc : st.conns[i]? = some c) (hpending : c.pending = ef :: rest)
    (hlocal : ∀ ef ∈ c.pending, Local ef) (hI : Inv st) (hu : 0 < u) {j : ℕ} {x : Conn}
    (hx : Registered (performed st i c ef rest) u d j x) :
    Covered (performed st i c ef rest) u d := by
  have hnone := not_rewrites_of_local (u := u) (d := d) hlocal
  have hef : Local ef := hlocal ef (by simp [hpending])
  have hsame : (performed st i c ef rest).redis = st.redis ∧
      (∀ a, ef ≠ .hset (locationKey u) d a) ∧ ef ≠ .join u ∧ ∀ S, onSets S ef = S := by
    cases ef with
    | call m req => exact ⟨rfl, by simp, by simp, fun _ ↦ rfl⟩
    | send msg => exact ⟨rfl, by simp, by simp, fun _ ↦ rfl⟩
    | _ => exact hef.elim
  obtain ⟨hredis, hset, hjoin, hsets⟩ := hsame
  obtain ⟨y, hy⟩ := registered_of_performed hc hpending hset hjoin hx
  exact covered_of_silent hc hredis (fun _ ↦ (hsets _).ge) (fun h ↦ absurd h hnone)
    (hI.covered u d hu j y hy)

theorem covered_join (hc : st.conns[i]? = some c)
    (hpending : c.pending = .join c.session.userId :: rest)
    (hok : KeepsLocation st (.perform i)) (hI : Inv st) (hu : 0 < u) {j : ℕ} {x : Conn}
    (hx : Registered (performed st i c (.join c.session.userId) rest) u d j x) :
    Covered (performed st i c (.join c.session.userId) rest) u d := by
  have hrew : Rewrites c u d → Rewrites { c with pending := rest } u d := by
    simp [Rewrites, hpending]
  apply covered_of_silent hc rfl (fun _ ↦ Set.subset_insert _ _) hrew
  by_cases hj : j = i
  · subst hj
    obtain ⟨⟨hxc, hsession, -, -⟩, hnone⟩ := hx
    obtain rfl := Option.some.inj ((performed_self hc).symm.trans hxc)
    simp only at hsession
    have hcase := hok c hc (by rw [hsession]; exact hu)
    simp only [hpending, hsession] at hcase
    rcases hcase with ⟨a, ha⟩ | hcov
    · exact absurd ha (hnone a)
    · exact hcov
  · exact hI.covered u d hu j x ((frame_performed.registered_iff hj).mp hx)

theorem covered_registration (hc : st.conns[i]? = some c)
    (hpending : c.pending = registration c :: rest) (hchain : c.chain = .reading)
    (hmem : c.session.userId ∈ sets st.managers i c.gateway) (hI : Inv st) (hu : 0 < u)
    {j : ℕ} {x : Conn} (hx : Registered (performed st i c (registration c) rest) u d j x) :
    Covered (performed st i c (registration c) rest) u d := by
  by_cases hsame : c.session = ⟨u, d⟩
  · refine .inl ⟨i, _, ⟨performed_self hc, hsame, hchain, ?_⟩, ?_⟩
    · rw [performed_sets, if_pos ⟨rfl, rfl⟩]
      rw [hsame] at hmem
      exact hmem
    · simp only [performed, Gateways.effect, registration, hsame]
      exact Redis.hget_hset_same _ _ _
  · have hne := key_ne_of_session_ne hsame
    have hother : ∀ a, registration c ≠ .hset (locationKey u) d a := by
      intro a heq
      obtain ⟨hk, hf, -⟩ := Effect.hset.inj heq
      exact hne.elim (fun h ↦ h hk.symm) fun h ↦ h hf.symm
    obtain ⟨y, hy⟩ := registered_of_performed hc hpending hother (by simp [registration]) hx
    exact covered_of_other_session hc hI hsame (Redis.hget_hset_of_ne _ hne)
      (hI.covered u d hu j y hy)

theorem covered_deletion (hc : st.conns[i]? = some c)
    (hpending : c.pending = .hdel (locationKey c.session.userId) c.session.device :: rest)
    (hok : KeepsLocation st (.perform i)) (hI : Inv st) (hu : 0 < u) {j : ℕ} {x : Conn}
    (hx : Registered (performed st i c
      (.hdel (locationKey c.session.userId) c.session.device) rest) u d j x) :
    Covered (performed st i c
      (.hdel (locationKey c.session.userId) c.session.device) rest) u d := by
  obtain ⟨y, hy⟩ := registered_of_performed hc hpending (by simp) (by simp) hx
  by_cases hsame : c.session = ⟨u, d⟩
  · have hnone := hok c hc (by rw [hsame]; exact hu)
    rw [hpending, hsame] at hnone
    exact absurd hy (hnone j y)
  · have hne := key_ne_of_session_ne hsame
    exact covered_of_other_session hc hI hsame (Redis.hget_hdel_of_ne hne)
      (hI.covered u d hu j y hy)

/-- A session whose read chain has ended names no field, so leaving takes no
cover away. -/
theorem covered_leave {v : ℤ} (hc : st.conns[i]? = some c) (hpending : c.pending = [.leave v])
    (hchain : c.chain = .ended) (hI : Inv st) (hu : 0 < u) {j : ℕ} {x : Conn}
    (hx : Registered (performed st i c (.leave v) []) u d j x) :
    Covered (performed st i c (.leave v) []) u d := by
  obtain ⟨y, hy⟩ := registered_of_performed hc hpending (by simp) (by simp) hx
  have hnone : ¬ Rewrites c u d := by simp [Rewrites, hpending]
  refine covered_of_silent hc rfl ?_ (fun h ↦ absurd h hnone) (hI.covered u d hu j y hy)
  rw [hchain]
  rintro ⟨⟩

theorem covered_performed (hc : st.conns[i]? = some c) (hpending : c.pending = ef :: rest)
    (hok : KeepsLocation st (.perform i)) (hI : Inv st) (hu : 0 < u) {j : ℕ} {x : Conn}
    (hx : Registered (performed st i c ef rest) u d j x) :
    Covered (performed st i c ef rest) u d := by
  cases hI.shape i c hc with
  | idle hlocal => exact covered_local hc hpending hlocal hI hu hx
  | joining tail hlocal hchain h =>
    obtain rfl : ef = .join c.session.userId := by
      rcases h with h | h <;> rw [hpending] at h <;> exact (List.cons.inj h).1
    exact covered_join hc hpending hok hI hu hx
  | registering tail hlocal hchain hmem h =>
    obtain ⟨rfl, rfl⟩ := List.cons.inj (hpending.symm.trans h)
    exact covered_registration hc hpending hchain hmem hI hu hx
  | unregistering hchain h =>
    obtain ⟨rfl, rfl⟩ := List.cons.inj (hpending.symm.trans h)
    exact covered_deletion hc hpending hok hI hu hx
  | leaving hchain h =>
    obtain ⟨rfl, rfl⟩ := List.cons.inj (hpending.symm.trans h)
    exact covered_leave hc hpending hchain hI hu hx

theorem shape_performed (hpending : c.pending = ef :: rest)
    {S : Set ℤ} (hshape : Shape S c) : Shape (onSets S ef) { c with pending := rest } := by
  cases hshape with
  | idle hlocal =>
    rw [hpending, List.forall_mem_cons] at hlocal
    exact .idle hlocal.2
  | joining tail hlocal hchain h =>
    rcases h with h | h <;> rw [hpending] at h
    · obtain ⟨rfl, rfl⟩ := List.cons.inj h
      exact .idle hlocal
    · obtain ⟨rfl, rfl⟩ := List.cons.inj h
      exact .registering tail hlocal hchain (Set.mem_insert _ _) rfl
  | registering tail hlocal hchain hmem h =>
    rw [hpending] at h
    obtain ⟨rfl, rfl⟩ := List.cons.inj h
    exact .idle hlocal
  | unregistering hchain h =>
    rw [hpending] at h
    obtain ⟨rfl, rfl⟩ := List.cons.inj h
    exact .leaving hchain rfl
  | leaving hchain h =>
    rw [hpending] at h
    obtain ⟨rfl, rfl⟩ := List.cons.inj h
    exact .idle (by simp)

theorem owned_performed (hpending : c.pending = ef :: rest) {S : Set ℤ} (hshape : Shape S c)
    (howned : Owned S c) : Owned (onSets S ef) { c with pending := rest } := by
  intro v hv hpos
  cases ef with
  | join w =>
    rcases Set.mem_insert_iff.mp hv with rfl | hv
    · obtain ⟨hid, hchain⟩ := hshape.of_join hpending
      exact ⟨hid, by simp [hchain]⟩
    · exact howned v hv hpos
  | leave w => exact howned v hv.1 hpos
  | _ => exact howned v hv hpos

end Perform

theorem frame_upgraded {c : Conn} :
    Frame st.conns.length st { st with conns := st.conns ++ [c] } := by
  refine ⟨?_, fun _ _ _ ↦ rfl⟩
  intro j hj
  rcases Nat.lt_or_gt_of_ne hj with hlt | hgt
  · exact List.getElem?_append_left hlt
  · have hlen : (st.conns ++ [c]).length ≤ j := by
      simp only [List.length_append, List.length_singleton]
      omega
    rw [List.getElem?_eq_none hlen, List.getElem?_eq_none hgt.le]

/-- The part of the invariant that every run keeps. -/
structure Ordered (st : Gateways) : Prop where
  home : Home st
  shape : ∀ i c, st.conns[i]? = some c → Shape (sets st.managers i c.gateway) c
  owned : ∀ i c, st.conns[i]? = some c → Owned (sets st.managers i c.gateway) c

theorem Inv.ordered (hI : Inv st) : Ordered st := ⟨hI.home, hI.shape, hI.owned⟩

theorem ordered_of_each (hhome : Home st) (h : ∀ i c, st.conns[i]? = some c →
    Shape (sets st.managers i c.gateway) c ∧ Owned (sets st.managers i c.gateway) c) : Ordered st :=
  ⟨hhome, fun i c hc ↦ (h i c hc).1, fun i c hc ↦ (h i c hc).2⟩

theorem ordered_upgrade {s : Session} {g : ℕ}
    (hhome : Home { st with conns := st.conns ++ [⟨s, g, .accepting, []⟩] }) (hO : Ordered st) :
    Ordered { st with conns := st.conns ++ [⟨s, g, .accepting, []⟩] } := by
  refine ordered_of_each hhome fun j x hx ↦ ?_
  rcases getElem?_concat_some hx with hx | ⟨rfl, rfl⟩
  · exact ⟨hO.shape j x hx, hO.owned j x hx⟩
  · refine ⟨.idle (by simp), fun u hu ↦ ?_⟩
    rw [hO.home.sets_new (g := g) le_rfl] at hu
    exact hu.elim

theorem ordered_handle {i : ℕ} {h : Handler} {c c' : Conn} (hc : st.conns[i]? = some c)
    (hpending : c.pending = []) (hc' : c.start e pb h = some c')
    (hhome : Home { st with conns := st.conns.set i c' }) (hO : Ordered st) :
    Ordered { st with conns := st.conns.set i c' } := by
  refine ordered_of_each hhome fun j x hx ↦ ?_
  rcases getElem?_set_some hc hx with ⟨rfl, rfl⟩ | ⟨-, hx⟩
  · refine ⟨shape_start hc' hpending, fun u hu hpos ↦ ?_⟩
    rw [(start_frame hc').1] at hu
    obtain ⟨hid, -⟩ := hO.owned j c hc u hu hpos
    obtain ⟨hsame, hacc, -⟩ := start_authenticated hc' (hid ▸ hpos)
    exact ⟨hsame ▸ hid, hacc⟩
  · exact ⟨hO.shape j x hx, hO.owned j x hx⟩

theorem ordered_performed {i : ℕ} {c : Conn} {ef : Effect} {rest : List Effect}
    (hc : st.conns[i]? = some c) (hpending : c.pending = ef :: rest)
    (hhome : Home (performed st i c ef rest)) (hO : Ordered st) :
    Ordered (performed st i c ef rest) := by
  refine ordered_of_each hhome fun j x hx ↦ ?_
  rw [performed_conns] at hx
  rw [performed_sets]
  rcases getElem?_set_some hc hx with ⟨rfl, rfl⟩ | ⟨hj, hx⟩
  · rw [if_pos ⟨rfl, rfl⟩]
    exact ⟨shape_performed hpending (hO.shape j c hc),
      owned_performed hpending (hO.shape j c hc) (hO.owned j c hc)⟩
  · rw [if_neg fun h ↦ hj h.1]
    exact ⟨hO.shape j x hx, hO.owned j x hx⟩

theorem ordered_next {a : Action} (hstep : next e pb st a = some st') (hO : Ordered st) :
    Ordered st' := by
  have hhome := home_next hstep hO.home
  obtain ⟨g, s, rfl, -, rfl⟩ | ⟨i, h, c, c', rfl, hc, hpending, hc', rfl⟩ |
    ⟨i, c, ef, rest, rfl, hc, hpending, rfl⟩ | ⟨g, u, d, rfl, rfl⟩ := next_cases hstep
  · exact ordered_upgrade hhome hO
  · exact ordered_handle hc hpending hc' hhome hO
  · exact ordered_performed hc hpending hhome hO
  · exact ⟨hhome, hO.shape, hO.owned⟩

theorem ordered_start (r : Redis) : Ordered (start r) :=
  ⟨home_start r, by simp [start], by simp [start]⟩

theorem covered_upgrade {s : Session} {g : ℕ} (hI : Inv st) (hu : 0 < u) {j : ℕ} {x : Conn}
    (hx : Registered { st with conns := st.conns ++ [⟨s, g, .accepting, []⟩] } u d j x) :
    Covered { st with conns := st.conns ++ [⟨s, g, .accepting, []⟩] } u d := by
  have hj : j ≠ st.conns.length := by
    intro heq
    obtain rfl := heq
    have hmem := hx.1.2.2.2
    rw [hI.home.sets_new le_rfl] at hmem
    exact hmem
  have hfresh : ∀ c, st.conns[st.conns.length]? ≠ some c := by simp
  refine frame_upgraded.covered rfl ?_ ?_
    (hI.covered u d hu j x ((frame_upgraded.registered_iff hj).mp hx))
  · intro c₀ hc₀
    exact absurd hc₀.1.1 (hfresh c₀)
  · intro c₀ hc₀
    exact absurd hc₀ (hfresh c₀)

theorem inv_next {a : Action} (hok : KeepsLocation st a) (hstep : next e pb st a = some st')
    (hI : Inv st) : Inv st' := by
  have hO := ordered_next hstep hI.ordered
  refine ⟨hO.home, hO.shape, hO.owned, ?_⟩
  intro v f hv j x hx
  obtain ⟨g, s, rfl, -, rfl⟩ | ⟨i, h, c, c', rfl, hc, hpending, hc', rfl⟩ |
    ⟨i, c, ef, rest, rfl, hc, hpending, rfl⟩ | ⟨g, u, d, rfl, rfl⟩ := next_cases hstep
  · exact covered_upgrade hI hv hx
  · exact covered_handle hc hpending hc' hok hI hv hx
  · exact covered_performed hc hpending hok hI hv hx
  · exact hI.covered v f hv j x hx

theorem inv_start (r : Redis) : Inv (start r) := by
  have hO := ordered_start r
  refine ⟨hO.home, hO.shape, hO.owned, ?_⟩
  intro u d _ i c hcase
  obtain ⟨⟨hc, -⟩, -⟩ := hcase
  simp [start] at hc

theorem Inv.location (hI : Inv st) : LocationInvariant st := by
  intro hidle u d hu hcase
  obtain ⟨i, c, hopen⟩ := hcase
  have hpending : ∀ {j : ℕ} {x : Conn}, st.conns[j]? = some x → x.pending = [] := fun hx ↦
    hidle _ (List.mem_of_getElem? hx)
  obtain hnamed | ⟨j, x, hx, hrew⟩ :=
    hI.covered u d hu i c ⟨hopen, by simp [hpending hopen.1]⟩
  · exact hnamed
  · simp [Rewrites, hpending hx] at hrew

/-- In a run in which no session takes the registration of another one away,
the location invariant holds throughout. -/
theorem location_invariant {r : Redis}
    (h : Reach (next e pb) KeepsLocation (start r) st) : LocationInvariant st := by
  apply Inv.location
  exact h.invariant (fun _ _ _ hok hstep hI ↦ inv_next hok hstep hI) (inv_start r)

section Trace

variable {i : ℕ} {c : Conn} {v : ℤ} {key field a : Bytes} {rest : List Effect} (hc : st.conns[i]? = some c)
include hc

theorem keeps_join (hpending : c.pending = .join v :: .hset (locationKey v) c.session.device a :: rest) :
    KeepsLocation st (.perform i) := by
  intro c' hc' _
  obtain rfl := Option.some.inj (hc.symm.trans hc')
  rw [hpending]
  exact .inl ⟨a, List.mem_cons_self⟩

theorem keeps_hset (hpending : c.pending = .hset key field a :: rest) : KeepsLocation st (.perform i) := by
  intro c' hc' _
  obtain rfl := Option.some.inj (hc.symm.trans hc')
  rw [hpending]
  trivial

theorem keeps_leave (hpending : c.pending = .leave v :: rest) : KeepsLocation st (.perform i) := by
  intro c' hc' _
  obtain rfl := Option.some.inj (hc.symm.trans hc')
  rw [hpending]
  trivial

/-- The last session of its user and device may delete the field. -/
theorem keeps_hdel (hpending : c.pending = .hdel key field :: rest) (hended : c.chain = .ended)
    (hlast : ∀ j c', st.conns[j]? = some c' → j ≠ i → c'.session ≠ c.session) : KeepsLocation st (.perform i) := by
  intro c' hc' _
  obtain rfl := Option.some.inj (hc.symm.trans hc')
  rw [hpending]
  rintro j x ⟨⟨hx, hsession, hchain, -⟩, -⟩
  by_cases hj : j = i
  · subst hj
    obtain rfl := Option.some.inj (hc.symm.trans hx)
    cases hended.symm.trans hchain
  · exact hlast j x hx hj hsession

end Trace

/-- User 1 is connected from a PC to gateway 8080 and from a mobile to gateway
8081, and the first connection breaks. -/
theorem location_invariant_devices :
    ∃ st, LocationInvariant st ∧ st.redis.hget (locationKey 1) (ascii "PC") = none ∧
      Named st 1 (ascii "Mobile") 1 ⟨⟨1, ascii "Mobile"⟩, 8081, .reading, []⟩ := by
  have hpc : Reach (next .little loginCodec) KeepsLocation (start .empty) _ :=
    ((((Reach.refl _).tail (a := .upgrade 8080 ⟨1, ascii "PC"⟩) trivial rfl).tail
      (a := .handle 0 (.accept true)) trivial rfl).tail (a := .perform 0) (keeps_join rfl rfl) rfl).tail
        (a := .perform 0) (keeps_hset rfl rfl) rfl
  have hmobile := (((hpc.tail (a := .upgrade 8081 ⟨1, ascii "Mobile"⟩) trivial rfl).tail
    (a := .handle 1 (.accept true)) trivial rfl).tail (a := .perform 1) (keeps_join rfl rfl) rfl).tail
      (a := .perform 1) (keeps_hset rfl rfl) rfl
  have hbroken := hmobile.tail (a := .handle 0 .readError) trivial rfl
  have hleft := (hbroken.tail (a := .perform 0) (keeps_hdel rfl rfl rfl ?last) rfl).tail (a := .perform 0)
    (keeps_leave rfl rfl) rfl
  case last =>
    intro j c hc hj
    match j with
    | 0 => exact absurd rfl hj
    | 1 =>
      obtain rfl := Option.some.inj hc
      decide
    | j + 2 => cases hc
  exact ⟨_, location_invariant hleft, by decide, ⟨rfl, rfl, rfl, by decide⟩, by decide⟩

/-- User 1 is connected from a PC to gateway 8080 and again to gateway 8081.
When the first connection breaks, the registration of the second one goes. -/
theorem not_location_invariant :
    ¬ ∀ st, Reach (next .little loginCodec) anyStep (start .empty) st → LocationInvariant st := by
  intro h
  obtain ⟨st, hrun, hst⟩ : ∃ st, Reach (next .little loginCodec) anyStep (start .empty) st ∧
      ¬ LocationInvariant st := by
    refine exists_reach_of_exec
      [.upgrade 8080 ⟨1, ascii "PC"⟩, .handle 0 (.accept true), .perform 0, .perform 0,
        .upgrade 8081 ⟨1, ascii "PC"⟩, .handle 1 (.accept true), .perform 1, .perform 1,
        .handle 0 .readError, .perform 0, .perform 0] ⟨_, rfl, ?_⟩
    intro hinv
    have hnamed := hinv ?idle 1 (ascii "PC") (by decide) ⟨1, _, rfl, rfl, rfl, by decide⟩
    case idle =>
      intro c hc
      rcases List.mem_cons.mp hc with rfl | hc
      · rfl
      · obtain rfl := List.mem_singleton.mp hc
        rfl
    obtain ⟨i, c, -, hget⟩ := hnamed
    cases hget
  exact hst (h st hrun)

end TinyIM.Gateway.Location
