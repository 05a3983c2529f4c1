import Mathlib.Data.Set.Insert
import TinyIM.Gateway.ConnectionManager
import TinyIM.Gateway.Dispatch
import TinyIM.Library.Interleaving
import TinyIM.Library.Transition
import TinyIM.Store.Redis

namespace TinyIM.Gateway.Cluster

open Library.ByteOrder Library.Transition Protocol Store Dispatch
open Library.Interleaving (getElem?_append_of_some)

/-- Whether a session waits for `OnAccept`, reads, or has returned from a
handler without `DoRead`. -/
inductive Chain
  | accepting
  | reading
  | ended
  deriving DecidableEq, Repr

/-- A `WebsocketSession` object, the port of its gateway, and what its running
handler has still to do. -/
structure Conn where
  session : Session
  gateway : ℕ
  chain : Chain
  pending : List Effect

/-- The gateways, each with its `ConnectionManager`, and the Redis they share.
Sessions are numbered in the order of their creation; those in `kicked` close
once their queue is written. -/
structure Gateways where
  conns : List Conn
  managers : ℕ → ConnectionManager
  kicked : Finset ℕ
  redis : Redis

inductive Handler
  | acceptFailed
  | accept (endpoint : Bool)
  | packet (p : Packet) (call : (m : Rpc) → m.Req → Status × m.Resp) (endpoint : Bool)
  | badMagic
  | readError

inductive Action
  | upgrade (gateway : ℕ) (s : Session)
  | handle (i : ℕ) (h : Handler)
  | perform (i : ℕ)
  | kick (gateway : ℕ) (userId : ℤ) (device : Bytes)

def start (r : Redis) : Gateways := ⟨[], fun _ ↦ .empty, ∅, r⟩

namespace Conn

variable (e : Endian) (pb : Codec) (c : Conn)

def localEndpoint (available : Bool) : Option ℕ := if available then some c.gateway else none

/-- A handler starts: what it does to its own session, and what it will do
outside. -/
def start (h : Handler) : Option Conn :=
  match h, c.chain with
  | .acceptFailed, .accepting => some { c with chain := .ended }
  | .accept endpoint, .accepting =>
    some { c with chain := .reading, pending := onAccept c.session (c.localEndpoint endpoint) }
  | .packet p call endpoint, .reading =>
    let o := handlePacket e pb ⟨call, c.localEndpoint endpoint⟩ c.session p
    some { c with session := o.session, pending := o.effects }
  | .badMagic, .reading => some { c with chain := .ended }
  | .readError, .reading => some { c with chain := .ended, pending := onReadError c.session }
  | _, _ => none

def handle (h : Handler) : Option Conn := if c.pending.isEmpty then c.start e pb h else none

end Conn

variable (e : Endian) (pb : Codec)

def Gateways.effect (st : Gateways) (i g : ℕ) : Effect → Gateways
  | .join u => { st with managers := Function.update st.managers g ((st.managers g).join u i) }
  | .leave u => { st with managers := Function.update st.managers g ((st.managers g).leave u i) }
  | .hset key field value => { st with redis := st.redis.hset key field value }
  | .hdel key field => { st with redis := st.redis.hdel key field }
  | .call _ _ | .send _ => st

def Gateways.device (st : Gateways) (i : ℕ) : Bytes :=
  match st.conns[i]? with
  | some c => c.session.device
  | none => []

def Gateways.kicks (st : Gateways) (g : ℕ) (userId : ℤ) (device : Bytes) : Finset ℕ :=
  (st.managers g).kickUser st.device userId device

/-- One step of the gateways: a connection is upgraded, with user id 0 unless
the handshake has authenticated it, a handler starts, a running handler does
the next thing, or `KickUser` is called. -/
def next (st : Gateways) : Action → Option Gateways
  | .upgrade g s =>
    if 0 ≤ s.userId then some { st with conns := st.conns ++ [⟨s, g, .accepting, []⟩] }
    else none
  | .handle i h =>
    match st.conns[i]? with
    | some c => (c.handle e pb h).map fun c' ↦ { st with conns := st.conns.set i c' }
    | none => none
  | .perform i =>
    match st.conns[i]? with
    | some c =>
      match c.pending with
      | ef :: rest =>
        some ({ st with conns := st.conns.set i { c with pending := rest } }.effect i c.gateway ef)
      | [] => none
    | none => none
  | .kick g u d => some { st with kicked := st.kicked ∪ st.kicks g u d }

variable {e pb} {st st' : Gateways}

theorem next_cases {a : Action} (h : next e pb st a = some st') :
    (∃ g s, a = .upgrade g s ∧ 0 ≤ s.userId ∧
      st' = { st with conns := st.conns ++ [⟨s, g, .accepting, []⟩] }) ∨
    (∃ i hd c c', a = .handle i hd ∧ st.conns[i]? = some c ∧ c.pending = [] ∧
      c.start e pb hd = some c' ∧ st' = { st with conns := st.conns.set i c' }) ∨
    (∃ i c ef rest, a = .perform i ∧ st.conns[i]? = some c ∧ c.pending = ef :: rest ∧
      st' = { st with conns := st.conns.set i { c with pending := rest } }.effect i c.gateway ef) ∨
    (∃ g u d, a = .kick g u d ∧ st' = { st with kicked := st.kicked ∪ st.kicks g u d }) := by
  cases a with
  | upgrade g s =>
    simp only [next] at h
    split_ifs at h with hs
    exact .inl ⟨g, s, rfl, hs, (Option.some.inj h).symm⟩
  | handle i hd =>
    simp only [next] at h
    split at h
    · next c hc =>
      obtain ⟨c', hc', hst⟩ := Option.map_eq_some_iff.mp h
      simp only [Conn.handle] at hc'
      split_ifs at hc' with hpending
      exact .inr (.inl ⟨i, hd, c, c', rfl, hc, List.isEmpty_iff.mp hpending, hc', hst.symm⟩)
    · cases h
  | perform i =>
    simp only [next] at h
    split at h
    · next c hc =>
      split at h
      · next ef rest hpending =>
        exact .inr (.inr (.inl ⟨i, c, ef, rest, rfl, hc, hpending, (Option.some.inj h).symm⟩))
      · cases h
    · cases h
  | kick g u d => exact .inr (.inr (.inr ⟨g, u, d, rfl, (Option.some.inj h).symm⟩))

@[simp] theorem effect_conns (st : Gateways) (i g : ℕ) (ef : Effect) :
    (st.effect i g ef).conns = st.conns := by
  cases ef <;> rfl

theorem start_frame {c c' : Conn} {h : Handler} (hc : c.start e pb h = some c') :
    c'.gateway = c.gateway ∧ c'.session.device = c.session.device := by
  unfold Conn.start at hc
  split at hc
  · cases hc; exact ⟨rfl, rfl⟩
  · cases hc; exact ⟨rfl, rfl⟩
  · next p call endpoint _ =>
    cases hc
    refine ⟨rfl, ?_⟩
    cases hnew : newUser pb c.session p with
    | none => rw [(handlePacket_of_none e pb _ _ hnew).1]
    | some id => rw [handlePacket_of_some e pb _ _ hnew]
  · cases hc; exact ⟨rfl, rfl⟩
  · cases hc; exact ⟨rfl, rfl⟩
  · cases hc

/-- The users in whose sets at gateway `g` a session is. -/
def sets (managers : ℕ → ConnectionManager) (i g : ℕ) : Set ℤ := {u | i ∈ (managers g).sessions u}

instance (managers : ℕ → ConnectionManager) (i g : ℕ) (u : ℤ) : Decidable (u ∈ sets managers i g) :=
  inferInstanceAs (Decidable (i ∈ (managers g).sessions u))

def onSets (S : Set ℤ) : Effect → Set ℤ
  | .join u => insert u S
  | .leave u => S \ {u}
  | _ => S

theorem sets_effect (st : Gateways) (i j g h : ℕ) (ef : Effect) :
    sets (st.effect i g ef).managers j h =
      if j = i ∧ h = g then onSets (sets st.managers j h) ef else sets st.managers j h := by
  by_cases hg : h = g
  · subst hg
    ext v
    cases ef <;> by_cases hj : j = i <;>
      simp [sets, Gateways.effect, onSets, ConnectionManager.mem_sessions_join,
        ConnectionManager.mem_sessions_leave, hj]
  · simp only [hg, and_false, if_false]
    cases ef <;> simp [sets, Gateways.effect, hg]

/-- A `ConnectionManager` holds only sessions of its own gateway. -/
def Home (st : Gateways) : Prop :=
  ∀ g i u, u ∈ sets st.managers i g → ∃ c, st.conns[i]? = some c ∧ c.gateway = g

theorem home_start (r : Redis) : Home (start r) := by
  intro g i u hu
  simp [sets, start] at hu

theorem getElem?_set_some {l : List Conn} {i j : ℕ} {c c' x : Conn} (hc : l[i]? = some c)
    (hx : (l.set i c')[j]? = some x) : (j = i ∧ x = c') ∨ (j ≠ i ∧ l[j]? = some x) := by
  by_cases hj : j = i
  · subst hj
    rw [List.getElem?_set_self (List.getElem?_eq_some_iff.mp hc).1] at hx
    exact .inl ⟨rfl, (Option.some.inj hx).symm⟩
  · rw [List.getElem?_set_ne (Ne.symm hj)] at hx
    exact .inr ⟨hj, hx⟩

theorem home_set {l : List Conn} {i g j : ℕ} {c c' : Conn} (hc : l[i]? = some c)
    (hgateway : c'.gateway = c.gateway) (h : ∃ x, l[j]? = some x ∧ x.gateway = g) :
    ∃ x, (l.set i c')[j]? = some x ∧ x.gateway = g := by
  obtain ⟨x, hx, rfl⟩ := h
  by_cases hj : j = i
  · subst hj
    obtain rfl := Option.some.inj (hc.symm.trans hx)
    exact ⟨c', List.getElem?_set_self (List.getElem?_eq_some_iff.mp hc).1, hgateway⟩
  · exact ⟨x, (List.getElem?_set_ne (Ne.symm hj)).trans hx, rfl⟩

theorem home_next {a : Action} (hstep : next e pb st a = some st') (hhome : Home st) :
    Home st' := by
  intro g j u hu
  obtain ⟨g', s, rfl, -, rfl⟩ | ⟨i, h, c, c', rfl, hc, -, hc', rfl⟩ |
    ⟨i, c, ef, rest, rfl, hc, -, rfl⟩ | ⟨g', v, d, rfl, rfl⟩ := next_cases hstep
  · obtain ⟨c, hc, hg⟩ := hhome g j u hu
    exact ⟨c, getElem?_append_of_some hc _, hg⟩
  · exact home_set hc (start_frame hc').1 (hhome g j u hu)
  · rw [effect_conns]
    rw [sets_effect] at hu
    split_ifs at hu with hj
    · obtain ⟨rfl, rfl⟩ := hj
      exact ⟨_, List.getElem?_set_self (List.getElem?_eq_some_iff.mp hc).1, rfl⟩
    · exact home_set hc rfl (hhome g j u hu)
  · exact hhome g j u hu

theorem Home.sets_new (hhome : Home st) {i g : ℕ} (hi : st.conns.length ≤ i) :
    sets st.managers i g = ∅ := by
  apply Set.eq_empty_of_forall_notMem
  intro u hu
  obtain ⟨c, hc, -⟩ := hhome g i u hu
  exact absurd (List.getElem?_eq_some_iff.mp hc).1 (Nat.not_lt.mpr hi)

end TinyIM.Gateway.Cluster
