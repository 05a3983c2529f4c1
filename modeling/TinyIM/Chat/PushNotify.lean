import TinyIM.Chat.PushPlaces

namespace TinyIM.Chat.PushNotify

open Library.ByteOrder Library.Transition Library.Program Library.Table Protocol
  Protocol.WireFormat Store Gateway Gateway.Cluster Gateway.Location PushPlaces

structure MsgPushNotify where
  maxSeq : ℤ := 0
  type : ℤ := 0
  deriving DecidableEq, Repr

variable (e : Endian) (serialize : MsgPushNotify → Bytes)

/-- The packet that `GatewayServiceImpl::PushNotify` builds. -/
def notifyPacket (p : Push) : Bytes := pushNotifyPacket e (serialize ⟨p.maxSeq, p.msgType⟩)

/-- A session is posted to by the gateway that listens on the address. -/
def PostsTo (st : Gateways) (i : ℕ) (p : Push) : Prop :=
  match st.conns[i]? with
  | some c => p.addr = grpcAddr c.gateway ∧ i ∈ (st.managers c.gateway).sendToUser p.userId
  | none => False

instance (st : Gateways) (i : ℕ) (p : Push) : Decidable (PostsTo st i p) := by
  unfold PostsTo
  split <;> infer_instance

/-- What the pushes of a call post to a session, in order. -/
def posts (st : Gateways) (issued : List Command) (i : ℕ) : List Bytes :=
  ((pushes issued).filter fun p ↦ PostsTo st i p).map (notifyPacket e serialize)

/-- A session of the user that has joined its gateway, reads, and is present in
`im:location`. -/
def Live (st : Gateways) (userId : ℤ) (i : ℕ) (c : Conn) : Prop :=
  Named st userId c.session.device i c

/-- Every live session of the receiver gets one notification, and no session of
another user gets any. -/
def PushedOnce (st : Gateways) (d : Finished World Command Reply) (req : SendMessageReq) : Prop :=
  (∀ i c, Live st req.receiverId i c →
    posts e serialize st d.issued i =
      [pushNotifyPacket e (serialize ⟨d.value.2.seqId, req.type⟩)]) ∧
  ∀ i c, st.conns[i]? = some c → c.session.userId ≠ req.receiverId →
    posts e serialize st d.issued i = []

/-- The gateway of a live session is registered for its device only, and no
gateway that is registered has a session of another user in the set of this one. -/
def Separate (st : Gateways) (userId : ℤ) : Prop :=
  (∀ i c, Live st userId i c → ∀ device,
    st.redis.hget (locationKey userId) device = some (grpcAddr c.gateway) →
      device = c.session.device) ∧
  ∀ i c, st.conns[i]? = some c → c.session.userId ≠ userId →
    userId ∈ sets st.managers i c.gateway → ∀ device,
      st.redis.hget (locationKey userId) device ≠ some (grpcAddr c.gateway)

/-- The stores of the chat service with the Redis of the gateways. -/
def shared (w : World) (st : Gateways) : World := { w with redis := st.redis }

theorem map_const_eq_singleton_iff {α β : Type} {l : List α} (hnodup : l.Nodup) {x : α} (hx : x ∈ l)
    (b : β) : l.map (fun _ ↦ b) = [b] ↔ ∀ y ∈ l, y = x := by
  constructor
  · intro h y hy
    obtain ⟨z, rfl⟩ := List.length_eq_one_iff.mp (by simpa using congrArg List.length h)
    rw [List.mem_singleton.mp hx, List.mem_singleton.mp hy]
  · intro h
    cases l with
    | nil => exact absurd hx List.not_mem_nil
    | cons y l =>
      have hrest : l = [] := by
        apply List.eq_nil_iff_forall_not_mem.mpr
        intro z hz
        have hyz : y = z := (h y List.mem_cons_self).trans (h z (List.mem_cons_of_mem y hz)).symm
        exact (List.nodup_cons.mp hnodup).1 (hyz ▸ hz)
      rw [hrest]
      rfl

section Posts

variable {e serialize} {st : Gateways} {issued : List Command} {i : ℕ} {c : Conn} {u : ℤ} {seq : ℕ}
  {msgType : ℤ}

/-- The fields of `im:location` that name the gateway of a session. -/
def namings (st : Gateways) (u : ℤ) (c : Conn) : List (Bytes × Bytes) :=
  (st.redis.hgetall (locationKey u)).filter fun l ↦ l.2 = grpcAddr c.gateway

theorem mem_namings {l : Bytes × Bytes} : l ∈ namings st u c ↔
    st.redis.hget (locationKey u) l.1 = some (grpcAddr c.gateway) ∧ l.2 = grpcAddr c.gateway := by
  rw [namings, List.mem_filter, decide_eq_true_iff]
  refine and_congr_left fun haddr ↦ ?_
  rw [← haddr]
  exact Redis.mem_hgetall

theorem namings_nodup : (namings st u c).Nodup := (Redis.hgetall_nodup (locationKey u)).filter _

theorem postsTo_iff (hc : st.conns[i]? = some c) {p : Push} :
    PostsTo st i p ↔ p.addr = grpcAddr c.gateway ∧ p.userId ∈ sets st.managers i c.gateway := by
  unfold PostsTo
  rw [hc]
  exact Iff.rfl

/-- A session that has joined is posted to once for each field that names its
gateway. -/
theorem posts_of_joined (h : pushes issued = pushesTo st.redis u seq msgType)
    (hc : st.conns[i]? = some c) (hjoined : u ∈ sets st.managers i c.gateway) :
    posts e serialize st issued i =
      (namings st u c).map fun _ ↦ pushNotifyPacket e (serialize ⟨seq, msgType⟩) := by
  rw [posts, h, pushesTo, List.filter_map, List.map_map]
  have hfilter : (st.redis.hgetall (locationKey u)).filter
      ((fun p ↦ decide (PostsTo st i p)) ∘ fun l ↦ (⟨l.2, u, seq, msgType⟩ : Push)) =
        namings st u c := by
    apply List.filter_congr
    intro l _
    simp [postsTo_iff hc, hjoined]
  rw [hfilter]
  rfl

theorem posts_of_not_joined (h : pushes issued = pushesTo st.redis u seq msgType)
    (hc : st.conns[i]? = some c) (hjoined : u ∉ sets st.managers i c.gateway) :
    posts e serialize st issued i = [] := by
  rw [posts, List.map_eq_nil_iff, List.filter_eq_nil_iff]
  intro p hp hposts
  rw [h] at hp
  obtain ⟨-, heq⟩ := mem_pushesTo.mp hp
  have hmem := ((postsTo_iff hc).mp (of_decide_eq_true hposts)).2
  rw [heq] at hmem
  exact hjoined hmem

theorem posts_live_iff (h : pushes issued = pushesTo st.redis u seq msgType) (hlive : Live st u i c) :
    posts e serialize st issued i = [pushNotifyPacket e (serialize ⟨seq, msgType⟩)] ↔
      ∀ device, st.redis.hget (locationKey u) device = some (grpcAddr c.gateway) →
        device = c.session.device := by
  obtain ⟨⟨hc, -, -, hjoined⟩, hnamed⟩ := hlive
  have hown : (c.session.device, grpcAddr c.gateway) ∈ namings st u c := mem_namings.mpr ⟨hnamed, rfl⟩
  rw [posts_of_joined h hc hjoined, map_const_eq_singleton_iff namings_nodup hown]
  constructor
  · intro hall device hdevice
    exact congrArg Prod.fst (hall (device, grpcAddr c.gateway) (mem_namings.mpr ⟨hdevice, rfl⟩))
  · intro hall l hl
    obtain ⟨hget, haddr⟩ := mem_namings.mp hl
    exact Prod.ext (hall l.1 hget) haddr

theorem posts_other_iff (h : pushes issued = pushesTo st.redis u seq msgType)
    (hc : st.conns[i]? = some c) :
    posts e serialize st issued i = [] ↔ (u ∈ sets st.managers i c.gateway → ∀ device,
      st.redis.hget (locationKey u) device ≠ some (grpcAddr c.gateway)) := by
  by_cases hjoined : u ∈ sets st.managers i c.gateway
  · rw [posts_of_joined h hc hjoined, List.map_eq_nil_iff, List.eq_nil_iff_forall_not_mem]
    constructor
    · intro hall _ device hdevice
      exact hall (device, grpcAddr c.gateway) (mem_namings.mpr ⟨hdevice, rfl⟩)
    · intro hall l hl
      exact hall hjoined l.1 (mem_namings.mp hl).1
  · exact ⟨fun _ hmem ↦ absurd hmem hjoined, fun _ ↦ posts_of_not_joined h hc hjoined⟩

end Posts

/-- The sender goes through the devices and each gateway through the sessions,
so that a session gets a notification for every field that names its gateway. -/
theorem push_once_iff {st : Gateways} {w : World} {req : SendMessageReq} (hsingle : ¬ 0 < req.groupId)
    (hstored : (sendAll (shared w st) req).value.2.success = true) :
    PushedOnce e serialize st (sendAll (shared w st) req) req ↔ Separate st req.receiverId := by
  obtain ⟨seq, hseq, hpushes⟩ := pushes_single hsingle hstored
  rw [PushedOnce, Separate, hseq]
  refine and_congr ?_ ?_
  · refine forall_congr' fun i ↦ forall_congr' fun c ↦ imp_congr_right fun hlive ↦ ?_
    exact posts_live_iff hpushes hlive
  · refine forall_congr' fun i ↦ forall_congr' fun c ↦ imp_congr_right fun hc ↦ ?_
    exact imp_congr_right fun _ ↦ posts_other_iff hpushes hc

theorem ordered_of_reach {pb : Codec} {r : Redis} {st : Gateways}
    (h : Reach (next e pb) anyStep (start r) st) : Ordered st :=
  h.invariant (fun _ _ _ _ hstep hO ↦ ordered_next hstep hO) (ordered_start r)

/-- Between gateways, only the devices of a user can get in each other's way. -/
theorem separate_iff_of_reach {pb : Codec} {r : Redis} {st : Gateways}
    (h : Reach (next e pb) anyStep (start r) st) {userId : ℤ} (hpos : 0 < userId) :
    Separate st userId ↔ ∀ i c, Live st userId i c → ∀ device,
      st.redis.hget (locationKey userId) device = some (grpcAddr c.gateway) →
        device = c.session.device := by
  refine and_iff_left ?_
  intro i c hc hother hjoined
  exact absurd ((ordered_of_reach e h).owned i c hc userId hjoined hpos).1 hother

/-- All sessions of the user are live, each on a device of its own. -/
structure AllLive (st : Gateways) (userId : ℤ) : Prop where
  live : ∀ i c, st.conns[i]? = some c → c.session.userId = userId → Live st userId i c
  devices : ∀ i j c c', Live st userId i c → Live st userId j c' →
    c.session.device = c'.session.device → i = j

def conn (g : ℕ) (device : Bytes) : Conn := ⟨⟨7, device⟩, g, .reading, []⟩

/-- User 7 logs in on two devices by handshakes with these gateways. -/
def twoDevices (g g' : ℕ) : List Action :=
  [.upgrade g ⟨7, ascii "PC"⟩, .handle 0 (.accept true), .perform 0, .perform 0,
    .upgrade g' ⟨7, ascii "Mobile"⟩, .handle 1 (.accept true), .perform 1, .perform 1]

structure TwoDevices (st : Gateways) (g g' : ℕ) : Prop where
  conns : st.conns = [conn g (ascii "PC"), conn g' (ascii "Mobile")]
  joined : 7 ∈ sets st.managers 0 g ∧ 7 ∈ sets st.managers 1 g'
  locations : st.redis.hgetall (locationKey 7) =
    [(ascii "Mobile", grpcAddr g'), (ascii "PC", grpcAddr g)]

theorem TwoDevices.live {st : Gateways} {g g' : ℕ} (h : TwoDevices st g g') :
    Live st 7 0 (conn g (ascii "PC")) ∧ Live st 7 1 (conn g' (ascii "Mobile")) := by
  refine ⟨⟨⟨?_, rfl, rfl, h.joined.1⟩, Redis.mem_hgetall.mp ?_⟩,
    ⟨⟨?_, rfl, rfl, h.joined.2⟩, Redis.mem_hgetall.mp ?_⟩⟩
  · rw [h.conns]
    rfl
  · rw [h.locations]
    exact List.mem_cons_of_mem _ List.mem_cons_self
  · rw [h.conns]
    rfl
  · rw [h.locations]
    exact List.mem_cons_self

theorem TwoDevices.cases {st : Gateways} {g g' i : ℕ} {c : Conn} (h : TwoDevices st g g')
    (hc : st.conns[i]? = some c) :
    (i = 0 ∧ c = conn g (ascii "PC")) ∨ (i = 1 ∧ c = conn g' (ascii "Mobile")) := by
  rw [h.conns] at hc
  match i with
  | 0 => exact .inl ⟨rfl, (Option.some.inj hc).symm⟩
  | 1 => exact .inr ⟨rfl, (Option.some.inj hc).symm⟩
  | i + 2 => cases hc

theorem TwoDevices.allLive {st : Gateways} {g g' : ℕ} (h : TwoDevices st g g') : AllLive st 7 := by
  refine ⟨?_, ?_⟩
  · intro i c hc _
    obtain ⟨rfl, rfl⟩ | ⟨rfl, rfl⟩ := h.cases hc
    · exact h.live.1
    · exact h.live.2
  · intro i j c c' hi hj hdevice
    have hne : ascii "PC" ≠ ascii "Mobile" := by decide
    obtain ⟨rfl, rfl⟩ | ⟨rfl, rfl⟩ := h.cases hi.1.1 <;>
      obtain ⟨rfl, rfl⟩ | ⟨rfl, rfl⟩ := h.cases hj.1.1
    · rfl
    · exact absurd hdevice hne
    · exact absurd hdevice hne.symm
    · rfl

/-- protobuf on the first message of type TEXT. -/
def serializeFirst (m : MsgPushNotify) : Bytes := if m = ⟨1, 0⟩ then [8, 1] else []

theorem push_once_two_gateways :
    ∃ st, AllLive st 7 ∧ PushedOnce .little serializeFirst st
      (sendAll (shared (worldOfSeven .empty) st) toSeven) toSeven := by
  obtain ⟨st, hst, hstored, htwo⟩ : ∃ st,
      Reach (next .little Dispatch.loginCodec) anyStep (start .empty) st ∧
        (sendAll (shared (worldOfSeven .empty) st) toSeven).value.2.success = true ∧
          TwoDevices st 8080 8081 :=
    exists_reach_of_exec (twoDevices 8080 8081) ⟨_, rfl, rfl, rfl, by decide, rfl⟩
  refine ⟨st, htwo.allLive, (push_once_iff .little serializeFirst (by decide) hstored).mpr ?_⟩
  refine (separate_iff_of_reach .little hst (by decide)).mpr ?_
  intro i c hlive device hdevice
  have hmem : (device, grpcAddr c.gateway) ∈ st.redis.hgetall (locationKey 7) :=
    Redis.mem_hgetall.mpr hdevice
  rw [htwo.locations] at hmem
  obtain ⟨-, rfl⟩ | ⟨-, rfl⟩ := htwo.cases hlive.1.1
  · have hall : ∀ l ∈ [(ascii "Mobile", grpcAddr 8081), (ascii "PC", grpcAddr 8080)],
        l.2 = grpcAddr 8080 → l.1 = ascii "PC" := by decide
    exact hall _ hmem rfl
  · have hall : ∀ l ∈ [(ascii "Mobile", grpcAddr 8081), (ascii "PC", grpcAddr 8080)],
        l.2 = grpcAddr 8081 → l.1 = ascii "Mobile" := by decide
    exact hall _ hmem rfl

/-- Two devices on one gateway get two notifications each. -/
theorem not_push_once :
    ¬ ∀ st : Gateways, Reach (next .little Dispatch.loginCodec) anyStep (start .empty) st →
      ∀ (w : World) (req : SendMessageReq), ¬ 0 < req.groupId → AllLive st req.receiverId →
        (sendAll (shared w st) req).value.2.success = true →
          PushedOnce .little serializeFirst st (sendAll (shared w st) req) req := by
  intro h
  obtain ⟨st, hst, hstored, htwo⟩ : ∃ st,
      Reach (next .little Dispatch.loginCodec) anyStep (start .empty) st ∧
        (sendAll (shared (worldOfSeven .empty) st) toSeven).value.2.success = true ∧
          TwoDevices st 8080 8080 :=
    exists_reach_of_exec (twoDevices 8080 8080) ⟨_, rfl, rfl, rfl, by decide, rfl⟩
  have honce := h st hst (worldOfSeven .empty) toSeven (by decide) htwo.allLive hstored
  obtain ⟨seq, hseq, hpushes⟩ := pushes_single (by decide) hstored
  have hposts := honce.1 0 _ htwo.live.1
  rw [hseq] at hposts
  have hdevice := (posts_live_iff hpushes htwo.live.1).mp hposts (ascii "Mobile") htwo.live.2.2
  exact absurd hdevice (by decide)

end TinyIM.Chat.PushNotify
