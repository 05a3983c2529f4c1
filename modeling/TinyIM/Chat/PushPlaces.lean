import TinyIM.Chat.Acknowledgement
import TinyIM.Gateway.Location

namespace TinyIM.Chat.PushPlaces

open Library.ByteOrder Library.Transition Library.Program Library.Table Protocol Store Gateway
  Gateway.Cluster Acknowledgement

structure Push where
  addr : Bytes
  userId : ℤ
  maxSeq : ℕ
  msgType : ℤ
  deriving DecidableEq, Repr

def pushOf : Command → Option Push
  | .pushNotify addr userId maxSeq msgType => some ⟨addr, userId, maxSeq, msgType⟩
  | _ => none

def pushes (issued : List Command) : List Push := issued.filterMap pushOf

theorem pushes_append (issued issued' : List Command) :
    pushes (issued ++ issued') = pushes issued ++ pushes issued' := List.filterMap_append

/-- A call alone of which no command fails. -/
def sendAll (w : World) (req : SendMessageReq) : Finished World Command Reply :=
  send (fun _ ↦ false) w req

/-- The gateways that a call has notified about a user. -/
def places (d : Finished World Command Reply) (userId : ℤ) : Set Bytes :=
  {addr | ∃ p ∈ pushes d.issued, p.userId = userId ∧ p.addr = addr}

def registered (r : Redis) (userId : ℤ) : Set Bytes :=
  {addr | ∃ device, (device, addr) ∈ r.hgetall (locationKey userId)}

def pushesTo (r : Redis) (userId : ℤ) (seq : ℕ) (msgType : ℤ) : List Push :=
  (r.hgetall (locationKey userId)).map fun l ↦ ⟨l.2, userId, seq, msgType⟩

theorem hgetall_eq_nil_iff {r : Redis} {key : Bytes} : r.hgetall key = [] ↔ r.exists? key = false := by
  simp [Redis.hgetall, Redis.exists?]

theorem registered_eq_empty_iff {r : Redis} {userId : ℤ} :
    registered r userId = ∅ ↔ r.exists? (locationKey userId) = false := by
  rw [← hgetall_eq_nil_iff, List.eq_nil_iff_forall_not_mem, Set.eq_empty_iff_forall_notMem]
  constructor
  · intro h l hl
    exact h l.2 ⟨l.1, hl⟩
  · intro h addr hcase
    obtain ⟨device, hdevice⟩ := hcase
    exact h (device, addr) hdevice

theorem mem_pushesTo {r : Redis} {userId : ℤ} {seq : ℕ} {msgType : ℤ} {p : Push} :
    p ∈ pushesTo r userId seq msgType ↔
      p.addr ∈ registered r userId ∧ p = ⟨p.addr, userId, seq, msgType⟩ := by
  rw [pushesTo, List.mem_map]
  constructor
  · intro hcase
    obtain ⟨l, hl, rfl⟩ := hcase
    exact ⟨⟨l.1, hl⟩, rfl⟩
  · intro hcase
    obtain ⟨⟨device, hdevice⟩, hp⟩ := hcase
    exact ⟨(device, p.addr), hdevice, hp.symm⟩

section Runs

/-- The executor of a call that nothing fails for. -/
abbrev execAll : ℕ → World → (c : Command) → World × Answer c := exec fun _ ↦ false

variable (n : ℕ) (w : World)

theorem execAll_eq (c : Command) : execAll n w c = w.succeed c := exec_of_not_fails _ w n rfl

theorem run_pushLocations (userId : ℤ) (seq : ℕ) (msgType : ℤ) (locations : List (Bytes × Bytes)) :
    (run execAll n w (pushLocations userId seq msgType locations)).state = w ∧
      pushes (run execAll n w (pushLocations userId seq msgType locations)).issued =
        locations.map fun l ↦ ⟨l.2, userId, seq, msgType⟩ := by
  induction locations generalizing n with
  | nil => exact ⟨rfl, rfl⟩
  | cons l locations ih =>
    obtain ⟨hstate, hpushes⟩ := ih (n + 1)
    rw [pushLocations, run_perform_bind, execAll_eq]
    refine ⟨hstate, ?_⟩
    exact congrArg (_ :: ·) hpushes

theorem run_push (onlineKey : Bytes) (userId : ℤ) (seq : ℕ) (msgType : ℤ) :
    (run execAll n w (push onlineKey userId seq msgType)).state = w ∧
      pushes (run execAll n w (push onlineKey userId seq msgType)).issued =
        if w.redis.exists? onlineKey then pushesTo w.redis userId seq msgType else [] := by
  have hexec : execAll n w (.exists? onlineKey) = (w, w.redis.exists? onlineKey) :=
    execAll_eq n w (.exists? onlineKey)
  rw [push, run_perform_bind, hexec]
  cases w.redis.exists? onlineKey with
  | false => exact ⟨rfl, rfl⟩
  | true => exact run_pushLocations (n + 2) w userId seq msgType _

theorem run_pushTargets (msgType : ℤ) (targets : List (ℤ × ℕ)) :
    (run execAll n w (pushTargets msgType targets)).state = w ∧
      pushes (run execAll n w (pushTargets msgType targets)).issued =
        targets.flatMap fun t ↦
          if w.redis.exists? (sessionKey t.1) then pushesTo w.redis t.1 t.2 msgType else [] := by
  induction targets generalizing n with
  | nil => exact ⟨rfl, rfl⟩
  | cons t targets ih =>
    obtain ⟨hstate, hpushes⟩ := run_push n w (sessionKey t.1) t.1 t.2 msgType
    rw [pushTargets, run_bind, hstate]
    obtain ⟨hstate', hpushes'⟩ :=
      ih (n + (run execAll n w (push (sessionKey t.1) t.1 t.2 msgType)).issued.length)
    refine ⟨hstate', ?_⟩
    rw [pushes, List.filterMap_append, List.flatMap_cons]
    exact congrArg₂ (· ++ ·) hpushes hpushes'

theorem pushesTo_of_exists (r : Redis) (userId : ℤ) (seq : ℕ) (msgType : ℤ) :
    (if r.exists? (locationKey userId) then pushesTo r userId seq msgType else []) =
      pushesTo r userId seq msgType := by
  cases hexists : r.exists? (locationKey userId) with
  | true => rfl
  | false => simp [pushesTo, hgetall_eq_nil_iff.mpr hexists]

theorem run_number (userId : ℤ) :
    run execAll n w (nextSeq userId) =
      ⟨{ w with redis := (w.redis.incr (seqKey userId)).1 }, [.incr (seqKey userId)],
        w.redis.counters (seqKey userId) + 1⟩ := rfl

theorem redis_insertIndex (rows : List IndexRow) :
    (execAll n w (.insertIndex rows)).1.redis = w.redis := by
  rw [execAll_eq]
  cases hinsert : w.index.insert rows <;> simp [World.succeed, hinsert]

theorem pushesTo_incr (r : Redis) (key : Bytes) (userId : ℤ) (seq : ℕ) (msgType : ℤ) :
    pushesTo (r.incr key).1 userId seq msgType = pushesTo r userId seq msgType := rfl

theorem run_finish (req : SendMessageReq) (msgId seq : ℕ) (inserted : Bool)
    (h : (run execAll n w (finishSingle req msgId seq inserted)).value.2.success = true) :
    (run execAll n w (finishSingle req msgId seq inserted)).value.2.seqId = seq ∧
      pushes (run execAll n w (finishSingle req msgId seq inserted)).issued =
        pushesTo w.redis req.receiverId seq req.type := by
  cases inserted with
  | false => cases h
  | true =>
    obtain ⟨-, hpushes⟩ := run_push n w (locationKey req.receiverId) req.receiverId seq req.type
    rw [pushesTo_of_exists] at hpushes
    rw [finishSingle, if_pos rfl, run_bind]
    refine ⟨rfl, ?_⟩
    rw [pushes, List.filterMap_append]
    exact (congrArg (· ++ []) hpushes).trans (List.append_nil _)

/-- A message that is stored for its receiver is pushed to all its locations. -/
theorem run_single (req : SendMessageReq) (msgId : ℕ)
    (h : (run execAll n w (sendSingle req msgId)).value.2.success = true) :
    ∃ seq : ℕ, (run execAll n w (sendSingle req msgId)).value.2.seqId = seq ∧
      pushes (run execAll n w (sendSingle req msgId)).issued =
        pushesTo w.redis req.receiverId seq req.type := by
  have hstatus : execAll n w (.selectRelation req.senderId req.receiverId) =
      (w, some (w.statusOf req.senderId req.receiverId)) := execAll_eq n w (.selectRelation _ _)
  rw [sendSingle, run_perform_bind, hstatus] at h ⊢
  cases hmay : maySend (isFriend (some (w.statusOf req.senderId req.receiverId))) req.type with
  | false =>
    simp only [hmay] at h
    cases h
  | true =>
    simp only [hmay, if_true] at h ⊢
    rw [run_bind, run_number, run_perform_bind] at h ⊢
    obtain ⟨hseq, hpushes⟩ := run_finish _ _ req msgId _ _ h
    refine ⟨w.redis.counters (seqKey req.receiverId) + 1, hseq, ?_⟩
    rw [redis_insertIndex, pushesTo_incr] at hpushes
    exact hpushes

end Runs

theorem pushes_single {w : World} {req : SendMessageReq} (hsingle : ¬ 0 < req.groupId)
    (hstored : (sendAll w req).value.2.success = true) :
    ∃ seq : ℕ, (sendAll w req).value.2.seqId = seq ∧
      pushes (sendAll w req).issued = pushesTo w.redis req.receiverId seq req.type := by
  have hsend : sendAll w req = _ := send_of_stored rfl rfl rfl
  rw [if_neg hsingle] at hsend
  rw [hsend] at hstored ⊢
  exact run_single 3 (bodyStored w req) req w.nextMsgId hstored

theorem places_single {w : World} {req : SendMessageReq} (hsingle : ¬ 0 < req.groupId)
    (hstored : (sendAll w req).value.2.success = true) :
    places (sendAll w req) req.receiverId = registered w.redis req.receiverId := by
  obtain ⟨seq, -, hpushes⟩ := pushes_single hsingle hstored
  ext addr
  change (∃ p ∈ pushes (sendAll w req).issued, _) ↔ _
  rw [hpushes]
  constructor
  · intro hcase
    obtain ⟨p, hp, -, rfl⟩ := hcase
    exact (mem_pushesTo.mp hp).1
  · intro haddr
    exact ⟨⟨addr, req.receiverId, seq, req.type⟩, mem_pushesTo.mpr ⟨haddr, rfl⟩, rfl, rfl⟩

theorem run_numbers (n : ℕ) (w : World) (members : List ℤ) :
    ∃ r targets, r.hashes = w.redis.hashes ∧ targets.map Prod.fst = members ∧
      run execAll n w (drawSeqs members) =
        ⟨{ w with redis := r }, members.map fun u ↦ .incr (seqKey u), targets⟩ := by
  induction members generalizing n w with
  | nil => exact ⟨w.redis, [], rfl, rfl, rfl⟩
  | cons u members ih =>
    obtain ⟨r, targets, hhashes, htargets, hrun⟩ :=
      ih (n + 1) { w with redis := (w.redis.incr (seqKey u)).1 }
    refine ⟨r, (u, w.redis.counters (seqKey u) + 1) :: targets, hhashes, ?_, ?_⟩
    · rw [List.map_cons, htargets]
    · rw [drawSeqs, run_bind, run_number, List.length_singleton, run_bind, hrun]
      simp

def memberPushes (r : Redis) (msgType : ℤ) (t : ℤ × ℕ) : List Push :=
  if r.exists? (sessionKey t.1) then pushesTo r t.1 t.2 msgType else []

theorem memberPushes_congr {r r' : Redis} (h : r.hashes = r'.hashes) (msgType : ℤ) :
    memberPushes r msgType = memberPushes r' msgType := by
  obtain ⟨hashes, counters⟩ := r
  obtain ⟨hashes', counters'⟩ := r'
  obtain rfl : hashes = hashes' := h
  rfl

theorem run_insertThenPush (n : ℕ) (w : World) (rows : List IndexRow) (msgType : ℤ)
    (targets : List (ℤ × ℕ)) (reply : Reply) :
    pushes (run execAll n w (do
        let _inserted ← ask (.insertIndex rows)
        pushTargets msgType targets
        return reply)).issued = targets.flatMap (memberPushes w.redis msgType) := by
  obtain ⟨-, hpushed⟩ :=
    run_pushTargets (n + 1) (execAll n w (.insertIndex rows)).1 msgType targets
  rw [redis_insertIndex] at hpushed
  rw [run_perform_bind, run_bind]
  change pushes (_ ++ []) = _
  rw [List.append_nil]
  exact hpushed

theorem run_group (n : ℕ) (w : World) (req : SendMessageReq) (msgId : ℕ) (members : List ℤ) :
    ∃ targets : List (ℤ × ℕ), targets.map Prod.fst = members ∧
      pushes (run execAll n w (fanOut req msgId members)).issued =
        targets.flatMap (memberPushes w.redis req.type) := by
  unfold fanOut
  split_ifs with hmembers
  · exact ⟨[], hmembers.symm, rfl⟩
  · obtain ⟨r, targets, hhashes, htargets, hrun⟩ := run_numbers n w members
    have hnumbers : pushes (members.map fun u ↦ .incr (seqKey u)) = [] := by
      simp [pushes, pushOf, List.filterMap_map, Function.comp_def]
    refine ⟨targets, htargets, ?_⟩
    rw [run_bind, hrun, pushes_append, hnumbers, List.nil_append, run_insertThenPush,
      memberPushes_congr hhashes]

theorem pushes_group {w : World} {req : SendMessageReq} (hgroup : 0 < req.groupId) :
    ∃ targets : List (ℤ × ℕ), targets.map Prod.fst = w.membersOf req.groupId ∧
      pushes (sendAll w req).issued = targets.flatMap (memberPushes w.redis req.type) := by
  have hsend : sendAll w req = _ := send_of_stored rfl rfl rfl
  rw [if_pos hgroup, run_sendGroup] at hsend
  rw [hsend]
  exact run_group 4 (bodyStored w req) req w.nextMsgId (w.membersOf req.groupId)

theorem places_group {w : World} {req : SendMessageReq} (hgroup : 0 < req.groupId) {u : ℤ}
    (hmember : u ∈ w.membersOf req.groupId) :
    places (sendAll w req) u = if w.redis.exists? (sessionKey u) then registered w.redis u else ∅ := by
  obtain ⟨targets, htargets, hpushes⟩ := pushes_group hgroup
  have hmem : ∀ p, p ∈ pushes (sendAll w req).issued ↔ ∃ t ∈ targets,
      w.redis.exists? (sessionKey t.1) = true ∧ p ∈ pushesTo w.redis t.1 t.2 req.type := by
    intro p
    rw [hpushes, List.mem_flatMap]
    refine exists_congr fun t ↦ and_congr_right fun _ ↦ ?_
    unfold memberPushes
    split_ifs with hexists <;> simp [hexists]
  ext addr
  change (∃ p ∈ pushes (sendAll w req).issued, _) ↔ _
  constructor
  · intro hcase
    obtain ⟨p, hp, rfl, rfl⟩ := hcase
    obtain ⟨t, -, hexists, hpush⟩ := (hmem p).mp hp
    obtain ⟨haddr, heq⟩ := mem_pushesTo.mp hpush
    have huser : p.userId = t.1 := congrArg Push.userId heq
    rw [huser, if_pos hexists]
    exact haddr
  · intro haddr
    split_ifs at haddr with hexists
    · obtain ⟨t, ht, rfl⟩ := List.mem_map.mp (htargets ▸ hmember)
      refine ⟨⟨addr, t.1, t.2, req.type⟩, (hmem _).mpr ⟨t, ht, hexists, ?_⟩, rfl, rfl⟩
      exact mem_pushesTo.mpr ⟨haddr, rfl⟩
    · exact haddr.elim

/-- The group push asks for a token, the single push for a location. -/
theorem same_places_iff {w : World} {group single : SendMessageReq} (hgroup : 0 < group.groupId)
    (hmember : single.receiverId ∈ w.membersOf group.groupId) (hsingle : ¬ 0 < single.groupId)
    (hstored : (sendAll w single).value.2.success = true) :
    places (sendAll w group) single.receiverId = places (sendAll w single) single.receiverId ↔
      w.redis.exists? (sessionKey single.receiverId) = true ∨
        w.redis.exists? (locationKey single.receiverId) = false := by
  rw [places_group hgroup hmember, places_single hsingle hstored]
  split_ifs with hexists
  · simp [hexists]
  · rw [eq_comm, registered_eq_empty_iff]
    simp [hexists]

/-- User 7 is the only member of group 9 and a friend of user 1. -/
def worldOfSeven (r : Redis) : World where
  bodies := []
  nextMsgId := 1
  index := .empty
  members := ⟨[⟨9, 7⟩], by decide⟩
  relations := ⟨[⟨1, 7, 1⟩], by decide⟩
  redis := r
  clock := []

def toGroup : SendMessageReq := { senderId := 1, groupId := 9 }

def toSeven : SendMessageReq := { senderId := 1, receiverId := 7 }

def tokenAndLocation : Redis :=
  (Redis.empty.hset (sessionKey 7) (ascii "PC") (ascii "token_7_1")).hset (locationKey 7) (ascii "PC")
    (grpcAddr 8080)

theorem same_places_iff_token :
    places (sendAll (worldOfSeven tokenAndLocation) toGroup) toSeven.receiverId =
      places (sendAll (worldOfSeven tokenAndLocation) toSeven) toSeven.receiverId :=
  (same_places_iff (by decide) (List.mem_singleton_self _) (by decide) rfl).mpr (.inl rfl)

/-- A session that logs in by a packet registers its location and has no token. -/
def packetLogin : List Action :=
  [.upgrade 8080 ⟨0, ascii "PC"⟩, .handle 0 (.accept true),
    .handle 0 (.packet ⟨CommandID.loginReq.value, [10, 1, 55]⟩ Dispatch.backendsDown.call true),
    .perform 0, .perform 0, .perform 0]

theorem not_same_places :
    ¬ ∀ st : Gateways, Reach (next .little Dispatch.loginCodec) anyStep (start .empty) st →
      ∀ (w : World) (group single : SendMessageReq), w.redis = st.redis → 0 < group.groupId →
        single.receiverId ∈ w.membersOf group.groupId → ¬ 0 < single.groupId →
          (sendAll w single).value.2.success = true →
            places (sendAll w group) single.receiverId = places (sendAll w single) single.receiverId := by
  intro h
  obtain ⟨st, hst, hstored, hsession, hlocation⟩ : ∃ st,
      Reach (next .little Dispatch.loginCodec) anyStep (start .empty) st ∧
        (sendAll (worldOfSeven st.redis) toSeven).value.2.success = true ∧
          st.redis.exists? (sessionKey 7) = false ∧ st.redis.exists? (locationKey 7) = true :=
    exists_reach_of_exec packetLogin ⟨_, rfl, rfl, rfl, rfl⟩
  have hmember : toSeven.receiverId ∈ (worldOfSeven st.redis).membersOf toGroup.groupId :=
    List.mem_singleton_self _
  have hsame := h st hst (worldOfSeven st.redis) toGroup toSeven rfl (by decide) hmember (by decide)
    hstored
  rw [places_group (by decide) hmember, places_single (by decide) hstored] at hsame
  have hempty : registered st.redis 7 = ∅ := by
    rw [show (worldOfSeven st.redis).redis.exists? (sessionKey toSeven.receiverId) = false from hsession]
      at hsame
    exact hsame.symm
  rw [registered_eq_empty_iff, hlocation] at hempty
  cases hempty

end TinyIM.Chat.PushPlaces
