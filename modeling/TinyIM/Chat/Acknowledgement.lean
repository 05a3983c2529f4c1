import Mathlib.Data.List.Indexes
import TinyIM.Chat.ChatService

namespace TinyIM.Chat.Acknowledgement

open Library.ByteOrder Library.Program Library.Table Protocol Store

/-- One call alone, whose `n`-th command fails when `fails n` holds. -/
def exec (fails : ℕ → Bool) (n : ℕ) (w : World) (c : Command) : World × Answer c :=
  w.perform (!fails n) c

def send (fails : ℕ → Bool) (w : World) (req : SendMessageReq) : Finished World Command Reply :=
  run (exec fails) 0 w (sendMessage req)

def recipients (w : World) (req : SendMessageReq) : List ℤ :=
  if 0 < req.groupId then w.membersOf req.groupId else [req.receiverId]

/-- A reply that reports success is true of every recipient, and every push is
about a row. -/
structure Acknowledged (w : World) (req : SendMessageReq) (d : Finished World Command Reply) :
    Prop where
  stored : d.value.2.success = true → ∀ u ∈ recipients w req,
    ∃ r ∈ d.state.index.rows, r.ownerId = u ∧ (r.msgId : ℤ) = d.value.2.msgId ∧ 1 ≤ r.seqId
  pushed : ∀ addr u s msgType, .pushNotify addr u s msgType ∈ d.issued →
    ∃ r ∈ d.state.index.rows, r.ownerId = u ∧ r.seqId = s

/-- No failure goes unnoticed. For a group with members nothing may fail after
the body is stored, and no number may be taken. For a single receiver `INCR`
may fail only if the `INSERT` does as well. -/
def Noticed (fails : ℕ → Bool) (w : World) (req : SendMessageReq) : Prop :=
  let members := w.membersOf req.groupId
  let keys := w.index.rows.map IndexRow.key
  fails 0 ∨ fails 1 ∨ fails 2 ∨
    if 0 < req.groupId then
      members = [] ∨
        fails 3 = false ∧ (∀ i < members.length, fails (4 + i) = false) ∧
          fails (4 + members.length) = false ∧
          ∀ u ∈ members, (u, w.redis.counters (seqKey u) + 1) ∉ keys
    else
      maySend (isFriend (if fails 3 then none else some (w.statusOf req.senderId req.receiverId)))
          req.type = false ∨
        fails 4 = false ∨ fails 5 ∨ (req.receiverId, 0) ∈ keys

instance (fails : ℕ → Bool) (w : World) (req : SendMessageReq) : Decidable (Noticed fails w req) := by
  unfold Noticed
  infer_instance

/-- No index row is about a body that is not stored yet. -/
def Fresh (w : World) : Prop := ∀ r ∈ w.index.rows, r.msgId < w.nextMsgId

def number (fails : ℕ → Bool) (w : World) (n : ℕ) (u : ℤ) : ℕ :=
  if fails n then 0 else w.redis.counters (seqKey u) + 1

def numbered (fails : ℕ → Bool) (w : World) (n : ℕ) (members : List ℤ) : List (ℤ × ℕ) :=
  members.mapIdx fun i u ↦ (u, number fails w (n + i) u)

section Runs

variable (fails : ℕ → Bool) (w : World) (n : ℕ)

theorem exec_of_fails {c : Command} (h : fails n = true) :
    exec fails n w c = (w, World.failure c) := by
  simp [exec, World.perform, h]

theorem exec_of_not_fails {c : Command} (h : fails n = false) :
    exec fails n w c = w.succeed c := by
  simp [exec, World.perform, h]

theorem exec_selectRelation (userId friendId : ℤ) :
    exec fails n w (.selectRelation userId friendId) =
      (w, if fails n then none else some (w.statusOf userId friendId)) := by
  cases hn : fails n with
  | true => exact exec_of_fails fails w n hn
  | false => exact exec_of_not_fails fails w n hn

theorem run_nextSeq (u : ℤ) :
    ∃ r : Redis, run (exec fails) n w (nextSeq u) =
        ⟨{ w with redis := r }, [.incr (seqKey u)], number fails w n u⟩ ∧
      ∀ v, v ≠ u → r.counters (seqKey v) = w.redis.counters (seqKey v) := by
  cases hn : fails n with
  | true =>
    refine ⟨w.redis, ?_, fun _ _ ↦ rfl⟩
    simp [nextSeq, exec_of_fails fails w n hn, World.failure, number, hn]
  | false =>
    refine ⟨(w.redis.incr (seqKey u)).1, ?_, ?_⟩
    · simp [nextSeq, exec_of_not_fails fails w n hn, World.succeed, number, hn, Redis.incr]
    · intro v hv
      exact Function.update_of_ne (fun h ↦ hv (seqKey_injective h)) _ _

theorem numbered_cons (u : ℤ) (members : List ℤ) :
    numbered fails w n (u :: members) =
      (u, number fails w n u) :: numbered fails w (n + 1) members := by
  simp [numbered, List.mapIdx_cons, Nat.add_comm, Nat.add_left_comm]

theorem numbered_congr {w' : World} {members : List ℤ}
    (h : ∀ u ∈ members, w'.redis.counters (seqKey u) = w.redis.counters (seqKey u)) :
    numbered fails w' n members = numbered fails w n members := by
  induction members generalizing n with
  | nil => rfl
  | cons u members ih =>
    rw [numbered_cons, numbered_cons, ih (n + 1) fun v hv ↦ h v (List.mem_cons_of_mem u hv)]
    simp only [number, h u List.mem_cons_self]

theorem run_drawSeqs {members : List ℤ} (hnodup : members.Nodup) :
    ∃ r : Redis, run (exec fails) n w (drawSeqs members) =
      ⟨{ w with redis := r }, members.map fun u ↦ .incr (seqKey u), numbered fails w n members⟩ := by
  induction members generalizing n w with
  | nil => exact ⟨w.redis, rfl⟩
  | cons u members ih =>
    obtain ⟨hu, hrest⟩ := List.nodup_cons.mp hnodup
    obtain ⟨r, hr, hother⟩ := run_nextSeq fails w n u
    obtain ⟨r', hr'⟩ := ih { w with redis := r } (n + 1) hrest
    have hsame : numbered fails { w with redis := r } (n + 1) members =
        numbered fails w (n + 1) members := by
      apply numbered_congr fails w (n + 1)
      intro v hv
      exact hother v fun h ↦ hu (h ▸ hv)
    refine ⟨r', ?_⟩
    simp [drawSeqs, run_bind, hr, hr', hsame, numbered_cons]

def pushesOnly (targets : List (ℤ × ℕ)) : Contract Command Answer Unit where
  may _
    | .exists? _ => True
    | .hgetall _ => True
    | .pushNotify _ userId maxSeq _ => (userId, maxSeq) ∈ targets
    | _ => False
  answers _ _ _ := True
  after _ _ _ := ()

theorem allowsPush (targets : List (ℤ × ℕ)) : AllowsPush (pushesOnly targets) targets where
  may _ := ⟨fun _ ↦ ⟨trivial, trivial⟩, fun _ _ _ hx ↦ hx⟩
  after _ := ⟨fun _ _ ↦ rfl, fun _ _ ↦ rfl, fun _ _ _ _ _ ↦ rfl⟩

def PushedOnly (targets : List (ℤ × ℕ)) (issued : List Command) : Prop :=
  ∀ addr u s msgType, .pushNotify addr u s msgType ∈ issued → (u, s) ∈ targets

theorem PushedOnly.cons {targets : List (ℤ × ℕ)} {issued : List Command} {c : Command}
    (hc : ∀ addr u s msgType, .pushNotify addr u s msgType ≠ c) (h : PushedOnly targets issued) :
    PushedOnly targets (c :: issued) := by
  intro addr u s msgType hmem
  exact h addr u s msgType ((List.mem_cons.mp hmem).resolve_left (hc addr u s msgType))

theorem run_pushes {targets : List (ℤ × ℕ)} {p : Handler Unit}
    (h : Meets (pushesOnly targets) (fun t' _ ↦ t' = ()) () p) :
    (run (exec fails) n w p).state = w ∧ PushedOnly targets (run (exec fails) n w p).issued := by
  have hrun : (∃ t', (run (exec fails) n w p).state = w ∧ t' = ()) ∧
      ∀ c ∈ (run (exec fails) n w p).issued, ∃ t', (pushesOnly targets).may t' c := by
    refine h.run (I := fun s _ ↦ s = w) ?_ rfl
    intro m s _ c hmay heq
    obtain rfl := heq
    refine ⟨trivial, ?_⟩
    cases hm : fails m with
    | true => rw [exec_of_fails fails s m hm]
    | false =>
      rw [exec_of_not_fails fails s m hm]
      cases c with
      | exists? _ => rfl
      | hgetall _ => rfl
      | pushNotify _ _ _ _ => rfl
      | _ => exact hmay.elim
  obtain ⟨⟨-, hstate, -⟩, hissued⟩ := hrun
  refine ⟨hstate, ?_⟩
  intro addr u s msgType hmem
  obtain ⟨_, hmay⟩ := hissued _ hmem
  exact hmay

def inserted (rows : List IndexRow) : Keyed IndexRow.key :=
  if fails n then w.index else (w.index.insert rows).getD w.index

def insertedOk (rows : List IndexRow) : Bool := !fails n && (w.index.insert rows).isSome

theorem exec_insertIndex (rows : List IndexRow) :
    exec fails n w (.insertIndex rows) =
      ({ w with index := inserted fails w n rows }, insertedOk fails w n rows) := by
  cases hn : fails n with
  | true =>
    rw [exec_of_fails fails w n hn]
    simp [inserted, insertedOk, hn, World.failure]
  | false =>
    rw [exec_of_not_fails fails w n hn]
    cases hinsert : w.index.insert rows <;>
      simp [World.succeed, inserted, insertedOk, hn, hinsert]

/-- Whatever becomes of the `INSERT`, the members are notified and the reply is
a success. -/
theorem run_fanOut (req : SendMessageReq) (msgId : ℕ) {members : List ℤ} (hsome : members ≠ [])
    (hnodup : members.Nodup) :
    let d := run (exec fails) n w (fanOut req msgId members)
    let targets := numbered fails w n members
    d.value = (none, { msgId := msgId, success := true }) ∧
      d.state.index =
        inserted fails w (n + members.length) (indexRows req.groupId msgId targets) ∧
      PushedOnly targets d.issued := by
  intro d targets
  obtain ⟨r, hr⟩ := run_drawSeqs fails w n hnodup
  obtain ⟨hsame, hpushed⟩ := run_pushes fails
    { w with index := inserted fails w (n + members.length) (indexRows req.groupId msgId targets),
             redis := r } (n + members.length + 1)
    (pushTargets_meets req.type (allowsPush targets) fun _ hx ↦ hx)
  have hd : d = run (exec fails) n w (fanOut req msgId members) := rfl
  rw [fanOut, if_neg hsome, run_bind, hr] at hd
  simp only [run_perform_bind, List.length_map, exec_insertIndex] at hd
  simp only [run_bind, Prog.pure_eq, run_done, List.append_nil] at hd
  rw [hd]
  refine ⟨rfl, congrArg World.index hsame, ?_⟩
  intro addr u s t hmem
  rcases List.mem_append.mp hmem with hmem | hmem
  · obtain ⟨v, -, hv⟩ := List.mem_map.mp hmem
    exact nomatch hv
  · exact hpushed addr u s t ((List.mem_cons.mp hmem).resolve_left nofun)

theorem run_sendGroup (req : SendMessageReq) (msgId : ℕ) :
    let d := run (exec fails) (n + 1) w
      (fanOut req msgId (if fails n then [] else w.membersOf req.groupId))
    run (exec fails) n w (sendGroup req msgId) =
      ⟨d.state, .selectMembers req.groupId :: d.issued, d.value⟩ := by
  cases hn : fails n with
  | true =>
    rw [sendGroup, run_perform_bind, exec_of_fails fails w n hn]
    rfl
  | false =>
    rw [sendGroup, run_perform_bind, exec_of_not_fails fails w n hn]
    rfl

theorem run_sendSingle_refused (req : SendMessageReq) (msgId : ℕ)
    (h : maySend (isFriend (if fails n then none
      else some (w.statusOf req.senderId req.receiverId))) req.type = false) :
    run (exec fails) n w (sendSingle req msgId) =
      ⟨w, [.selectRelation req.senderId req.receiverId],
        (none, { success := false, errorMessage := ascii "Not friends" })⟩ := by
  rw [sendSingle, run_perform_bind, exec_selectRelation]
  simp only [h]
  rfl

theorem run_finishSingle (req : SendMessageReq) (msgId seq : ℕ) (ok : Bool) :
    let d := run (exec fails) n w (finishSingle req msgId seq ok)
    d.value = (none, if ok then { msgId := msgId, seqId := seq, success := true }
        else { success := false }) ∧
      d.state = w ∧ PushedOnly (if ok then [(req.receiverId, seq)] else []) d.issued := by
  cases ok with
  | false => exact ⟨rfl, rfl, fun _ _ _ _ hmem ↦ absurd hmem List.not_mem_nil⟩
  | true =>
    obtain ⟨hsame, hpushed⟩ := run_pushes fails w n
      (push_meets (allowsPush [(req.receiverId, seq)]) (List.mem_singleton_self _)
        (Gateway.locationKey req.receiverId) req.type)
    simp only [finishSingle, if_true, run_bind, Prog.pure_eq, run_done, List.append_nil]
    exact ⟨trivial, hsame, hpushed⟩

theorem run_sendSingle (req : SendMessageReq) (msgId : ℕ)
    (h : maySend (isFriend (if fails n then none
      else some (w.statusOf req.senderId req.receiverId))) req.type = true) :
    let d := run (exec fails) n w (sendSingle req msgId)
    let seq := number fails w (n + 1) req.receiverId
    let row := singleRow req msgId seq
    let ok := insertedOk fails w (n + 2) [row]
    d.value = (none, if ok then { msgId := msgId, seqId := seq, success := true }
        else { success := false }) ∧
      d.state.index = inserted fails w (n + 2) [row] ∧
      PushedOnly (if ok then [(req.receiverId, seq)] else []) d.issued := by
  intro d seq row ok
  obtain ⟨r, hr, -⟩ := run_nextSeq fails w (n + 1) req.receiverId
  obtain ⟨hvalue, hstate, hpushed⟩ := run_finishSingle fails
    { w with index := inserted fails w (n + 2) [row], redis := r } (n + 3) req msgId seq ok
  have hd : d = run (exec fails) n w (sendSingle req msgId) := rfl
  rw [sendSingle, run_perform_bind, exec_selectRelation] at hd
  simp only [h, if_true] at hd
  rw [run_bind, hr] at hd
  simp only [run_perform_bind, exec_insertIndex, List.length_singleton] at hd
  rw [hd]
  refine ⟨hvalue, congrArg World.index hstate, ?_⟩
  intro addr u s t hmem
  simp only [List.mem_cons, List.mem_append, reduceCtorEq, List.not_mem_nil, or_false, false_or]
    at hmem
  exact hpushed addr u s t hmem

end Runs

section Send

variable {fails : ℕ → Bool} {w : World} {req : SendMessageReq}

/-- Without a connection or a body the call changes and pushes nothing. -/
theorem send_of_fails (h : fails 0 = true ∨ fails 1 = true ∨ fails 2 = true) :
    (send fails w req).state = w ∧ (send fails w req).value.2.success = false ∧
      PushedOnly [] (send fails w req).issued := by
  rw [send, sendMessage, run_perform_bind, run_perform_bind]
  cases h0 : fails 0 with
  | true =>
    rw [exec_of_fails fails w 0 h0]
    cases h1 : fails 1 with
    | true =>
      rw [exec_of_fails fails w _ h1]
      exact ⟨rfl, rfl, by simp [PushedOnly, World.failure]⟩
    | false =>
      rw [exec_of_not_fails fails w _ h1]
      exact ⟨rfl, rfl, by simp [PushedOnly, World.failure]⟩
  | false =>
    rw [exec_of_not_fails fails w 0 h0]
    cases h1 : fails 1 with
    | true =>
      rw [exec_of_fails fails _ 1 h1]
      exact ⟨rfl, rfl, by simp [PushedOnly, World.failure, World.succeed]⟩
    | false =>
      have h2 : fails 2 = true := by simpa [h0, h1] using h
      rw [exec_of_not_fails fails _ 1 h1]
      simp only [World.succeed, Bool.not_true, Bool.or_false, Bool.false_eq_true, if_false,
        run_perform_bind, exec_of_fails fails w 2 h2]
      exact ⟨rfl, rfl, by simp [PushedOnly, World.failure]⟩

def bodyStored (w : World) (req : SendMessageReq) : World :=
  (w.succeed (.insertBody req.senderId req.groupId req.type req.content)).1

theorem send_of_stored (h0 : fails 0 = false) (h1 : fails 1 = false) (h2 : fails 2 = false) :
    let d := run (exec fails) 3 (bodyStored w req)
      (if 0 < req.groupId then sendGroup req w.nextMsgId else sendSingle req w.nextMsgId)
    send fails w req =
      ⟨d.state, .connectWrite :: .connectRead ::
        .insertBody req.senderId req.groupId req.type req.content :: d.issued, d.value⟩ := by
  rw [send, sendMessage, run_perform_bind, run_perform_bind, exec_of_not_fails fails w 0 h0,
    exec_of_not_fails fails _ 1 h1]
  simp only [World.succeed, Bool.not_true, Bool.or_false, Bool.false_eq_true, if_false,
    run_perform_bind, exec_of_not_fails fails w 2 h2]
  rfl

theorem send_group_unread (hgroup : 0 < req.groupId) (h0 : fails 0 = false) (h1 : fails 1 = false)
    (h2 : fails 2 = false) (h : fails 3 = true ∨ w.membersOf req.groupId = []) :
    (send fails w req).value = (none, { msgId := w.nextMsgId, success := true }) ∧
      (send fails w req).state.index = w.index ∧ PushedOnly [] (send fails w req).issued := by
  have hempty : (if fails 3 then [] else (bodyStored w req).membersOf req.groupId) = [] := by
    split_ifs with h3
    · rfl
    · exact h.resolve_left h3
  rw [send_of_stored h0 h1 h2, if_pos hgroup, run_sendGroup, hempty, fanOut, if_pos rfl]
  exact ⟨rfl, rfl, by simp [PushedOnly]⟩

theorem send_group (hgroup : 0 < req.groupId) (h0 : fails 0 = false) (h1 : fails 1 = false)
    (h2 : fails 2 = false) (h3 : fails 3 = false) (hsome : w.membersOf req.groupId ≠ [])
    (hnodup : (w.membersOf req.groupId).Nodup) :
    let targets := numbered fails w 4 (w.membersOf req.groupId)
    (send fails w req).value = (none, { msgId := w.nextMsgId, success := true }) ∧
      (send fails w req).state.index = inserted fails w (4 + (w.membersOf req.groupId).length)
        (indexRows req.groupId w.nextMsgId targets) ∧
      PushedOnly targets (send fails w req).issued := by
  obtain ⟨hvalue, hindex, hpushed⟩ :=
    run_fanOut fails (bodyStored w req) 4 req w.nextMsgId hsome hnodup
  rw [send_of_stored h0 h1 h2, if_pos hgroup, run_sendGroup, h3]
  refine ⟨hvalue, hindex, (((hpushed.cons ?_).cons ?_).cons ?_).cons ?_⟩
  all_goals nofun

theorem send_single_refused (hsingle : ¬ 0 < req.groupId) (h0 : fails 0 = false)
    (h1 : fails 1 = false) (h2 : fails 2 = false)
    (h : maySend (isFriend (if fails 3 then none
      else some (w.statusOf req.senderId req.receiverId))) req.type = false) :
    (send fails w req).value.2.success = false ∧ PushedOnly [] (send fails w req).issued := by
  rw [send_of_stored h0 h1 h2, if_neg hsingle,
    run_sendSingle_refused fails (bodyStored w req) 3 req w.nextMsgId h]
  exact ⟨rfl, by simp [PushedOnly]⟩

theorem send_single (hsingle : ¬ 0 < req.groupId) (h0 : fails 0 = false) (h1 : fails 1 = false)
    (h2 : fails 2 = false)
    (h : maySend (isFriend (if fails 3 then none
      else some (w.statusOf req.senderId req.receiverId))) req.type = true) :
    let seq := number fails w 4 req.receiverId
    let row := singleRow req w.nextMsgId seq
    let ok := insertedOk fails w 5 [row]
    (send fails w req).value = (none, if ok then
        { msgId := w.nextMsgId, seqId := seq, success := true } else { success := false }) ∧
      (send fails w req).state.index = inserted fails w 5 [row] ∧
      PushedOnly (if ok then [(req.receiverId, seq)] else []) (send fails w req).issued := by
  obtain ⟨hvalue, hindex, hpushed⟩ :=
    run_sendSingle fails (bodyStored w req) 3 req w.nextMsgId h
  rw [send_of_stored h0 h1 h2, if_neg hsingle]
  refine ⟨hvalue, hindex, ((hpushed.cons ?_).cons ?_).cons ?_⟩
  all_goals nofun

theorem membersOf_nodup (w : World) (groupId : ℤ) : (w.membersOf groupId).Nodup := by
  have hkeys : ((w.members.rows.filter fun r ↦ r.groupId = groupId).map MemberRow.key).Nodup :=
    w.members.nodup.sublist (List.filter_sublist.map _)
  apply List.Nodup.of_map (fun u ↦ (groupId, u))
  rw [World.membersOf, List.map_map]
  convert hkeys using 1
  apply List.map_congr_left
  intro r hr
  have hgroup : r.groupId = groupId := by simpa using (List.mem_filter.mp hr).2
  exact Prod.ext hgroup.symm rfl

theorem mem_numbered {n : ℕ} {members : List ℤ} {u : ℤ} {s : ℕ} :
    (u, s) ∈ numbered fails w n members ↔
      ∃ i : ℕ, members[i]? = some u ∧ s = number fails w (n + i) u := by
  rw [numbered, List.mem_mapIdx]
  constructor
  · intro hcase
    obtain ⟨i, hi, heq⟩ := hcase
    obtain ⟨rfl, rfl⟩ := Prod.mk.inj heq
    exact ⟨i, List.getElem?_eq_getElem hi, rfl⟩
  · intro hcase
    obtain ⟨i, hi, rfl⟩ := hcase
    obtain ⟨hlt, rfl⟩ := List.getElem?_eq_some_iff.mp hi
    exact ⟨i, hlt, rfl⟩

theorem numbered_fst (n : ℕ) (members : List ℤ) :
    (numbered fails w n members).map Prod.fst = members := by
  induction members generalizing n with
  | nil => rfl
  | cons u members ih => rw [numbered_cons, List.map_cons, ih]

theorem numbered_of_incr {n : ℕ} {members : List ℤ}
    (h : ∀ i < members.length, fails (n + i) = false) :
    numbered fails w n members = members.map fun u ↦ (u, w.redis.counters (seqKey u) + 1) := by
  induction members generalizing n with
  | nil => rfl
  | cons u members ih =>
    have hfirst : fails n = false := h 0 (by simp)
    have hrest : ∀ i < members.length, fails (n + 1 + i) = false := by
      intro i hi
      rw [Nat.add_assoc, Nat.add_comm 1 i]
      exact h (i + 1) (by simpa using hi)
    rw [numbered_cons, ih hrest]
    simp [number, hfirst]

theorem incr_of_numbered {n : ℕ} {members : List ℤ} (hnodup : members.Nodup)
    (h : ∀ u ∈ members, ∃ s, (u, s) ∈ numbered fails w n members ∧ 1 ≤ s) :
    ∀ i < members.length, fails (n + i) = false := by
  intro i hi
  obtain ⟨s, hmem, hpos⟩ := h members[i] (List.getElem_mem hi)
  obtain ⟨j, hj, hs⟩ := mem_numbered.mp hmem
  have hsame : i = j := by
    apply (List.getElem?_inj hi hnodup).mp
    rw [hj, List.getElem?_eq_getElem hi]
  subst hsame
  cases hfail : fails (n + i) with
  | false => rfl
  | true =>
    rw [number, hfail, if_pos rfl] at hs
    omega

theorem key_indexRows (groupId : ℤ) (msgId : ℕ) (targets : List (ℤ × ℕ)) :
    (indexRows groupId msgId targets).map IndexRow.key = targets := by
  simp [indexRows, IndexRow.key, Function.comp_def]

/-- Where every `INCR` worked, the batch is free exactly when no number is
taken. -/
theorem free_indexRows_iff {n : ℕ} {members : List ℤ} (groupId : ℤ) (msgId : ℕ)
    (hnodup : members.Nodup) (hincr : ∀ i < members.length, fails (n + i) = false) :
    w.index.Free (indexRows groupId msgId (numbered fails w n members)) ↔
      ∀ u ∈ members, (u, w.redis.counters (seqKey u) + 1) ∉ w.index.rows.map IndexRow.key := by
  have hfirst : (numbered fails w n members).Nodup := by
    apply List.Nodup.of_map Prod.fst
    rw [numbered_fst]
    exact hnodup
  rw [Keyed.free_iff, ← List.forall_mem_map (P := fun k ↦ k ∉ w.index.rows.map IndexRow.key),
    key_indexRows, and_iff_right hfirst, numbered_of_incr hincr, List.forall_mem_map]

theorem mem_inserted_of_fresh {n : ℕ} {rows : List IndexRow} {r : IndexRow} (hw : Fresh w)
    (hr : r ∈ (inserted fails w n rows).rows) (hid : w.nextMsgId ≤ r.msgId) :
    fails n = false ∧ w.index.Free rows ∧ r ∈ rows := by
  have hold : r ∉ w.index.rows := by
    intro hmem
    exact absurd (hw r hmem) (Nat.not_lt.mpr hid)
  unfold inserted at hr
  split_ifs at hr with hn
  · exact absurd hr hold
  · cases hinsert : w.index.insert rows with
    | none =>
      rw [hinsert] at hr
      exact absurd hr hold
    | some index =>
      obtain ⟨hfree, hall⟩ := Keyed.rows_of_insert hinsert
      rw [hinsert, Option.getD_some, hall] at hr
      exact ⟨by simpa using hn, hfree, (List.mem_append.mp hr).resolve_left hold⟩

theorem inserted_of_free {n : ℕ} {rows : List IndexRow} (hn : fails n = false)
    (hfree : w.index.Free rows) : (inserted fails w n rows).rows = w.index.rows ++ rows := by
  obtain ⟨index, hindex, hall⟩ := Keyed.insert_of_free hfree
  simp [inserted, hn, hindex, hall]

theorem acknowledged_of_failure (hfailed : (send fails w req).value.2.success = false)
    (hpushed : PushedOnly [] (send fails w req).issued) : Acknowledged w req (send fails w req) := by
  refine ⟨?_, ?_⟩
  · intro hsuccess
    rw [hfailed] at hsuccess
    cases hsuccess
  · intro addr u s msgType hmem
    exact absurd (hpushed addr u s msgType hmem) List.not_mem_nil

section Group

variable (hgroup : 0 < req.groupId) (h0 : fails 0 = false) (h1 : fails 1 = false)
  (h2 : fails 2 = false)
include hgroup h0 h1 h2

theorem acknowledged_group_empty (h : w.membersOf req.groupId = []) :
    Acknowledged w req (send fails w req) := by
  obtain ⟨-, -, hpushed⟩ := send_group_unread hgroup h0 h1 h2 (.inr h)
  refine ⟨?_, ?_⟩
  · intro _ u hu
    rw [recipients, if_pos hgroup, h] at hu
    exact absurd hu List.not_mem_nil
  · intro addr u s msgType hmem
    exact absurd (hpushed addr u s msgType hmem) List.not_mem_nil

theorem acknowledged_group (hsome : w.membersOf req.groupId ≠ []) (h3 : fails 3 = false)
    (hincr : ∀ i < (w.membersOf req.groupId).length, fails (4 + i) = false)
    (hlast : fails (4 + (w.membersOf req.groupId).length) = false)
    (hnew : ∀ u ∈ w.membersOf req.groupId,
      (u, w.redis.counters (seqKey u) + 1) ∉ w.index.rows.map IndexRow.key) :
    Acknowledged w req (send fails w req) := by
  have hnodup := membersOf_nodup w req.groupId
  obtain ⟨hvalue, hindex, hpushed⟩ := send_group hgroup h0 h1 h2 h3 hsome hnodup
  have hfree := (free_indexRows_iff req.groupId w.nextMsgId hnodup hincr).mpr hnew
  have hrow : ∀ u s, (u, s) ∈ numbered fails w 4 (w.membersOf req.groupId) →
      ∃ r ∈ (send fails w req).state.index.rows,
        r.ownerId = u ∧ r.msgId = w.nextMsgId ∧ r.seqId = s := by
    intro u s hmem
    rw [hindex, inserted_of_free hlast hfree]
    exact ⟨_, List.mem_append_right _ (List.mem_map_of_mem hmem), rfl, rfl, rfl⟩
  refine ⟨?_, ?_⟩
  · intro _ u hu
    rw [recipients, if_pos hgroup] at hu
    have hmem : (u, w.redis.counters (seqKey u) + 1) ∈
        numbered fails w 4 (w.membersOf req.groupId) := by
      rw [numbered_of_incr hincr]
      exact List.mem_map_of_mem hu
    obtain ⟨r, hr, howner, hid, hseq⟩ := hrow u _ hmem
    refine ⟨r, hr, howner, ?_, ?_⟩
    · rw [hid, hvalue]
    · rw [hseq]
      exact Nat.le_add_left 1 _
  · intro addr u s msgType hmem
    obtain ⟨r, hr, howner, -, hseq⟩ := hrow u s (hpushed addr u s msgType hmem)
    exact ⟨r, hr, howner, hseq⟩

omit h0 h1 h2 in
theorem rows_of_acknowledged (h : Acknowledged w req (send fails w req))
    (hvalue : (send fails w req).value = (none, { msgId := w.nextMsgId, success := true })) :
    ∀ u ∈ w.membersOf req.groupId, ∃ r ∈ (send fails w req).state.index.rows,
      r.ownerId = u ∧ r.msgId = w.nextMsgId ∧ 1 ≤ r.seqId := by
  intro u hu
  have hrecipient : u ∈ recipients w req := by
    rw [recipients, if_pos hgroup]
    exact hu
  obtain ⟨r, hr, howner, hid, hseq⟩ := h.stored (by rw [hvalue]) u hrecipient
  rw [hvalue] at hid
  exact ⟨r, hr, howner, Int.ofNat_inj.mp hid, hseq⟩

theorem query_of_acknowledged (hw : Fresh w) (h : Acknowledged w req (send fails w req))
    (hsome : w.membersOf req.groupId ≠ []) : fails 3 = false := by
  cases h3 : fails 3 with
  | false => rfl
  | true =>
    obtain ⟨hvalue, hindex, -⟩ := send_group_unread hgroup h0 h1 h2 (.inl h3)
    obtain ⟨v, hv⟩ := List.exists_mem_of_ne_nil _ hsome
    obtain ⟨r, hr, -, hid, -⟩ := rows_of_acknowledged hgroup h hvalue v hv
    rw [hindex] at hr
    exact absurd (hw r hr) (by omega)

theorem noticed_group (hw : Fresh w) (h : Acknowledged w req (send fails w req))
    (hsome : w.membersOf req.groupId ≠ []) :
    fails 3 = false ∧ (∀ i < (w.membersOf req.groupId).length, fails (4 + i) = false) ∧
      fails (4 + (w.membersOf req.groupId).length) = false ∧
      ∀ u ∈ w.membersOf req.groupId,
        (u, w.redis.counters (seqKey u) + 1) ∉ w.index.rows.map IndexRow.key := by
  have hnodup := membersOf_nodup w req.groupId
  have h3 := query_of_acknowledged hgroup h0 h1 h2 hw h hsome
  obtain ⟨hvalue, hindex, -⟩ := send_group hgroup h0 h1 h2 h3 hsome hnodup
  have hstored : ∀ u ∈ w.membersOf req.groupId,
      (fails (4 + (w.membersOf req.groupId).length) = false ∧
        w.index.Free (indexRows req.groupId w.nextMsgId
          (numbered fails w 4 (w.membersOf req.groupId)))) ∧
        ∃ s, (u, s) ∈ numbered fails w 4 (w.membersOf req.groupId) ∧ 1 ≤ s := by
    intro u hu
    obtain ⟨r, hr, howner, hid, hseq⟩ := rows_of_acknowledged hgroup h hvalue u hu
    rw [hindex] at hr
    obtain ⟨hlast, hfree, hmem⟩ := mem_inserted_of_fresh hw hr (by omega)
    have hkey := List.mem_map_of_mem (f := IndexRow.key) hmem
    rw [key_indexRows] at hkey
    exact ⟨⟨hlast, hfree⟩, r.seqId, howner ▸ hkey, hseq⟩
  have hincr := incr_of_numbered hnodup fun u hu ↦ (hstored u hu).2
  obtain ⟨v, hv⟩ := List.exists_mem_of_ne_nil _ hsome
  obtain ⟨⟨hlast, hfree⟩, -⟩ := hstored v hv
  exact ⟨h3, hincr, hlast, (free_indexRows_iff req.groupId w.nextMsgId hnodup hincr).mp hfree⟩

end Group

section Single

variable (hsingle : ¬ 0 < req.groupId) (h0 : fails 0 = false) (h1 : fails 1 = false)
  (h2 : fails 2 = false) (hmay : maySend (isFriend (if fails 3 then none
    else some (w.statusOf req.senderId req.receiverId))) req.type = true)
include hsingle h0 h1 h2 hmay

theorem acknowledged_single (h : fails 4 = false ∨ fails 5 = true ∨
    (req.receiverId, 0) ∈ w.index.rows.map IndexRow.key) :
    Acknowledged w req (send fails w req) := by
  obtain ⟨hvalue, hindex, hpushed⟩ := send_single hsingle h0 h1 h2 hmay
  cases hok : insertedOk fails w 5 [singleRow req w.nextMsgId (number fails w 4 req.receiverId)] with
  | false =>
    rw [hok] at hvalue hpushed
    exact acknowledged_of_failure (by rw [hvalue]; rfl) hpushed
  | true =>
    rw [hok] at hvalue hpushed
    obtain ⟨h5, hsome⟩ : fails 5 = false ∧ (w.index.insert
        [singleRow req w.nextMsgId (number fails w 4 req.receiverId)]).isSome = true := by
      simpa [insertedOk] using hok
    obtain ⟨index, hinsert⟩ := Option.isSome_iff_exists.mp hsome
    obtain ⟨hfree, -⟩ := Keyed.rows_of_insert hinsert
    have h4 : fails 4 = false := by
      rcases h with h | h | h
      · exact h
      · rw [h5] at h
        cases h
      · by_contra h4
        have hnew := (Keyed.free_iff.mp hfree).2 _ (List.mem_singleton_self _)
        simp only [singleRow, IndexRow.key, number, Bool.of_not_eq_false h4, if_true] at hnew
        exact hnew h
    have hrow : singleRow req w.nextMsgId (number fails w 4 req.receiverId) ∈
        (send fails w req).state.index.rows := by
      rw [hindex, inserted_of_free h5 hfree]
      exact List.mem_append_right _ (List.mem_singleton_self _)
    refine ⟨?_, ?_⟩
    · intro _ u hu
      rw [recipients, if_neg hsingle] at hu
      obtain rfl := List.mem_singleton.mp hu
      refine ⟨_, hrow, rfl, by rw [hvalue]; rfl, ?_⟩
      simp [singleRow, number, h4]
    · intro addr u s msgType hmem
      obtain ⟨rfl, rfl⟩ := Prod.mk.inj (List.mem_singleton.mp (hpushed addr u s msgType hmem))
      exact ⟨_, hrow, rfl, rfl⟩

theorem noticed_single (hw : Fresh w) (h : Acknowledged w req (send fails w req)) :
    fails 4 = false ∨ fails 5 = true ∨ (req.receiverId, 0) ∈ w.index.rows.map IndexRow.key := by
  by_contra hlost
  push Not at hlost
  obtain ⟨h4, h5, hnew⟩ := hlost
  have hzero : number fails w 4 req.receiverId = 0 := by
    simp [number, Bool.of_not_eq_false h4]
  have hfree : w.index.Free [singleRow req w.nextMsgId (number fails w 4 req.receiverId)] := by
    refine Keyed.free_iff.mpr ⟨List.nodup_singleton _, ?_⟩
    intro r hr
    obtain rfl := List.mem_singleton.mp hr
    rw [hzero]
    exact hnew
  obtain ⟨hvalue, hindex, -⟩ := send_single hsingle h0 h1 h2 hmay
  have hok : insertedOk fails w 5
      [singleRow req w.nextMsgId (number fails w 4 req.receiverId)] = true := by
    obtain ⟨index, hinsert, -⟩ := Keyed.insert_of_free hfree
    simp [insertedOk, Bool.of_not_eq_true h5, hinsert]
  rw [hok] at hvalue
  obtain ⟨r, hr, -, hid, hseq⟩ := h.stored (by rw [hvalue]; rfl) req.receiverId (by
    rw [recipients, if_neg hsingle]
    exact List.mem_singleton_self _)
  rw [hvalue] at hid
  rw [hindex] at hr
  obtain ⟨-, -, hmem⟩ := mem_inserted_of_fresh hw hr (Int.ofNat_le.mp (Int.le_of_eq hid.symm))
  obtain rfl := List.mem_singleton.mp hmem
  have hpos : 1 ≤ number fails w 4 req.receiverId := hseq
  omega

end Single

end Send

theorem acknowledged_of_noticed {fails : ℕ → Bool} {w : World} {req : SendMessageReq}
    (h : Noticed fails w req) : Acknowledged w req (send fails w req) := by
  by_cases hfails : fails 0 = true ∨ fails 1 = true ∨ fails 2 = true
  · obtain ⟨hfailed, hpushed⟩ : (send fails w req).value.2.success = false ∧
        PushedOnly [] (send fails w req).issued := (send_of_fails hfails).2
    exact acknowledged_of_failure hfailed hpushed
  obtain ⟨h0, h1, h2⟩ : fails 0 = false ∧ fails 1 = false ∧ fails 2 = false := by
    simpa using hfails
  by_cases hgroup : 0 < req.groupId
  · simp only [Noticed, h0, h1, h2, Bool.false_eq_true, false_or, if_pos hgroup] at h
    by_cases hempty : w.membersOf req.groupId = []
    · exact acknowledged_group_empty hgroup h0 h1 h2 hempty
    · obtain ⟨h3, hincr, hlast, hnew⟩ := h.resolve_left hempty
      exact acknowledged_group hgroup h0 h1 h2 hempty h3 hincr hlast hnew
  · simp only [Noticed, h0, h1, h2, Bool.false_eq_true, false_or, if_neg hgroup] at h
    cases hmay : maySend (isFriend (if fails 3 then none
        else some (w.statusOf req.senderId req.receiverId))) req.type with
    | false =>
      obtain ⟨hfailed, hpushed⟩ := send_single_refused hgroup h0 h1 h2 hmay
      exact acknowledged_of_failure hfailed hpushed
    | true => exact acknowledged_single hgroup h0 h1 h2 hmay (h.resolve_left (by simp [hmay]))

theorem noticed_of_acknowledged {fails : ℕ → Bool} {w : World} {req : SendMessageReq}
    (hw : Fresh w) (h : Acknowledged w req (send fails w req)) : Noticed fails w req := by
  by_cases hfails : fails 0 = true ∨ fails 1 = true ∨ fails 2 = true
  · exact hfails.imp id fun hfails ↦ hfails.imp id .inl
  obtain ⟨h0, h1, h2⟩ : fails 0 = false ∧ fails 1 = false ∧ fails 2 = false := by
    simpa using hfails
  by_cases hgroup : 0 < req.groupId
  · simp only [Noticed, h0, h1, h2, Bool.false_eq_true, false_or, if_pos hgroup]
    by_cases hempty : w.membersOf req.groupId = []
    · exact .inl hempty
    · exact .inr (noticed_group hgroup h0 h1 h2 hw h hempty)
  · simp only [Noticed, h0, h1, h2, Bool.false_eq_true, false_or, if_neg hgroup]
    cases hmay : maySend (isFriend (if fails 3 then none
        else some (w.statusOf req.senderId req.receiverId))) req.type with
    | false => exact .inl rfl
    | true => exact .inr (noticed_single hgroup h0 h1 h2 hmay hw h)

/-- A reply of success can be trusted exactly when no failure goes unnoticed. -/
theorem acknowledged_iff (fails : ℕ → Bool) (w : World) (req : SendMessageReq) :
    (Noticed fails w req → Acknowledged w req (send fails w req)) ∧
      (Fresh w → Acknowledged w req (send fails w req) → Noticed fails w req) :=
  ⟨acknowledged_of_noticed, noticed_of_acknowledged⟩

def pair : World := ⟨[], 1, .empty, ⟨[⟨1, 2⟩, ⟨1, 3⟩], by decide⟩, .empty, .empty, []⟩

def toPair : SendMessageReq := { senderId := 3, groupId := 1 }

/-- A push may fail, a sequence number may not. -/
theorem acknowledged_iff_pair :
    Acknowledged pair toPair (send (fun n ↦ n = 7) pair toPair) ∧
      ¬ Acknowledged pair toPair (send (fun n ↦ n = 5) pair toPair) := by
  refine ⟨(acknowledged_iff _ pair toPair).1 (by decide), ?_⟩
  intro h
  exact absurd ((acknowledged_iff _ pair toPair).2 (fun _ hr ↦ absurd hr List.not_mem_nil) h) (by decide)

/-- The batch `INSERT` fails and the reply is a success. -/
theorem not_acknowledged :
    ¬ ∀ (fails : ℕ → Bool) (w : World) (req : SendMessageReq),
      Acknowledged w req (send fails w req) := by
  intro h
  obtain ⟨r, hr, -⟩ := (h (fun n ↦ n = 6) pair toPair).stored rfl 2 (by decide)
  exact absurd hr List.not_mem_nil

end TinyIM.Chat.Acknowledgement
