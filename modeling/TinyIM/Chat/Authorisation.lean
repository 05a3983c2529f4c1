import TinyIM.Chat.InboxSequence
import TinyIM.Gateway.Dispatch

namespace TinyIM.Chat.Authorisation

open Library.ByteOrder Library.Transition Library.Program Library.Interleaving Library.Table
  Protocol Store Gateway Gateway.Dispatch InboxSequence

/-- A message from a session, as the gateway has parsed its frame, or from
`RelationServiceImpl`. -/
inductive Sending
  | frame (s : Session) (req : SendMessageReq)
  | internal (req : SendMessageReq)

/-- What `SendMessage` is called with: the gateway overrides the sender. -/
def Sending.sent : Sending → SendMessageReq
  | frame s req => Rpc.sendMessage.setActingId s.userId req
  | internal req => req

/-- The stores, the state in which each call has looked up the relation or the
members, and the rows that each call has inserted. -/
structure Observed where
  world : World
  checked : ℕ → Option World
  inserted : List (ℕ × IndexRow)

inductive Event
  | tables (members : Keyed MemberRow.key) (relations : Keyed RelationRow.key)
  | tick (clock : Bytes)

def exec (i : ℕ) (env : Env) (s : Observed) : (c : Command) → Observed × Answer c
  | .selectMembers _ => ({ s with checked := Function.update s.checked i (some s.world) }, env.members)
  | .selectRelation userId friendId =>
    ({ s with checked := Function.update s.checked i (some s.world) },
      (s.world.perform env.ok (.selectRelation userId friendId)).2)
  | .insertIndex rows =>
    let r := s.world.perform env.ok (.insertIndex rows)
    ({ s with
        world := r.1
        inserted := if r.2 then s.inserted ++ rows.map fun row ↦ (i, row) else s.inserted }, r.2)
  | c => ({ s with world := (s.world.perform env.ok c).1 }, (s.world.perform env.ok c).2)

def outside : Event → Observed → Option Observed
  | .tables members relations, s =>
    some { s with world := { s.world with members := members, relations := relations } }
  | .tick clock, s => some { s with world := { s.world with clock := clock } }

/-- What a call has learnt about its right to send. -/
inductive Check
  | unasked
  | relation (friend : Bool)
  | members (some : Bool)
  deriving DecidableEq

def learnt : Check → (c : Command) → Answer c → Check
  | _, .selectRelation _ _, status => .relation (isFriend status)
  | _, .selectMembers _, found => .members (found.getD [] ≠ [])
  | t, _, _ => t

/-- A call looks up the relation or the members once, and inserts only rows for
the receiver or the group that it has looked up. -/
def checksFirst (r : Sending) : Contract Command Answer Check where
  may t
    | .selectRelation userId friendId => t = .unasked ∧ userId = r.sent.senderId ∧
      friendId = r.sent.receiverId
    | .selectMembers _ => t = .unasked
    | .insertIndex rows =>
      if 0 < r.sent.groupId then t = .members true ∧ ∀ row ∈ rows, row.otherId = r.sent.groupId
      else (∃ friend, t = .relation friend ∧ maySend friend r.sent.type) ∧
        ∀ row ∈ rows, row.ownerId = r.sent.receiverId
    | _ => True
  answers _ _ _ := True
  after := learnt

def system : System Command Answer Reply Check Observed Sending Env Event where
  contract := ⟨fun _ _ ↦ True, fun _ _ _ ↦ True, learnt⟩
  fresh := .unasked
  start r := sendMessage r.sent
  exec := exec
  outside := outside

abbrev Calls := Served Command Answer Reply Check Observed Sending

abbrev Step := Library.Interleaving.Action Sending Env Event

def start (members : Keyed MemberRow.key) (relations : Keyed RelationRow.key) (r : Redis) : Calls :=
  ⟨⟨⟨⟨[], 1, .empty, members, relations, r, []⟩, fun _ ↦ none, []⟩, []⟩, []⟩

/-- A row that a message of user `a` has put into an inbox: at the time of the
check the user was a member of the group or a friend of the receiver. -/
def Authorised (s : Observed) (i : ℕ) (a : ℤ) (req : SendMessageReq) (row : IndexRow) : Prop :=
  ∃ w, s.checked i = some w ∧
    if 0 < req.groupId then a ∈ w.membersOf row.otherId
    else w.statusOf a row.ownerId = some 1

def OnlyAuthorised (s : Calls) : Prop :=
  ∀ i session req row, s.requests[i]? = some (.frame session req) →
    (i, row) ∈ s.pool.world.inserted → Authorised s.pool.world i session.userId req row

/-- A frame of a type that is exempt from the check goes to a friend, and a
group with members that a frame names has its sender as a member. -/
def Vetted (s : Calls) : Step → Prop
  | .step i env => ∀ session req t, s.requests[i]? = some (.frame session req) →
      (∀ u v k, s.pool.threads[i]? = some ⟨.call (.selectRelation u v) k, t⟩ →
        maySend false req.type →
          s.pool.world.world.statusOf session.userId req.receiverId = some 1) ∧
      (∀ g k, s.pool.threads[i]? = some ⟨.call (.selectMembers g) k, t⟩ →
        env.members.getD [] ≠ [] → session.userId ∈ s.pool.world.world.membersOf req.groupId)
  | _ => True

theorem forwarded_frame (e : Endian) (pb : Codec) (out : Surroundings) (s : Session) {p : Packet}
    {req : SendMessageReq} (hcmd : p.cmdId = CommandID.msgSendReq.value)
    (hparse : pb.parse .sendMessage p.body = some req) :
    forwarded (handlePacket e pb out s p).effects =
      [⟨.sendMessage, (Sending.frame s req).sent⟩] := by
  have hreq : Dispatch.Request.ofCmd p.cmdId = some (.rpc .sendMessage) :=
    Dispatch.Request.ofCmd_eq_some.mpr hcmd.symm
  rw [forwarded_handlePacket, hreq]
  simp only [incoming, hparse]
  rfl

section Contract

variable {r : Sending} {t : Check}

theorem nextSeq_meets (userId : ℤ) :
    Meets (checksFirst r) (fun t' _ ↦ t' = t) t (nextSeq userId) :=
  meets_perform_bind.mpr ⟨trivial, fun _ _ ↦ rfl⟩

theorem drawSeqs_meets (members : List ℤ) :
    Meets (checksFirst r) (fun t' _ ↦ t' = t) t (drawSeqs members) := by
  induction members with
  | nil => exact rfl
  | cons m members ih =>
    refine meets_bind.mpr ((nextSeq_meets m).mono ?_)
    intro _ n heq
    subst heq
    exact meets_bind.mpr (ih.mono fun _ _ heq ↦ heq)

theorem allowsPush (targets : List (ℤ × ℕ)) : AllowsPush (checksFirst r) targets where
  may _ := ⟨fun _ ↦ ⟨trivial, trivial⟩, fun _ _ _ _ ↦ trivial⟩
  after _ := ⟨fun _ _ ↦ rfl, fun _ _ ↦ rfl, fun _ _ _ _ _ ↦ rfl⟩

theorem fanOut_meets (hgroup : 0 < r.sent.groupId) (msgId : ℕ) {members : List ℤ}
    (ht : t = .members (members ≠ [])) :
    Meets (checksFirst r) (fun _ _ ↦ True) t (fanOut r.sent msgId members) := by
  unfold fanOut
  split_ifs with hmembers
  · exact trivial
  · refine meets_bind.mpr ((drawSeqs_meets members).mono ?_)
    intro _ targets heq
    subst heq
    refine meets_perform_bind.mpr ⟨?_, ?_⟩
    · simp only [checksFirst, if_pos hgroup]
      refine ⟨by simp [ht, hmembers], ?_⟩
      intro row hrow
      obtain ⟨x, -, rfl⟩ := List.mem_map.mp hrow
      rfl
    · intro inserted _
      refine meets_bind.mpr ((pushTargets_meets _ (allowsPush targets) fun _ h ↦ h).mono ?_)
      intro _ _ _
      exact trivial

theorem sendSingle_meets (hsingle : ¬ 0 < r.sent.groupId) (msgId : ℕ) :
    Meets (checksFirst r) (fun _ _ ↦ True) .unasked (sendSingle r.sent msgId) := by
  refine meets_perform_bind.mpr ⟨⟨rfl, rfl, rfl⟩, ?_⟩
  intro status _
  split_ifs with hmay
  · refine meets_bind.mpr ((nextSeq_meets _).mono ?_)
    intro _ seq heq
    subst heq
    refine meets_perform_bind.mpr ⟨?_, ?_⟩
    · simp only [checksFirst, if_neg hsingle]
      refine ⟨⟨isFriend status, rfl, hmay⟩, ?_⟩
      intro row hrow
      obtain rfl := List.mem_singleton.mp hrow
      rfl
    · intro inserted _
      unfold finishSingle
      split_ifs
      · refine meets_bind.mpr ((push_meets (allowsPush [(r.sent.receiverId, seq)]) ?_ _ _).mono ?_)
        · exact List.mem_singleton_self _
        · intro _ _ _
          exact trivial
      · exact trivial
  · exact trivial

theorem sendMessage_meets (r : Sending) :
    Meets (checksFirst r) (fun _ _ ↦ True) .unasked (sendMessage r.sent) := by
  refine meets_sendMessage ⟨trivial, fun _ ↦ rfl⟩ ⟨trivial, fun _ ↦ rfl⟩ trivial trivial trivial ?_ ?_
  · intro msgId hgroup
    exact meets_perform_bind.mpr ⟨rfl, fun _ _ ↦ fanOut_meets hgroup msgId rfl⟩
  · exact fun msgId hsingle ↦ sendSingle_meets hsingle msgId

end Contract

/-- What a call of a frame has learnt was true when it learnt it, as far as it
lets the call go on. -/
structure Vouched (s : Observed) (requests : List Sending) (checks : List Check) : Prop where
  relation : ∀ (i : ℕ) (session : Session) (req : SendMessageReq) (friend : Bool),
    requests[i]? = some (.frame session req) → checks[i]? = some (.relation friend) →
      maySend friend req.type →
        ∃ w, s.checked i = some w ∧ w.statusOf session.userId req.receiverId = some 1
  members : ∀ (i : ℕ) (session : Session) (req : SendMessageReq),
    requests[i]? = some (.frame session req) → checks[i]? = some (.members true) →
      ∃ w, s.checked i = some w ∧ session.userId ∈ w.membersOf req.groupId
  rows : ∀ (i : ℕ) (session : Session) (req : SendMessageReq) (row : IndexRow),
    requests[i]? = some (.frame session req) → (i, row) ∈ s.inserted →
      Authorised s i session.userId req row
  asked : ∀ (i : ℕ) (row : IndexRow), (i, row) ∈ s.inserted →
    ∃ t, checks[i]? = some t ∧ t ≠ .unasked

section Vouched

variable {s s' : Observed} {requests : List Sending} {checks : List Check} {i : ℕ} {env : Env}

theorem Vouched.congr (h : Vouched s requests checks) (hchecked : s'.checked = s.checked)
    (hinserted : s'.inserted = s.inserted) : Vouched s' requests checks := by
  obtain ⟨world, checked, inserted⟩ := s'
  obtain rfl : checked = s.checked := hchecked
  obtain rfl : inserted = s.inserted := hinserted
  exact ⟨h.relation, h.members, h.rows, h.asked⟩

theorem Vouched.spawn {r : Sending} (h : Vouched s requests checks)
    (hlen : requests.length = checks.length) :
    Vouched s (requests ++ [r]) (checks ++ [.unasked]) := by
  have hold : ∀ {j : ℕ} {r' : Sending} {t : Check}, (requests ++ [r])[j]? = some r' →
      (checks ++ [.unasked])[j]? = some t → t ≠ .unasked →
        requests[j]? = some r' ∧ checks[j]? = some t := by
    intro j r' t hr ht hne
    rcases getElem?_concat_some ht with ht | ⟨-, rfl⟩
    · rcases getElem?_concat_some hr with hr | ⟨hj, -⟩
      · exact ⟨hr, ht⟩
      · rw [hj, hlen] at ht
        simp at ht
    · exact absurd rfl hne
  refine ⟨?_, ?_, ?_, ?_⟩
  · intro j session req friend hr ht
    obtain ⟨hr, ht⟩ := hold hr ht nofun
    exact h.relation j session req friend hr ht
  · intro j session req hr ht
    obtain ⟨hr, ht⟩ := hold hr ht nofun
    exact h.members j session req hr ht
  · intro j session req row hr hrow
    obtain ⟨t, ht, hne⟩ := h.asked j row hrow
    have ht' := getElem?_append_of_some ht [.unasked]
    exact h.rows j session req row (hold hr ht' hne).1 hrow
  · intro j row hrow
    obtain ⟨t, ht, hne⟩ := h.asked j row hrow
    exact ⟨t, getElem?_append_of_some ht _, hne⟩

/-- A call makes its check, and what it learns holds now. -/
theorem Vouched.check {t : Check} (h : Vouched s requests checks)
    (hi : checks[i]? = some .unasked) (hne : t ≠ .unasked)
    (hrelation : ∀ session req friend, requests[i]? = some (.frame session req) →
      t = .relation friend → maySend friend req.type →
        s.world.statusOf session.userId req.receiverId = some 1)
    (hmembers : ∀ session req, requests[i]? = some (.frame session req) → t = .members true →
      session.userId ∈ s.world.membersOf req.groupId) :
    Vouched { s with checked := Function.update s.checked i (some s.world) } requests
      (checks.set i t) := by
  have hself : Function.update s.checked i (some s.world) i = some s.world := Function.update_self ..
  have hother : ∀ {j : ℕ}, j ≠ i → Function.update s.checked i (some s.world) j = s.checked j :=
    fun hj ↦ Function.update_of_ne hj _ _
  refine ⟨?_, ?_, ?_, ?_⟩
  · intro j session req friend hr ht hmay
    rcases getElem?_set_cases ht with ⟨rfl, heq⟩ | ⟨hj, ht⟩
    · exact ⟨s.world, hself, hrelation session req friend hr heq.symm hmay⟩
    · obtain ⟨w, hw, hstatus⟩ := h.relation j session req friend hr ht hmay
      exact ⟨w, (hother hj).trans hw, hstatus⟩
  · intro j session req hr ht
    rcases getElem?_set_cases ht with ⟨rfl, heq⟩ | ⟨hj, ht⟩
    · exact ⟨s.world, hself, hmembers session req hr heq.symm⟩
    · obtain ⟨w, hw, hmem⟩ := h.members j session req hr ht
      exact ⟨w, (hother hj).trans hw, hmem⟩
  · intro j session req row hr hrow
    obtain ⟨t', ht', hne'⟩ := h.asked j row hrow
    have hj : j ≠ i := by
      intro heq
      subst heq
      exact hne' (Option.some.inj (ht'.symm.trans hi))
    obtain ⟨w, hw, hauthorised⟩ := h.rows j session req row hr hrow
    exact ⟨w, (hother hj).trans hw, hauthorised⟩
  · intro j row hrow
    obtain ⟨t', ht', hne'⟩ := h.asked j row hrow
    by_cases hj : j = i
    · subst hj
      exact ⟨t, List.getElem?_set_self (List.getElem?_eq_some_iff.mp hi).1, hne⟩
    · exact ⟨t', (List.getElem?_set_ne (Ne.symm hj)).trans ht', hne'⟩

theorem Vouched.authorised {session : Session} {req : SendMessageReq} {t : Check}
    {rows : List IndexRow} {row : IndexRow} (h : Vouched s requests checks)
    (hr : requests[i]? = some (.frame session req)) (hi : checks[i]? = some t)
    (hmay : (checksFirst (.frame session req)).may t (.insertIndex rows)) (hrow : row ∈ rows) :
    Authorised s i session.userId req row := by
  have hmay' : if 0 < req.groupId then t = .members true ∧ ∀ row ∈ rows, row.otherId = req.groupId
      else (∃ friend, t = .relation friend ∧ maySend friend req.type) ∧
        ∀ row ∈ rows, row.ownerId = req.receiverId := hmay
  by_cases hgroup : 0 < req.groupId
  · rw [if_pos hgroup] at hmay'
    obtain ⟨rfl, hother⟩ := hmay'
    obtain ⟨w, hw, hmem⟩ := h.members i session req hr hi
    refine ⟨w, hw, ?_⟩
    rw [if_pos hgroup, hother row hrow]
    exact hmem
  · rw [if_neg hgroup] at hmay'
    obtain ⟨⟨friend, rfl, hsend⟩, howner⟩ := hmay'
    obtain ⟨w, hw, hstatus⟩ := h.relation i session req friend hr hi hsend
    refine ⟨w, hw, ?_⟩
    rw [if_neg hgroup, howner row hrow]
    exact hstatus

theorem Vouched.insert {r : Sending} {t : Check} {rows : List IndexRow} (w : World) (ok : Bool)
    (h : Vouched s requests checks) (hr : requests[i]? = some r) (hi : checks[i]? = some t)
    (hmay : (checksFirst r).may t (.insertIndex rows)) :
    Vouched { s with
      world := w
      inserted := if ok then s.inserted ++ rows.map fun row ↦ (i, row) else s.inserted }
      requests checks := by
  have hcase : ∀ {j : ℕ} {row : IndexRow},
      (j, row) ∈ (if ok then s.inserted ++ rows.map fun row ↦ (i, row) else s.inserted) →
        (j, row) ∈ s.inserted ∨ (j = i ∧ row ∈ rows) := by
    intro j row hrow
    split_ifs at hrow
    · rcases List.mem_append.mp hrow with hrow | hrow
      · exact .inl hrow
      · obtain ⟨row', hrow', heq⟩ := List.mem_map.mp hrow
        obtain ⟨rfl, rfl⟩ := Prod.mk.inj heq
        exact .inr ⟨rfl, hrow'⟩
    · exact .inl hrow
  refine ⟨h.relation, h.members, ?_, ?_⟩
  · intro j session req row hr' hrow
    rcases hcase hrow with hold | ⟨rfl, hnew⟩
    · exact h.rows j session req row hr' hold
    · obtain rfl := Option.some.inj (hr.symm.trans hr')
      exact h.authorised hr hi hmay hnew
  · intro j row hrow
    rcases hcase hrow with hold | ⟨rfl, -⟩
    · exact h.asked j row hold
    · refine ⟨t, hi, ?_⟩
      intro heq
      subst heq
      by_cases hgroup : 0 < r.sent.groupId
      · simp [checksFirst, hgroup] at hmay
      · simp [checksFirst, hgroup] at hmay

theorem statusOf_of_friend {w : World} {ok : Bool} {a b : ℤ}
    (h : isFriend (w.perform ok (.selectRelation a b)).2 = true) : w.statusOf a b = some 1 := by
  cases ok with
  | false => exact absurd (show isFriend none = true from h) (by decide)
  | true => exact Option.some.inj (of_decide_eq_true h)

theorem Vouched.exec {c : Command} {k : Answer c → Handler Reply} {t : Check} {r : Sending} {p : Calls}
    (h : Vouched p.pool.world p.requests p.pool.accounts) (hok : Vetted p (.step i env))
    (hi : p.pool.threads[i]? = some ⟨.call c k, t⟩) (hr : p.requests[i]? = some r)
    (hmay : (checksFirst r).may t c) :
    Vouched (exec i env p.pool.world c).1 p.requests
      (p.pool.accounts.set i (learnt t c (exec i env p.pool.world c).2)) := by
  have hget := Pool.accounts_of_threads hi
  cases c with
  | selectRelation u v =>
    obtain ⟨rfl, rfl, rfl⟩ := hmay
    refine h.check hget nofun ?_ nofun
    intro session req friend hr' hlearnt hsend
    obtain rfl := Option.some.inj (hr.symm.trans hr')
    cases friend with
    | false => exact (hok session req _ hr').1 _ _ k hi hsend
    | true => exact statusOf_of_friend (Check.relation.inj hlearnt)
  | selectMembers g =>
    obtain rfl := hmay
    refine h.check hget nofun nofun ?_
    intro session req hr' hlearnt
    refine (hok session req _ hr').2 g k hi ?_
    exact of_decide_eq_true (Check.members.inj hlearnt)
  | insertIndex rows =>
    have hsame : p.pool.accounts.set i t = p.pool.accounts := set_of_getElem? hget
    have hinsert := h.insert (p.pool.world.world.perform env.ok (.insertIndex rows)).1
      (p.pool.world.world.perform env.ok (.insertIndex rows)).2 hr hget hmay
    rw [show learnt t (.insertIndex rows) _ = t from rfl, hsame]
    exact hinsert
  | _ =>
    rw [show learnt t _ _ = t from rfl, set_of_getElem? hget]
    exact h.congr rfl rfl

end Vouched

/-- In a run in which the frames are vetted, only authorised messages reach an
inbox. -/
theorem only_authorised {members : Keyed MemberRow.key} {relations : Keyed RelationRow.key}
    {r : Redis} {s : Calls} (h : Reach system.serve Vetted (start members relations r) s) :
    OnlyAuthorised s := by
  have hinv := System.serve_invariant (K := checksFirst) (Q := fun _ _ _ ↦ True) (J := Vouched)
    (fun _ ↦ rfl) ?start ?spawn ?exec ?outside h ⟨Served.keeps_nil _, ⟨?_, ?_, ?_, ?_⟩⟩
  · exact hinv.2.rows
  case start =>
    intro _ r _
    exact sendMessage_meets r
  case spawn =>
    intro s r _ hlen hJ
    exact hJ.spawn hlen
  case exec =>
    intro s i env c k t r hok hi hr hmay hJ
    exact ⟨trivial, hJ.exec hok hi hr hmay⟩
  case outside =>
    intro s o w _ hw hJ
    cases o with
    | tables members relations =>
      obtain rfl := Option.some.inj hw
      exact hJ.congr rfl rfl
    | tick clock =>
      obtain rfl := Option.some.inj hw
      exact hJ.congr rfl rfl
  · intro i session req friend hr
    cases hr
  · intro i session req hr
    cases hr
  · intro i session req row hr
    cases hr
  · intro i row hrow
    cases hrow

/-- A message from a PC of user `a`, up to the insertion of its row. -/
def singleSend (a : ℤ) (req : SendMessageReq) : List Step :=
  .spawn (.frame ⟨a, ascii "PC"⟩ req) :: List.replicate 6 (.step 0 ⟨true, none⟩)

theorem only_authorised_friend :
    ∃ s : Calls, OnlyAuthorised s ∧ s.pool.world.inserted = [(0, ⟨2, 1, 1, 1, 0⟩)] := by
  let calm : Calls → Step → Prop := fun s a ↦
    (match a with
      | .step _ env => env.members.isNone && s.requests.all fun r ↦ !maySend false r.sent.type
      | _ => true) = true
  have hcalm : Reach system.serve calm (start .empty friendsOfTwo .empty) _ :=
    reach_of_exec (singleSend 1 { receiverId := 2, type := 1 }) rfl
  have hok : ∀ s a, calm s a → Vetted s a := by
    intro s a ha
    unfold Vetted
    split
    · obtain ⟨hnone, hall⟩ := Bool.and_eq_true_iff.mp ha
      intro session req t hr
      refine ⟨?_, ?_⟩
      · intro u v k hi hsend
        have hexempt := List.all_eq_true.mp hall _ (List.mem_of_getElem? hr)
        have hsend' : maySend false (Sending.frame session req).sent.type = true := hsend
        rw [hsend'] at hexempt
        cases hexempt
      · intro g k hi hmembers
        rw [Option.isNone_iff_eq_none.mp hnone] at hmembers
        exact absurd rfl hmembers
    · trivial
  exact ⟨_, only_authorised (hcalm.mono hok), rfl⟩

/-- A SYSTEM message from a client reaches a user who is no friend. -/
theorem not_only_authorised :
    ¬ ∀ s : Calls, Reach system.serve anyStep (start .empty friendsOfTwo .empty) s →
      OnlyAuthorised s := by
  intro h
  obtain ⟨s, hrun, hrequest, hrow, hstatus⟩ : ∃ s : Calls,
      Reach system.serve anyStep (start .empty friendsOfTwo .empty) s ∧
      s.requests[0]? = some (.frame ⟨5, ascii "PC"⟩ { receiverId := 2, type := 3 }) ∧
      (0, ⟨2, 5, 1, 1, 0⟩) ∈ s.pool.world.inserted ∧
      (s.pool.world.checked 0).map (fun w ↦ w.statusOf 5 2) = some none := by
    refine exists_reach_of_exec (singleSend 5 { receiverId := 2, type := 3 }) ⟨_, rfl, rfl, ?_, ?_⟩ <;>
      decide +kernel
  obtain ⟨w, hw, hauthorised⟩ := h s hrun 0 _ _ _ hrequest hrow
  rw [hw] at hstatus
  exact absurd (hauthorised.symm.trans (Option.some.inj hstatus)) (by decide)

end TinyIM.Chat.Authorisation
