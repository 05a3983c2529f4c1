import TinyIM.Relation.AddressedRequests

namespace TinyIM.Relation.PendingRequests

open Library.ByteOrder Library.Transition Library.Program Library.Interleaving Library.Journal Library.Table
  Protocol Chat RelationService AddressedRequests
open Friendship (stored)

section Journals

variable (userId friendId : ℤ)

/-- The rows of `im_friend_request` for a pair with status 0. -/
def pendingRows (w : Tables) : List (ℕ × FriendRequestRow) :=
  w.friendRequests.rows.filter fun r ↦ r.2.userId = userId ∧ r.2.friendId = friendId ∧ r.2.status = 0

/-- The call has found no pending request, and has not inserted its own yet. -/
def checked (l : List RelationExchange) : Bool :=
  match l.getLast? with
  | some ⟨.friend (.selectPending u f), some false⟩ => u = userId ∧ f = friendId
  | _ => false

def inserted (l : List RelationExchange) : Prop :=
  ∃ remark applyId, ⟨.friend (.insertRequest userId friendId remark), some applyId⟩ ∈ l

end Journals

def application : Request → Option ApplyFriendReq
  | .applyFriend req => some req
  | _ => none

/-- Calls of `ApplyFriend` with ids that the unsigned columns take, and no MySQL
error. -/
def Faultless (_ : RelationCalls) : Step → Prop
  | .spawn r => ∃ req ∈ application r, 0 ≤ req.userId ∧ 0 ≤ req.friendId
  | .step _ ok => ok = true
  | .outside _ => True

/-- The pair that a command looks for. -/
def checks : RelationService.Command → Option (ℤ × ℤ)
  | .friend (.selectPending userId friendId) => some (userId, friendId)
  | _ => none

/-- No call checks a pair while another one stands between its own check of that
pair and its insert. -/
def Exclusive (s : RelationCalls) : Step → Prop
  | .step i _ => ∀ c ∈ s.pool.command i, ∀ pair ∈ checks c, ∀ l ∈ s.pool.accounts, checked pair.1 pair.2 l = false
  | _ => True

def Serial (s : RelationCalls) (a : Step) : Prop := Faultless s a ∧ Exclusive s a

instance (s : RelationCalls) : (a : Step) → Decidable (Faultless s a)
  | .spawn r => inferInstanceAs (Decidable (∃ req ∈ application r, _))
  | .step _ ok => inferInstanceAs (Decidable (ok = true))
  | .outside _ => isTrue trivial

instance (s : RelationCalls) : (a : Step) → Decidable (Exclusive s a)
  | .spawn _ => isTrue trivial
  | .step i _ => inferInstanceAs (Decidable (∀ c ∈ s.pool.command i, ∀ pair ∈ checks c, ∀ l ∈ s.pool.accounts, _))
  | .outside _ => isTrue trivial

instance (s : RelationCalls) (a : Step) : Decidable (Serial s a) :=
  inferInstanceAs (Decidable (_ ∧ _))

theorem eq_of_application {r : Request} {req : ApplyFriendReq} (h : req ∈ application r) :
    r = .applyFriend req := by
  cases r with
  | applyFriend req' =>
    obtain rfl := Option.some.inj h
    rfl
  | _ => cases h

section Contract

/-- A call inserts the request of its pair right after it has found none, and
succeeds only if the insert has. -/
def applying (req : ApplyFriendReq) :
    Contract RelationService.Command RelationService.Answer (List RelationExchange) where
  may l
    | .friend (.insertRequest userId friendId _) =>
      userId = req.userId ∧ friendId = req.friendId ∧ checked userId friendId l = true
    | _ => True
  answers _
    | .friend (.selectPending _ _), found => found ≠ none
    | _, _ => True
  after := (keeping _ _).after

def Applied (req : ApplyFriendReq) (l : List RelationExchange) : Outcome → Prop
  | .friendApplied (_, resp) => resp.success = true → inserted req.userId req.friendId l
  | _ => True

theorem applyFriend_applying (req : ApplyFriendReq) :
    Meets (applying req) (Applied req) [] (Request.applyFriend req).program := by
  refine meets_bind.mpr (meets_lift.mpr ?_)
  rw [FriendService.applyFriend]
  split_ifs with hself
  · exact fun h ↦ absurd h Bool.false_ne_true
  · refine meets_perform_bind.mpr ⟨trivial, ?_⟩
    intro valid _
    split
    · exact fun h ↦ absurd h Bool.false_ne_true
    · refine meets_perform_bind.mpr ⟨trivial, ?_⟩
      intro pending hpending
      split
      · exact fun h ↦ absurd h Bool.false_ne_true
      · next hfound =>
        obtain rfl : pending = some false := by
          cases pending with
          | none => exact absurd rfl hpending
          | some found =>
            cases found with
            | false => rfl
            | true => exact absurd rfl hfound
        refine meets_perform_bind.mpr ⟨⟨rfl, rfl, decide_eq_true ⟨rfl, rfl⟩⟩, ?_⟩
        intro applyId _
        cases applyId with
        | none => exact fun h ↦ absurd h Bool.false_ne_true
        | some applyId =>
          refine meets_perform_bind.mpr ⟨trivial, fun _ _ _ ↦ ⟨req.remark, applyId, ?_⟩⟩
          exact List.mem_append_left _ (List.mem_append_right _ (List.mem_singleton_self _))

end Contract

section Invariant

variable {w w' : Tables} {userId friendId : ℤ} {l : List RelationExchange}

theorem pendingRows_insert (userId friendId u f : ℤ) (remark : Bytes)
    (h : w'.friendRequests = w.friendRequests.insert ⟨u, f, remark, 0⟩) :
    pendingRows userId friendId w' = pendingRows userId friendId w ++
      if u = userId ∧ f = friendId then [(w.friendRequests.next, ⟨u, f, remark, 0⟩)] else [] := by
  rw [pendingRows, h, Numbered.insert, List.filter_append]
  refine congrArg _ ?_
  split_ifs with hpair <;> simp [hpair]

theorem checked_concat {x : RelationExchange} (h : checked userId friendId (l ++ [x]) = true) :
    x = ⟨.friend (.selectPending userId friendId), some false⟩ := by
  rw [checked, List.getLast?_concat] at h
  split at h
  · next u f heq =>
    obtain ⟨rfl, rfl⟩ := of_decide_eq_true h
    exact Option.some.inj heq
  · cases h

theorem inserted_concat {x : RelationExchange} (h : inserted userId friendId (l ++ [x])) :
    inserted userId friendId l ∨
      ∃ remark applyId, x = ⟨.friend (.insertRequest userId friendId remark), some applyId⟩ := by
  obtain ⟨remark, applyId, hmem⟩ := h
  rcases List.mem_append.mp hmem with hmem | hmem
  · exact .inl ⟨remark, applyId, hmem⟩
  · exact .inr ⟨remark, applyId, (List.mem_singleton.mp hmem).symm⟩

/-- At most one call is in such a place. -/
def Sole (p : List RelationExchange → Prop) (accounts : List (List RelationExchange)) : Prop :=
  ∀ (i j : ℕ) l l', accounts[i]? = some l → accounts[j]? = some l' → p l → p l' → i = j

section Sole

variable {p : List RelationExchange → Prop} {accounts : List (List RelationExchange)} {i : ℕ}

theorem Sole.concat (h : Sole p accounts) (hnil : ¬ p []) : Sole p (accounts ++ [[]]) := by
  intro j k l l' hj hk hl hl'
  rcases getElem?_concat_some hj with hj | ⟨-, rfl⟩
  · rcases getElem?_concat_some hk with hk | ⟨-, rfl⟩
    · exact h j k l l' hj hk hl hl'
    · exact absurd hl' hnil
  · exact absurd hl hnil

theorem Sole.set (h : Sole p accounts) (hnew : p l → ∀ j l', j ≠ i → accounts[j]? = some l' → ¬ p l') :
    Sole p (accounts.set i l) := by
  intro j k l₁ l₂ hj hk h₁ h₂
  rcases getElem?_set_cases hj with ⟨rfl, rfl⟩ | ⟨hji, hold⟩
  · rcases getElem?_set_cases hk with ⟨rfl, -⟩ | ⟨hki, hold⟩
    · rfl
    · exact absurd h₂ (hnew h₁ k l₂ hki hold)
  · rcases getElem?_set_cases hk with ⟨rfl, rfl⟩ | ⟨-, hold'⟩
    · exact absurd h₁ (hnew h₂ j l₁ hji hold)
    · exact h j k l₁ l₂ hold hold' h₁ h₂

/-- A call that gets into no such place. -/
theorem Sole.set_of_imp (h : Sole p accounts) {l' : List RelationExchange} (hl : accounts[i]? = some l)
    (hkept : p l' → p l) : Sole p (accounts.set i l') := by
  refine h.set ?_
  intro hp j l₂ hji hj h₂
  exact hji (h j i l₂ l hj hl h₂ (hkept hp))

end Sole

/-- A pair has at most one pending request, and at most one call has found none,
or has inserted one. -/
structure Unique (userId friendId : ℤ) (w : Tables) (accounts : List (List RelationExchange)) : Prop where
  rows : (pendingRows userId friendId w).length ≤ 1
  free : ∀ l ∈ accounts, checked userId friendId l = true → pendingRows userId friendId w = []
  checking : Sole (fun l ↦ checked userId friendId l = true) accounts
  taken : ∀ l ∈ accounts, inserted userId friendId l → pendingRows userId friendId w ≠ []
  inserting : Sole (inserted userId friendId) accounts

section Step

variable {accounts : List (List RelationExchange)} {i : ℕ}

theorem not_inserted_nil : ¬ inserted userId friendId [] := by
  rintro ⟨_, _, h⟩
  exact absurd h List.not_mem_nil

theorem unique_nil (h : (pendingRows userId friendId w).length ≤ 1) : Unique userId friendId w [] where
  rows := h
  free _ hl := absurd hl List.not_mem_nil
  checking i _ _ _ hi := by cases hi
  taken _ hl := absurd hl List.not_mem_nil
  inserting i _ _ _ hi := by cases hi

theorem Unique.spawned (h : Unique userId friendId w accounts) : Unique userId friendId w (accounts ++ [[]]) := by
  refine ⟨h.rows, ?_, h.checking.concat Bool.false_ne_true, ?_, h.inserting.concat not_inserted_nil⟩
  · intro l hl hchecked
    rcases List.mem_append.mp hl with hl | hl
    · exact h.free l hl hchecked
    · obtain rfl := List.mem_singleton.mp hl
      exact absurd hchecked Bool.false_ne_true
  · intro l hl hinserted
    rcases List.mem_append.mp hl with hl | hl
    · exact h.taken l hl hinserted
    · obtain rfl := List.mem_singleton.mp hl
      exact absurd hinserted not_inserted_nil

variable {l' : List RelationExchange}

theorem Unique.taken_set (h : Unique userId friendId w accounts) (hl : accounts[i]? = some l)
    (hinserted : inserted userId friendId l' → inserted userId friendId l) :
    ∀ l₁ ∈ accounts.set i l', inserted userId friendId l₁ → pendingRows userId friendId w ≠ [] := by
  intro l₁ hl₁ h₁
  rcases List.mem_or_eq_of_mem_set hl₁ with hl₁ | rfl
  · exact h.taken l₁ hl₁ h₁
  · exact h.taken l (List.mem_of_getElem? hl) (hinserted h₁)

/-- A command that has nothing to do with the pair. -/
theorem Unique.other (h : Unique userId friendId w accounts) (hl : accounts[i]? = some l)
    (hrows : pendingRows userId friendId w' = pendingRows userId friendId w)
    (hchecked : checked userId friendId l' = false)
    (hinserted : inserted userId friendId l' → inserted userId friendId l) :
    Unique userId friendId w' (accounts.set i l') := by
  refine ⟨hrows ▸ h.rows, ?_, h.checking.set ?_, ?_, h.inserting.set_of_imp hl hinserted⟩
  · intro l₁ hl₁ h₁
    rcases List.mem_or_eq_of_mem_set hl₁ with hl₁ | rfl
    · exact hrows ▸ h.free l₁ hl₁ h₁
    · exact absurd h₁ (hchecked ▸ Bool.false_ne_true)
  · exact fun h₁ ↦ absurd h₁ (hchecked ▸ Bool.false_ne_true)
  · rw [hrows]
    exact h.taken_set hl hinserted

/-- The call finds no pending request, while no other call has. -/
theorem Unique.found (h : Unique userId friendId w accounts) (hl : accounts[i]? = some l)
    (hnone : pendingRows userId friendId w = []) (hfree : ∀ l ∈ accounts, checked userId friendId l = false)
    (hinserted : inserted userId friendId l' → inserted userId friendId l) :
    Unique userId friendId w (accounts.set i l') := by
  refine ⟨h.rows, fun _ _ _ ↦ hnone, h.checking.set ?_, h.taken_set hl hinserted,
    h.inserting.set_of_imp hl hinserted⟩
  intro _ j l₂ _ hj h₂
  exact absurd h₂ (hfree l₂ (List.mem_of_getElem? hj) ▸ Bool.false_ne_true)

/-- The call that has found none inserts its request. -/
theorem Unique.applied (h : Unique userId friendId w accounts) (hl : accounts[i]? = some l)
    (hchecked : checked userId friendId l = true) {row : ℕ × FriendRequestRow}
    (hrows : pendingRows userId friendId w' = pendingRows userId friendId w ++ [row])
    (hafter : checked userId friendId l' = false) : Unique userId friendId w' (accounts.set i l') := by
  have hnone := h.free l (List.mem_of_getElem? hl) hchecked
  rw [hnone, List.nil_append] at hrows
  refine ⟨le_of_eq (congrArg List.length hrows), ?_, h.checking.set ?_, ?_, h.inserting.set ?_⟩
  · intro l₁ hl₁ h₁
    exfalso
    obtain ⟨j, hj⟩ := List.mem_iff_getElem?.mp hl₁
    rcases getElem?_set_cases hj with ⟨-, rfl⟩ | ⟨hji, hj⟩
    · exact absurd h₁ (hafter ▸ Bool.false_ne_true)
    · exact hji (h.checking j i l₁ l hj hl h₁ hchecked)
  · exact fun h₁ ↦ absurd h₁ (hafter ▸ Bool.false_ne_true)
  · intro _ _ _
    rw [hrows]
    exact List.cons_ne_nil row []
  · intro _ j l₂ _ hj h₂
    exact h.taken l₂ (List.mem_of_getElem? hj) h₂ hnone

end Step

theorem pendingRows_eq_nil (h : (w.friendRequests.rows.any fun r ↦
    r.2.userId = userId ∧ r.2.friendId = friendId ∧ r.2.status = 0) = false) :
    pendingRows userId friendId w = [] := by
  rw [List.any_eq_false] at h
  exact List.filter_eq_nil_iff.mpr h

theorem friendRequests_of_succeed {c : RelationService.Command}
    (hc : ∀ u f remark, c ≠ .friend (.insertRequest u f remark)) :
    (w.succeed c).1.friendRequests = w.friendRequests := by
  have hchange := w.succeed_change c
  generalize (w.succeed c).1 = w' at hchange
  cases hchange with
  | friendRequest u f remark => exact absurd rfl (hc u f remark)
  | _ => rfl

theorem succeed_answers (req : ApplyFriendReq) (w : Tables) (l : List RelationExchange) (c : RelationService.Command) :
    (applying req).answers l c (w.succeed c).2 := by
  cases c with
  | friend c =>
    cases c with
    | selectPending u f => exact Option.some_ne_none _
    | _ => exact trivial
  | _ => exact trivial

section Commands

variable {accounts : List (List RelationExchange)} {i : ℕ}

/-- The insert of the call that has found none, for this pair or another. -/
theorem Unique.inserting_request {req : ApplyFriendReq} {remark : Bytes}
    (h : ∀ userId friendId, Unique userId friendId w accounts) (hids : 0 ≤ req.userId ∧ 0 ≤ req.friendId)
    (hl : accounts[i]? = some l) (hchecked : checked req.userId req.friendId l = true) :
    Unique userId friendId (w.succeed (.friend (.insertRequest req.userId req.friendId remark))).1
      (accounts.set i (l ++ [⟨.friend (.insertRequest req.userId req.friendId remark),
        some w.friendRequests.next⟩])) := by
  have hstored : stored req.userId = req.userId ∧ stored req.friendId = req.friendId :=
    ⟨if_neg (by omega), if_neg (by omega)⟩
  have hinserted : (w.succeed (.friend (.insertRequest req.userId req.friendId remark))).1.friendRequests =
      w.friendRequests.insert ⟨req.userId, req.friendId, remark, 0⟩ := by
    simp only [Tables.succeed, Tables.succeedFriend, hstored]
  have hrows := pendingRows_insert userId friendId req.userId req.friendId remark hinserted
  have hafter : checked userId friendId (l ++ [⟨.friend (.insertRequest req.userId req.friendId remark),
      some w.friendRequests.next⟩]) = false := by
    rw [← Bool.not_eq_true]
    intro h
    cases congrArg Sigma.fst (checked_concat h)
  by_cases hpair : req.userId = userId ∧ req.friendId = friendId
  · obtain ⟨rfl, rfl⟩ := hpair
    rw [if_pos ⟨rfl, rfl⟩] at hrows
    exact (h _ _).applied hl hchecked hrows hafter
  · rw [if_neg hpair, List.append_nil] at hrows
    refine (h userId friendId).other hl hrows hafter fun hinserted ↦ ?_
    refine (inserted_concat hinserted).resolve_right ?_
    rintro ⟨_, _, heq⟩
    cases congrArg Sigma.fst heq
    exact hpair ⟨rfl, rfl⟩

/-- Any other command, a check of the pair among them. -/
theorem Unique.without_insert {c : RelationService.Command} (h : Unique userId friendId w accounts)
    (hl : accounts[i]? = some l) (hinsert : ∀ u f remark, c ≠ .friend (.insertRequest u f remark))
    (hexclusive : c = .friend (.selectPending userId friendId) →
      ∀ l ∈ accounts, checked userId friendId l = false) :
    Unique userId friendId (w.succeed c).1 (accounts.set i (l ++ [⟨c, (w.succeed c).2⟩])) := by
  have hinserted : ∀ a, inserted userId friendId (l ++ [⟨c, a⟩]) → inserted userId friendId l := by
    intro a h
    refine (inserted_concat h).resolve_right ?_
    rintro ⟨remark, _, heq⟩
    exact hinsert userId friendId remark (congrArg Sigma.fst heq)
  cases hchecked : checked userId friendId (l ++ [⟨c, (w.succeed c).2⟩]) with
  | false =>
    refine h.other hl ?_ hchecked (hinserted _)
    rw [pendingRows, friendRequests_of_succeed hinsert]
    rfl
  | true =>
    have heq := checked_concat hchecked
    obtain rfl : c = .friend (.selectPending userId friendId) := congrArg Sigma.fst heq
    have hnone := pendingRows_eq_nil (Option.some.inj (eq_of_heq (Sigma.mk.inj heq).2))
    exact h.found hl hnone (hexclusive rfl) (hinserted _)

theorem Unique.executed {req : ApplyFriendReq} {c : RelationService.Command}
    (h : ∀ userId friendId, Unique userId friendId w accounts) (hids : 0 ≤ req.userId ∧ 0 ≤ req.friendId)
    (hl : accounts[i]? = some l) (hmay : (applying req).may l c)
    (hexclusive : ∀ u f, c = .friend (.selectPending u f) → ∀ l ∈ accounts, checked u f l = false) :
    Unique userId friendId (w.succeed c).1 (accounts.set i (l ++ [⟨c, (w.succeed c).2⟩])) := by
  by_cases hinsert : ∃ u f remark, c = .friend (.insertRequest u f remark)
  · obtain ⟨u, f, remark, rfl⟩ := hinsert
    obtain ⟨rfl, rfl, hchecked⟩ := hmay
    exact Unique.inserting_request h hids hl hchecked
  · exact (h userId friendId).without_insert hl (fun u f remark hc ↦ hinsert ⟨u, f, remark, hc⟩)
      (hexclusive userId friendId)

end Commands

end Invariant

section Runs

variable {w : Tables} {s : RelationCalls}

/-- The invariant of such a run. -/
structure AllUnique (w : Tables) (requests : List Request) (accounts : List (List RelationExchange)) : Prop where
  applications : ∀ r ∈ requests, ∃ req, r = .applyFriend req ∧ 0 ≤ req.userId ∧ 0 ≤ req.friendId
  unique : ∀ userId friendId, Unique userId friendId w accounts

/-- The contract of a request; only applications come. -/
def contractOf : Request → Contract RelationService.Command RelationService.Answer (List RelationExchange)
  | .applyFriend req => applying req
  | _ => keeping _ _

def Finishes : Request → List RelationExchange → Outcome → Prop
  | .applyFriend req => Applied req
  | _ => fun _ _ ↦ True

theorem unique_of_reach (hw : ∀ userId friendId, (pendingRows userId friendId w).length ≤ 1)
    (h : Reach system.serve Serial (idle w) s) :
    s.Keeps contractOf Finishes ∧ AllUnique s.pool.world.world s.requests s.pool.accounts := by
  refine System.serve_invariant (J := fun s requests accounts ↦ AllUnique s.world requests accounts) ?after
    ?start ?spawn ?exec ?outside h ⟨Served.keeps_nil _, ?_⟩
  case after =>
    intro r
    cases r <;> rfl
  case start =>
    intro s r hr
    obtain ⟨req, hreq, -⟩ := hr.1
    obtain rfl := eq_of_application hreq
    exact applyFriend_applying req
  case spawn =>
    intro s r hr _ hJ
    refine ⟨?_, fun _ _ ↦ (hJ.unique _ _).spawned⟩
    intro r' hr'
    rcases List.mem_append.mp hr' with hr' | hr'
    · exact hJ.applications r' hr'
    · obtain rfl := List.mem_singleton.mp hr'
      obtain ⟨req, hreq, hids⟩ := hr.1
      exact ⟨req, eq_of_application hreq, hids⟩
  case exec =>
    intro s i ok c k t r hok hi hr hmay hJ
    obtain ⟨rfl, hexclusive⟩ := hok
    obtain ⟨req, rfl, hids⟩ := hJ.applications r (List.mem_of_getElem? hr)
    refine ⟨?_, hJ.applications, fun _ _ ↦ Unique.executed hJ.unique hids (Pool.accounts_of_threads hi) hmay ?_⟩
    · exact succeed_answers req _ t c
    · rintro u f rfl
      exact hexclusive _ (Pool.command_of_threads hi) (u, f) rfl
  case outside =>
    intro s o w' _ ho hJ
    obtain rfl : { s.pool.world with world := { s.pool.world.world with nicknames := o } } = w' :=
      Option.some.inj ho
    exact ⟨hJ.applications, fun u f ↦ { hJ.unique u f with }⟩
  · exact ⟨fun _ hr ↦ absurd hr List.not_mem_nil, fun u f ↦ unique_nil (hw u f)⟩

/-- The call has ended with success. -/
def Succeeds (s : RelationCalls) (i : ℕ) : Prop :=
  ∃ th status resp, s.pool.threads[i]? = some th ∧ th.prog = .done (.friendApplied (status, resp)) ∧
    resp.success = true

theorem inserted_of_succeeds (hkeeps : s.Keeps contractOf Finishes) {i : ℕ} {req : ApplyFriendReq}
    (hr : s.requests[i]? = some (.applyFriend req)) (h : Succeeds s i) :
    ∃ l, s.pool.accounts[i]? = some l ∧ inserted req.userId req.friendId l := by
  obtain ⟨th, status, resp, hth, hdone, hsuccess⟩ := h
  have hmeets := hkeeps.meets i _ th hr hth
  rw [hdone] at hmeets
  exact ⟨th.account, Pool.accounts_of_threads hth, hmeets hsuccess⟩

end Runs

/-- Each ordered pair has at most one pending request, and at most one call for
it succeeds. -/
structure AtMostOne (s : RelationCalls) : Prop where
  pending : ∀ userId friendId, (pendingRows userId friendId s.pool.world.world).length ≤ 1
  successes : ∀ i j req req', s.requests[i]? = some (.applyFriend req) →
    s.requests[j]? = some (.applyFriend req') → req.userId = req'.userId → req.friendId = req'.friendId →
      Succeeds s i → Succeeds s j → i = j

/-- In a run in which no two calls are between check and insert of a pair at a
time, there is one request for each pair. -/
theorem pending_unique {w : Tables} (hw : ∀ userId friendId, (pendingRows userId friendId w).length ≤ 1)
    {s : RelationCalls} (h : Reach system.serve Serial (idle w) s) : AtMostOne s := by
  obtain ⟨hkeeps, hunique⟩ := unique_of_reach hw h
  refine ⟨fun userId friendId ↦ (hunique.unique userId friendId).rows, ?_⟩
  intro i j req req' hi hj huser hfriend hsucceeds hsucceeds'
  obtain ⟨l, hl, hinserted⟩ := inserted_of_succeeds hkeeps hi hsucceeds
  obtain ⟨l', hl', hinserted'⟩ := inserted_of_succeeds hkeeps hj hsucceeds'
  rw [← huser, ← hfriend] at hinserted'
  exact (hunique.unique _ _).inserting i j l l' hl hl' hinserted hinserted'

def apply : Step := .spawn (.applyFriend { userId := 1, friendId := 2 })

/-- User 1 applies to user 2, and once more after the first call. -/
def repeated : List Step :=
  apply :: List.replicate 4 (.step 0 true) ++ apply :: List.replicate 2 (.step 1 true)

theorem pending_unique_repeated :
    ∃ s, AtMostOne s ∧ s.pool.world.world.friendRequests.rows = [(1, ⟨1, 2, [], 0⟩)] ∧
      Succeeds s 0 ∧ ¬ Succeeds s 1 := by
  have hrun : Reach system.serve Serial (idle .empty) _ := reach_of_exec repeated rfl
  refine ⟨_, pending_unique (w := .empty) (fun _ _ ↦ Nat.zero_le 1) hrun, rfl, ⟨_, _, _, rfl, rfl, rfl⟩, ?_⟩
  rintro ⟨th, status, resp, hth, hdone, hsuccess⟩
  obtain rfl := Option.some.inj hth
  cases hdone
  cases hsuccess

/-- Both calls check before one of them inserts. -/
def racing : List Step :=
  [apply, apply] ++ List.replicate 2 (.step 0 true) ++ List.replicate 2 (.step 1 true) ++
    [.step 0 true, .step 1 true]

theorem not_pending_unique :
    ¬ ∀ w s, (∀ userId friendId, (pendingRows userId friendId w).length ≤ 1) →
      Reach system.serve Faultless (idle w) s → AtMostOne s := by
  intro h
  obtain ⟨s, hrun, hnot⟩ : ∃ s, Reach system.serve Faultless (idle .empty) s ∧ ¬ AtMostOne s := by
    refine exists_reach_of_exec racing ⟨_, rfl, ?_⟩
    intro hunique
    have hrows := hunique.pending 1 2
    exact absurd hrows (by decide)
  exact hnot (h .empty s (fun _ _ ↦ Nat.zero_le 1) hrun)

end TinyIM.Relation.PendingRequests
