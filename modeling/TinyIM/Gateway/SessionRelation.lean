import TinyIM.Gateway.ConnectionManager
import TinyIM.Library.OrderedSets
import Mathlib.Data.List.Induction

namespace TinyIM.Gateway.SessionRelation

open Library.ByteOrder Library.OrderedSets

variable {σ : Type} [LinearOrder σ]

/-- The map `users_`, with the sessions of a user in the order of their
addresses. -/
abbrev Users (σ : Type) [LinearOrder σ] := SetMap ℤ σ

/-- What is posted to the strand of a session. -/
inductive Post (σ : Type)
  | send (session : σ) (msg : Bytes)
  | kick (session : σ)
  deriving DecidableEq, Repr

def join (users : Users σ) (userId : ℤ) (session : σ) : Users σ :=
  users.modify userId fun S ↦ S.insert session

def leave (users : Users σ) (userId : ℤ) (session : σ) : Users σ :=
  if (users userId).isSome then (users.modify userId fun S ↦ S.erase session).prune userId
  else users

def sendToUser (users : Users σ) (userId : ℤ) (msg : Bytes) : Users σ × List (Post σ) :=
  if (users userId).isSome then
    (users.modify userId id, (users.lookup userId).toList.map fun session ↦ .send session msg)
  else (users, [])

def kickUser (users : Users σ) (userId : ℤ) (device : Bytes) (getDevice : σ → Bytes) :
    Users σ × List (Post σ) :=
  if (users userId).isSome then
    (users.modify userId id, ((users.lookup userId).toList.filter fun session ↦
      device = [] ∨ getDevice session = device).map .kick)
  else (users, [])

/-- The calls of the methods, which the mutex brings in an order. `getDevice`
is what the sessions answer during the call. -/
inductive Call (σ : Type)
  | join (userId : ℤ) (session : σ)
  | leave (userId : ℤ) (session : σ)
  | sendToUser (userId : ℤ) (msg : Bytes)
  | kickUser (userId : ℤ) (device : Bytes) (getDevice : σ → Bytes)

def execute (users : Users σ) : Call σ → Users σ × List (Post σ)
  | .join userId session => (join users userId session, [])
  | .leave userId session => (leave users userId session, [])
  | .sendToUser userId msg => sendToUser users userId msg
  | .kickUser userId device getDevice => kickUser users userId device getDevice

/-- The map after a sequence of calls. -/
def usersAfter (calls : List (Call σ)) : Users σ :=
  calls.foldl (fun users c ↦ (execute users c).1) .empty

/-- The pairs that were joined and have not left since. -/
def joined (calls : List (Call σ)) : Set (ℤ × σ) :=
  { p | ∃ before since, calls = before ++ .join p.1 p.2 :: since ∧ .leave p.1 p.2 ∉ since }

/-- One post to each session of a kind, and nothing else. -/
structure PostsOnce (posts : List (Post σ)) (post : σ → Post σ) (P : σ → Prop) : Prop where
  nodup : posts.Nodup
  mem_iff : ∀ p, p ∈ posts ↔ ∃ session, P session ∧ p = post session

/-- The map does for its callers what the relation says. -/
structure Refines (users : Users σ) (R : Set (ℤ × σ)) : Prop where
  represents : users.Represents R
  sends : ∀ userId msg, PostsOnce (sendToUser users userId msg).2 (fun session ↦ .send session msg)
    fun session ↦ (userId, session) ∈ R
  kicks : ∀ userId device getDevice, PostsOnce (kickUser users userId device getDevice).2 .kick
    fun session ↦ (userId, session) ∈ R ∧ (device = [] ∨ getDevice session = device)

section relation

omit [LinearOrder σ]

theorem postsOnce_nil {post : σ → Post σ} {P : σ → Prop} (h : ∀ session, ¬ P session) :
    PostsOnce [] post P := by
  refine ⟨List.nodup_nil, fun p ↦ iff_of_false List.not_mem_nil ?_⟩
  rintro ⟨session, hP, -⟩
  exact h session hP

/-- A loop over a list without duplicates. -/
theorem postsOnce_map {l : List σ} {post : σ → Post σ} {P : σ → Prop} (hl : l.Nodup)
    (hpost : Function.Injective post) (hP : ∀ session, session ∈ l ↔ P session) :
    PostsOnce (l.map post) post P := by
  refine ⟨hl.map hpost, fun p ↦ ?_⟩
  rw [List.mem_map]
  refine exists_congr fun session ↦ and_congr (hP session) eq_comm

variable {calls : List (Call σ)} {c : Call σ} {userId : ℤ} {session : σ}

theorem mem_joined_concat :
    (userId, session) ∈ joined (calls ++ [c]) ↔
      c = .join userId session ∨ ((userId, session) ∈ joined calls ∧ c ≠ .leave userId session) := by
  constructor
  · rintro ⟨before, since, heq, hstayed⟩
    cases since using List.reverseRecOn with
    | nil =>
      obtain ⟨-, hc⟩ := List.append_inj' heq rfl
      exact .inl (List.singleton_inj.mp hc)
    | append_singleton since last =>
      rw [← List.cons_append, ← List.append_assoc] at heq
      obtain ⟨rfl, hc⟩ := List.append_inj' heq rfl
      obtain rfl := List.singleton_inj.mp hc
      refine .inr ⟨⟨before, since, rfl, fun hleft ↦ hstayed (List.mem_append_left _ hleft)⟩, ?_⟩
      rintro rfl
      exact hstayed (List.mem_append_right _ List.mem_cons_self)
  · rintro (rfl | ⟨⟨before, since, rfl, hstayed⟩, hc⟩)
    · exact ⟨calls, [], rfl, List.not_mem_nil⟩
    · refine ⟨before, since ++ [c], ?_, fun hleft ↦ ?_⟩
      · rw [List.append_assoc, List.cons_append]
      · rcases List.mem_append.mp hleft with hleft | hleft
        · exact hstayed hleft
        · exact hc (List.mem_singleton.mp hleft).symm

theorem joined_nil : joined ([] : List (Call σ)) = ∅ := by
  refine Set.eq_empty_of_forall_notMem ?_
  rintro p ⟨before, since, heq, -⟩
  exact absurd heq.symm (List.append_ne_nil_of_right_ne_nil _ (List.cons_ne_nil _ _))

theorem joined_join : joined (calls ++ [.join userId session]) = insert (userId, session) (joined calls) := by
  ext ⟨u, s⟩
  rw [mem_joined_concat, Set.mem_insert_iff]
  simp only [Call.join.injEq, Prod.mk.injEq, ne_eq, reduceCtorEq, not_false_eq_true, and_true]
  tauto

theorem joined_leave : joined (calls ++ [.leave userId session]) = joined calls \ {(userId, session)} := by
  ext ⟨u, s⟩
  rw [mem_joined_concat, Set.mem_sdiff, Set.mem_singleton_iff]
  simp only [Call.leave.injEq, Prod.mk.injEq, ne_eq, reduceCtorEq, false_or]
  tauto

theorem joined_of_inert (hjoin : ∀ userId session, c ≠ .join userId session)
    (hleave : ∀ userId session, c ≠ .leave userId session) : joined (calls ++ [c]) = joined calls := by
  ext ⟨u, s⟩
  rw [mem_joined_concat]
  exact ⟨fun h ↦ (h.resolve_left (hjoin u s)).1, fun h ↦ .inr ⟨h, hleave u s⟩⟩

theorem joined_sendToUser (msg : Bytes) : joined (calls ++ [.sendToUser userId msg]) = joined calls :=
  joined_of_inert nofun nofun

theorem joined_kickUser (device : Bytes) (getDevice : σ → Bytes) :
    joined (calls ++ [.kickUser userId device getDevice]) = joined calls :=
  joined_of_inert nofun nofun

end relation

section refinement

variable {users : Users σ} {R : Set (ℤ × σ)} {userId : ℤ}

theorem usersAfter_concat (calls : List (Call σ)) (c : Call σ) :
    usersAfter (calls ++ [c]) = (execute (usersAfter calls) c).1 := by
  rw [usersAfter, List.foldl_append]
  rfl

/-- The loops of `SendToUser` and `KickUser` do not change the map. -/
theorem sendToUser_users (users : Users σ) (userId : ℤ) (msg : Bytes) :
    (sendToUser users userId msg).1 = users := by
  rw [sendToUser]
  split_ifs with h
  · exact SetMap.modify_id h
  · rfl

theorem kickUser_users (users : Users σ) (userId : ℤ) (device : Bytes) (getDevice : σ → Bytes) :
    (kickUser users userId device getDevice).1 = users := by
  rw [kickUser]
  split_ifs with h
  · exact SetMap.modify_id h
  · rfl

/-- A user without an entry has no session that could leave. -/
theorem represents_leave (h : users.Represents R) (userId : ℤ) (session : σ) :
    (leave users userId session).Represents (R \ {(userId, session)}) := by
  rw [leave]
  split_ifs with hsome
  · exact h.erase userId session
  · have hnone := h.not_mem_of_none (a := session) (Option.not_isSome_iff_eq_none.mp hsome)
    rwa [Set.sdiff_singleton_eq_self hnone]

theorem represents_usersAfter (calls : List (Call σ)) : (usersAfter calls).Represents (joined calls) := by
  induction calls using List.reverseRecOn with
  | nil =>
    rw [joined_nil]
    exact SetMap.represents_empty
  | append_singleton calls c ih =>
    rw [usersAfter_concat]
    cases c with
    | join userId session =>
      rw [joined_join]
      exact ih.insert userId session
    | leave userId session =>
      rw [joined_leave]
      exact represents_leave ih userId session
    | sendToUser userId msg =>
      rw [joined_sendToUser, execute, sendToUser_users]
      exact ih
    | kickUser userId device getDevice =>
      rw [joined_kickUser, execute, kickUser_users]
      exact ih

theorem not_mem_of_count (h : users.Represents R) (hnone : ¬ (users userId).isSome) (session : σ) :
    (userId, session) ∉ R :=
  h.not_mem_of_none (Option.not_isSome_iff_eq_none.mp hnone)

theorem refines_of_represents (h : users.Represents R) : Refines users R := by
  refine ⟨h, fun userId msg ↦ ?_, fun userId device getDevice ↦ ?_⟩
  · rw [sendToUser]
    split_ifs with hsome
    · refine postsOnce_map (users.lookup userId).nodup (fun _ _ heq ↦ (Post.send.inj heq).1) ?_
      exact h.mem_iff userId
    · exact postsOnce_nil (not_mem_of_count h hsome)
  · rw [kickUser]
    split_ifs with hsome
    · refine postsOnce_map ((users.lookup userId).nodup.filter _) (fun _ _ ↦ Post.kick.inj) ?_
      intro session
      rw [List.mem_filter, decide_eq_true_eq, OrderedSet.mem_toList, h.mem_iff]
    · exact postsOnce_nil fun session hP ↦ not_mem_of_count h hsome session hP.1

/-- After every sequence of calls the manager holds the pairs that were joined
and have not left, and `SendToUser` and `KickUser` reach exactly their sessions. -/
theorem refines_joined (calls : List (Call σ)) :
    Refines (usersAfter calls) (joined calls) ∧
      (∀ userId msg, usersAfter (calls ++ [.sendToUser userId msg]) = usersAfter calls ∧
        joined (calls ++ [.sendToUser userId msg]) = joined calls) ∧
      ∀ userId device getDevice,
        usersAfter (calls ++ [.kickUser userId device getDevice]) = usersAfter calls ∧
          joined (calls ++ [.kickUser userId device getDevice]) = joined calls := by
  refine ⟨refines_of_represents (represents_usersAfter calls), fun userId msg ↦ ?_,
    fun userId device getDevice ↦ ?_⟩
  · rw [usersAfter_concat]
    exact ⟨sendToUser_users _ userId msg, joined_sendToUser msg⟩
  · rw [usersAfter_concat]
    exact ⟨kickUser_users _ userId device getDevice, joined_kickUser device getDevice⟩

end refinement

section manager

/-- The same calls on a manager that keeps finite sets. -/
def managerAfter (calls : List (Call ℕ)) : ConnectionManager :=
  calls.foldl (fun m c ↦ match c with
    | .join userId session => m.join userId session
    | .leave userId session => m.leave userId session
    | .sendToUser .. | .kickUser .. => m) .empty

variable {calls : List (Call ℕ)} {userId : ℤ} {session : ℕ}

theorem mem_sessions_managerAfter :
    session ∈ (managerAfter calls).sessions userId ↔ (userId, session) ∈ joined calls := by
  induction calls using List.reverseRecOn with
  | nil =>
    rw [joined_nil]
    exact iff_of_false (Finset.notMem_empty _) (Set.notMem_empty _)
  | append_singleton calls c ih =>
    rw [managerAfter, List.foldl_append, ← managerAfter]
    cases c with
    | join u s =>
      rw [joined_join, Set.mem_insert_iff, Prod.mk.injEq, ← ih]
      exact ConnectionManager.mem_sessions_join _
    | leave u s =>
      rw [joined_leave, Set.mem_sdiff, Set.mem_singleton_iff, Prod.mk.injEq, ← ih]
      exact ConnectionManager.mem_sessions_leave _
    | sendToUser u msg =>
      rw [joined_sendToUser]
      exact ih
    | kickUser u device getDevice =>
      rw [joined_kickUser]
      exact ih

/-- The deliveries of a gateway in the cluster are those of `SendToUser`. -/
theorem mem_sendToUser_managerAfter (msg : Bytes) :
    session ∈ (managerAfter calls).sendToUser userId ↔
      .send session msg ∈ (sendToUser (usersAfter calls) userId msg).2 := by
  have hrefines := refines_of_represents (represents_usersAfter calls)
  rw [(hrefines.sends userId msg).mem_iff, ConnectionManager.sendToUser, mem_sessions_managerAfter]
  simp

theorem mem_kickUser_managerAfter (device : Bytes) (getDevice : ℕ → Bytes) :
    session ∈ (managerAfter calls).kickUser getDevice userId device ↔
      .kick session ∈ (kickUser (usersAfter calls) userId device getDevice).2 := by
  have hrefines := refines_of_represents (represents_usersAfter calls)
  rw [(hrefines.kicks userId device getDevice).mem_iff, ConnectionManager.kickUser, Finset.mem_filter,
    mem_sessions_managerAfter]
  simp

end manager

end TinyIM.Gateway.SessionRelation
