import TinyIM.Auth.AuthService
import TinyIM.Auth.Registration
import TinyIM.Chat.SyncService
import TinyIM.Relation.RelationService

namespace TinyIM.Store.HandlerConnections

open Library.Program Protocol

/-- `DBConn::Type`. -/
inductive ConnType
  | read
  | write
  deriving DecidableEq, Repr

/-- What the handlers of the three services ask of MySQL, Redis and others. -/
inductive Call
  | chat (c : Chat.Command)
  | sync (c : Chat.SyncService.Command)
  | registration (c : Auth.Registration.Command)
  | auth (c : Auth.Command)
  | relation (c : Relation.RelationService.Command)

abbrev Answers : Call → Type
  | .chat c => Chat.Answer c
  | .sync c => Chat.SyncService.Answer c
  | .registration c => Auth.Registration.Answer c
  | .auth c => Auth.Answer c
  | .relation c => Relation.RelationService.Answer c

inductive Request
  | sendMessage (req : SendMessageReq)
  | syncMessages (req : SyncMessagesReq)
  | register (req : Auth.Registration.RegisterReq)
  | login (req : LoginReq)
  | logout (req : Auth.LogoutReq)
  | relation (r : Relation.RelationService.Request)

abbrev Handler := Prog Call Answers Unit

/-- The replies are of no account here. -/
def Request.program : Request → Handler
  | sendMessage req => do let _reply ← (Chat.sendMessage req).lift Call.chat
  | syncMessages req => do let _reply ← (Chat.SyncService.syncMessages req).lift Call.sync
  | register req => do let _reply ← (Auth.Registration.register req).lift Call.registration
  | login req => do let _reply ← (Auth.login req).lift Call.auth
  | logout req => do let _reply ← (Auth.logout req).lift Call.auth
  | relation r => do let _reply ← r.program.lift Call.relation

section Connections

variable (o : ConnType → Bool)

/-- The connections that are acquired are valid as `o` says. -/
def Acquired : (c : Call) → Answers c → Prop
  | .chat .connectWrite, valid => valid = o .write
  | .chat .connectRead, valid => valid = o .read
  | .sync .connectRead, valid => valid = o .read
  | .registration .connectWrite, valid => valid = o .write
  | .auth .connectRead, valid => valid = o .read
  | .relation (.friend .connect), valid => valid = o .write
  | .relation .connectWrite, valid => valid = o .write
  | .relation .connectRead, valid => valid = o .read
  | _, _ => True

/-- The connection on which a call makes its `mysql_*` calls. -/
def uses : Call → Option ConnType
  | .chat (.insertBody _ _ _ _) => some .write
  | .chat (.selectMembers _) => some .read
  | .chat (.selectRelation _ _) => some .write
  | .chat (.insertIndex _) => some .write
  | .sync (.selectTimeline _ _ _ _) => some .read
  | .registration (.insertUser _) => some .write
  | .auth (.selectUser _) => some .read
  | .relation (.friend (.selectPending _ _)) => some .write
  | .relation (.friend (.insertRequest _ _ _)) => some .write
  | .relation (.friend (.insertRelations _ _)) => some .write
  | .relation (.selectFriends _) => some .read
  | .relation (.insertGroup _ _) => some .write
  | .relation (.selectMember _ _) => some .write
  | .relation (.insertMember _ _ _) => some .write
  | .relation (.selectGroups _) => some .read
  | .relation (.insertGroupRequest _ _ _) => some .write
  | .relation (.selectOwner _) => some .write
  | _ => none

def Permitted (c : Call) : Prop := ∀ type ∈ uses c, o type = true

/-- Connections are used only where they are valid. -/
def guarded : Contract Call Answers Unit where
  may _ := Permitted o
  answers _ := Acquired o
  after t _ _ := t

/-- No `mysql_*` call of the handler is made on a null connection. -/
def NullFree (r : Request) : Prop := Meets (guarded o) (fun _ _ ↦ True) () r.program

/-- The handler looks at its connections, uses none, or its one is valid. -/
def Secured : Request → Prop
  | .sendMessage _ => True
  | .syncMessages _ => o .read = true
  | .register _ => True
  | .login _ => True
  | .logout _ => True
  | .relation (.applyFriend _) => True
  | .relation (.acceptFriend req) => req.accept = true → o .write = true
  | .relation (.getFriendList _) => o .read = true
  | .relation (.createGroup _) => o .write = true
  | .relation (.joinGroup _) => o .write = true
  | .relation (.getGroupList _) => o .read = true
  | .relation (.applyGroup _) => o .write = true
  | .relation (.acceptGroup req) => req.accept = true → o .write = true

end Connections

section Handlers

variable {o : ConnType → Bool}

theorem permitted_of_none {c : Call} (h : uses c = none) : Permitted o c := by
  intro type htype
  rw [h] at htype
  cases htype

theorem permitted_iff {c : Call} {type : ConnType} (h : uses c = some type) :
    Permitted o c ↔ o type = true := by
  constructor
  · exact fun hmay ↦ hmay type h
  · intro hvalid type' htype'
    obtain rfl := Option.some.inj (h.symm.trans htype')
    exact hvalid

/-- Calls that use a valid connection, or none, are all permitted. -/
theorem meets_of_uses {C : Type} {f : C → Call} {α : Type}
    (h : ∀ c, Permitted o (f c)) {t : Unit} {p : Prog C (fun c ↦ Answers (f c)) α} :
    Meets ((guarded o).comap f) (fun _ _ ↦ True) t p :=
  meets_of_may fun _ c ↦ h c

section Steps

variable {C α : Type} {f : C → Call} {c : C} {Q : Unit → α → Prop}
  {k : Answers (f c) → Prog C (fun c ↦ Answers (f c)) α}

/-- A handler that does not look at the connection it has acquired. -/
theorem acquired_iff {P : Prop} (hacquired : ∃ a, Acquired o (f c) a) (huses : uses (f c) = none)
    (h : ∀ a, Meets ((guarded o).comap f) Q () (k a) ↔ P) :
    Meets ((guarded o).comap f) Q () (Prog.perform c >>= k) ↔ P := by
  constructor
  · intro hmeets
    obtain ⟨a, ha⟩ := hacquired
    exact (h a).mp (hmeets.2 a ha)
  · intro hP
    exact meets_perform_bind.mpr ⟨permitted_of_none huses, fun a _ ↦ (h a).mpr hP⟩

theorem query_iff {type : ConnType} (huses : uses (f c) = some type)
    (hrest : o type = true → ∀ a, Meets ((guarded o).comap f) Q () (k a)) :
    Meets ((guarded o).comap f) Q () (Prog.perform c >>= k) ↔ o type = true := by
  constructor
  · exact fun hmeets ↦ (permitted_iff huses).mp hmeets.1
  · intro hvalid
    exact meets_perform_bind.mpr ⟨(permitted_iff huses).mpr hvalid, fun a _ ↦ hrest hvalid a⟩

end Steps

theorem sendMessage_nullFree (req : SendMessageReq) : NullFree o (.sendMessage req) := by
  refine meets_bind.mpr (meets_lift.mpr ?_)
  refine meets_perform_bind.mpr ⟨permitted_of_none rfl, ?_⟩
  intro valid hvalid
  refine meets_perform_bind.mpr ⟨permitted_of_none rfl, ?_⟩
  intro readValid hreadValid
  split
  · exact trivial
  · next hinvalid =>
    simp only [Bool.or_eq_true, Bool.not_eq_true', not_or, Bool.not_eq_false] at hinvalid
    refine meets_of_uses ?_
    intro c type _
    cases type with
    | read => exact hreadValid.symm.trans hinvalid.2
    | write => exact hvalid.symm.trans hinvalid.1

theorem syncMessages_nullFree_iff (req : SyncMessagesReq) :
    NullFree o (.syncMessages req) ↔ o .read = true := by
  refine meets_bind.trans (meets_lift.trans (acquired_iff ⟨o .read, rfl⟩ rfl fun _ ↦ ?_))
  refine query_iff rfl fun hread _ ↦ meets_of_uses ?_
  intro c type htype
  cases c with
  | connectRead => cases htype
  | selectTimeline userId localSeq limit reverse =>
    obtain rfl := Option.some.inj htype
    exact hread

theorem register_nullFree (req : Auth.Registration.RegisterReq) : NullFree o (.register req) := by
  refine meets_bind.mpr (meets_lift.mpr ?_)
  rw [Auth.Registration.register]
  split_ifs with hempty
  · exact trivial
  · refine meets_perform_bind.mpr ⟨permitted_of_none rfl, ?_⟩
    intro valid hvalid
    split_ifs with hinvalid
    · exact trivial
    · exact meets_perform_bind.mpr
        ⟨(permitted_iff rfl).mpr (hvalid.symm.trans (by simpa using hinvalid)), fun _ _ ↦ trivial⟩

theorem login_nullFree (req : LoginReq) : NullFree o (.login req) := by
  refine meets_bind.mpr (meets_lift.mpr ?_)
  refine meets_perform_bind.mpr ⟨permitted_of_none rfl, ?_⟩
  intro valid hvalid
  split_ifs with hinvalid
  · exact trivial
  · refine meets_of_uses ?_
    intro c type htype
    have hread : o .read = true := hvalid.symm.trans (by simpa using hinvalid)
    cases c with
    | selectUser sql =>
      obtain rfl := Option.some.inj htype
      exact hread
    | _ => cases htype

theorem logout_nullFree (req : Auth.LogoutReq) : NullFree o (.logout req) := by
  refine meets_bind.mpr (meets_lift.mpr ?_)
  rw [Auth.logout]
  split_ifs with hdevice
  · exact ⟨permitted_of_none rfl, fun _ _ ↦ trivial⟩
  · refine meets_perform_bind.mpr ⟨permitted_of_none rfl, fun _ _ ↦ ?_⟩
    exact ⟨permitted_of_none rfl, fun _ _ ↦ trivial⟩

theorem applyFriend_nullFree (req : ApplyFriendReq) : NullFree o (.relation (.applyFriend req)) := by
  refine meets_bind.mpr (meets_lift.mpr (meets_bind.mpr (meets_lift.mpr ?_)))
  rw [Relation.FriendService.applyFriend]
  split
  · exact trivial
  · refine meets_perform_bind.mpr ⟨permitted_of_none rfl, ?_⟩
    intro valid hvalid
    split
    · exact trivial
    · next hinvalid =>
      have hwrite : o .write = true := hvalid.symm.trans (by simpa using hinvalid)
      refine meets_of_may ?_
      intro _ c type htype
      cases c with
      | connect => cases htype
      | sendMessage req => cases htype
      | _ =>
        obtain rfl := Option.some.inj htype
        exact hwrite

theorem acceptFriend_nullFree_iff (req : AcceptFriendReq) :
    NullFree o (.relation (.acceptFriend req)) ↔ (req.accept = true → o .write = true) := by
  refine meets_bind.trans (meets_lift.trans (meets_bind.trans (meets_lift.trans ?_)))
  refine acquired_iff (f := fun c ↦ .relation (.friend c)) ⟨o .write, rfl⟩ rfl fun _ ↦ ?_
  split
  · next haccept =>
    rw [forall_prop_of_true haccept]
    refine query_iff (f := fun c ↦ .relation (.friend c)) rfl fun _ _ ↦ ?_
    exact meets_perform_bind.mpr ⟨permitted_of_none rfl, fun _ _ ↦ trivial⟩
  · next hrefused => exact iff_of_true trivial fun haccept ↦ absurd haccept hrefused

theorem getFriendList_nullFree_iff (req : GetFriendListReq) :
    NullFree o (.relation (.getFriendList req)) ↔ o .read = true := by
  refine meets_bind.trans (meets_lift.trans (meets_bind.trans ?_))
  refine acquired_iff ⟨o .read, rfl⟩ rfl fun _ ↦ query_iff rfl fun _ rows ↦ ?_
  cases rows <;> exact trivial

theorem addInitialMembers_permitted (hwrite : o .write = true) (groupId ownerId : ℤ) (members : List ℤ) :
    Meets ((guarded o).comap Call.relation) (fun _ _ ↦ True) ()
      (Relation.RelationService.addInitialMembers groupId ownerId members) := by
  induction members with
  | nil => exact trivial
  | cons uid members ih =>
    rw [Relation.RelationService.addInitialMembers]
    split_ifs with howner
    · exact ih
    · exact meets_perform_bind.mpr ⟨(permitted_iff rfl).mpr hwrite, fun _ _ ↦ ih⟩

theorem createGroup_nullFree_iff (req : CreateGroupReq) :
    NullFree o (.relation (.createGroup req)) ↔ o .write = true := by
  refine meets_bind.trans (meets_lift.trans (meets_bind.trans ?_))
  refine acquired_iff ⟨o .write, rfl⟩ rfl fun _ ↦ query_iff rfl fun hwrite id ↦ ?_
  cases id with
  | none => exact trivial
  | some groupId =>
    refine meets_perform_bind.mpr ⟨(permitted_iff rfl).mpr hwrite, fun _ _ ↦ ?_⟩
    exact meets_bind.mpr (addInitialMembers_permitted hwrite _ _ _)

theorem joinGroup_nullFree_iff (req : JoinGroupReq) :
    NullFree o (.relation (.joinGroup req)) ↔ o .write = true := by
  refine meets_bind.trans (meets_lift.trans (meets_bind.trans ?_))
  refine acquired_iff ⟨o .write, rfl⟩ rfl fun _ ↦ query_iff rfl fun hwrite found ↦ ?_
  split
  · exact trivial
  · refine meets_perform_bind.mpr ⟨(permitted_iff rfl).mpr hwrite, ?_⟩
    intro inserted _
    cases inserted with
    | done => exact meets_perform_bind.mpr ⟨permitted_of_none rfl, fun _ _ ↦ trivial⟩
    | duplicate => exact trivial
    | failed => exact trivial

theorem getGroupList_nullFree_iff (req : GetGroupListReq) :
    NullFree o (.relation (.getGroupList req)) ↔ o .read = true := by
  refine meets_bind.trans (meets_lift.trans (meets_bind.trans ?_))
  refine acquired_iff ⟨o .read, rfl⟩ rfl fun _ ↦ query_iff rfl fun _ rows ↦ ?_
  cases rows <;> exact trivial

theorem applyGroup_nullFree_iff (req : ApplyGroupReq) :
    NullFree o (.relation (.applyGroup req)) ↔ o .write = true := by
  refine meets_bind.trans (meets_lift.trans (meets_bind.trans ?_))
  refine acquired_iff ⟨o .write, rfl⟩ rfl fun _ ↦ query_iff rfl fun hwrite found ↦ ?_
  split
  · exact trivial
  · refine meets_perform_bind.mpr ⟨(permitted_iff rfl).mpr hwrite, ?_⟩
    intro applyId _
    cases applyId with
    | none => exact trivial
    | some applyId =>
      refine meets_perform_bind.mpr ⟨(permitted_iff rfl).mpr hwrite, ?_⟩
      intro owner _
      match owner with
      | none => exact trivial
      | some none => exact trivial
      | some (some ownerId) =>
        exact meets_perform_bind.mpr ⟨permitted_of_none rfl, fun _ _ ↦ trivial⟩

theorem acceptGroup_nullFree_iff (req : AcceptGroupReq) :
    NullFree o (.relation (.acceptGroup req)) ↔ (req.accept = true → o .write = true) := by
  refine meets_bind.trans (meets_lift.trans (meets_bind.trans ?_))
  refine acquired_iff ⟨o .write, rfl⟩ rfl fun _ ↦ ?_
  split
  · next haccept =>
    rw [forall_prop_of_true haccept]
    refine query_iff rfl fun _ _ ↦ ?_
    exact meets_perform_bind.mpr ⟨permitted_of_none rfl, fun _ _ ↦ trivial⟩
  · next hrefused => exact iff_of_true trivial fun haccept ↦ absurd haccept hrefused

end Handlers

/-- For every request and every outcome of the acquisitions. -/
theorem nullFree_iff_secured (o : ConnType → Bool) (r : Request) : NullFree o r ↔ Secured o r := by
  cases r with
  | sendMessage req => exact iff_of_true (sendMessage_nullFree req) trivial
  | syncMessages req => exact syncMessages_nullFree_iff req
  | register req => exact iff_of_true (register_nullFree req) trivial
  | login req => exact iff_of_true (login_nullFree req) trivial
  | logout req => exact iff_of_true (logout_nullFree req) trivial
  | relation r =>
    cases r with
    | applyFriend req => exact iff_of_true (applyFriend_nullFree req) trivial
    | acceptFriend req => exact acceptFriend_nullFree_iff req
    | getFriendList req => exact getFriendList_nullFree_iff req
    | createGroup req => exact createGroup_nullFree_iff req
    | joinGroup req => exact joinGroup_nullFree_iff req
    | getGroupList req => exact getGroupList_nullFree_iff req
    | applyGroup req => exact applyGroup_nullFree_iff req
    | acceptGroup req => exact acceptGroup_nullFree_iff req

/-- No connection can be had, and `SyncMessages` makes its query on null. -/
theorem sync_without_connection : ¬ ∀ (o : ConnType → Bool) (r : Request), NullFree o r := by
  intro h
  have hconn := (h (fun _ ↦ false) (.syncMessages {})).2 false rfl
  exact Bool.false_ne_true (hconn.1 .read rfl)

end TinyIM.Store.HandlerConnections
