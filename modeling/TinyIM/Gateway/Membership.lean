import TinyIM.Gateway.Cluster

namespace TinyIM.Gateway.Membership

open Library.ByteOrder Library.Transition Protocol Store Dispatch Cluster
open Library.Interleaving (getElem?_concat_some)

variable {e : Endian} {pb : Codec} {st st' : Gateways}

/-- Whenever the session runs no handler: while it reads and has a user it is
in the set of this user alone, and once its read chain has ended it is in none. -/
def MembershipInvariant (st : Gateways) : Prop :=
  ∀ i c, st.conns[i]? = some c → c.pending = [] →
    (c.chain = .reading → 0 < c.session.userId → sets st.managers i c.gateway = {c.session.userId}) ∧
    (c.chain = .ended → sets st.managers i c.gateway = ∅)

def settle (effects : List Effect) (S : Set ℤ) : Set ℤ := effects.foldl onSets S

/-- What holds of the sets of a session that runs no handler. -/
def Settled (chain : Chain) (userId : ℤ) (S : Set ℤ) : Prop :=
  match chain with
  | .reading => S ⊆ {userId} ∧ (0 < userId → userId ∈ S)
  | _ => S = ∅

/-- Bad magic comes only on a session that is in no set, and a login that makes
a new user of a session only when it is in no set but, maybe, this user's. -/
def KeepsMembership (pb : Codec) (st : Gateways) : Action → Prop
  | .handle i .badMagic => ∀ c, st.conns[i]? = some c → sets st.managers i c.gateway = ∅
  | .handle i (.packet p _ _) =>
    ∀ c, st.conns[i]? = some c → ∀ id, newUser pb c.session p = some id →
      sets st.managers i c.gateway ⊆ {id}
  | _ => True

theorem settle_local {effects : List Effect} (h : ∀ ef ∈ effects, Local ef) (S : Set ℤ) :
    settle effects S = S := by
  induction effects with
  | nil => rfl
  | cons ef effects ih =>
    rw [List.forall_mem_cons] at h
    have hef : onSets S ef = S := by
      cases ef <;> first | rfl | exact h.1.elim
    rw [settle, List.foldl_cons, hef]
    exact ih h.2

theorem settled_onAccept (s : Session) (localEndpoint : Option ℕ) :
    Settled .reading s.userId (settle (onAccept s localEndpoint) ∅) := by
  simp only [Settled, onAccept]
  split_ifs with hpos
  · cases localEndpoint <;> simp [settle, onSets]
  · simp [settle, hpos]

theorem settled_handlePacket {s : Session} {p : Packet} {S : Set ℤ} (out : Surroundings)
    (hS : Settled .reading s.userId S) (hlogin : ∀ id, newUser pb s p = some id → S ⊆ {id}) :
    Settled .reading (handlePacket e pb out s p).session.userId
      (settle (handlePacket e pb out s p).effects S) := by
  cases hnew : newUser pb s p with
  | none =>
    obtain ⟨hsession, hlocal⟩ := handlePacket_of_none e pb out s hnew
    rw [hsession, settle_local hlocal]
    exact hS
  | some id =>
    have hhandle := handlePacket_of_some e pb out s hnew
    have hsettle : settle (handlePacket e pb out s p).effects S = insert id S := by
      rw [hhandle]
      cases out.localEndpoint <;> rfl
    rw [hsettle, hhandle]
    exact ⟨Set.insert_subset rfl (hlogin id hnew), fun _ ↦ Set.mem_insert id S⟩

theorem settled_onReadError {s : Session} {S : Set ℤ} (hS : Settled .reading s.userId S) :
    Settled .ended s.userId (settle (onReadError s) S) := by
  simp only [Settled, onReadError, settle, List.foldl_cons, List.foldl_nil, onSets]
  exact Set.sdiff_eq_empty.mpr hS.1

theorem settled_start {c c' : Conn} {h : Handler} {S : Set ℤ} (hc : c.start e pb h = some c')
    (hS : Settled c.chain c.session.userId S) (hpending : c.pending = [])
    (hmagic : h = .badMagic → S = ∅)
    (hlogin : ∀ p call endpoint, h = .packet p call endpoint →
      ∀ id, newUser pb c.session p = some id → S ⊆ {id}) :
    Settled c'.chain c'.session.userId (settle c'.pending S) := by
  unfold Conn.start at hc
  split at hc
  · next hchain =>
    cases hc
    simpa [Settled, hchain, hpending, settle] using hS
  · next endpoint hchain =>
    cases hc
    have hempty : S = ∅ := by simpa [Settled, hchain] using hS
    subst hempty
    exact settled_onAccept c.session _
  · next p call endpoint hchain =>
    cases hc
    rw [hchain] at hS ⊢
    exact settled_handlePacket _ hS (hlogin p call endpoint rfl)
  · cases hc
    simpa [Settled, hpending, settle] using hmagic rfl
  · next hchain =>
    cases hc
    rw [hchain] at hS
    exact settled_onReadError hS
  · cases hc

/-- Every session will be settled once its running handler is through. -/
def Inv (st : Gateways) : Prop :=
  Home st ∧ ∀ i c, st.conns[i]? = some c →
    Settled c.chain c.session.userId (settle c.pending (sets st.managers i c.gateway))

theorem inv_next {a : Action} (hok : KeepsMembership pb st a) (hstep : next e pb st a = some st')
    (hI : Inv st) : Inv st' := by
  refine ⟨home_next hstep hI.1, ?_⟩
  intro j x hx
  obtain ⟨g, s, rfl, -, rfl⟩ | ⟨i, h, c, c', rfl, hc, hpending, hc', rfl⟩ |
    ⟨i, c, ef, rest, rfl, hc, hpending, rfl⟩ | ⟨g, u, d, rfl, rfl⟩ := next_cases hstep
  · rcases getElem?_concat_some hx with hx | ⟨rfl, rfl⟩
    · exact hI.2 j x hx
    · exact hI.1.sets_new le_rfl
  · rcases getElem?_set_some hc hx with ⟨rfl, rfl⟩ | ⟨-, hx⟩
    · have hS := hI.2 j c hc
      rw [hpending, settle, List.foldl_nil] at hS
      rw [(start_frame hc').1]
      apply settled_start hc' hS hpending
      · intro heq
        obtain rfl := heq
        exact hok c hc
      · intro p call endpoint heq
        obtain rfl := heq
        exact hok c hc
    · exact hI.2 j x hx
  · rw [effect_conns] at hx
    rw [sets_effect]
    rcases getElem?_set_some hc hx with ⟨rfl, rfl⟩ | ⟨hj, hx⟩
    · have hS := hI.2 j c hc
      rw [hpending, settle, List.foldl_cons] at hS
      rw [if_pos ⟨rfl, rfl⟩]
      exact hS
    · rw [if_neg fun h ↦ hj h.1]
      exact hI.2 j x hx
  · exact hI.2 j x hx

theorem inv_start (r : Redis) : Inv (start r) := by
  refine ⟨home_start r, ?_⟩
  intro i c hc
  simp [start] at hc

theorem Inv.membership (hI : Inv st) : MembershipInvariant st := by
  intro i c hc hpending
  have hS := hI.2 i c hc
  rw [hpending, settle, List.foldl_nil] at hS
  refine ⟨?_, ?_⟩
  · intro hchain hpos
    rw [hchain] at hS
    exact hS.1.antisymm (Set.singleton_subset_iff.mpr (hS.2 hpos))
  · intro hchain
    rwa [hchain] at hS

/-- In a run whose bad magic and logins come only where they are harmless, the
membership invariant holds throughout. -/
theorem membership_invariant {r : Redis}
    (h : Reach (next e pb) (KeepsMembership pb) (start r) st) : MembershipInvariant st := by
  apply Inv.membership
  exact h.invariant (fun _ _ _ hok hstep hI ↦ inv_next hok hstep hI) (inv_start r)

/-- User 7 is connected to gateway 8080 and enters gateway 8081 by a login
packet. The first connection breaks. -/
theorem membership_invariant_login :
    ∃ st, MembershipInvariant st ∧ sets st.managers 0 8080 = ∅ ∧ sets st.managers 1 8081 = {7} := by
  let login : Handler := .packet ⟨CommandID.loginReq.value, [10, 1, 55]⟩ backendsDown.call true
  have hconnected : Reach (next .little loginCodec) (KeepsMembership loginCodec) (start .empty) _ :=
    (((Reach.refl _).tail (a := .upgrade 8080 ⟨7, ascii "PC"⟩) trivial rfl).tail
      (a := .handle 0 (.accept true)) trivial rfl).tail (a := .perform 0) trivial rfl |>.tail
        (a := .perform 0) trivial rfl
  have hanonymous := (hconnected.tail (a := .upgrade 8081 ⟨0, ascii "PC"⟩) trivial rfl).tail
    (a := .handle 1 (.accept true)) trivial rfl
  have hlogin := hanonymous.tail (a := .handle 1 login) ?enters rfl
  have hentered := ((hlogin.tail (a := .perform 1) trivial rfl).tail (a := .perform 1) trivial rfl).tail
    (a := .perform 1) trivial rfl
  have hbroken := ((hentered.tail (a := .handle 0 .readError) trivial rfl).tail (a := .perform 0) trivial rfl).tail
    (a := .perform 0) trivial rfl
  case enters =>
    intro c hc id _ u hu
    obtain rfl := Option.some.inj hc
    cases hu
  have hinv := membership_invariant hbroken
  exact ⟨_, hinv, (hinv 0 _ rfl rfl).2 rfl, (hinv 1 _ rfl rfl).1 rfl (by decide)⟩

/-- A handshake session of user 7 sends nine bytes of bad magic: its read chain
ends and it stays in the set of user 7. -/
theorem not_membership_invariant :
    ¬ ∀ st, Reach (next .little loginCodec) anyStep (start .empty) st → MembershipInvariant st := by
  intro h
  obtain ⟨st, hrun, hst⟩ : ∃ st, Reach (next .little loginCodec) anyStep (start .empty) st ∧
      ¬ MembershipInvariant st := by
    refine exists_reach_of_exec
      [.upgrade 8080 ⟨7, ascii "PC"⟩, .handle 0 (.accept true), .perform 0, .perform 0,
        .handle 0 .badMagic] ⟨_, rfl, ?_⟩
    intro hinv
    have hempty := (hinv 0 _ rfl rfl).2 rfl
    have hmem : (0 : ℕ) ∈ ConnectionManager.sessions (ConnectionManager.empty.join 7 0) 7 := by decide
    exact Set.eq_empty_iff_forall_notMem.mp hempty 7 hmem
  exact hst (h st hrun)

end TinyIM.Gateway.Membership
