import TinyIM.Dispatch.HttpSession

namespace TinyIM.Dispatch.Connections

open Auth.AuthClient
open HttpSession
open Library.ByteOrder Library.Json Library.Service Protocol Protocol.Http

def answered (i : ℕ) : Outcome → List Response
  | .answers j res => if j = i then [res] else []
  | _ => []

def received (i : ℕ) : Outcome → List Response
  | .sent j res => if j = i then [res] else []
  | _ => []

/-- The answers to the requests that were read on a connection. -/
def answersOn (i : ℕ) (outcomes : List Outcome) : List Response := outcomes.flatMap (answered i)

/-- What the client of the connection has got. -/
def sentTo (i : ℕ) (outcomes : List Outcome) : List Response := outcomes.flatMap (received i)

/-- How a connection stands to what was answered and sent on it. -/
inductive Kept : Option Conn → List Response → List Response → Prop
  | unknown : Kept none [] []
  | fresh : Kept (some (.reading true)) [] []
  | answering (res : Response) : Kept (some (.writing res true)) [res] []
  | again {answers sent : List Response} (hsent : sent <+: answers.take 1)
      (hkeep : ∀ res ∈ answers, res.keepAlive = true) : Kept (some (.reading false)) answers sent
  | mute {answers sent : List Response} (res : Response) (hsent : sent <+: answers.take 1)
      (hkeep : ∀ res ∈ answers, res.keepAlive = true) : Kept (some (.writing res false)) (answers ++ [res]) sent
  | ended {answers sent : List Response} (hsent : sent <+: answers.take 1)
      (hkeep : ∀ res ∈ answers.dropLast, res.keepAlive = true) : Kept (some .ended) answers sent

section Steps

variable {σ : Type} {handle : Env → Bytes → World σ → Request → World σ × Response} {S : Service σ} {st : State σ}
  {i : ℕ} {answers sent : List Response}

theorem conn_setConn (i j : ℕ) (conn : Conn) :
    (st.setConn i conn).conn j = if j = i then some conn else st.conn j := Function.update_apply _ _ _ _

theorem keepAlive_dropLast (h : ∀ res ∈ answers, res.keepAlive = true) :
    ∀ res ∈ answers.dropLast, res.keepAlive = true :=
  fun res hres ↦ h res (List.mem_of_mem_dropLast hres)

/-- The next request has been read. -/
theorem Kept.read {sendOpen : Bool} (h : Kept (some (.reading sendOpen)) answers sent) (res : Response) :
    Kept (some (.writing res sendOpen)) (answers ++ [res]) sent := by
  cases h with
  | fresh => exact .answering res
  | again hsent hkeep => exact .mute res hsent hkeep

theorem Kept.readError {sendOpen : Bool} (h : Kept (some (.reading sendOpen)) answers sent) :
    Kept (some .ended) answers sent := by
  cases h with
  | fresh => exact .ended (List.prefix_refl _) fun _ hres ↦ absurd hres List.not_mem_nil
  | again hsent hkeep => exact .ended hsent (keepAlive_dropLast hkeep)

/-- A response has been written, or lost. -/
theorem Kept.written {res : Response} {sendOpen : Bool} (h : Kept (some (.writing res sendOpen)) answers sent)
    (ok shut : Bool) :
    Kept (some (if shut ∧ res.keepAlive then .reading false else .ended)) answers
      (sent ++ if ok ∧ sendOpen then [res] else []) := by
  have hends : ∀ {answers sent : List Response}, sent <+: (answers ++ [res]).take 1 →
      (∀ res ∈ answers, res.keepAlive = true) →
      Kept (some (if shut ∧ res.keepAlive then .reading false else .ended)) (answers ++ [res]) sent := by
    intro answers sent hsent hkeep
    split_ifs with hgoes
    · refine .again hsent ?_
      intro r hr
      rcases List.mem_append.mp hr with hold | hnew
      · exact hkeep r hold
      · exact List.mem_singleton.mp hnew ▸ hgoes.2
    · refine .ended hsent ?_
      rwa [List.dropLast_concat]
  cases h with
  | answering =>
    have hsent : [] ++ (if ok ∧ true then [res] else []) <+: ([] ++ [res]).take 1 := by
      split_ifs
      · exact List.prefix_refl _
      · exact List.nil_prefix
    exact hends hsent fun _ hr ↦ absurd hr List.not_mem_nil
  | mute _ hsent hkeep =>
    have hmute : ¬ (ok = true ∧ false = true) := fun h ↦ Bool.false_ne_true h.2
    rw [if_neg hmute, List.append_nil]
    exact hends (hsent.trans ((List.prefix_append _ _).take 1)) hkeep

theorem kept_serve (h : Kept (st.conn i) answers sent) (ev : Event) :
    let r := serveWith handle S st ev
    Kept (r.1.conn i) (answers ++ answered i r.2) (sent ++ received i r.2) := by
  -- an event that tells the connection nothing
  have hquiet : Kept (st.conn i) (answers ++ []) (sent ++ []) := by rwa [List.append_nil, List.append_nil]
  cases ev with
  | accept j =>
    rw [serveWith]
    split
    · next hfree =>
      simp only [conn_setConn, answered, received, List.append_nil]
      split_ifs with hij
      · subst hij
        rw [hfree] at h
        cases h
        exact .fresh
      · exact h
    · exact hquiet
  | read j req env drawn =>
    rw [serveWith]
    split
    · next sendOpen hreading =>
      simp only [conn_setConn, answered, received, List.append_nil]
      by_cases hij : j = i
      · subst hij
        rw [hreading] at h
        rw [if_pos rfl, if_pos rfl]
        exact h.read _
      · rw [if_neg (Ne.symm hij), if_neg hij, List.append_nil]
        exact h
    · exact hquiet
  | readError j =>
    rw [serveWith]
    split
    · next sendOpen hreading =>
      simp only [conn_setConn, answered, received, List.append_nil]
      split_ifs with hij
      · subst hij
        rw [hreading] at h
        exact h.readError
      · exact h
    · exact hquiet
  | written j ok shut =>
    rw [serveWith]
    split
    · next res sendOpen hwriting =>
      by_cases hij : j = i
      · subst hij
        rw [hwriting] at h
        have hwritten := h.written ok shut
        simp only [conn_setConn, if_true]
        split_ifs at hwritten ⊢ <;> simpa [answered, received] using hwritten
      · simp only [conn_setConn, if_neg (Ne.symm hij)]
        split_ifs <;> simpa [answered, received, hij] using h
    · exact hquiet
  | gateways newList => exact hquiet
  | elsewhere call => exact hquiet

end Steps

theorem Kept.first {conn : Option Conn} {answers sent : List Response} (h : Kept conn answers sent) :
    sent <+: answers.take 1 ∧ ∀ res ∈ answers.dropLast, res.keepAlive = true := by
  cases h with
  | unknown => exact ⟨List.prefix_refl _, fun _ hres ↦ absurd hres List.not_mem_nil⟩
  | fresh => exact ⟨List.prefix_refl _, fun _ hres ↦ absurd hres List.not_mem_nil⟩
  | answering res => exact ⟨List.nil_prefix, fun _ hres ↦ absurd hres List.not_mem_nil⟩
  | again hsent hkeep => exact ⟨hsent, keepAlive_dropLast hkeep⟩
  | mute res hsent hkeep =>
    refine ⟨hsent.trans ((List.prefix_append _ _).take 1), ?_⟩
    rwa [List.dropLast_concat]
  | ended hsent hkeep => exact ⟨hsent, hkeep⟩

section Runs

variable {σ : Type} (S : Service σ) (json : Codec) (w : World σ)

/-- A request that is read is carried out, and its answer is the next one on the connection. -/
theorem carried_out (before after : List Event) (i : ℕ) (req : Request) (env : Env) (drawn : ℕ) {sendOpen : Bool}
    (hreading : (final (serve S json) { world := w } before).conn i = some (.reading sendOpen)) :
    let st := final (serve S json) { world := w } before
    let d := handleRequest S json env (st.pick drawn) st.world req
    (serve S json st (.read i req env drawn)).1.world = d.1 ∧
      answersOn i (replies (serve S json) { world := w } before) ++ [d.2] <+:
        answersOn i (replies (serve S json) { world := w } (before ++ .read i req env drawn :: after)) := by
  intro st d
  have hserve : serve S json st (.read i req env drawn) =
      ({ st with world := d.1 }.setConn i (.writing d.2 sendOpen), .answers i d.2) := by
    rw [serve, serveWith, hreading]
  refine ⟨by rw [hserve]; rfl, ?_⟩
  rw [replies_append, replies, hserve, answersOn, answersOn, List.flatMap_append, List.flatMap_cons, answered,
    if_pos rfl, ← List.append_assoc]
  exact List.prefix_append _ _

/-- A client gets at most one response on a connection, the answer to its first
request, although all requests that are read are carried out and answered. A
request is read only behind answers that keep the connection alive. -/
theorem first_response (events : List Event) (i : ℕ) :
    let outcomes := replies (serve S json) { world := w } events
    sentTo i outcomes <+: (answersOn i outcomes).take 1 ∧
      (∀ res ∈ (answersOn i outcomes).dropLast, res.keepAlive = true) ∧
      ∀ before req env drawn after sendOpen, events = before ++ .read i req env drawn :: after →
        let st := final (serve S json) { world := w } before
        st.conn i = some (.reading sendOpen) →
          let d := handleRequest S json env (st.pick drawn) st.world req
          (serve S json st (.read i req env drawn)).1.world = d.1 ∧
            answersOn i (replies (serve S json) { world := w } before) ++ [d.2] <+: answersOn i outcomes := by
  intro outcomes
  have hpermits : Permits (serve S json) (fun _ _ ↦ True) { world := w } events :=
    Permits.of_forall fun _ _ _ ↦ trivial
  have hhistory := hpermits.history (I := fun before st ↦
    st = final (serve S json) { world := w } before ∧
      Kept (st.conn i) (answersOn i (replies (serve S json) { world := w } before))
        (sentTo i (replies (serve S json) { world := w } before))) ?step ⟨rfl, .unknown⟩
  · obtain ⟨hsent, hkeep⟩ := hhistory.2.first
    refine ⟨hsent, hkeep, ?_⟩
    intro before req env drawn after sendOpen hevents st hreading
    have hcarried := carried_out S json w before after i req env drawn hreading
    rwa [← hevents] at hcarried
  case step =>
    rintro before _ ev - ⟨rfl, hbefore⟩
    have hnext : final (serve S json) { world := w } (before ++ [ev]) =
        (serve S json (final (serve S json) { world := w } before) ev).1 := final_append
    refine ⟨hnext.symm, ?_⟩
    rw [replies_append, answersOn, sentTo, List.flatMap_append, List.flatMap_append]
    simp only [replies, List.flatMap_cons, List.flatMap_nil, List.append_nil]
    exact kept_serve hbefore ev

end Runs

end TinyIM.Dispatch.Connections
