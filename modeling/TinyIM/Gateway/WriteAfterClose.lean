import TinyIM.Gateway.WriteQueue

namespace TinyIM.Gateway.WriteAfterClose

open Library.ByteOrder Library.Transition Protocol.WireFormat WriteQueue

/-- What the write path of a session initiates on its stream. -/
inductive Call
  | asyncWrite (msg : Bytes)
  | asyncClose
  deriving DecidableEq, Repr

/-- The writes that are outstanding when the handler begins. -/
def outstandingAt (s : Strand) : Action → List Bytes
  | .onWrite i _ => s.outstanding.eraseIdx i
  | _ => s.outstanding

/-- What a handler that took the strand from `s` to `s'` has initiated. -/
def initiated (s : Strand) (a : Action) (s' : Strand) : List Call :=
  (s'.outstanding.drop (outstandingAt s a).length).map .asyncWrite ++
    (s'.closings.drop s.closings.length).map fun _ ↦ .asyncClose

/-- A session with all that its handlers have initiated, in order. -/
structure Logged where
  strand : Strand
  calls : List Call
  deriving DecidableEq, Repr

namespace Logged

def init : Logged := ⟨.init, []⟩

def step (e : Endian) (s : Logged) (a : Action) : Option Logged :=
  (s.strand.step e a).map fun t ↦ ⟨t, s.calls ++ initiated s.strand a t⟩

end Logged

/-- `Close` is initiated at most once, and no write after it. -/
structure NothingAfterClose (calls : List Call) : Prop where
  once : calls.count .asyncClose ≤ 1
  last : ∀ msg, ¬ List.Sublist [.asyncClose, .asyncWrite msg] calls

/-- The state in which `OnWrite` closes: a kick was queued, and all is written. -/
def Drained (s : Strand) : Prop := s.closeAfterWrite = true ∧ s.writeQueue = []

instance (s : Strand) : Decidable (Drained s) := inferInstanceAs (Decidable (_ ∧ _))

/-- No message is pushed when the queue has been drained for a kick. -/
def InTime (s : Strand) : Action → Prop
  | .onWrite _ _ => True
  | _ => ¬ Drained s

instance (s : Strand) : (a : Action) → Decidable (InTime s a)
  | .onWrite _ _ => instDecidableTrue
  | .send _ | .kick => instDecidableNot (p := Drained s)

theorem nothingAfterClose_nil : NothingAfterClose [] :=
  ⟨Nat.zero_le _, fun _ h ↦ absurd (List.sublist_nil.mp h) (List.cons_ne_nil _ _)⟩

/-- The next call is in order if none of those before it was a `Close`. -/
theorem nothingAfterClose_concat {calls : List Call} {c : Call} :
    NothingAfterClose (calls ++ [c]) ↔ .asyncClose ∉ calls := by
  constructor
  · intro h hclosed
    cases c with
    | asyncWrite msg =>
      have hlast : [Call.asyncWrite msg].Sublist [.asyncWrite msg] := List.Sublist.refl _
      exact h.last msg ((List.singleton_sublist.mpr hclosed).append hlast)
    | asyncClose =>
      have honce := h.once
      have hpos := List.count_pos_iff.mpr hclosed
      rw [List.count_append, List.count_singleton_self] at honce
      omega
  · intro hopen
    refine ⟨?_, fun msg hsub ↦ ?_⟩
    · have hlast : [c].count .asyncClose ≤ 1 := List.count_le_length
      rw [List.count_append, List.count_eq_zero_of_not_mem hopen]
      omega
    · obtain ⟨first, last, heq, hfirst, hlast⟩ := List.sublist_append_iff.mp hsub
      cases first with
      | nil =>
        have hlength := hlast.length_le
        rw [← List.nil_append last, ← heq] at hlength
        exact absurd hlength (Nat.not_succ_le_self 1)
      | cons c first =>
        obtain ⟨rfl, -⟩ := List.cons_eq_cons.mp heq
        exact hopen (hfirst.subset List.mem_cons_self)

theorem NothingAfterClose.of_append {first rest : List Call} (h : NothingAfterClose (first ++ rest)) :
    NothingAfterClose first := by
  have hfirst := List.sublist_append_left first rest
  exact ⟨(hfirst.count_le _).trans h.once, fun msg hsub ↦ h.last msg (hsub.trans hfirst)⟩

/-- One write at a time, of the front of the queue. A write that has failed
leaves the rest of the queue behind. -/
structure Serial (s : Strand) : Prop where
  writing : s.isWriting = true → ∃ front rest, s.writeQueue = front :: rest ∧ s.outstanding = [front]
  waiting : s.isWriting = false → s.outstanding = []

section steps

variable {e : Endian} {s s' : Strand} {a : Action}

theorem serial_init : Serial .init := ⟨nofun, fun _ ↦ rfl⟩

theorem drained_push (msg : Bytes) (closing : Bool) :
    ¬ Drained { s.push msg with closeAfterWrite := closing } :=
  fun h ↦ List.append_ne_nil_of_right_ne_nil _ (List.cons_ne_nil _ _) h.2

/-- A pushed message waits for the outstanding write, or the front of the queue
is written at once. -/
theorem Serial.enqueue (h : Serial s) (msg : Bytes) (closing : Bool) :
    (s.isWriting = true ∧ { s.push msg with closeAfterWrite := closing }.doWrite =
      { s.push msg with closeAfterWrite := closing }) ∨
    (s.isWriting = false ∧ ∃ front rest, s.writeQueue ++ [msg] = front :: rest ∧
      { s.push msg with closeAfterWrite := closing }.doWrite =
        { s.push msg with
          isWriting := true
          closeAfterWrite := closing
          outstanding := [front] }) := by
  obtain ⟨front, rest, hqueue⟩ : ∃ front rest, s.writeQueue ++ [msg] = front :: rest :=
    List.exists_cons_of_ne_nil (List.append_ne_nil_of_right_ne_nil _ (List.cons_ne_nil _ _))
  cases hwriting : s.isWriting with
  | true => exact .inl ⟨rfl, by simp [Strand.push, Strand.doWrite, hqueue, hwriting]⟩
  | false =>
    have hnone := h.waiting hwriting
    exact .inr ⟨rfl, front, rest, hqueue,
      by simp [Strand.push, Strand.doWrite, hqueue, hwriting, hnone]⟩

theorem initiated_of_same (hout : s'.outstanding = outstandingAt s a)
    (hclosings : s'.closings = s.closings) : initiated s a s' = [] := by
  rw [initiated, hout, hclosings, List.drop_length, List.drop_length]
  rfl

/-- A handler that pushes a message starts a write if none is outstanding. -/
theorem Serial.push_cases (h : Serial s) (msg : Bytes) (closing : Bool)
    (hs' : s' = { s.push msg with closeAfterWrite := closing }.doWrite)
    (ha : outstandingAt s a = s.outstanding) :
    Serial s' ∧ ¬ Drained s' ∧
      ((¬ Drained s ∧ initiated s a s' = []) ∨ ∃ msg, initiated s a s' = [.asyncWrite msg]) := by
  have hpushed := drained_push (s := s) msg closing
  rcases h.enqueue msg closing with ⟨hwriting, hqueued⟩ | ⟨hidle, front, rest, hqueue, hstarted⟩
  · obtain ⟨front, rest, hqueue, hone⟩ := h.writing hwriting
    rw [hqueued] at hs'
    subst hs'
    refine ⟨⟨fun _ ↦ ⟨front, rest ++ [msg], ?_, hone⟩, fun hidle ↦ ?_⟩, hpushed, .inl ⟨?_, ?_⟩⟩
    · change s.writeQueue ++ [msg] = front :: (rest ++ [msg])
      rw [hqueue, List.cons_append]
    · exact absurd (hwriting.symm.trans hidle) (by decide)
    · exact fun hdrained ↦ absurd (hqueue.symm.trans hdrained.2) (List.cons_ne_nil _ _)
    · exact initiated_of_same ha.symm rfl
  · rw [hstarted] at hs'
    subst hs'
    refine ⟨⟨fun _ ↦ ⟨front, rest, hqueue, rfl⟩, nofun⟩, hpushed, .inr ⟨front, ?_⟩⟩
    simp [initiated, ha, h.waiting hidle, Strand.push]

/-- After a failure nothing is written until the next push. -/
theorem onWrite_failed {front next : Bytes} {rest : List Bytes}
    (hqueue : s.writeQueue = front :: next :: rest) :
    s.onWrite true = { s with writeQueue := next :: rest, isWriting := false } := by
  simp [Strand.onWrite, hqueue]

theorem Serial.front_of_complete (h : Serial s) {i : ℕ} {failed : Bool}
    (hs : s.complete i failed = some s') :
    ∃ front rest written, s.writeQueue = front :: rest ∧ outstandingAt s (.onWrite i failed) = [] ∧
      s' = { s with outstanding := [], written := written }.onWrite failed := by
  obtain ⟨msg, hmsg, rfl⟩ := Option.map_eq_some_iff.mp hs
  have hwriting : s.isWriting = true := by
    by_contra hidle
    rw [h.waiting (Bool.eq_false_iff.mpr hidle)] at hmsg
    cases hmsg
  obtain ⟨front, rest, hqueue, hone⟩ := h.writing hwriting
  rw [hone, List.getElem?_singleton] at hmsg
  obtain ⟨rfl, -⟩ := Option.ite_none_right_eq_some.mp hmsg
  have hrest : s.outstanding.eraseIdx 0 = [] := by rw [hone]; rfl
  rw [hrest]
  exact ⟨front, rest, _, hqueue, hrest, rfl⟩

/-- The outstanding write is done: the next one starts, or the queue is drained
and perhaps closed, or the rest of it is left behind after a failure. -/
theorem Serial.complete_cases (h : Serial s) {i : ℕ} {failed : Bool}
    (hs : s.complete i failed = some s') :
    Serial s' ∧ ¬ Drained s ∧
      ((¬ Drained s' ∧ initiated s (.onWrite i failed) s' = []) ∨
        (¬ Drained s' ∧ ∃ msg, initiated s (.onWrite i failed) s' = [.asyncWrite msg]) ∨
        (Drained s' ∧ initiated s (.onWrite i failed) s' = [.asyncClose])) := by
  obtain ⟨front, rest, written, hqueue, hnone, rfl⟩ := h.front_of_complete hs
  have hfull : ¬ Drained s := fun hdrained ↦
    absurd (hqueue.symm.trans hdrained.2) (List.cons_ne_nil _ _)
  cases rest with
  | nil =>
    rw [onWrite_drained (s := { s with outstanding := [], written := written }) hqueue failed]
    split_ifs with hkicked
    · refine ⟨⟨nofun, fun _ ↦ rfl⟩, hfull, .inr (.inr ⟨⟨hkicked, rfl⟩, ?_⟩)⟩
      simp [initiated, Strand.close]
    · exact ⟨⟨nofun, fun _ ↦ rfl⟩, hfull, .inl ⟨fun hdrained ↦ hkicked hdrained.1,
        initiated_of_same hnone.symm rfl⟩⟩
  | cons next rest =>
    cases failed with
    | false =>
      rw [onWrite_next (s := { s with outstanding := [], written := written }) hqueue rfl]
      refine ⟨⟨fun _ ↦ ⟨next, rest, rfl, rfl⟩, nofun⟩, hfull, .inr (.inl ⟨nofun, next, ?_⟩)⟩
      simp [initiated, hnone]
    | true =>
      rw [onWrite_failed (s := { s with outstanding := [], written := written }) hqueue]
      exact ⟨⟨nofun, fun _ ↦ rfl⟩, hfull, .inl ⟨nofun, initiated_of_same hnone.symm rfl⟩⟩

theorem drained_of_late (h : ¬ InTime s a) : Drained s := by
  cases a with
  | send => exact not_not.mp h
  | kick => exact not_not.mp h
  | onWrite => exact absurd trivial h

/-- A handler initiates at most one call. Once the queue is drained for a kick,
that is a write. -/
theorem Serial.step_cases (h : Serial s) (hs : s.step e a = some s') :
    Serial s' ∧
      ((¬ Drained s ∧ ¬ Drained s' ∧ initiated s a s' = []) ∨
        ((InTime s a → ¬ Drained s) ∧ ¬ Drained s' ∧ ∃ msg, initiated s a s' = [.asyncWrite msg]) ∨
        (¬ Drained s ∧ Drained s' ∧ initiated s a s' = [.asyncClose])) := by
  cases a with
  | send msg =>
    obtain ⟨hserial, hfull, ⟨hopen, hnone⟩ | hwrite⟩ :=
      h.push_cases msg s.closeAfterWrite (Option.some.inj hs).symm (a := .send msg) rfl
    · exact ⟨hserial, .inl ⟨hopen, hfull, hnone⟩⟩
    · exact ⟨hserial, .inr (.inl ⟨id, hfull, hwrite⟩)⟩
  | kick =>
    obtain ⟨hserial, hfull, ⟨hopen, hnone⟩ | hwrite⟩ :=
      h.push_cases (kickPacket e) true (Option.some.inj hs).symm (a := .kick) rfl
    · exact ⟨hserial, .inl ⟨hopen, hfull, hnone⟩⟩
    · exact ⟨hserial, .inr (.inl ⟨id, hfull, hwrite⟩)⟩
  | onWrite i failed =>
    obtain ⟨hserial, hopen, ⟨hfull, hnone⟩ | ⟨hfull, hwrite⟩ | ⟨hdrained, hclose⟩⟩ := h.complete_cases hs
    · exact ⟨hserial, .inl ⟨hopen, hfull, hnone⟩⟩
    · exact ⟨hserial, .inr (.inl ⟨fun _ ↦ hopen, hfull, hwrite⟩)⟩
    · exact ⟨hserial, .inr (.inr ⟨hopen, hdrained, hclose⟩)⟩

end steps

/-- What holds of a session whose handlers all ran in time. -/
structure Orderly (s : Logged) : Prop where
  serial : Serial s.strand
  closed : .asyncClose ∈ s.calls ↔ Drained s.strand
  nothingAfter : NothingAfterClose s.calls

theorem orderly_init : Orderly .init :=
  ⟨serial_init, iff_of_false List.not_mem_nil (by decide), nothingAfterClose_nil⟩

theorem Orderly.step {e : Endian} {s t : Logged} {a : Action} (h : Orderly s)
    (hok : InTime s.strand a) (hstep : s.step e a = some t) : Orderly t := by
  obtain ⟨strand, hs, rfl⟩ := Option.map_eq_some_iff.mp hstep
  obtain ⟨hserial, ⟨hopen, hfull, hnone⟩ | ⟨hopen, hfull, msg, hwrite⟩ | ⟨hopen, hdrained, hclose⟩⟩ :=
    h.serial.step_cases hs
  · have hunclosed := mt h.closed.mp hopen
    rw [hnone, List.append_nil]
    exact ⟨hserial, iff_of_false hunclosed hfull, h.nothingAfter⟩
  · have hunclosed := mt h.closed.mp (hopen hok)
    rw [hwrite]
    refine ⟨hserial, iff_of_false ?_ hfull, nothingAfterClose_concat.mpr hunclosed⟩
    simpa using hunclosed
  · have hunclosed := mt h.closed.mp hopen
    rw [hclose]
    exact ⟨hserial, iff_of_true (List.mem_append_right _ List.mem_cons_self) hdrained,
      nothingAfterClose_concat.mpr hunclosed⟩

theorem orderly_of_reach {e : Endian} {s : Logged}
    (h : Reach (Logged.step e) (fun s a ↦ InTime s.strand a) .init s) : Orderly s :=
  h.invariant (fun _ _ _ hok hstep hs ↦ hs.step hok hstep) orderly_init

/-- A handler that comes too late writes after the close. -/
theorem Orderly.inTime {e : Endian} {s t : Logged} {a : Action} (h : Orderly s)
    (hstep : s.step e a = some t) (hnothing : NothingAfterClose t.calls) : InTime s.strand a := by
  by_contra hlate
  have hdrained := drained_of_late hlate
  obtain ⟨strand, hs, rfl⟩ := Option.map_eq_some_iff.mp hstep
  obtain ⟨-, ⟨hopen, -, -⟩ | ⟨-, -, msg, hwrite⟩ | ⟨hopen, -, -⟩⟩ := h.serial.step_cases hs
  · exact hopen hdrained
  · rw [hwrite] at hnothing
    exact nothingAfterClose_concat.mp hnothing (h.closed.mpr hdrained)
  · exact hopen hdrained

/-- A run of the handlers keeps the order of the calls if and only if none of
them pushes a message when the queue has been drained for a kick. -/
theorem nothing_after_close_iff {e : Endian} {s : Logged}
    (h : Reach (Logged.step e) anyStep .init s) :
    NothingAfterClose s.calls ↔ Reach (Logged.step e) (fun s a ↦ InTime s.strand a) .init s := by
  refine ⟨fun hnothing ↦ ?_, fun hreach ↦ (orderly_of_reach hreach).nothingAfter⟩
  induction h with
  | refl => exact .refl _
  | tail hrun hlast ih =>
    obtain ⟨a, -, hstep⟩ := hlast
    obtain ⟨strand, hs, rfl⟩ := Option.map_eq_some_iff.mp hstep
    have hreach := ih hnothing.of_append
    exact hreach.tail ((orderly_of_reach hreach).inTime hstep hnothing) hstep

/-- A message, a kick behind it and a message behind that, whose write fails. -/
def closedOnce : List Action :=
  [.send [1], .kick, .onWrite 0 false, .send [2], .onWrite 0 false, .onWrite 0 true]

theorem nothing_after_close_iff_once :
    ∃ s : Logged, NothingAfterClose s.calls ∧
      s.calls = [.asyncWrite [1], .asyncWrite (kickPacket .little), .asyncWrite [2], .asyncClose] := by
  obtain ⟨s, hreach, hcalls⟩ : ∃ s,
      Reach (Logged.step .little) (fun s a ↦ InTime s.strand a) .init s ∧
      s.calls = [.asyncWrite [1], .asyncWrite (kickPacket .little), .asyncWrite [2], .asyncClose] :=
    exists_reach_of_exec closedOnce ⟨_, rfl, rfl⟩
  exact ⟨s, (nothing_after_close_iff (hreach.mono fun _ _ _ ↦ trivial)).mpr hreach, hcalls⟩

/-- The two kicks that one login publishes. The second is handled when the
session has been closed for the first. -/
def kickedTwice : List Action := [.kick, .onWrite 0 false, .kick, .onWrite 0 false]

theorem not_nothing_after_close :
    ∃ s, Reach (Logged.step .little) anyStep .init s ∧ ¬ NothingAfterClose s.calls ∧
      s.calls = [.asyncWrite (kickPacket .little), .asyncClose,
        .asyncWrite (kickPacket .little), .asyncClose] := by
  obtain ⟨s, hreach, hcalls⟩ : ∃ s, Reach (Logged.step .little) anyStep .init s ∧
      s.calls = [.asyncWrite (kickPacket .little), .asyncClose,
        .asyncWrite (kickPacket .little), .asyncClose] :=
    exists_reach_of_exec kickedTwice ⟨_, rfl, rfl⟩
  refine ⟨s, hreach, fun hnothing ↦ ?_, hcalls⟩
  have honce := hnothing.once
  rw [hcalls] at honce
  exact absurd honce (by decide)

end TinyIM.Gateway.WriteAfterClose
