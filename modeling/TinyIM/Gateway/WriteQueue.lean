import TinyIM.Library.Transition
import TinyIM.Protocol.WireFormat

namespace TinyIM.Gateway.WriteQueue

open Library.ByteOrder Library.Transition Protocol.WireFormat

/-- What `OnWrite` found when it initiated `Close`. -/
structure Closing where
  queue : List Bytes
  written : List Bytes
  deriving DecidableEq, Repr

/-- The write side of a session. Beside the members of the class: the calls of
`async_write` that have not completed, what was written so far, and every `Close`
of the write path. -/
structure Strand where
  writeQueue : List Bytes
  isWriting : Bool
  closeAfterWrite : Bool
  outstanding : List Bytes
  written : List Bytes
  closings : List Closing
  deriving DecidableEq, Repr

/-- The handlers that run on the strand. `onWrite` is the completion of the
outstanding write number `i`, with or without an error. -/
inductive Action
  | send (msg : Bytes)
  | kick
  | onWrite (i : ℕ) (failed : Bool)
  deriving DecidableEq, Repr

namespace Strand

def init : Strand := ⟨[], false, false, [], [], []⟩

variable (e : Endian) (s : Strand)

def push (msg : Bytes) : Strand := { s with writeQueue := s.writeQueue ++ [msg] }

def doWrite : Strand :=
  match s.writeQueue with
  | [] => s
  | msg :: _ =>
    if s.isWriting then s
    else { s with isWriting := true, outstanding := s.outstanding ++ [msg] }

def close : Strand :=
  { s with closings := s.closings ++ [⟨s.writeQueue, s.written⟩] }

def send (msg : Bytes) : Strand := (s.push msg).doWrite

def kick : Strand :=
  { s.push (kickPacket e) with closeAfterWrite := true }.doWrite

/-- The handler, after the transport is done with the write. -/
def onWrite (failed : Bool) : Strand :=
  let s := { s with writeQueue := s.writeQueue.tail, isWriting := false }
  if s.writeQueue ≠ [] ∧ ¬ failed then s.doWrite
  else if s.writeQueue = [] ∧ s.closeAfterWrite then s.close
  else s

def complete (i : ℕ) (failed : Bool) : Option Strand :=
  s.outstanding[i]?.map fun msg ↦
    { s with
      outstanding := s.outstanding.eraseIdx i
      written := if failed then s.written else s.written ++ [msg] }.onWrite failed

def step : Action → Option Strand
  | .send msg => some (s.send msg)
  | .kick => some (s.kick e)
  | .onWrite i failed => s.complete i failed

end Strand

def Succeeds (_ : Strand) : Action → Prop
  | .onWrite _ failed => failed = false
  | _ => True

instance (s : Strand) (a : Action) : Decidable (Succeeds s a) := by
  unfold Succeeds
  split <;> infer_instance

/-- The message that a handler pushes. -/
def pushOf (e : Endian) : Action → Option Bytes
  | .send msg => some msg
  | .kick => some (kickPacket e)
  | .onWrite _ _ => none

/-- The messages that the handlers push, in order. -/
def pushes (e : Endian) (as : List Action) : List Bytes := as.filterMap (pushOf e)

/-- All that is pushed before the first kick packet, and that packet. -/
def throughKick (e : Endian) (as : List Action) : List Bytes :=
  pushes e (as.takeWhile (· ≠ .kick)) ++ [kickPacket e]

/-- What holds of a session whose strand has run the handlers `as`. -/
structure WriteProtocol (e : Endian) (as : List Action) (s : Strand) : Prop where
  /-- At most one write is outstanding, and the flag tells whether one is. -/
  atMostOne : s.outstanding.length ≤ 1
  flag : s.isWriting = true ↔ s.outstanding ≠ []
  /-- What was pushed was written or waits, in order. -/
  order : pushes e as = s.written ++ s.writeQueue
  /-- A write is of the front. -/
  front : s.outstanding = s.writeQueue.take 1
  drained : s.outstanding = [] → s.writeQueue = []
  /-- `Close` comes after a kick, when all that was pushed until then is written. -/
  closing : ∀ c ∈ s.closings, c.queue = [] ∧ ∃ before, before <+: as ∧ .kick ∈ before ∧
    c.written = pushes e before ∧ throughKick e before <+: c.written
  closes : .kick ∈ as → s.outstanding = [] → s.closings ≠ []

structure Invariant (e : Endian) (as : List Action) (s : Strand) : Prop
    extends WriteProtocol e as s where
  kicked : s.closeAfterWrite = true ↔ .kick ∈ as

theorem pushes_concat (e : Endian) (as : List Action) (a : Action) :
    pushes e (as ++ [a]) = pushes e as ++ (pushOf e a).toList := by
  rw [pushes, List.filterMap_append]
  cases h : pushOf e a <;> simp [pushes, h]

theorem throughKick_prefix {e : Endian} {as : List Action} (h : .kick ∈ as) :
    throughKick e as <+: pushes e as := by
  induction as with
  | nil => exact absurd h List.not_mem_nil
  | cons a as ih =>
    by_cases ha : a = .kick
    · subst ha
      exact ⟨pushes e as, rfl⟩
    · have hrest := ih ((List.mem_cons.mp h).resolve_left (Ne.symm ha))
      have hthrough : throughKick e (a :: as) = (pushOf e a).toList ++ throughKick e as := by
        rw [throughKick, List.takeWhile_cons_of_pos (by simpa using ha)]
        cases hpush : pushOf e a <;> simp [throughKick, pushes, hpush]
      have hpushes : pushes e (a :: as) = (pushOf e a).toList ++ pushes e as := by
        cases hpush : pushOf e a <;> simp [pushes, hpush]
      rw [hthrough, hpushes]
      exact (List.prefix_append_right_inj _).mpr hrest

section steps

variable {e : Endian} {as : List Action} {s s' : Strand}

theorem take_one_eq_nil {α : Type} {l : List α} : l.take 1 = [] ↔ l = [] := by
  cases l <;> simp

/-- A message that is pushed is written at once, or after those before it. -/
theorem doWrite_push (h : Invariant e as s) (msg : Bytes) (closing : Bool) :
    { s.push msg with closeAfterWrite := closing }.doWrite =
      { s.push msg with
        isWriting := true
        closeAfterWrite := closing
        outstanding := (s.writeQueue ++ [msg]).take 1 } := by
  cases hqueue : s.writeQueue with
  | nil =>
    have hnone : s.outstanding = [] := by rw [h.front, hqueue, List.take_nil]
    have hflag : s.isWriting = false :=
      Bool.eq_false_iff.mpr fun htrue ↦ h.flag.mp htrue hnone
    simp [Strand.push, Strand.doWrite, hqueue, hnone, hflag]
  | cons front rest =>
    have hone : s.outstanding = [front] := by rw [h.front, hqueue]; rfl
    have hflag : s.isWriting = true := h.flag.mpr (by simp [hone])
    simp [Strand.push, Strand.doWrite, hqueue, hone, hflag]

/-- What was closed before stays so when more handlers run. -/
theorem Invariant.closing_concat (h : Invariant e as s) (a : Action) {c : Closing}
    (hc : c ∈ s.closings) : c.queue = [] ∧ ∃ before, before <+: as ++ [a] ∧ .kick ∈ before ∧
      c.written = pushes e before ∧ throughKick e before <+: c.written := by
  obtain ⟨hdrained, before, hbefore, hrest⟩ := h.closing c hc
  exact ⟨hdrained, before, hbefore.trans (List.prefix_append as [a]), hrest⟩

theorem Invariant.enqueue (h : Invariant e as s) {a : Action} {msg : Bytes}
    (ha : pushOf e a = some msg) {closing : Bool} (hkicked : closing = true ↔ .kick ∈ as ++ [a]) :
    Invariant e (as ++ [a]) { s.push msg with closeAfterWrite := closing }.doWrite := by
  have hstarted : (s.writeQueue ++ [msg]).take 1 ≠ [] := by
    rw [Ne, take_one_eq_nil]
    exact List.append_ne_nil_of_right_ne_nil _ (List.cons_ne_nil _ _)
  rw [doWrite_push h]
  refine ⟨⟨List.length_take_le _ _, iff_of_true rfl hstarted, ?_, rfl, take_one_eq_nil.mp,
    fun c hc ↦ h.closing_concat a hc, fun _ hnone ↦ absurd hnone hstarted⟩, hkicked⟩
  change pushes e (as ++ [a]) = s.written ++ (s.writeQueue ++ [msg])
  rw [pushes_concat, ha, h.order, List.append_assoc]
  rfl

theorem Invariant.send (h : Invariant e as s) (msg : Bytes) :
    Invariant e (as ++ [.send msg]) (s.send msg) := by
  refine h.enqueue rfl ?_
  simpa using h.kicked

theorem Invariant.kick (h : Invariant e as s) : Invariant e (as ++ [.kick]) (s.kick e) :=
  h.enqueue rfl (iff_of_true rfl (List.mem_append_right _ List.mem_cons_self))

theorem Invariant.onWrite_of_complete (h : Invariant e as s) {i : ℕ}
    (hs : s.complete i false = some s') :
    ∃ front rest, s.writeQueue = front :: rest ∧
      s' = { s with outstanding := [], written := s.written ++ [front] }.onWrite false := by
  obtain ⟨msg, hmsg, rfl⟩ := Option.map_eq_some_iff.mp hs
  have hne : s.writeQueue ≠ [] := by
    intro hnil
    rw [h.front, hnil] at hmsg
    cases hmsg
  obtain ⟨front, rest, hqueue⟩ := List.exists_cons_of_ne_nil hne
  have hone : s.outstanding = [front] := by rw [h.front, hqueue]; rfl
  rw [hone, List.getElem?_singleton] at hmsg
  obtain ⟨rfl, hfront⟩ := Option.ite_none_right_eq_some.mp hmsg
  obtain rfl := Option.some.inj hfront
  refine ⟨front, rest, hqueue, ?_⟩
  rw [hone]
  rfl

theorem onWrite_next {front next : Bytes} {rest : List Bytes}
    (hqueue : s.writeQueue = front :: next :: rest) (hnone : s.outstanding = []) :
    s.onWrite false = { s with
      writeQueue := next :: rest
      isWriting := true
      outstanding := [next] } := by
  simp [Strand.onWrite, Strand.doWrite, hqueue, hnone]

theorem onWrite_drained {front : Bytes} (hqueue : s.writeQueue = [front]) (failed : Bool) :
    s.onWrite failed =
      if s.closeAfterWrite then { s with writeQueue := [], isWriting := false }.close
      else { s with writeQueue := [], isWriting := false } := by
  simp [Strand.onWrite, hqueue]

/-- A completion pushes nothing, and is no kick. -/
theorem pushes_onWrite (i : ℕ) : pushes e (as ++ [.onWrite i false]) = pushes e as := by
  rw [pushes_concat]
  exact List.append_nil _

theorem kick_mem_onWrite {i : ℕ} : .kick ∈ as ++ [.onWrite i false] ↔ .kick ∈ as := by
  simp

theorem Invariant.next (h : Invariant e as s) (i : ℕ) {front next : Bytes} {rest : List Bytes}
    (hqueue : s.writeQueue = front :: next :: rest) :
    Invariant e (as ++ [.onWrite i false]) { s with
      writeQueue := next :: rest
      isWriting := true
      outstanding := [next]
      written := s.written ++ [front] } := by
  have horder : pushes e (as ++ [.onWrite i false]) = s.written ++ [front] ++ next :: rest := by
    rw [pushes_onWrite, h.order, hqueue, List.append_assoc]
    rfl
  exact ⟨⟨le_rfl, by simp, horder, rfl, nofun, fun c hc ↦ h.closing_concat _ hc, fun _ ↦ nofun⟩,
    h.kicked.trans kick_mem_onWrite.symm⟩

theorem Invariant.drain (h : Invariant e as s) (i : ℕ) {front : Bytes} (hqueue : s.writeQueue = [front])
    {closings : List Closing}
    (hclosings : closings = if s.closeAfterWrite then
      s.closings ++ [⟨[], s.written ++ [front]⟩] else s.closings) :
    Invariant e (as ++ [.onWrite i false]) { s with
      writeQueue := []
      isWriting := false
      outstanding := []
      written := s.written ++ [front]
      closings := closings } := by
  have horder : pushes e (as ++ [.onWrite i false]) = s.written ++ [front] := by
    rw [pushes_onWrite, h.order, hqueue]
  have hkick := h.kicked.trans (kick_mem_onWrite (i := i)).symm
  subst hclosings
  refine ⟨⟨Nat.zero_le _, by simp, by simpa using horder, rfl, fun _ ↦ rfl, ?_, ?_⟩, hkick⟩
  · intro c hc
    change c ∈ ite _ _ _ at hc
    split_ifs at hc with hclose
    · rcases List.mem_append.mp hc with hc | hc
      · exact h.closing_concat _ hc
      · -- `Close` is initiated here, after all the handlers there were
        obtain rfl := List.mem_singleton.mp hc
        exact ⟨rfl, _, List.prefix_refl _, hkick.mp hclose, horder.symm,
          horder ▸ throughKick_prefix (hkick.mp hclose)⟩
    · exact h.closing_concat _ hc
  · intro hmem _
    change ite _ _ _ ≠ []
    rw [if_pos (hkick.mpr hmem)]
    exact List.append_ne_nil_of_right_ne_nil _ (List.cons_ne_nil _ _)

/-- The one write there can be is done: the next one starts, or the queue is
drained. -/
theorem Invariant.complete (h : Invariant e as s) {i : ℕ} (hs : s.complete i false = some s') :
    Invariant e (as ++ [.onWrite i false]) s' := by
  obtain ⟨front, rest, hqueue, rfl⟩ := h.onWrite_of_complete hs
  cases rest with
  | nil =>
    have hdrained := h.drain i hqueue rfl
    rw [onWrite_drained (s := { s with outstanding := [], written := s.written ++ [front] }) hqueue false]
    split_ifs at hdrained ⊢ with hkicked <;> exact hdrained
  | cons next rest =>
    rw [onWrite_next (s := { s with outstanding := [], written := s.written ++ [front] }) hqueue rfl]
    exact h.next i hqueue

end steps

theorem invariant_init (e : Endian) : Invariant e [] .init :=
  ⟨⟨Nat.zero_le _, by decide, rfl, rfl, fun _ ↦ rfl, nofun, nofun⟩, by decide⟩

/-- Every run of the handlers keeps the protocol of the queue. -/
theorem write_protocol {e : Endian} {as : List Action} {s : Strand}
    (h : Run (fun s a ↦ s.step e a) Succeeds .init as s) : WriteProtocol e as s := by
  have hinvariant : Invariant e as s := by
    refine h.invariant ?_ (invariant_init e)
    intro as t a t' hok hstep ht
    cases a with
    | send msg =>
      obtain rfl := Option.some.inj hstep
      exact ht.send msg
    | kick =>
      obtain rfl := Option.some.inj hstep
      exact ht.kick
    | onWrite i failed =>
      obtain rfl := hok
      exact ht.complete hstep
  exact hinvariant.toWriteProtocol

/-- A message, a kick while it is written, and one more message. -/
def kicked : List Action :=
  [.send [1], .kick, .send [2], .onWrite 0 false, .onWrite 0 false, .onWrite 0 false]

theorem write_protocol_kicked :
    ∃ s, Run (fun s a ↦ s.step .little a) Succeeds .init kicked s ∧ WriteProtocol .little kicked s ∧
      s.written = [[1], kickPacket .little, [2]] ∧ s.closings.length = 1 := by
  obtain ⟨s, hexec, hs⟩ : ∃ s, exec (fun s a ↦ Strand.step .little s a) Succeeds .init kicked = some s ∧
      s.written = [[1], kickPacket .little, [2]] ∧ s.closings.length = 1 := ⟨_, rfl, rfl, rfl⟩
  have hrun := run_of_exec kicked hexec
  exact ⟨s, hrun, write_protocol hrun, hs⟩

end TinyIM.Gateway.WriteQueue
