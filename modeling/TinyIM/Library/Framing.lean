import Mathlib.Data.List.Basic

namespace TinyIM.Library.Framing

variable {β α : Type}

/-- What stands at the front of a buffer: too little to tell, something that
can never become a frame, or a frame made of the first `n` symbols. -/
inductive Front (α : Type)
  | wait
  | bad
  | frame (a : α) (n : ℕ)
  deriving DecidableEq, Repr

/-- A framer decides by looking at the front of the buffer only: a decision,
once made, is not changed by the symbols that arrive later, and a frame is
recognised from its own symbols. -/
structure Framer (β α : Type) where
  front : List β → Front α
  pos : ∀ {buf a n}, front buf = .frame a n → 0 < n
  le_length : ∀ {buf a n}, front buf = .frame a n → n ≤ buf.length
  frame_append : ∀ {buf a n} more, front buf = .frame a n → front (buf ++ more) = .frame a n
  frame_take : ∀ {buf a n}, front buf = .frame a n → front (buf.take n) = .frame a n
  bad_append : ∀ {buf} more, front buf = .bad → front (buf ++ more) = .bad

/-- A receiver: the frames delivered so far, whether it has given up, and the
symbols it has not used. -/
structure Receiver (β α : Type) where
  frames : List α
  closed : Bool
  rest : List β
  deriving DecidableEq, Repr

namespace Framer

variable (F : Framer β α)

/-- Takes frames off the front of a buffer while there are any. -/
def run (buf : List β) : Receiver β α :=
  match _h : F.front buf with
  | .wait => ⟨[], false, buf⟩
  | .bad => ⟨[], true, buf⟩
  | .frame a n =>
    let r := run (buf.drop n)
    { r with frames := a :: r.frames }
termination_by buf.length
decreasing_by
  have hn := F.pos _h
  have hl := F.le_length _h
  simp only [List.length_drop]
  omega

/-- A message arrives: it is appended to the unused symbols, unless the
receiver has given up. -/
def feed (r : Receiver β α) (msg : List β) : Receiver β α :=
  if r.closed then r
  else
    let s := F.run (r.rest ++ msg)
    { s with frames := r.frames ++ s.frames }

def start : Receiver β α := ⟨[], false, []⟩

variable {F}

theorem run_wait {buf : List β} (h : F.front buf = .wait) : F.run buf = ⟨[], false, buf⟩ := by
  rw [run]
  split <;> simp_all

theorem run_bad {buf : List β} (h : F.front buf = .bad) : F.run buf = ⟨[], true, buf⟩ := by
  rw [run]
  split <;> simp_all

theorem run_frame {buf : List β} {a : α} {n : ℕ} (h : F.front buf = .frame a n) :
    F.run buf = ⟨a :: (F.run (buf.drop n)).frames, (F.run (buf.drop n)).closed,
      (F.run (buf.drop n)).rest⟩ := by
  rw [run]
  split
  · simp_all
  · simp_all
  · next b m hb =>
    obtain ⟨rfl, rfl⟩ := Front.frame.inj (h.symm.trans hb)
    rfl

variable (F)

theorem run_induction {P : List β → Prop}
    (wait : ∀ buf, F.front buf = .wait → P buf)
    (bad : ∀ buf, F.front buf = .bad → P buf)
    (frame : ∀ buf a n, F.front buf = .frame a n → P (buf.drop n) → P buf) (buf : List β) :
    P buf := by
  induction h : buf.length using Nat.strongRecOn generalizing buf with
  | _ l ih =>
    cases hf : F.front buf with
    | wait => exact wait buf hf
    | bad => exact bad buf hf
    | frame a n =>
      have hn := F.pos hf
      have hl := F.le_length hf
      exact frame buf a n hf (ih _ (by simp only [List.length_drop]; omega) _ rfl)

theorem run_rest (buf : List β) :
    ((F.run buf).closed = true ∧ F.front (F.run buf).rest = .bad) ∨
      ((F.run buf).closed = false ∧ F.front (F.run buf).rest = .wait) := by
  induction buf using F.run_induction with
  | wait buf h => simp [run_wait h, h]
  | bad buf h => simp [run_bad h, h]
  | frame buf a n h ih => simpa only [run_frame h] using ih

theorem run_append (buf more : List β) :
    F.run (buf ++ more) =
      if (F.run buf).closed then ⟨(F.run buf).frames, true, (F.run buf).rest ++ more⟩
      else
        { F.run ((F.run buf).rest ++ more) with
          frames := (F.run buf).frames ++ (F.run ((F.run buf).rest ++ more)).frames } := by
  induction buf using F.run_induction with
  | wait buf h => simp [run_wait h]
  | bad buf h => simp [run_bad h, run_bad (F.bad_append more h)]
  | frame buf a n h ih =>
    have hdrop : (buf ++ more).drop n = buf.drop n ++ more :=
      List.drop_append_of_le_length (F.le_length h)
    rw [run_frame (F.frame_append more h), hdrop, ih, run_frame h]
    by_cases hc : (F.run (buf.drop n)).closed = true <;> simp [hc]

theorem foldl_feed_closed (r : Receiver β α) (hr : r.closed = true) (msgs : List (List β)) :
    msgs.foldl F.feed r = r := by
  induction msgs with
  | nil => rfl
  | cons m msgs ih => simpa only [List.foldl_cons, feed, hr, if_true] using ih

/-- However a stream is cut into messages, the receiver delivers the frames,
comes to the same verdict and, while open, keeps the same unused symbols as
when it is given the stream at once. -/
theorem foldl_feed (r : Receiver β α) (hr : r.closed = false) (hrest : F.run r.rest = ⟨[], false, r.rest⟩)
    (msgs : List (List β)) :
    (msgs.foldl F.feed r).frames = r.frames ++ (F.run (r.rest ++ msgs.flatten)).frames ∧
    (msgs.foldl F.feed r).closed = (F.run (r.rest ++ msgs.flatten)).closed ∧
    ((msgs.foldl F.feed r).closed = false →
      (msgs.foldl F.feed r).rest = (F.run (r.rest ++ msgs.flatten)).rest) := by
  induction msgs generalizing r with
  | nil => simp [hrest, hr]
  | cons m msgs ih =>
    have hfeed : F.feed r m = { F.run (r.rest ++ m) with
        frames := r.frames ++ (F.run (r.rest ++ m)).frames } := by simp [feed, hr]
    have hcat := F.run_append (r.rest ++ m) msgs.flatten
    rw [List.append_assoc] at hcat
    simp only [List.foldl_cons, List.flatten_cons]
    cases hc : (F.run (r.rest ++ m)).closed with
    | true =>
      rw [F.foldl_feed_closed _ (by rw [hfeed]; exact hc), hfeed, hcat, if_pos hc]
      simp [hc]
    | false =>
      have hwait : F.front (F.run (r.rest ++ m)).rest = .wait := by
        rcases F.run_rest (r.rest ++ m) with h | h
        · simp [hc] at h
        · exact h.2
      have h := ih (F.feed r m) (by rw [hfeed]; exact hc) (by rw [hfeed]; exact run_wait hwait)
      rw [hfeed] at h ⊢
      rw [hcat, if_neg (by simp [hc])]
      simpa only [List.append_assoc] using h

theorem foldl_feed_start (hnil : F.front [] = .wait) (msgs : List (List β)) :
    (msgs.foldl F.feed start).frames = (F.run msgs.flatten).frames ∧
    (msgs.foldl F.feed start).closed = (F.run msgs.flatten).closed ∧
    ((msgs.foldl F.feed start).closed = false →
      (msgs.foldl F.feed start).rest = (F.run msgs.flatten).rest) := by
  simpa [start] using F.foldl_feed start rfl (run_wait hnil) msgs

def IsFrame (raw : List β) (a : α) : Prop := F.front raw = .frame a raw.length

variable {F}

theorem run_isFrame_append {raw : List β} {a : α} (h : F.IsFrame raw a) (rest : List β) :
    F.run (raw ++ rest) = { F.run rest with frames := a :: (F.run rest).frames } := by
  rw [run_frame (F.frame_append rest h), List.drop_left]

theorem run_frames_append {raws : List (List β)} {as : List α}
    (h : List.Forall₂ F.IsFrame raws as) (rest : List β) :
    F.run (raws.flatten ++ rest) = { F.run rest with frames := as ++ (F.run rest).frames } := by
  induction h with
  | nil => simp
  | cons hraw _ ih => simp [List.append_assoc, run_isFrame_append hraw, ih]

variable (F)

theorem run_decompose (buf : List β) :
    ∃ raws : List (List β), buf = raws.flatten ++ (F.run buf).rest ∧
      List.Forall₂ F.IsFrame raws (F.run buf).frames := by
  induction buf using F.run_induction with
  | wait buf h => exact ⟨[], by simp [run_wait h], by simp [run_wait h]⟩
  | bad buf h => exact ⟨[], by simp [run_bad h], by simp [run_bad h]⟩
  | frame buf a n h ih =>
    obtain ⟨raws, hbuf, hraws⟩ := ih
    have hlen : (buf.take n).length = n := List.length_take_of_le (F.le_length h)
    refine ⟨buf.take n :: raws, ?_, ?_⟩
    · rw [run_frame h, List.flatten_cons, List.append_assoc, ← hbuf, List.take_append_drop]
    · rw [run_frame h]
      exact .cons (by rw [IsFrame, hlen]; exact F.frame_take h) hraws

/-- No sequence of frames at the front of a buffer is longer than the
delivered one. -/
theorem frames_longest {raws : List (List β)} {as : List α}
    (h : List.Forall₂ F.IsFrame raws as) (rest : List β) :
    as <+: (F.run (raws.flatten ++ rest)).frames := by
  rw [run_frames_append h]
  exact List.prefix_append _ _

end Framer

end TinyIM.Library.Framing
