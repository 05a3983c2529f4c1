import Mathlib.Order.Interval.Finset.Basic
import Mathlib.Data.Int.Interval
import TinyIM.Library.Orbit
import TinyIM.Web.Decoders

namespace TinyIM.Web

open Library.ByteOrder Library.ProtoWire Library.Orbit

/-- How a decoder goes on behind the tag of a field. -/
inductive Kind
  | number
  | text
  | skipped
  | bare
  | stop
  deriving DecidableEq

/-- Where a field ends whose tag ends at an offset, unless the decoder throws or
stops there. Lengths are signed. -/
def payloadEnd (view : View) (offset : ℤ) : Kind → Option ℤ
  | .number => do
    let (_, length) ← decodeVarint view offset
    return offset + length
  | .text => do
    let (len, lenLen) ← decodeVarint view offset
    let _ ← view.subarray (offset + lenLen) len
    return offset + lenLen + len
  | .skipped => do
    let (len, lenLen) ← decodeVarint view offset
    return offset + lenLen + len
  | .bare => return offset
  | .stop => none

def fieldEnd (kind : ℤ → ℤ → Kind) (view : View) (offset : ℤ) : Option ℤ := do
  let (tag, tagLen) ← decodeVarint view offset
  payloadEnd view (offset + tagLen) (kind (tag / 8) (tag % 8))

/-- The decoders that look at the wire type first. -/
def typedKind (isText : ℤ → Bool) (other : Kind) (fieldNum wireType : ℤ) : Kind :=
  if wireType = 0 then .number
  else if wireType = 2 then if isText fieldNum then .text else .skipped
  else other

def loginKind : ℤ → ℤ → Kind := typedKind (fun n ↦ n = 2 ∨ n = 3 ∨ n = 5) .stop

def sendKind : ℤ → ℤ → Kind := typedKind (fun n ↦ n = 4) .stop

def messageKind : ℤ → ℤ → Kind := typedKind (fun n ↦ n = 6 ∨ n = 7) .bare

/-- The fields that a decoder does not know. -/
def unknownKind : ℤ → ℤ → Kind := typedKind (fun _ ↦ false) .stop

def heartbeatKind (fieldNum wireType : ℤ) : Kind :=
  if fieldNum = 1 ∨ fieldNum = 2 then .number else unknownKind fieldNum wireType

def syncKind (fieldNum wireType : ℤ) : Kind :=
  if fieldNum = 1 ∨ fieldNum = 3 then .number
  else if fieldNum = 2 then .text
  else unknownKind fieldNum wireType

/-- The message that a field of a sync reply holds. -/
def messageAt (view : View) (offset : ℤ) : Option View := do
  let (tag, tagLen) ← decodeVarint view offset
  if tag / 8 = 2 then
    let (len, lenLen) ← decodeVarint view (offset + tagLen)
    view.subarray (offset + tagLen + lenLen) len
  else none

/-- From one field to the next while there are bytes left. -/
def onward (view : View) (ends : ℤ → Option ℤ) (offset : ℤ) : Option ℤ :=
  if offset < view.byteLength then ends offset else none

/-- The fields from the start of the bytes lead back to an earlier one. -/
def LeadsBack (view : View) (ends : ℤ → Option ℤ) : Prop := Recurs (onward view ends) 0

/-- The fields of a message lead to its end. -/
def Complete (view : View) : Prop :=
  ∃ n o, orbit (onward view (fieldEnd messageKind view)) 0 n = some o ∧ (view.byteLength : ℤ) ≤ o

open Classical in
/-- A sync reply goes on behind a message only when the message is complete. -/
noncomputable def syncEnd (view : View) (offset : ℤ) : Option ℤ :=
  if ∀ sub ∈ messageAt view offset, Complete sub then fieldEnd syncKind view offset else none

/-- The decoder of a sync reply comes to this message. -/
def Met (view sub : View) : Prop :=
  ∃ n o, orbit (onward view (syncEnd view)) 0 n = some o ∧ o < view.byteLength ∧ messageAt view o = some sub

/-- A pass of a loop body leads where `o` says. An offset that stays is a pass
that does not come to an end. -/
def Pass.Leads {σ : Type} (offset : ℤ) (o : Option ℤ) : Option (Pass σ) → Prop
  | none => o = none
  | some (.next _ after) => o = some after
  | some (.exit _) => o = none
  | some .running => o = some offset

def Follows {σ : Type} (body : σ → ℤ → Option (Pass σ)) (ends : ℤ → Option ℤ) (offset : ℤ) : Prop :=
  ∀ s, Pass.Leads offset (ends offset) (body s offset)

theorem decodeVarint_of_neg {view : View} {offset : ℤ} (h : offset < 0) :
    decodeVarint view offset = none := by
  rw [decodeVarint, decodeVarintFrom]
  split_ifs
  · rfl
  · rw [View.getUint8, if_neg (by omega)]

theorem fieldEnd_of_neg {kind : ℤ → ℤ → Kind} {view : View} {offset : ℤ} (h : offset < 0) :
    fieldEnd kind view offset = none := by
  rw [fieldEnd, decodeVarint_of_neg h]
  rfl

section Loop

variable {σ : Type} {body : σ → ℤ → Option (Pass σ)} {ends : ℤ → Option ℤ} {view : View}

theorem orbit_of_stays {offset : ℤ} (h : ends offset = some offset) (hlt : offset < view.byteLength)
    (n : ℕ) : orbit (onward view ends) offset n = some offset := by
  induction n with
  | zero => rfl
  | succ n ih => rw [orbit, ih, Option.bind_some, onward, if_pos hlt, h]

/-- The loop is still running after `fuel` passes when as many fields lead to an
offset within the bytes. -/
theorem decodeLoop_running {offset o : ℤ} {fuel : ℕ}
    (h : ∀ n o, orbit (onward view ends) offset n = some o → ∀ s,
      body s o = some .running ∨ Pass.Leads o (ends o) (body s o))
    (ho : orbit (onward view ends) offset fuel = some o) (hlt : o < view.byteLength) (s : σ) :
    decodeLoop body view.byteLength fuel s offset = .running := by
  induction fuel generalizing s offset with
  | zero =>
    obtain rfl := Option.some.inj ho
    exact if_pos hlt
  | succ fuel ih =>
    rw [orbit_succ', onward] at ho
    split_ifs at ho with hoffset
    · rw [decodeLoop, if_pos hoffset]
      rcases h 0 offset rfl s with hrunning | hleads
      · rw [hrunning]
      · cases hends : ends offset with
        | none =>
          rw [hends] at ho
          cases ho
        | some after =>
          rw [hends, Option.bind_some] at ho
          rw [hends] at hleads
          cases hbody : body s offset with
          | none =>
            rw [hbody] at hleads
            cases hleads
          | some pass =>
            rw [hbody] at hleads
            cases pass with
            | next s' next =>
              obtain rfl := Option.some.inj hleads
              refine ih ?_ ho s'
              intro n o' ho'
              refine h (n + 1) o' ?_
              rw [orbit_succ', onward, if_pos hoffset, hends, Option.bind_some, ho']
            | exit s' => cases hleads
            | running => rfl
    · cases ho

theorem orbit_of_running {offset : ℤ} {fuel : ℕ} {s : σ}
    (h : ∀ n o, orbit (onward view ends) offset n = some o → Follows body ends o)
    (hrunning : decodeLoop body view.byteLength fuel s offset = .running) :
    ∃ o, orbit (onward view ends) offset fuel = some o ∧ o < view.byteLength := by
  induction fuel generalizing s offset with
  | zero =>
    rw [decodeLoop] at hrunning
    split_ifs at hrunning with hlt
    exact ⟨offset, rfl, hlt⟩
  | succ fuel ih =>
    rw [decodeLoop] at hrunning
    split_ifs at hrunning with hlt
    have hleads := h 0 offset rfl s
    rw [orbit_succ', onward, if_pos hlt]
    cases hbody : body s offset with
    | none =>
      rw [hbody] at hrunning
      cases hrunning
    | some pass =>
      rw [hbody] at hrunning hleads
      cases pass with
      | next s' after =>
        have hends : ends offset = some after := hleads
        rw [hends, Option.bind_some]
        refine ih ?_ hrunning
        intro n o ho
        refine h (n + 1) o ?_
        rw [orbit_succ', onward, if_pos hlt, hends, Option.bind_some, ho]
      | exit s' => cases hrunning
      | running =>
        have hends : ends offset = some offset := hleads
        rw [hends, Option.bind_some]
        exact ⟨offset, orbit_of_stays hends hlt fuel, hlt⟩

theorem onward_within (hneg : ∀ o, o < 0 → ends o = none) {o : ℤ} (h : (onward view ends o).isSome) :
    0 ≤ o ∧ o < view.byteLength := by
  rw [onward] at h
  split_ifs at h with hlt
  · refine ⟨?_, hlt⟩
    by_contra hnot
    rw [hneg o (by omega)] at h
    cases h
  · cases h

theorem LeadsBack.orbit_lt (hneg : ∀ o, o < 0 → ends o = none) (h : LeadsBack view ends) (n : ℕ) :
    ∃ o, orbit (onward view ends) 0 n = some o ∧ o < view.byteLength := by
  obtain ⟨o, ho, hstep⟩ := step_isSome (h.isSome (n + 1))
  exact ⟨o, ho, (onward_within hneg hstep).2⟩

theorem leadsBack_of_orbit (hneg : ∀ o, o < 0 → ends o = none) {n : ℕ} (hn : view.byteLength < n)
    (h : (orbit (onward view ends) 0 n).isSome) : LeadsBack view ends := by
  have hwithin : ∀ o, (onward view ends o).isSome → o ∈ Finset.Ico (0 : ℤ) view.byteLength :=
    fun o ho ↦ Finset.mem_Ico.mpr (onward_within hneg ho)
  refine recurs_of_isSome hwithin (orbit_isSome_of_le ?_ h)
  rw [Int.card_Ico]
  omega

/-- A loop stops exactly if the fields do not lead back. -/
theorem decodeLoop_stops_iff (hneg : ∀ o, o < 0 → ends o = none)
    (h : ∀ n o, orbit (onward view ends) 0 n = some o → Follows body ends o) (s : σ) :
    (∃ fuel, decodeLoop body view.byteLength fuel s 0 ≠ .running) ↔ ¬ LeadsBack view ends := by
  rw [← not_forall]
  refine not_congr ⟨?_, ?_⟩
  · intro hrunning
    obtain ⟨o, ho, -⟩ := orbit_of_running h (hrunning (view.byteLength + 1))
    exact leadsBack_of_orbit hneg (Nat.lt_succ_self _) (by rw [ho]; rfl)
  · intro hback fuel
    obtain ⟨o, ho, hlt⟩ := hback.orbit_lt hneg fuel
    exact decodeLoop_running (fun n o ho s ↦ .inr (h n o ho s)) ho hlt s

/-- A loop that returns has reached the end of the bytes, and one that throws
does not reach it. -/
theorem decodeLoop_complete_iff (h : ∀ o, Follows body ends o) (hexit : ∀ s o s', body s o ≠ some (.exit s'))
    {offset : ℤ} {fuel : ℕ} {s : σ} (hstops : decodeLoop body view.byteLength fuel s offset ≠ .running) :
    (∃ n o, orbit (onward view ends) offset n = some o ∧ (view.byteLength : ℤ) ≤ o) ↔
      decodeLoop body view.byteLength fuel s offset ≠ .throws := by
  induction fuel generalizing s offset with
  | zero =>
    rw [decodeLoop] at hstops ⊢
    split_ifs at hstops ⊢ with hlt
    · exact absurd rfl hstops
    · exact iff_of_true ⟨0, offset, rfl, not_lt.mp hlt⟩ (by simp)
  | succ fuel ih =>
    rw [decodeLoop] at hstops ⊢
    split_ifs at hstops ⊢ with hlt
    · have hshift : (∃ n o, orbit (onward view ends) offset n = some o ∧ (view.byteLength : ℤ) ≤ o) ↔
          ∃ after, ends offset = some after ∧
            ∃ n o, orbit (onward view ends) after n = some o ∧ (view.byteLength : ℤ) ≤ o := by
        constructor
        · intro hcase
          obtain ⟨n, o, ho, hle⟩ := hcase
          cases n with
          | zero =>
            obtain rfl := Option.some.inj ho
            omega
          | succ n =>
            rw [orbit_succ', onward, if_pos hlt] at ho
            obtain ⟨after, hends, ho⟩ := Option.bind_eq_some_iff.mp ho
            exact ⟨after, hends, n, o, ho, hle⟩
        · intro hcase
          obtain ⟨after, hends, n, o, ho, hle⟩ := hcase
          refine ⟨n + 1, o, ?_, hle⟩
          rw [orbit_succ', onward, if_pos hlt, hends, Option.bind_some, ho]
      rw [hshift]
      have hleads := h offset s
      cases hbody : body s offset with
      | none =>
        rw [hbody] at hleads
        have hends : ends offset = none := hleads
        simp [hends]
      | some pass =>
        rw [hbody] at hleads hstops
        cases pass with
        | next s' after =>
          have hends : ends offset = some after := hleads
          simp only [hends, Option.some.injEq, exists_eq_left']
          exact ih hstops
        | exit s' => exact absurd hbody (hexit s offset s')
        | running => exact absurd rfl hstops
    · exact iff_of_true ⟨0, offset, rfl, not_lt.mp hlt⟩ (by simp)

end Loop

section Bodies

variable {σ : Type} {view : View} {isText : ℤ → Bool}

theorem fieldPass_follows {onVarint : σ → ℤ → ℤ → σ} {onLen : σ → ℤ → ℤ → ℤ → Option σ}
    {other : σ → ℤ → Pass σ} {kind : Kind}
    (honLen : ∀ s fieldNum offset len,
      (onLen s fieldNum offset len).isSome = (!isText fieldNum || (view.subarray offset len).isSome))
    (hother : ∀ s offset, kind = .stop ∧ other s offset = .exit s ∨
      kind = .bare ∧ other s offset = .next s offset) (offset : ℤ) :
    Follows (fieldPass view onVarint onLen other) (fieldEnd (typedKind isText kind) view) offset := by
  intro s
  rw [fieldPass, fieldEnd]
  cases decodeVarint view offset with
  | none => rfl
  | some tag =>
    obtain ⟨tag, tagLen⟩ := tag
    simp only [Option.bind_eq_bind, Option.bind_some, typedKind]
    by_cases hzero : tag % 8 = 0
    · rw [if_pos hzero, if_pos hzero, payloadEnd]
      cases decodeVarint view (offset + tagLen) with
      | none => rfl
      | some value => rfl
    · rw [if_neg hzero, if_neg hzero]
      by_cases htwo : tag % 8 = 2
      · rw [if_pos htwo, if_pos htwo]
        cases hlen : decodeVarint view (offset + tagLen) with
        | none => cases isText (tag / 8) <;> simp [payloadEnd, hlen, Pass.Leads]
        | some len =>
          obtain ⟨len, lenLen⟩ := len
          have hread := honLen s (tag / 8) (offset + tagLen + lenLen) len
          cases htext : isText (tag / 8) with
          | false =>
            rw [htext] at hread
            obtain ⟨s', hs'⟩ := Option.isSome_iff_exists.mp hread
            simp [payloadEnd, hlen, hs', Pass.Leads]
          | true =>
            rw [htext] at hread
            cases hsub : view.subarray (offset + tagLen + lenLen) len with
            | none =>
              rw [hsub] at hread
              have hnone : onLen s (tag / 8) (offset + tagLen + lenLen) len = none :=
                Option.not_isSome_iff_eq_none.mp (by rw [hread]; decide)
              simp [payloadEnd, hlen, hsub, hnone, Pass.Leads]
            | some sub =>
              rw [hsub] at hread
              obtain ⟨s', hs'⟩ := Option.isSome_iff_exists.mp hread
              simp [payloadEnd, hlen, hsub, hs', Pass.Leads]
      · rw [if_neg htwo, if_neg htwo]
        rcases hother s (offset + tagLen) with ⟨rfl, hexit⟩ | ⟨rfl, hnext⟩
        · simp [payloadEnd, hexit, Pass.Leads]
        · simp [payloadEnd, hnext, Pass.Leads]

theorem decodeString_isSome (offset len : ℤ) :
    (decodeString view offset len).isSome = (view.subarray offset len).isSome := by
  rw [decodeString, Option.isSome_map]

theorem loginPass_follows (offset : ℤ) :
    Follows (fieldPass view LoginResult.onVarint (LoginResult.onLen view) fun s _ ↦ .exit s)
      (fieldEnd loginKind view) offset := by
  refine fieldPass_follows ?_ (fun _ _ ↦ .inl ⟨rfl, rfl⟩) offset
  intro s fieldNum offset len
  rw [LoginResult.onLen]
  split_ifs <;> simp [*, decodeString_isSome]

theorem sendPass_follows (offset : ℤ) :
    Follows (fieldPass view SendResult.onVarint (SendResult.onLen view) fun s _ ↦ .exit s)
      (fieldEnd sendKind view) offset := by
  refine fieldPass_follows ?_ (fun _ _ ↦ .inl ⟨rfl, rfl⟩) offset
  intro s fieldNum offset len
  rw [SendResult.onLen]
  split_ifs <;> simp [*, decodeString_isSome]

theorem messagePass_follows (offset : ℤ) :
    Follows (fieldPass view MessageData.onVarint (MessageData.onLen view) .next)
      (fieldEnd messageKind view) offset := by
  refine fieldPass_follows ?_ (fun _ _ ↦ .inr ⟨rfl, rfl⟩) offset
  intro s fieldNum offset len
  rw [MessageData.onLen]
  split_ifs <;> simp [*, decodeString_isSome]

theorem numberPass_leads (f : ℤ → σ) (offset start : ℤ) :
    Pass.Leads start (payloadEnd view offset .number) (do
      let (value, length) ← decodeVarint view offset
      return .next (f value) (offset + length)) := by
  rw [payloadEnd]
  cases decodeVarint view offset with
  | none => rfl
  | some value => rfl

theorem skipUnknown_leads (s : σ) (fieldNum wireType offset start : ℤ) :
    Pass.Leads start (payloadEnd view offset (unknownKind fieldNum wireType))
      (skipUnknown view s wireType offset) := by
  rw [skipUnknown, unknownKind, typedKind]
  split_ifs with hzero htwo
  · exact numberPass_leads (fun _ ↦ s) offset start
  · contradiction
  · rw [payloadEnd]
    cases decodeVarint view offset with
    | none => rfl
    | some len => rfl
  · rfl

theorem heartbeatPass_follows (offset : ℤ) :
    Follows (heartbeatPass view) (fieldEnd heartbeatKind view) offset := by
  intro s
  rw [heartbeatPass, fieldEnd]
  cases decodeVarint view offset with
  | none => rfl
  | some tag =>
    obtain ⟨tag, tagLen⟩ := tag
    simp only [Option.bind_eq_bind, Option.bind_some, heartbeatKind]
    by_cases hone : tag / 8 = 1
    · rw [if_pos hone, if_pos (.inl hone)]
      exact numberPass_leads (fun value ↦ { s with serverTime := value }) _ _
    · rw [if_neg hone]
      by_cases htwo : tag / 8 = 2
      · rw [if_pos htwo, if_pos (.inr htwo)]
        exact numberPass_leads (fun value ↦ { s with maxSeqId := value }) _ _
      · rw [if_neg htwo, if_neg (not_or.mpr ⟨hone, htwo⟩)]
        exact skipUnknown_leads s _ _ _ _

end Bodies

section Sync

variable {view sub : View} {fuel : ℕ}

theorem decodeMessageData_running (h : LeadsBack sub (fieldEnd messageKind sub)) (fuel : ℕ) :
    decodeMessageData fuel sub = .running := by
  obtain ⟨o, ho, hlt⟩ := h.orbit_lt (fun _ ↦ fieldEnd_of_neg) fuel
  exact decodeLoop_running (fun _ o _ s ↦ .inr (messagePass_follows o s)) ho hlt _

theorem leadsBack_of_running (hfuel : sub.byteLength < fuel) (h : decodeMessageData fuel sub = .running) :
    LeadsBack sub (fieldEnd messageKind sub) := by
  obtain ⟨o, ho, -⟩ := orbit_of_running (fun _ o _ ↦ messagePass_follows o) h
  exact leadsBack_of_orbit (fun _ ↦ fieldEnd_of_neg) hfuel (by rw [ho]; rfl)

theorem messagePass_no_exit (s : MessageData) (offset : ℤ) (s' : MessageData) :
    fieldPass view MessageData.onVarint (MessageData.onLen view) .next s offset ≠ some (.exit s') := by
  intro h
  rw [fieldPass] at h
  obtain ⟨tag, -, h⟩ := Option.bind_eq_some_iff.mp h
  simp only at h
  split_ifs at h
  · obtain ⟨value, -, h⟩ := Option.bind_eq_some_iff.mp h
    cases h
  · obtain ⟨len, -, h⟩ := Option.bind_eq_some_iff.mp h
    obtain ⟨s'', -, h⟩ := Option.bind_eq_some_iff.mp h
    cases h
  · cases h

theorem complete_iff (h : decodeMessageData fuel sub ≠ .running) :
    Complete sub ↔ decodeMessageData fuel sub ≠ .throws :=
  decodeLoop_complete_iff messagePass_follows messagePass_no_exit h

open Classical in
/-- As `syncEnd`, but a message that never ends keeps the decoder where it is. -/
noncomputable def stuckEnd (view : View) (offset : ℤ) : Option ℤ :=
  if ∃ sub ∈ messageAt view offset, LeadsBack sub (fieldEnd messageKind sub) then some offset
  else syncEnd view offset

theorem subarray_byteLength_le {offset len : ℤ} (h : view.subarray offset len = some sub) :
    sub.byteLength ≤ view.buffer.length := by
  rw [View.subarray] at h
  split_ifs at h with hrange
  obtain rfl := Option.some.inj h
  exact (Nat.le_add_left _ _).trans (View.within _)

theorem stuckEnd_of_none {offset : ℤ} (h : messageAt view offset = none) :
    stuckEnd view offset = fieldEnd syncKind view offset := by
  rw [stuckEnd, syncEnd, h]
  simp

theorem stuckEnd_of_message {offset : ℤ} (h : messageAt view offset = some sub)
    (hstops : decodeMessageData fuel sub ≠ .running) :
    stuckEnd view offset =
      if decodeMessageData fuel sub = .throws then none else fieldEnd syncKind view offset := by
  have hback : ¬ LeadsBack sub (fieldEnd messageKind sub) :=
    fun hback ↦ hstops (decodeMessageData_running hback fuel)
  rw [stuckEnd, syncEnd, h]
  simp only [Option.mem_def, Option.some.injEq, exists_eq_left', forall_eq', hback, if_false,
    complete_iff hstops, ne_eq, ite_not]

/-- A pass over a message: it stays there as long as the decoder of the message runs. -/
theorem syncPass_message {offset tag len : ℤ} {tagLen lenLen : ℕ}
    (htag : decodeVarint view offset = some (tag, tagLen)) (hmessage : tag / 8 = 2)
    (hlen : decodeVarint view (offset + tagLen) = some (len, lenLen))
    (hsub : view.subarray (offset + tagLen + lenLen) len = some sub) (fuel : ℕ) (r : SyncResult) :
    syncPass fuel view r offset = some .running ∧
        (view.buffer.length < fuel → ∃ sub ∈ messageAt view offset, LeadsBack sub (fieldEnd messageKind sub)) ∨
      Pass.Leads offset (stuckEnd view offset) (syncPass fuel view r offset) := by
  have hat : messageAt view offset = some sub := by
    simp [messageAt, htag, hmessage, hlen, hsub]
  cases hmsg : decodeMessageData fuel sub with
  | running =>
    refine .inl ⟨?_, ?_⟩
    · simp [syncPass, htag, hmessage, hlen, hsub, hmsg]
    · intro hfuel
      exact ⟨sub, hat, leadsBack_of_running ((subarray_byteLength_le hsub).trans_lt hfuel) hmsg⟩
  | throws =>
    right
    rw [stuckEnd_of_message hat (by rw [hmsg]; exact nofun), hmsg, if_pos rfl]
    simp [syncPass, htag, hmessage, hlen, hsub, hmsg, Pass.Leads]
  | returns msgData =>
    right
    rw [stuckEnd_of_message hat (by rw [hmsg]; exact nofun), hmsg, if_neg nofun]
    simp [syncPass, fieldEnd, syncKind, payloadEnd, htag, hmessage, hlen, hsub, hmsg, Pass.Leads]

/-- A pass over a field that is no message. -/
theorem syncPass_number {offset tag : ℤ} {tagLen : ℕ} (htag : decodeVarint view offset = some (tag, tagLen))
    (hmessage : tag / 8 ≠ 2) (fuel : ℕ) (r : SyncResult) :
    Pass.Leads offset (stuckEnd view offset) (syncPass fuel view r offset) := by
  have hnone : messageAt view offset = none := by
    simp [messageAt, htag, hmessage]
  rw [stuckEnd_of_none hnone, syncPass, fieldEnd, htag]
  simp only [Option.bind_eq_bind, Option.bind_some, syncKind]
  by_cases hone : tag / 8 = 1
  · rw [if_pos hone, if_pos (.inl hone)]
    exact numberPass_leads (fun value ↦ { r with maxSeq := value }) _ _
  · rw [if_neg hone]
    by_cases hthree : tag / 8 = 3
    · rw [if_pos (.inr hthree), if_neg hmessage, if_pos hthree]
      exact numberPass_leads (fun value ↦ { r with hasMore := value ≠ 0 }) _ _
    · rw [if_neg (not_or.mpr ⟨hone, hthree⟩), if_neg hmessage, if_neg hmessage, if_neg hthree]
      exact skipUnknown_leads r _ _ _ _

theorem syncPass_leads (fuel : ℕ) (r : SyncResult) (offset : ℤ) :
    syncPass fuel view r offset = some .running ∧
        (view.buffer.length < fuel → ∃ sub ∈ messageAt view offset, LeadsBack sub (fieldEnd messageKind sub)) ∨
      Pass.Leads offset (stuckEnd view offset) (syncPass fuel view r offset) := by
  cases htag : decodeVarint view offset with
  | none =>
    have hnone : messageAt view offset = none := by
      rw [messageAt, htag]
      rfl
    rw [stuckEnd_of_none hnone, syncPass, fieldEnd, htag]
    exact .inr rfl
  | some tag =>
    obtain ⟨tag, tagLen⟩ := tag
    by_cases hmessage : tag / 8 = 2
    · cases hlen : decodeVarint view (offset + tagLen) with
      | none =>
        have hnone : messageAt view offset = none := by
          simp [messageAt, htag, hmessage, hlen]
        right
        rw [stuckEnd_of_none hnone]
        simp [syncPass, fieldEnd, syncKind, payloadEnd, htag, hmessage, hlen, Pass.Leads]
      | some len =>
        obtain ⟨len, lenLen⟩ := len
        cases hsub : view.subarray (offset + tagLen + lenLen) len with
        | none =>
          have hnone : messageAt view offset = none := by
            simp [messageAt, htag, hmessage, hlen, hsub]
          right
          rw [stuckEnd_of_none hnone]
          simp [syncPass, fieldEnd, syncKind, payloadEnd, htag, hmessage, hlen, hsub, Pass.Leads]
        | some sub => exact syncPass_message htag hmessage hlen hsub fuel r
    · exact .inr (syncPass_number htag hmessage fuel r)

theorem stuckEnd_of_neg {offset : ℤ} (h : offset < 0) : stuckEnd view offset = none := by
  have hnone : messageAt view offset = none := by
    rw [messageAt, decodeVarint_of_neg h]
    rfl
  rw [stuckEnd_of_none hnone, fieldEnd_of_neg h]

theorem syncPass_follows (hfuel : view.buffer.length < fuel) (offset : ℤ) :
    Follows (syncPass fuel view) (stuckEnd view) offset := by
  intro r
  rcases syncPass_leads fuel r offset with ⟨hrunning, hback⟩ | hleads
  · rw [hrunning]
    exact if_pos (hback hfuel)
  · exact hleads

theorem decodeMsgSyncResp_stops_iff_stuck :
    (∃ fuel, decodeMsgSyncResp fuel view ≠ .running) ↔ ¬ LeadsBack view (stuckEnd view) := by
  rw [← not_forall]
  refine not_congr ⟨?_, ?_⟩
  · intro hrunning
    have hwithin : view.byteLength ≤ view.buffer.length := (Nat.le_add_left _ _).trans view.within
    obtain ⟨o, ho, -⟩ := orbit_of_running
      (fun _ o _ ↦ syncPass_follows (Nat.lt_succ_self view.buffer.length) o) (hrunning _)
    exact leadsBack_of_orbit (fun _ ↦ stuckEnd_of_neg) (Nat.lt_succ_of_le hwithin) (by rw [ho]; rfl)
  · intro hback fuel
    obtain ⟨o, ho, hlt⟩ := hback.orbit_lt (fun _ ↦ stuckEnd_of_neg) fuel
    exact decodeLoop_running (fun _ o _ r ↦ (syncPass_leads fuel r o).imp_left And.left) ho hlt _

theorem orbit_stuckEnd {n : ℕ}
    (h : ∀ k < n, ∀ o, orbit (onward view (syncEnd view)) 0 k = some o → o < view.byteLength →
      ∀ sub ∈ messageAt view o, ¬ LeadsBack sub (fieldEnd messageKind sub)) :
    orbit (onward view (stuckEnd view)) 0 n = orbit (onward view (syncEnd view)) 0 n := by
  refine orbit_congr ?_
  intro k hk o ho
  rw [onward, onward]
  split_ifs with hlt
  · have hnone : ¬ ∃ sub ∈ messageAt view o, LeadsBack sub (fieldEnd messageKind sub) := by
      intro hback
      obtain ⟨sub, hsub, hback⟩ := hback
      exact h k hk o ho hlt sub hsub hback
    rw [stuckEnd, if_neg hnone]
  · rfl

/-- The decoder gets stuck exactly if its own fields lead back, or those of a
message that it comes to. -/
theorem leadsBack_stuckEnd_iff :
    LeadsBack view (stuckEnd view) ↔
      LeadsBack view (syncEnd view) ∨ ∃ sub, Met view sub ∧ LeadsBack sub (fieldEnd messageKind sub) := by
  classical
  by_cases hstuck : ∃ n o, orbit (onward view (syncEnd view)) 0 n = some o ∧ o < view.byteLength ∧
      ∃ sub ∈ messageAt view o, LeadsBack sub (fieldEnd messageKind sub)
  · -- the first such message is where both ways part
    obtain ⟨o, ho, hlt, sub, hsub, hback⟩ := Nat.find_spec hstuck
    have hsame : orbit (onward view (stuckEnd view)) 0 (Nat.find hstuck) =
        orbit (onward view (syncEnd view)) 0 (Nat.find hstuck) := by
      refine orbit_stuckEnd ?_
      intro k hk o' ho' hlt' sub' hsub' hback'
      exact Nat.find_min hstuck hk ⟨o', ho', hlt', sub', hsub', hback'⟩
    have hstays : stuckEnd view o = some o := if_pos ⟨sub, hsub, hback⟩
    constructor
    · exact fun _ ↦ .inr ⟨sub, ⟨_, o, ho, hlt, hsub⟩, hback⟩
    · intro _
      rw [ho] at hsame
      refine ⟨_, _, o, Nat.lt_succ_self (Nat.find hstuck), hsame, ?_⟩
      rw [orbit, hsame, Option.bind_some, onward, if_pos hlt, hstays]
  · have hsame : ∀ n, orbit (onward view (stuckEnd view)) 0 n = orbit (onward view (syncEnd view)) 0 n := by
      intro n
      refine orbit_stuckEnd ?_
      intro k _ o ho hlt sub hsub hback
      exact hstuck ⟨k, o, ho, hlt, sub, hsub, hback⟩
    have hnone : ¬ ∃ sub, Met view sub ∧ LeadsBack sub (fieldEnd messageKind sub) := by
      intro hcase
      obtain ⟨sub, ⟨n, o, ho, hlt, hsub⟩, hback⟩ := hcase
      exact hstuck ⟨n, o, ho, hlt, sub, hsub, hback⟩
    rw [or_iff_left hnone]
    simp only [LeadsBack, Recurs, hsame]

end Sync

/-- Each decoder stops exactly on the bytes in which the fields, with their
lengths as signed numbers, do not lead back to an earlier field. -/
theorem decoders_stop_iff (view : View) :
    ((∃ fuel, decodeLoginResp fuel view ≠ .running) ↔ ¬ LeadsBack view (fieldEnd loginKind view)) ∧
    ((∃ fuel, decodeMsgSendResp fuel view ≠ .running) ↔ ¬ LeadsBack view (fieldEnd sendKind view)) ∧
    ((∃ fuel, decodeMsgSyncResp fuel view ≠ .running) ↔ ¬ LeadsBack view (syncEnd view) ∧
      ∀ sub, Met view sub → ¬ LeadsBack sub (fieldEnd messageKind sub)) ∧
    ((∃ fuel, decodeMessageData fuel view ≠ .running) ↔ ¬ LeadsBack view (fieldEnd messageKind view)) ∧
    ((∃ fuel, decodeHeartbeatResp fuel view ≠ .running) ↔
      ¬ LeadsBack view (fieldEnd heartbeatKind view)) := by
  have hneg : ∀ kind (o : ℤ), o < 0 → fieldEnd kind view o = none := fun _ _ ↦ fieldEnd_of_neg
  refine ⟨?_, ?_, ?_, ?_, ?_⟩
  · exact decodeLoop_stops_iff (hneg _) (fun _ o _ ↦ loginPass_follows o) _
  · exact decodeLoop_stops_iff (hneg _) (fun _ o _ ↦ sendPass_follows o) _
  · rw [decodeMsgSyncResp_stops_iff_stuck, leadsBack_stuckEnd_iff, not_or, not_exists]
    exact and_congr_right fun _ ↦ forall_congr' fun _ ↦ not_and
  · exact decodeLoop_stops_iff (hneg _) (fun _ o _ ↦ messagePass_follows o) _
  · exact decodeLoop_stops_iff (hneg _) (fun _ o _ ↦ heartbeatPass_follows o) _

/-- Field 6 of length -6: it ends where it starts. -/
def backwards : View := View.ofBytes [50, 250, 255, 255, 255, 15]

theorem fieldEnd_backwards : fieldEnd loginKind backwards 0 = some 0 := by
  have htag : backwards.bytes.drop 0 = varint 50 ++ [250, 255, 255, 255, 15] := by
    rw [varint]
    rfl
  have hlen : backwards.bytes.drop 1 = varint (2 ^ 32 - 6) ++ [] := by
    simp [varint, backwards, View.bytes_ofBytes]
  have htag_read : decodeVarint backwards 0 = some (50, 1) := by
    rw [← Nat.cast_zero, decodeVarint_eq htag, jsInt_eq (by decide), varint]
    rfl
  have hlen_read : decodeVarint backwards 1 = some (-6, 5) := by
    rw [← Nat.cast_one, decodeVarint_eq hlen, jsInt_eq (by decide)]
    simp [varint, toInt32]
  simp [fieldEnd, htag_read, loginKind, typedKind, payloadEnd, hlen_read]

theorem decodeLoginResp_backwards : ¬ ∃ fuel, decodeLoginResp fuel backwards ≠ .running := by
  rw [not_exists]
  intro fuel
  have hstays := orbit_of_stays fieldEnd_backwards (show 0 < (backwards.byteLength : ℤ) by decide) fuel
  exact not_not_intro (decodeLoop_running (fun _ o _ s ↦ .inr (loginPass_follows o s)) hstays (by decide) _)

end TinyIM.Web
