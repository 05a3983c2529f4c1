import TinyIM.Library.Interleaving
import Mathlib.Data.List.Induction

namespace TinyIM.Library.Journal

open Program Transition Interleaving

variable {C : Type} {A : C → Type} {α β σ ρ ε ω κ : Type}

/-- A command and its answer. -/
abbrev Exchange (C : Type) (A : C → Type) := (c : C) × A c

/-- The program issues the commands of the journal, is answered as there and
ends with `b`. -/
def Runs : Prog C A α → List (Exchange C A) → α → Prop
  | .done a, l, b => l = [] ∧ a = b
  | .call c k, l, b => ∃ a rest, l = ⟨c, a⟩ :: rest ∧ Runs (k a) rest b

section Runs

variable {l : List (Exchange C A)} {b : β}

theorem runs_perform_bind {c : C} {f : A c → Prog C A β} :
    Runs (Prog.perform c >>= f) l b ↔ ∃ a rest, l = ⟨c, a⟩ :: rest ∧ Runs (f a) rest b := Iff.rfl

theorem runs_bind {p : Prog C A α} {f : α → Prog C A β} :
    Runs (p >>= f) l b ↔ ∃ first rest a, l = first ++ rest ∧ Runs p first a ∧ Runs (f a) rest b := by
  induction p generalizing l with
  | done a =>
    constructor
    · exact fun h ↦ ⟨[], l, a, rfl, ⟨rfl, rfl⟩, h⟩
    · rintro ⟨_, rest, _, rfl, ⟨rfl, rfl⟩, h⟩
      exact h
  | call c k ih =>
    constructor
    · rintro ⟨a, rest, rfl, h⟩
      obtain ⟨first, rest, a', rfl, hp, hf⟩ := (ih a).mp h
      exact ⟨⟨c, a⟩ :: first, rest, a', rfl, ⟨a, first, rfl, hp⟩, hf⟩
    · rintro ⟨_, rest, a', rfl, ⟨a, first, rfl, hp⟩, hf⟩
      exact ⟨a, first ++ rest, rfl, (ih a).mpr ⟨first, rest, a', rfl, hp, hf⟩⟩

/-- Every command of a journal was one that the contract permits. -/
theorem Runs.permitted {τ : Type} {K : Contract C A τ} {Q : τ → β → Prop} {t : τ} {p : Prog C A β}
    (h : Runs p l b) (hmeets : Meets K Q t p) (hanswers : ∀ t c a, K.answers t c a) :
    ∀ x ∈ l, ∃ t, K.may t x.1 := by
  induction p generalizing l t with
  | done a =>
    obtain ⟨rfl, -⟩ := h
    exact fun _ hx ↦ absurd hx List.not_mem_nil
  | call c k ih =>
    obtain ⟨a, rest, rfl, hrest⟩ := h
    obtain ⟨hmay, hcont⟩ := hmeets
    intro x hx
    rcases List.mem_cons.mp hx with rfl | hx
    · exact ⟨t, hmay⟩
    · exact ih a hrest (hcont a (hanswers t c a)) x hx

end Runs

/-- A program whose account is its journal. -/
def keeping (C : Type) (A : C → Type) : Contract C A (List (Exchange C A)) where
  may _ _ := True
  answers _ _ _ := True
  after l c a := l ++ [⟨c, a⟩]

/-- A program of commands that are always permitted notes them down. -/
theorem meets_noting {may : List (Exchange C A) → C → Prop} {p : Prog C A α} (l : List (Exchange C A))
    (h : Meets (permits fun c ↦ ∀ l, may l c) (fun _ _ ↦ True) () p) :
    Meets ⟨may, fun _ _ _ ↦ True, (keeping C A).after⟩
      (fun t a ↦ ∃ rest, t = l ++ rest ∧ Runs p rest a) l p := by
  induction p generalizing l with
  | done a => exact ⟨[], (List.append_nil l).symm, rfl, rfl⟩
  | call c k ih =>
    obtain ⟨hmay, hcont⟩ := h
    refine ⟨hmay l, ?_⟩
    intro a _
    refine (ih a (l ++ [⟨c, a⟩]) (hcont a trivial)).mono ?_
    rintro t b ⟨rest, rfl, hruns⟩
    exact ⟨⟨c, a⟩ :: rest, List.append_assoc l _ rest, a, rest, rfl, hruns⟩

theorem meets_keeping (p : Prog C A α) (l : List (Exchange C A)) :
    Meets (keeping C A) (fun t a ↦ ∃ rest, t = l ++ rest ∧ Runs p rest a) l p :=
  meets_noting l (meets_of_may fun _ _ _ ↦ trivial)

/-- One command of one call, with the world before and behind it. -/
structure Entry (C : Type) (A : C → Type) (σ : Type) where
  call : ℕ
  before : σ
  exchange : Exchange C A
  after : σ

/-- A world with all that was done to it by calls. -/
structure Recorded (C : Type) (A : C → Type) (σ : Type) where
  world : σ
  entries : List (Entry C A σ)

def entriesOf (i : ℕ) (s : Recorded C A σ) : List (Entry C A σ) :=
  s.entries.filter fun e ↦ e.call = i

def journalOf (i : ℕ) (s : Recorded C A σ) : List (Exchange C A) :=
  (entriesOf i s).map Entry.exchange

/-- A list that gains one element has one more place at which it can be split. -/
theorem forall_prefix_concat {β : Type} {l : List β} {x : β} {P : List β → β → Prop}
    (hold : ∀ past y, past ++ [y] <+: l → P past y) (hlast : P l x) :
    ∀ past y, past ++ [y] <+: l ++ [x] → P past y := by
  intro past y hpast
  rcases List.prefix_concat_iff.mp hpast with heq | hpast
  · obtain ⟨rfl, hx⟩ := List.append_inj' heq rfl
    obtain rfl := List.singleton_inj.mp hx
    exact hlast
  · exact hold past y hpast

theorem forall_prefix_nil {β : Type} {P : List β → β → Prop} :
    ∀ past y, past ++ [y] <+: [] → P past y :=
  fun _ _ hpast ↦ absurd (List.prefix_nil.mp hpast) (by simp)

section System

variable (start : ρ → Prog C A α) (exec : ε → σ → (c : C) → σ × A c) (outside : ω → σ → Option σ)

/-- Concurrent calls whose commands are recorded. -/
def recorded : System C A α (List (Exchange C A)) (Recorded C A σ) ρ ε ω where
  contract := keeping C A
  fresh := []
  start := start
  exec i e s c :=
    let r := exec e s.world c
    (⟨r.1, s.entries ++ [⟨i, s.world, ⟨c, r.2⟩, r.1⟩]⟩, r.2)
  outside o s := (outside o s.world).map fun w ↦ { s with world := w }

abbrev Calls (C : Type) (A : C → Type) (α σ ρ : Type) :=
  Served C A α (List (Exchange C A)) (Recorded C A σ) ρ

/-- A world `w` in which no call has begun. -/
def idle (w : σ) : Calls C A α σ ρ := ⟨⟨⟨w, []⟩, []⟩, []⟩

/-- The records are what the calls and the world did. `added` is what a part
`f` of the world gains. -/
structure Records (f : σ → List κ) (added : Entry C A σ → List κ) (w : σ) (s : Recorded C A σ)
    (accounts : List (List (Exchange C A))) : Prop where
  journals : ∀ i l, accounts[i]? = some l → l = journalOf i s
  calls : ∀ e ∈ s.entries, e.call < accounts.length
  effects : ∀ e ∈ s.entries, ∃ env, exec env e.before e.exchange.1 = (e.after, e.exchange.2)
  gained : f s.world = f w ++ s.entries.flatMap added
  earlier : ∀ past e, past ++ [e] <+: s.entries → f e.before = f w ++ past.flatMap added

variable {start exec outside} {f : σ → List κ} {added : Entry C A σ → List κ} {w : σ}
  {s : Calls C A α σ ρ}

theorem journalOf_concat (i : ℕ) (s : Recorded C A σ) (w : σ) (e : Entry C A σ) :
    journalOf i ⟨w, s.entries ++ [e]⟩ =
      journalOf i s ++ if e.call = i then [e.exchange] else [] := by
  by_cases h : e.call = i <;> simp [journalOf, entriesOf, h]

theorem journalOf_eq_nil {i : ℕ} {s : Recorded C A σ} (h : ∀ e ∈ s.entries, e.call ≠ i) :
    journalOf i s = [] := by
  rw [journalOf, entriesOf, List.filter_eq_nil_iff.mpr, List.map_nil]
  intro e he
  simpa using h e he

theorem records_start (w : σ) : Records exec f added w ⟨w, []⟩ [] := by
  refine ⟨fun i l hi ↦ ?_, fun e he ↦ ?_, fun e he ↦ ?_, (List.append_nil _).symm, forall_prefix_nil⟩
  · cases hi
  · cases he
  · cases he

section Step

variable {s : Recorded C A σ} {accounts : List (List (Exchange C A))}

theorem Records.spawned (h : Records exec f added w s accounts) :
    Records exec f added w s (accounts ++ [[]]) := by
  refine ⟨?_, ?_, h.effects, h.gained, h.earlier⟩
  · intro i l hi
    rcases getElem?_concat_some hi with hi | ⟨rfl, rfl⟩
    · exact h.journals i l hi
    · exact (journalOf_eq_nil fun e he heq ↦ absurd (heq ▸ h.calls e he) (Nat.lt_irrefl _)).symm
  · intro e he
    rw [List.length_append]
    exact Nat.lt_add_right _ (h.calls e he)

theorem Records.executed (h : Records exec f added w s accounts) {i : ℕ} {t : List (Exchange C A)} {env : ε}
    {c : C} (ht : accounts[i]? = some t)
    (hexec : f (exec env s.world c).1 =
      f s.world ++ added ⟨i, s.world, ⟨c, (exec env s.world c).2⟩, (exec env s.world c).1⟩) :
    Records exec f added w ⟨(exec env s.world c).1,
      s.entries ++ [⟨i, s.world, ⟨c, (exec env s.world c).2⟩, (exec env s.world c).1⟩]⟩
      (accounts.set i (t ++ [⟨c, (exec env s.world c).2⟩])) := by
  have hlt : i < accounts.length := (List.getElem?_eq_some_iff.mp ht).1
  refine ⟨?_, ?_, ?_, ?_, ?_⟩
  · intro j l hj
    rw [journalOf_concat]
    rcases getElem?_set_cases hj with ⟨rfl, rfl⟩ | ⟨hne, hj⟩
    · rw [if_pos rfl, ← h.journals j t ht]
    · rw [if_neg (Ne.symm hne), List.append_nil]
      exact h.journals j l hj
  · intro e he
    rw [List.length_set]
    rcases List.mem_append.mp he with he | he
    · exact h.calls e he
    · obtain rfl := List.mem_singleton.mp he
      exact hlt
  · intro e he
    rcases List.mem_append.mp he with he | he
    · exact h.effects e he
    · obtain rfl := List.mem_singleton.mp he
      exact ⟨env, rfl⟩
  · rw [hexec, h.gained, List.flatMap_append, List.flatMap_singleton, List.append_assoc]
  · exact forall_prefix_concat h.earlier h.gained

end Step

theorem records_of_reach
    (hexec : ∀ i env w c, f (exec env w c).1 = f w ++ added ⟨i, w, ⟨c, (exec env w c).2⟩, (exec env w c).1⟩)
    (houtside : ∀ o w w', outside o w = some w' → f w' = f w)
    (h : Reach (recorded start exec outside).serve anyStep (idle w) s) :
    s.Keeps (fun _ ↦ keeping C A) (fun r t a ↦ Runs (start r) t a) ∧
      Records exec f added w s.pool.world s.pool.accounts := by
  refine System.serve_invariant (K := fun _ ↦ keeping C A) (Q := fun r t a ↦ Runs (start r) t a)
    (J := fun s _ accounts ↦ Records exec f added w s accounts) (fun _ ↦ rfl) ?start ?spawn ?exec ?outside
    h ⟨Served.keeps_nil _, records_start w⟩
  case start =>
    intro _ r _
    refine (meets_keeping (start r) []).mono ?_
    rintro t a ⟨rest, rfl, hruns⟩
    exact hruns
  case spawn =>
    intro s r _ _ hJ
    exact hJ.spawned
  case exec =>
    intro s i env c k t r _ hi _ _ hJ
    exact ⟨trivial, hJ.executed (Pool.accounts_of_threads hi) (hexec i env _ c)⟩
  case outside =>
    intro s o w' _ ho hJ
    obtain ⟨w', hw', rfl⟩ := Option.map_eq_some_iff.mp ho
    exact ⟨hJ.journals, hJ.calls, hJ.effects, (houtside o _ w' hw').trans hJ.gained, hJ.earlier⟩

/-- What relates the world to the entries so far did so before each of them. -/
theorem along_of_reach {ok : Calls C A α σ ρ → Action ρ ε ω → Prop} {I : σ → List (Entry C A σ) → Prop}
    (hstart : I w [])
    (hexec : ∀ i env w l c, I w l →
      I (exec env w c).1 (l ++ [⟨i, w, ⟨c, (exec env w c).2⟩, (exec env w c).1⟩]))
    (houtside : ∀ o w w' l, outside o w = some w' → I w l → I w' l)
    (h : Reach (recorded start exec outside).serve ok (idle w) s) :
    I s.pool.world.world s.pool.world.entries ∧
      ∀ past e, past ++ [e] <+: s.pool.world.entries → I e.before past := by
  refine h.invariant (I := fun s ↦ I s.pool.world.world s.pool.world.entries ∧
    ∀ past e, past ++ [e] <+: s.pool.world.entries → I e.before past) ?_ ⟨hstart, forall_prefix_nil⟩
  intro s a s' _ hstep hcase
  obtain ⟨hnow, hearlier⟩ := hcase
  obtain ⟨r, rfl, rfl⟩ | ⟨i, env, c, k, t, rfl, hi, rfl⟩ | ⟨o, w', rfl, ho, rfl⟩ :=
    System.serve_cases hstep
  · exact ⟨hnow, hearlier⟩
  · exact ⟨hexec i env _ _ c hnow, forall_prefix_concat hearlier hnow⟩
  · obtain ⟨w', hw', rfl⟩ := Option.map_eq_some_iff.mp ho
    exact ⟨houtside o _ w' _ hw' hnow, hearlier⟩

/-- The same where only some steps are permitted and the programs issue only
some commands. -/
theorem along_of_meets {ok : Calls C A α σ ρ → Action ρ ε ω → Prop} (may : C → Prop)
    (I : σ → List (Entry C A σ) → Prop)
    (hstart : ∀ s r, ok s (.spawn r) → Meets (permits may) (fun _ _ ↦ True) () (start r)) (hbegin : I w [])
    (hexec : ∀ (s : Calls C A α σ ρ) i env c, ok s (.step i env) → s.pool.command i = some c → may c →
      I s.pool.world.world s.pool.world.entries →
      I (exec env s.pool.world.world c).1 (s.pool.world.entries ++
        [⟨i, s.pool.world.world, ⟨c, (exec env s.pool.world.world c).2⟩, (exec env s.pool.world.world c).1⟩]))
    (houtside : ∀ (s : Calls C A α σ ρ) o w', ok s (.outside o) → outside o s.pool.world.world = some w' →
      I s.pool.world.world s.pool.world.entries → I w' s.pool.world.entries)
    (h : Reach (recorded start exec outside).serve ok (idle w) s) :
    I s.pool.world.world s.pool.world.entries ∧
      ∀ past e, past ++ [e] <+: s.pool.world.entries → I e.before past := by
  refine (System.serve_invariant (K := fun _ ↦ ⟨fun _ ↦ may, fun _ _ _ ↦ True, (keeping C A).after⟩)
    (Q := fun _ _ _ ↦ True) (J := fun s _ _ ↦ I s.world s.entries ∧
      ∀ past e, past ++ [e] <+: s.entries → I e.before past) (fun _ ↦ rfl) ?start ?spawn ?exec ?outside h
    ⟨Served.keeps_nil _, hbegin, forall_prefix_nil⟩).2
  case start =>
    intro s r hr
    refine Meets.mono (fun _ _ _ ↦ trivial) ((hstart s r hr).transfer (R := fun _ _ ↦ True) ?_ ?_ ?_ trivial)
    · exact fun _ _ _ _ hmay ↦ hmay
    · exact fun _ _ _ _ _ _ ↦ trivial
    · exact fun _ _ _ _ _ ↦ trivial
  case spawn => exact fun _ _ _ _ hJ ↦ hJ
  case exec =>
    intro s i env c k t r hok hi _ hmay hJ
    have hnext := hexec s i env c hok (Pool.command_of_threads hi) hmay hJ.1
    exact ⟨trivial, hnext, forall_prefix_concat hJ.2 hJ.1⟩
  case outside =>
    intro s o w' hok ho hJ
    obtain ⟨w', hw', rfl⟩ := Option.map_eq_some_iff.mp ho
    exact ⟨houtside s o w' hok hw' hJ.1, hJ.2⟩

/-- What a command adds to a part of the world that only grows. -/
def growth (f : σ → List κ) (e : Entry C A σ) : List κ := (f e.after).drop (f e.before).length

theorem records_of_grows (hgrows : ∀ env w c, f w <+: f (exec env w c).1)
    (houtside : ∀ o w w', outside o w = some w' → f w' = f w)
    (h : Reach (recorded start exec outside).serve anyStep (idle w) s) :
    Records exec f (growth f) w s.pool.world s.pool.accounts :=
  (records_of_reach (fun _ env w c ↦ (List.prefix_iff_eq_append.mp (hgrows env w c)).symm) houtside h).2

/-- What a part of the world has was there at the start or was added by an entry. -/
theorem Records.origin {s : Recorded C A σ} {accounts : List (List (Exchange C A))}
    (h : Records exec f added w s accounts) {past : List (Entry C A σ)} {e : Entry C A σ}
    (hpast : past ++ [e] <+: s.entries) {x : κ} (hx : x ∈ f e.before) :
    x ∈ f w ∨ ∃ e' ∈ past, e' ∈ s.entries ∧ x ∈ added e' := by
  rw [h.earlier past e hpast] at hx
  rcases List.mem_append.mp hx with hx | hx
  · exact .inl hx
  · obtain ⟨e', he', hadded⟩ := List.mem_flatMap.mp hx
    exact .inr ⟨e', he', hpast.subset (List.mem_append_left _ he'), hadded⟩

theorem exists_prefix_of_mem {β : Type} {l : List β} {x : β} (h : x ∈ l) : ∃ past, past ++ [x] <+: l := by
  obtain ⟨past, rest, rfl⟩ := List.append_of_mem h
  exact ⟨past, rest, List.append_assoc _ _ _⟩

theorem Records.kept {s : Recorded C A σ} {accounts : List (List (Exchange C A))}
    (h : Records exec f added w s accounts) {e : Entry C A σ} (he : e ∈ s.entries) :
    f e.before <+: f s.world := by
  obtain ⟨past, hpast⟩ := exists_prefix_of_mem he
  obtain ⟨rest, hrest⟩ := hpast
  rw [h.earlier past e ⟨rest, hrest⟩, h.gained, ← hrest, List.append_assoc, List.flatMap_append,
    ← List.append_assoc]
  exact List.prefix_append _ _

/-- A call that has ended ran its program along its own records. -/
theorem runs_of_keeps
    (h : s.Keeps (fun _ ↦ keeping C A) (fun r t a ↦ Runs (start r) t a) ∧
      Records exec f added w s.pool.world s.pool.accounts) {i : ℕ} {r : ρ}
    {th : Thread C A α (List (Exchange C A))} {a : α} (hr : s.requests[i]? = some r)
    (hth : s.pool.threads[i]? = some th) (hdone : th.prog = .done a) :
    Runs (start r) (journalOf i s.pool.world) a := by
  have hmeets := h.1.meets i r th hr hth
  rw [hdone] at hmeets
  rw [← h.2.journals i th.account (Pool.accounts_of_threads hth)]
  exact hmeets

/-- Every command on record is one that its request may issue, and comes after
what held when the request came and was kept by everything since. -/
structure Ordered (may : ρ → C → Prop) (P : σ → ρ → Prop) (s : Recorded C A σ) (requests : List ρ) :
    Prop where
  commands : ∀ e ∈ s.entries, ∃ r, requests[e.call]? = some r ∧ may r e.exchange.1 ∧ P e.before r
  standing : ∀ r ∈ requests, P s.world r

theorem ordered_of_reach {ok : Calls C A α σ ρ → Action ρ ε ω → Prop} {may : ρ → C → Prop}
    {P : σ → ρ → Prop} (hstart : ∀ r, Meets (permits (may r)) (fun _ _ ↦ True) () (start r))
    (hspawn : ∀ s r, ok s (.spawn r) → P s.pool.world.world r)
    (hexec : ∀ env w c r, P w r → P (exec env w c).1 r)
    (houtside : ∀ o w w' r, outside o w = some w' → P w r → P w' r)
    (h : Reach (recorded start exec outside).serve ok (idle w) s) :
    Ordered may P s.pool.world s.requests := by
  refine (System.serve_invariant (K := fun r ↦ ⟨fun _ ↦ may r, fun _ _ _ ↦ True, (keeping C A).after⟩)
    (Q := fun _ _ _ ↦ True) (J := fun s requests _ ↦ Ordered may P s requests) (fun _ ↦ rfl) ?start
    ?spawn ?exec ?outside h ⟨Served.keeps_nil _, ?_⟩).2
  case start =>
    intro _ r _
    refine Meets.mono (fun _ _ _ ↦ trivial) ((hstart r).transfer (R := fun _ _ ↦ True) ?_ ?_ ?_ trivial)
    · exact fun _ _ _ _ hmay ↦ hmay
    · exact fun _ _ _ _ _ _ ↦ trivial
    · exact fun _ _ _ _ _ ↦ trivial
  case spawn =>
    intro s r hr _ hJ
    refine ⟨?_, ?_⟩
    · intro e he
      obtain ⟨r', hr', hcommand⟩ := hJ.commands e he
      exact ⟨r', getElem?_append_of_some hr' _, hcommand⟩
    · intro r' hr'
      rcases List.mem_append.mp hr' with hr' | hr'
      · exact hJ.standing r' hr'
      · obtain rfl := List.mem_singleton.mp hr'
        exact hspawn s r' hr
  case exec =>
    intro s i env c k t r _ _ hr hmay hJ
    refine ⟨trivial, ?_, ?_⟩
    · intro e he
      rcases List.mem_append.mp he with he | he
      · exact hJ.commands e he
      · obtain rfl := List.mem_singleton.mp he
        exact ⟨r, hr, hmay, hJ.standing r (List.mem_of_getElem? hr)⟩
    · exact fun r' hr' ↦ hexec env _ c r' (hJ.standing r' hr')
  case outside =>
    intro s o w' _ ho hJ
    obtain ⟨w', hw', rfl⟩ := Option.map_eq_some_iff.mp ho
    exact ⟨hJ.commands, fun r hr ↦ houtside o _ w' r hw' (hJ.standing r hr)⟩
  · exact ⟨fun _ he ↦ absurd he List.not_mem_nil, fun _ hr ↦ absurd hr List.not_mem_nil⟩

/-- Every command on record was one that its request may issue after what the
call had done by then, and was carried out as `Q` says. -/
def Conducted (may : ρ → List (Exchange C A) → C → Prop) (Q : ρ → Entry C A σ → Prop)
    (s : Recorded C A σ) (requests : List ρ) : Prop :=
  ∀ past e, past ++ [e] <+: s.entries → ∃ r, requests[e.call]? = some r ∧
    may r (journalOf e.call ⟨e.before, past⟩) e.exchange.1 ∧ Q r e

theorem Conducted.of_mem {may : ρ → List (Exchange C A) → C → Prop} {Q : ρ → Entry C A σ → Prop}
    {s : Recorded C A σ} {requests : List ρ} (h : Conducted may Q s requests) {e : Entry C A σ}
    (he : e ∈ s.entries) : ∃ r, requests[e.call]? = some r ∧ Q r e := by
  obtain ⟨past, hpast⟩ := exists_prefix_of_mem he
  obtain ⟨r, hr, -, hQ⟩ := h past e hpast
  exact ⟨r, hr, hQ⟩

theorem mem_journalOf {i : ℕ} {s : Recorded C A σ} {x : Exchange C A} :
    x ∈ journalOf i s ↔ ∃ e ∈ s.entries, e.call = i ∧ e.exchange = x := by
  simp only [journalOf, entriesOf, List.mem_map, List.mem_filter, decide_eq_true_eq, and_assoc]

/-- A call that issues commands only while its journal is short keeps it short. -/
theorem Conducted.length_journalOf_le {n : ℕ} {P : ρ → Prop} {Q : ρ → Entry C A σ → Prop}
    {s : Recorded C A σ} {requests : List ρ}
    (h : Conducted (fun r l _ ↦ P r → l.length < n) Q s requests) {i : ℕ} {r : ρ}
    (hr : requests[i]? = some r) (hP : P r) : (journalOf i s).length ≤ n := by
  have hprefix : ∀ past, past <+: s.entries → (journalOf i ⟨s.world, past⟩).length ≤ n := by
    intro past
    induction past using List.reverseRecOn with
    | nil => exact fun _ ↦ Nat.zero_le n
    | append_singleton past e ih =>
      intro hpast
      obtain ⟨r', hr', hshort, -⟩ := h past e hpast
      rw [journalOf_concat i ⟨s.world, past⟩ s.world e]
      by_cases hi : e.call = i
      · subst hi
        obtain rfl := Option.some.inj (hr'.symm.trans hr)
        rw [if_pos rfl, List.length_append]
        exact hshort hP
      · rw [if_neg hi, List.append_nil]
        exact ih ((List.prefix_append past [e]).trans hpast)
  exact hprefix s.entries (List.prefix_refl _)

theorem conducted_of_reach {ok : Calls C A α σ ρ → Action ρ ε ω → Prop}
    {may : ρ → List (Exchange C A) → C → Prop} {Q : ρ → Entry C A σ → Prop}
    (hstart : ∀ r, Meets ⟨may r, fun _ _ _ ↦ True, (keeping C A).after⟩ (fun _ _ ↦ True) [] (start r))
    (hstep : ∀ (s : Calls C A α σ ρ) i env c k t r, ok s (.step i env) →
      s.pool.threads[i]? = some ⟨.call c k, t⟩ → s.requests[i]? = some r →
      Q r ⟨i, s.pool.world.world, ⟨c, (exec env s.pool.world.world c).2⟩, (exec env s.pool.world.world c).1⟩)
    (h : Reach (recorded start exec outside).serve ok (idle w) s) :
    Conducted may Q s.pool.world s.requests := by
  let J := fun s requests accounts ↦ Conducted may Q s requests ∧
    Records exec (fun _ ↦ ([] : List Unit)) (fun _ ↦ []) w s accounts
  refine (System.serve_invariant (K := fun r ↦ ⟨may r, fun _ _ _ ↦ True, (keeping C A).after⟩)
    (Q := fun _ _ _ ↦ True) (J := J) (fun _ ↦ rfl) ?start ?spawn ?exec ?outside h
    ⟨Served.keeps_nil _, ?_, records_start w⟩).2.1
  case start => exact fun _ r _ ↦ hstart r
  case spawn =>
    intro s r _ _ hJ
    refine ⟨?_, hJ.2.spawned⟩
    intro past e hpast
    obtain ⟨r', hr', hcommand⟩ := hJ.1 past e hpast
    exact ⟨r', getElem?_append_of_some hr' _, hcommand⟩
  case exec =>
    intro s i env c k t r hok hi hr hmay hJ
    have ht := Pool.accounts_of_threads hi
    have hjournal := hJ.2.journals i t ht
    refine ⟨trivial, forall_prefix_concat hJ.1 ?_, hJ.2.executed ht rfl⟩
    exact ⟨r, hr, hjournal ▸ hmay, hstep s i env c k t r hok hi hr⟩
  case outside =>
    intro s o w' _ ho hJ
    obtain ⟨w', hw', rfl⟩ := Option.map_eq_some_iff.mp ho
    exact ⟨hJ.1, hJ.2.journals, hJ.2.calls, hJ.2.effects, hJ.2.gained, hJ.2.earlier⟩
  · exact forall_prefix_nil

/-- What each call has done as often as something else, all have done as often. -/
theorem countP_eq_of_calls {entries : List (Entry C A σ)} {p q : Entry C A σ → Bool} (n : ℕ)
    (hcalls : ∀ e ∈ entries, e.call < n)
    (h : ∀ i, (entries.filter fun e ↦ e.call = i).countP p = (entries.filter fun e ↦ e.call = i).countP q) :
    entries.countP p = entries.countP q := by
  induction n generalizing entries with
  | zero =>
    rw [List.eq_nil_iff_forall_not_mem.mpr fun e he ↦ Nat.not_lt_zero _ (hcalls e he)]
    rfl
  | succ n ih =>
    have hlast := fun p ↦ List.countP_eq_countP_filter_add entries p fun e ↦ decide (e.call = n)
    rw [hlast p, hlast q, h n]
    refine congrArg _ (ih ?_ ?_)
    · intro e he
      obtain ⟨he, hne⟩ := List.mem_filter.mp he
      have hlt := hcalls e he
      have hne : e.call ≠ n := by simpa using hne
      omega
    · intro i
      rw [List.filter_filter]
      by_cases hi : i = n
      · have hnone : entries.filter (fun e ↦ decide (e.call = i) && !decide (e.call = n)) = [] := by
          rw [List.filter_eq_nil_iff]
          simp [hi]
        rw [hnone]
        rfl
      · have hsame : entries.filter (fun e ↦ decide (e.call = i) && !decide (e.call = n)) =
            entries.filter fun e ↦ e.call = i := by
          refine List.filter_congr fun e _ ↦ ?_
          by_cases he : e.call = i <;> simp [he, hi]
        rw [hsame, h i]

end System

end TinyIM.Library.Journal
