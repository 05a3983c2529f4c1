import TinyIM.Library.Transition
import TinyIM.Library.Program
import Mathlib.Data.List.Basic

namespace TinyIM.Library.Interleaving

open Transition Program

variable {C : Type} {A : C → Type} {α τ σ ρ ε ω : Type}

/-- Programs that share a world. `start` is the program of a request, `exec`
carries out one command of the `i`-th program in an environment `ε`, and
`outside` is what the world does between two commands. -/
structure System (C : Type) (A : C → Type) (α τ σ ρ ε ω : Type) where
  contract : Contract C A τ
  fresh : τ
  start : ρ → Prog C A α
  exec : ℕ → ε → σ → (c : C) → σ × A c
  outside : ω → σ → Option σ

structure Thread (C : Type) (A : C → Type) (α τ : Type) where
  prog : Prog C A α
  account : τ

structure Pool (C : Type) (A : C → Type) (α τ σ : Type) where
  world : σ
  threads : List (Thread C A α τ)

inductive Action (ρ ε ω : Type)
  | spawn (r : ρ)
  | step (i : ℕ) (e : ε)
  | outside (o : ω)

variable (S : System C A α τ σ ρ ε ω)

/-- One step of the pool: a new program starts, the `i`-th program issues its
next command, or the world moves on its own. -/
def System.next (p : Pool C A α τ σ) : Action ρ ε ω → Option (Pool C A α τ σ)
  | .spawn r => some { p with threads := p.threads ++ [⟨S.start r, S.fresh⟩] }
  | .step i e =>
    match p.threads[i]? with
    | some ⟨.call c k, t⟩ =>
      let r := S.exec i e p.world c
      some ⟨r.1, p.threads.set i ⟨k r.2, S.contract.after t c r.2⟩⟩
    | _ => none
  | .outside o => (S.outside o p.world).map fun w ↦ { p with world := w }

def Pool.accounts (p : Pool C A α τ σ) : List τ := p.threads.map Thread.account

/-- The command that the `i`-th program issues next. -/
def Pool.command (p : Pool C A α τ σ) (i : ℕ) : Option C :=
  match p.threads[i]? with
  | some ⟨.call c _, _⟩ => some c
  | _ => none

variable {S} {p q : Pool C A α τ σ}

theorem Pool.accounts_of_threads {i : ℕ} {th : Thread C A α τ} (h : p.threads[i]? = some th) :
    p.accounts[i]? = some th.account := by
  rw [Pool.accounts, List.getElem?_map, h]
  rfl

theorem Pool.command_of_threads {i : ℕ} {c : C} {k : A c → Prog C A α} {t : τ}
    (h : p.threads[i]? = some ⟨.call c k, t⟩) : p.command i = some c := by
  rw [Pool.command, h]

theorem System.next_cases {a : Action ρ ε ω} (h : S.next p a = some q) :
    (∃ r, a = .spawn r ∧ q = ⟨p.world, p.threads ++ [⟨S.start r, S.fresh⟩]⟩) ∨
    (∃ i e c k t, a = .step i e ∧ p.threads[i]? = some ⟨.call c k, t⟩ ∧
      q = ⟨(S.exec i e p.world c).1, p.threads.set i
        ⟨k (S.exec i e p.world c).2, S.contract.after t c (S.exec i e p.world c).2⟩⟩) ∨
    (∃ o w, a = .outside o ∧ S.outside o p.world = some w ∧ q = ⟨w, p.threads⟩) := by
  cases a with
  | spawn r => exact .inl ⟨r, rfl, (Option.some.inj h).symm⟩
  | step i e =>
    simp only [System.next] at h
    split at h
    · next c k t hi => exact .inr (.inl ⟨i, e, c, k, t, rfl, hi, (Option.some.inj h).symm⟩)
    · cases h
  | outside o =>
    obtain ⟨w, hw, hq⟩ := Option.map_eq_some_iff.mp h
    exact .inr (.inr ⟨o, w, rfl, hw, hq.symm⟩)

/-- Every program of the pool keeps its contract from its account on. -/
def Pool.Lawful (K : Contract C A τ) (p : Pool C A α τ σ) : Prop :=
  ∀ th ∈ p.threads, Meets K (fun _ _ ↦ True) th.account th.prog

theorem Pool.lawful_nil (K : Contract C A τ) (w : σ) :
    Pool.Lawful K (⟨w, []⟩ : Pool C A α τ σ) :=
  fun _ hth ↦ absurd hth List.not_mem_nil

/-- The rule for concurrent programs: `J` relates the world to the accounts of
all programs, every program keeps its contract alone, and each command a
contract allows is answered as the contract expects and preserves `J`. -/
theorem System.invariant {ok : Pool C A α τ σ → Action ρ ε ω → Prop} {J : σ → List τ → Prop}
    (hstart : ∀ r, Meets S.contract (fun _ _ ↦ True) S.fresh (S.start r))
    (hspawn : ∀ w ts, J w ts → J w (ts ++ [S.fresh]))
    (hexec : ∀ (p : Pool C A α τ σ) i e c k t, ok p (.step i e) →
      p.threads[i]? = some ⟨.call c k, t⟩ → S.contract.may t c → J p.world p.accounts →
      S.contract.answers t c (S.exec i e p.world c).2 ∧
        J (S.exec i e p.world c).1
          (p.accounts.set i (S.contract.after t c (S.exec i e p.world c).2)))
    (houtside : ∀ (p : Pool C A α τ σ) o w, ok p (.outside o) → S.outside o p.world = some w →
      J p.world p.accounts → J w p.accounts)
    (h : Reach S.next ok p q) (hp : p.Lawful S.contract ∧ J p.world p.accounts) :
    q.Lawful S.contract ∧ J q.world q.accounts := by
  refine h.invariant (I := fun p ↦ p.Lawful S.contract ∧ J p.world p.accounts) ?_ hp
  intro p a q hok hnext hcase
  obtain ⟨hlaw, hJ⟩ := hcase
  obtain ⟨r, rfl, rfl⟩ | ⟨i, e, c, k, t, rfl, hi, rfl⟩ | ⟨o, w, rfl, ho, rfl⟩ :=
    System.next_cases hnext
  · refine ⟨fun th hth ↦ ?_, by simpa [Pool.accounts] using hspawn _ _ hJ⟩
    rcases List.mem_append.mp hth with hth | hth
    · exact hlaw th hth
    · obtain rfl := List.mem_singleton.mp hth
      exact hstart r
  · obtain ⟨hmay, hcont⟩ := hlaw _ (List.mem_of_getElem? hi)
    obtain ⟨hans, hJ'⟩ := hexec p i e c k t hok hi hmay hJ
    refine ⟨fun th hth ↦ ?_, by simpa [Pool.accounts, List.map_set] using hJ'⟩
    rcases List.mem_or_eq_of_mem_set hth with hth | rfl
    · exact hlaw th hth
    · exact hcont _ hans
  · exact ⟨hlaw, houtside p o w hok ho hJ⟩

/-- A pool that remembers the requests of its programs, in the order in which
they came. -/
structure Served (C : Type) (A : C → Type) (α τ σ ρ : Type) where
  pool : Pool C A α τ σ
  requests : List ρ

/-- A step of the pool, with the request noted down when a program starts. -/
def System.serve (S : System C A α τ σ ρ ε ω) (s : Served C A α τ σ ρ) (a : Action ρ ε ω) :
    Option (Served C A α τ σ ρ) :=
  (S.next s.pool a).map fun p ↦
    ⟨p, match a with
      | .spawn r => s.requests ++ [r]
      | _ => s.requests⟩

section Served

variable {s s' : Served C A α τ σ ρ} {K : ρ → Contract C A τ} {Q : ρ → τ → α → Prop}

theorem System.serve_cases {a : Action ρ ε ω} (h : S.serve s a = some s') :
    (∃ r, a = .spawn r ∧
      s' = ⟨⟨s.pool.world, s.pool.threads ++ [⟨S.start r, S.fresh⟩]⟩, s.requests ++ [r]⟩) ∨
    (∃ i e c k t, a = .step i e ∧ s.pool.threads[i]? = some ⟨.call c k, t⟩ ∧
      s' = ⟨⟨(S.exec i e s.pool.world c).1, s.pool.threads.set i
        ⟨k (S.exec i e s.pool.world c).2, S.contract.after t c (S.exec i e s.pool.world c).2⟩⟩,
        s.requests⟩) ∨
    (∃ o w, a = .outside o ∧ S.outside o s.pool.world = some w ∧
      s' = ⟨⟨w, s.pool.threads⟩, s.requests⟩) := by
  obtain ⟨p, hp, rfl⟩ := Option.map_eq_some_iff.mp h
  obtain ⟨r, rfl, rfl⟩ | ⟨i, e, c, k, t, rfl, hi, rfl⟩ | ⟨o, w, rfl, ho, rfl⟩ :=
    System.next_cases hp
  · exact .inl ⟨r, rfl, rfl⟩
  · exact .inr (.inl ⟨i, e, c, k, t, rfl, hi, rfl⟩)
  · exact .inr (.inr ⟨o, w, rfl, ho, rfl⟩)

/-- Every program keeps the contract of its request from its account on, and
`Q` holds when it ends. -/
structure Served.Keeps (K : ρ → Contract C A τ) (Q : ρ → τ → α → Prop) (s : Served C A α τ σ ρ) :
    Prop where
  length : s.requests.length = s.pool.threads.length
  meets : ∀ (i : ℕ) (r : ρ) (th : Thread C A α τ), s.requests[i]? = some r →
    s.pool.threads[i]? = some th → Meets (K r) (Q r) th.account th.prog

theorem Served.keeps_nil (w : σ) : Served.Keeps K Q ⟨⟨w, []⟩, []⟩ := by
  refine ⟨rfl, ?_⟩
  intro i r th hr
  cases hr

theorem Served.Keeps.request (h : s.Keeps K Q) {i : ℕ} {th : Thread C A α τ}
    (hi : s.pool.threads[i]? = some th) : ∃ r, s.requests[i]? = some r := by
  have hlt := (List.getElem?_eq_some_iff.mp hi).1
  rw [← h.length] at hlt
  exact ⟨_, List.getElem?_eq_getElem hlt⟩

theorem getElem?_append_of_some {β : Type} {l : List β} {x : β} {i : ℕ} (h : l[i]? = some x)
    (r : List β) : (l ++ r)[i]? = some x :=
  (List.getElem?_append_left (List.getElem?_eq_some_iff.mp h).1).trans h

theorem getElem?_concat_some {β : Type} {l : List β} {b x : β} {i : ℕ}
    (h : (l ++ [b])[i]? = some x) : l[i]? = some x ∨ (i = l.length ∧ x = b) := by
  rcases Nat.lt_trichotomy i l.length with hi | rfl | hi
  · rw [List.getElem?_append_left hi] at h
    exact .inl h
  · simpa [eq_comm] using h
  · have hlen : (l ++ [b]).length ≤ i := by
      rw [List.length_append, List.length_singleton]
      exact hi
    rw [List.getElem?_eq_none hlen] at h
    cases h

theorem getElem?_set_cases {β : Type} {l : List β} {b x : β} {i j : ℕ}
    (h : (l.set i b)[j]? = some x) : (j = i ∧ x = b) ∨ (j ≠ i ∧ l[j]? = some x) := by
  by_cases hj : j = i
  · subst hj
    have hlt := (List.getElem?_eq_some_iff.mp h).1
    rw [List.length_set] at hlt
    rw [List.getElem?_set_self hlt] at h
    exact .inl ⟨rfl, (Option.some.inj h).symm⟩
  · rw [List.getElem?_set_ne (Ne.symm hj)] at h
    exact .inr ⟨hj, h⟩

theorem set_of_getElem? {β : Type} {l : List β} {b : β} {i : ℕ} (h : l[i]? = some b) :
    l.set i b = l := by
  obtain ⟨hi, rfl⟩ := List.getElem?_eq_some_iff.mp h
  exact List.set_getElem_self hi

/-- The contracts hold on as long as every command is answered as the contract
of its request expects. -/
theorem Served.Keeps.next (hafter : ∀ r, (K r).after = S.contract.after) {a : Action ρ ε ω}
    (h : s.Keeps K Q) (hstep : S.serve s a = some s')
    (hstart : ∀ r, a = .spawn r → Meets (K r) (Q r) S.fresh (S.start r))
    (hanswers : ∀ i e c k t r, a = .step i e → s.pool.threads[i]? = some ⟨.call c k, t⟩ →
      s.requests[i]? = some r → (K r).may t c →
        (K r).answers t c (S.exec i e s.pool.world c).2) : s'.Keeps K Q := by
  obtain ⟨r, rfl, rfl⟩ | ⟨i, e, c, k, t, rfl, hi, rfl⟩ | ⟨o, w, rfl, -, rfl⟩ :=
    System.serve_cases hstep
  · refine ⟨by simp [h.length], ?_⟩
    intro j r' th hr hth
    rcases getElem?_concat_some hth with hold | ⟨rfl, rfl⟩
    · rcases getElem?_concat_some hr with hr | ⟨hj, -⟩
      · exact h.meets j r' th hr hold
      · rw [hj, h.length] at hold
        simp at hold
    · rcases getElem?_concat_some hr with hr | ⟨-, rfl⟩
      · rw [← h.length] at hr
        simp at hr
      · exact hstart r' rfl
  · refine ⟨by simp [h.length], ?_⟩
    intro j r th hr hth
    rcases getElem?_set_cases hth with ⟨rfl, rfl⟩ | ⟨-, hth⟩
    · obtain ⟨hmay, hcont⟩ := h.meets j r _ hr hi
      have hmeets := hcont _ (hanswers j e c k t r rfl hi hr hmay)
      rw [hafter] at hmeets
      exact hmeets
    · exact h.meets j r th hr hth
  · exact ⟨h.length, h.meets⟩

/-- The rule for programs whose contract depends on their request: `J` relates
the world to the requests and accounts of all programs. -/
theorem System.serve_invariant {ok : Served C A α τ σ ρ → Action ρ ε ω → Prop}
    {J : σ → List ρ → List τ → Prop} (hafter : ∀ r, (K r).after = S.contract.after)
    (hstart : ∀ s r, ok s (.spawn r) → Meets (K r) (Q r) S.fresh (S.start r))
    (hspawn : ∀ (s : Served C A α τ σ ρ) r, ok s (.spawn r) →
      s.requests.length = s.pool.accounts.length →
      J s.pool.world s.requests s.pool.accounts →
      J s.pool.world (s.requests ++ [r]) (s.pool.accounts ++ [S.fresh]))
    (hexec : ∀ (s : Served C A α τ σ ρ) i e c k t r, ok s (.step i e) →
      s.pool.threads[i]? = some ⟨.call c k, t⟩ → s.requests[i]? = some r → (K r).may t c →
      J s.pool.world s.requests s.pool.accounts →
      (K r).answers t c (S.exec i e s.pool.world c).2 ∧
        J (S.exec i e s.pool.world c).1 s.requests
          (s.pool.accounts.set i (S.contract.after t c (S.exec i e s.pool.world c).2)))
    (houtside : ∀ (s : Served C A α τ σ ρ) o w, ok s (.outside o) →
      S.outside o s.pool.world = some w → J s.pool.world s.requests s.pool.accounts →
      J w s.requests s.pool.accounts)
    (h : Reach S.serve ok s s') (hs : s.Keeps K Q ∧ J s.pool.world s.requests s.pool.accounts) :
    s'.Keeps K Q ∧ J s'.pool.world s'.requests s'.pool.accounts := by
  refine h.invariant (I := fun s ↦ s.Keeps K Q ∧ J s.pool.world s.requests s.pool.accounts) ?_ hs
  intro s a s' hok hstep hcase
  obtain ⟨hkeeps, hJ⟩ := hcase
  have hexec' := fun i e c k t r hok hi hr hmay ↦ hexec s i e c k t r hok hi hr hmay hJ
  refine ⟨hkeeps.next hafter hstep ?_ ?_, ?_⟩
  · intro r heq
    exact hstart s r (heq ▸ hok)
  · intro i e c k t r heq hi hr hmay
    exact (hexec' i e c k t r (heq ▸ hok) hi hr hmay).1
  · obtain ⟨r, rfl, rfl⟩ | ⟨i, e, c, k, t, rfl, hi, rfl⟩ | ⟨o, w, rfl, ho, rfl⟩ :=
      System.serve_cases hstep
    · simpa [Pool.accounts] using
        hspawn s r hok (by rw [hkeeps.length, Pool.accounts, List.length_map]) hJ
    · obtain ⟨r, hr⟩ := hkeeps.request hi
      have hmay := (hkeeps.meets i r _ hr hi).1
      simpa [Pool.accounts, List.map_set] using (hexec' i e c k t r hok hi hr hmay).2
    · exact houtside s o w hok ho hJ

end Served

end TinyIM.Library.Interleaving
