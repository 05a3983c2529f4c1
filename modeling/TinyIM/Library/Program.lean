import Mathlib.Tactic.Common

namespace TinyIM.Library.Program

/-- A program that talks to the world by commands: it has either finished or
issues a command and continues with the answer. Between two commands of one
program any other program may run. -/
inductive Prog (C : Type) (A : C → Type) (α : Type) : Type
  | done (a : α)
  | call (c : C) (k : A c → Prog C A α)

variable {C : Type} {A : C → Type} {α β : Type}

namespace Prog

def bind : Prog C A α → (α → Prog C A β) → Prog C A β
  | done a, f => f a
  | call c k, f => call c fun a ↦ (k a).bind f

instance : Monad (Prog C A) where
  pure := done
  bind := bind

def perform (c : C) : Prog C A (A c) := call c done

@[simp] theorem pure_eq (a : α) : (pure a : Prog C A α) = done a := rfl

@[simp] theorem call_bind (c : C) (k : A c → Prog C A α) (f : α → Prog C A β) :
    (call c k >>= f) = call c fun a ↦ k a >>= f := rfl

@[simp] theorem done_bind (a : α) (f : α → Prog C A β) : (done a >>= f) = f a := rfl

theorem bind_assoc {γ : Type} (p : Prog C A α) (f : α → Prog C A β) (g : β → Prog C A γ) :
    (p >>= f) >>= g = p >>= fun a ↦ f a >>= g := by
  induction p with
  | done a => rfl
  | call c k ih =>
    simp only [call_bind]
    exact congrArg _ (funext ih)

end Prog

/-- What one program may do, with a private account `τ` of what it has done:
the commands it may issue, the answers it may get, and the account after each. -/
structure Contract (C : Type) (A : C → Type) (τ : Type) where
  may : τ → C → Prop
  answers : τ → (c : C) → A c → Prop
  after : τ → (c : C) → A c → τ

variable {τ : Type} {K : Contract C A τ}

/-- The program keeps the contract whatever it is answered, and `Q` holds of
the account and the result when it ends. -/
def Meets (K : Contract C A τ) (Q : τ → α → Prop) : τ → Prog C A α → Prop
  | t, .done a => Q t a
  | t, .call c k => K.may t c ∧ ∀ a, K.answers t c a → Meets K Q (K.after t c a) (k a)

@[simp] theorem meets_done {Q : τ → α → Prop} {t : τ} {a : α} :
    Meets K Q t (.done a) ↔ Q t a := Iff.rfl

@[simp] theorem meets_call {Q : τ → α → Prop} {t : τ} {c : C} {k : A c → Prog C A α} :
    Meets K Q t (.call c k) ↔
      K.may t c ∧ ∀ a, K.answers t c a → Meets K Q (K.after t c a) (k a) := Iff.rfl

theorem Meets.mono {Q R : τ → α → Prop} (hQR : ∀ t a, Q t a → R t a) {t : τ}
    {p : Prog C A α} (h : Meets K Q t p) : Meets K R t p := by
  induction p generalizing t with
  | done a => exact hQR t a h
  | call c k ih => exact ⟨h.1, fun a ha ↦ ih a (h.2 a ha)⟩

/-- Every program keeps a contract that permits every command. -/
theorem meets_of_may (hmay : ∀ t c, K.may t c) {t : τ} {p : Prog C A α} :
    Meets K (fun _ _ ↦ True) t p := by
  induction p generalizing t with
  | done a => exact trivial
  | call c k ih => exact ⟨hmay t c, fun a _ ↦ ih a⟩

theorem meets_bind {Q : τ → β → Prop} {t : τ} {p : Prog C A α} {f : α → Prog C A β} :
    Meets K Q t (p >>= f) ↔ Meets K (fun t a ↦ Meets K Q t (f a)) t p := by
  induction p generalizing t with
  | done a => exact Iff.rfl
  | call c k ih =>
    simp only [Prog.call_bind, meets_call]
    exact and_congr Iff.rfl (forall_congr' fun a ↦ imp_congr_right fun _ ↦ ih a)

theorem meets_perform {c : C} {Q : τ → A c → Prop} {t : τ} :
    Meets K Q t (Prog.perform c) ↔ K.may t c ∧ ∀ a, K.answers t c a → Q (K.after t c a) a := Iff.rfl

theorem meets_perform_bind {Q : τ → β → Prop} {t : τ} {c : C} {f : A c → Prog C A β} :
    Meets K Q t (Prog.perform c >>= f) ↔
      K.may t c ∧ ∀ a, K.answers t c a → Meets K Q (K.after t c a) (f a) := Iff.rfl

/-- A contract about the commands alone. -/
def permits (may : C → Prop) : Contract C A Unit where
  may _ := may
  answers _ _ _ := True
  after t _ _ := t

/-- A contract that permits all commands of a program is kept by it. -/
theorem meets_of_permits {P : C → Prop} {t : τ} {p : Prog C A α}
    (h : Meets (permits P) (fun _ _ ↦ True) () p) (hmay : ∀ t c, P c → K.may t c) :
    Meets K (fun _ _ ↦ True) t p := by
  induction p generalizing t with
  | done a => exact trivial
  | call c k ih => exact ⟨hmay t c h.1, fun a _ ↦ ih a (h.2 a trivial)⟩

variable {σ : Type}

/-- What a program that ran alone leaves: the state, the commands it issued in
order and its result. -/
structure Finished (σ C α : Type) where
  state : σ
  issued : List C
  value : α

/-- Runs a program alone. The executor is told how many commands the program
has issued before, so that each command can be answered in its own way. -/
def run (exec : ℕ → σ → (c : C) → σ × A c) : ℕ → σ → Prog C A α → Finished σ C α
  | _, s, .done a => ⟨s, [], a⟩
  | n, s, .call c k =>
    let r := exec n s c
    let d := run exec (n + 1) r.1 (k r.2)
    ⟨d.state, c :: d.issued, d.value⟩

variable {exec : ℕ → σ → (c : C) → σ × A c}

@[simp] theorem run_done (n : ℕ) (s : σ) (a : α) :
    run exec n s (.done a : Prog C A α) = ⟨s, [], a⟩ := rfl

@[simp] theorem run_call (n : ℕ) (s : σ) (c : C) (k : A c → Prog C A α) :
    run exec n s (.call c k) =
      ⟨(run exec (n + 1) (exec n s c).1 (k (exec n s c).2)).state,
        c :: (run exec (n + 1) (exec n s c).1 (k (exec n s c).2)).issued,
        (run exec (n + 1) (exec n s c).1 (k (exec n s c).2)).value⟩ := rfl

theorem run_bind (n : ℕ) (s : σ) (p : Prog C A α) (f : α → Prog C A β) :
    run exec n s (p >>= f) =
      ⟨(run exec (n + (run exec n s p).issued.length) (run exec n s p).state
          (f (run exec n s p).value)).state,
        (run exec n s p).issued ++
          (run exec (n + (run exec n s p).issued.length) (run exec n s p).state
            (f (run exec n s p).value)).issued,
        (run exec (n + (run exec n s p).issued.length) (run exec n s p).state
          (f (run exec n s p).value)).value⟩ := by
  induction p generalizing n s with
  | done a => rfl
  | call c k ih =>
    simp only [Prog.call_bind, run_call, ih, List.length_cons, List.cons_append,
      Nat.add_right_comm n 1, Nat.add_assoc n _ 1]

theorem run_bind_pure (n : ℕ) (s : σ) (p : Prog C A α) (f : α → β) :
    (run exec n s (p >>= fun a ↦ pure (f a))).state = (run exec n s p).state := by
  rw [run_bind]
  rfl

@[simp] theorem run_perform_bind (n : ℕ) (s : σ) (c : C) (f : A c → Prog C A α) :
    run exec n s (Prog.perform c >>= f) =
      ⟨(run exec (n + 1) (exec n s c).1 (f (exec n s c).2)).state,
        c :: (run exec (n + 1) (exec n s c).1 (f (exec n s c).2)).issued,
        (run exec (n + 1) (exec n s c).1 (f (exec n s c).2)).value⟩ := rfl

/-- A program that keeps a contract, run alone: an invariant `I` that each
permitted command preserves holds at the end, and each command was permitted. -/
theorem Meets.run {Q : τ → α → Prop} {I : σ → τ → Prop} {n : ℕ} {s : σ} {t : τ} {p : Prog C A α}
    (h : Meets K Q t p)
    (hexec : ∀ n s t c, K.may t c → I s t →
      K.answers t c (exec n s c).2 ∧ I (exec n s c).1 (K.after t c (exec n s c).2))
    (hI : I s t) :
    (∃ t', I (Program.run exec n s p).state t' ∧ Q t' (Program.run exec n s p).value) ∧
      ∀ c ∈ (Program.run exec n s p).issued, ∃ t', K.may t' c := by
  induction p generalizing n s t with
  | done a => exact ⟨⟨t, hI, h⟩, fun _ hc ↦ absurd hc List.not_mem_nil⟩
  | call c k ih =>
    obtain ⟨hmay, hcont⟩ := h
    obtain ⟨hanswers, hI'⟩ := hexec n s t c hmay hI
    obtain ⟨hend, hissued⟩ := ih _ (hcont _ hanswers) hI' (n := n + 1)
    refine ⟨hend, ?_⟩
    intro c' hc'
    rcases List.mem_cons.mp hc' with rfl | hc'
    · exact ⟨t, hmay⟩
    · exact hissued c' hc'

section Lift

variable {C' : Type} {A' : C' → Type} {f : C → C'}

/-- A program over some of the commands of a larger system. -/
def Prog.lift (f : C → C') : Prog C (fun c ↦ A' (f c)) α → Prog C' A' α
  | .done a => .done a
  | .call c k => .call (f c) fun a ↦ (k a).lift f

/-- What a contract says about the commands of a part of the system. -/
def Contract.comap (K : Contract C' A' τ) (f : C → C') : Contract C (fun c ↦ A' (f c)) τ where
  may t c := K.may t (f c)
  answers t c := K.answers t (f c)
  after t c := K.after t (f c)

theorem meets_lift {K : Contract C' A' τ} {Q : τ → α → Prop} {t : τ}
    {p : Prog C (fun c ↦ A' (f c)) α} : Meets K Q t (p.lift f) ↔ Meets (K.comap f) Q t p := by
  induction p generalizing t with
  | done a => exact Iff.rfl
  | call c k ih => exact and_congr Iff.rfl (forall_congr' fun a ↦ imp_congr_right fun _ ↦ ih a)

end Lift

section Both

variable {τ' : Type}

/-- Two contracts at once, each with its own account. -/
def Contract.both (K : Contract C A τ) (K' : Contract C A τ') : Contract C A (τ × τ') where
  may t c := K.may t.1 c ∧ K'.may t.2 c
  answers t c a := K.answers t.1 c a ∧ K'.answers t.2 c a
  after t c a := (K.after t.1 c a, K'.after t.2 c a)

theorem Meets.both {K' : Contract C A τ'} {Q : τ → α → Prop} {Q' : τ' → α → Prop} {t : τ} {t' : τ'}
    {p : Prog C A α} (h : Meets K Q t p) (h' : Meets K' Q' t' p) :
    Meets (K.both K') (fun t a ↦ Q t.1 a ∧ Q' t.2 a) (t, t') p := by
  induction p generalizing t t' with
  | done a => exact ⟨h, h'⟩
  | call c k ih => exact ⟨⟨h.1, h'.1⟩, fun a ha ↦ ih a (h.2 a ha.1) (h'.2 a ha.2)⟩

/-- A program keeps every contract that asks less, seen through a relation of
the accounts. -/
theorem Meets.transfer {K' : Contract C A τ'} {R : τ → τ' → Prop} {Q : τ → α → Prop}
    (hmay : ∀ t t' c, R t t' → K.may t c → K'.may t' c)
    (hanswers : ∀ t t' c a, R t t' → K'.answers t' c a → K.answers t c a)
    (hafter : ∀ t t' c a, R t t' → R (K.after t c a) (K'.after t' c a)) {t : τ} {t' : τ'}
    {p : Prog C A α} (h : Meets K Q t p) (hR : R t t') :
    Meets K' (fun t' a ↦ ∃ t, R t t' ∧ Q t a) t' p := by
  induction p generalizing t t' with
  | done a => exact ⟨t, hR, h⟩
  | call c k ih =>
    refine ⟨hmay t t' c hR h.1, ?_⟩
    intro a ha
    exact ih a (h.2 a (hanswers t t' c a hR ha)) (hafter t t' c a hR)

end Both

section Turns

/-- Programs one after another. Each command carries the number of its turn. -/
def Prog.inTurns : ℕ → List (Prog C A α) → Prog (ℕ × C) (fun c ↦ A c.2) (List α)
  | _, [] => return []
  | n, p :: ps => do
    let a ← p.lift (Prod.mk n)
    let as ← Prog.inTurns (n + 1) ps
    return a :: as

/-- The account in turn `n`, of which each turn has its own. -/
def inTurn (fresh : τ) (t : ℕ × τ) (n : ℕ) : τ := if t.1 = n then t.2 else fresh

/-- What a contract says about programs that take turns. -/
def Contract.inTurns (K : Contract C A τ) (fresh : τ) : Contract (ℕ × C) (fun c ↦ A c.2) (ℕ × τ) where
  may t c := t.1 ≤ c.1 ∧ K.may (inTurn fresh t c.1) c.2
  answers t c := K.answers (inTurn fresh t c.1) c.2
  after t c a := (c.1, K.after (inTurn fresh t c.1) c.2 a)

variable {fresh : τ} {t : ℕ × τ} {n : ℕ}

@[simp] theorem inTurn_self (a : τ) : inTurn fresh (n, a) n = a := if_pos rfl

theorem inTurn_next (h : t.1 ≤ n) : inTurn fresh t (n + 1) = fresh := if_neg (by omega)

theorem meets_turn {Q : τ → α → Prop} {p : Prog C A α} (hn : t.1 ≤ n)
    (h : Meets K Q (inTurn fresh t n) p) :
    Meets (K.inTurns fresh) (fun t a ↦ t.1 ≤ n ∧ Q (inTurn fresh t n) a) t (p.lift (Prod.mk n)) := by
  induction p generalizing t with
  | done a => exact ⟨hn, h⟩
  | call c k ih =>
    refine ⟨⟨hn, h.1⟩, ?_⟩
    intro a ha
    exact ih a (Nat.le_refl n) ((inTurn_self (K.after (inTurn fresh t n) c a)).symm ▸ h.2 a ha)

theorem meets_inTurns {ps : List (Prog C A α)} (hn : t.1 ≤ n) (ht : inTurn fresh t n = fresh)
    (h : ∀ p ∈ ps, Meets K (fun _ _ ↦ True) fresh p) :
    Meets (K.inTurns fresh) (fun _ _ ↦ True) t (Prog.inTurns n ps) := by
  induction ps generalizing t n with
  | nil => exact trivial
  | cons p ps ih =>
    obtain ⟨hp, hps⟩ := List.forall_mem_cons.mp h
    refine meets_bind.mpr ((meets_turn hn (ht.symm ▸ hp)).mono ?_)
    intro t' a hcase
    obtain ⟨hn', -⟩ := hcase
    refine meets_bind.mpr ((ih (Nat.le_succ_of_le hn') (inTurn_next hn') hps).mono ?_)
    intro _ _ _
    exact trivial

end Turns

end TinyIM.Library.Program
