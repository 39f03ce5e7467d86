import Mathlib.Logic.Relation

/-! Finitely many tasks over one shared state. Each task runs in atomic steps, and the
steps of different tasks interleave in any way. -/

namespace Interleave

open List

structure Config (σ τ : Type*) where
  shared : σ
  pool : List τ

variable {σ τ : Type*} {next : τ → σ → σ × Option τ} {guard : σ → τ → List τ → Prop}
  {inv right : σ → Prop} {owes : σ → τ → Prop}

/-- One task takes a step, which gives the new shared state and the rest of the task.
The guard sees the shared state, the task and the other tasks. -/
inductive Step (next : τ → σ → σ × Option τ) (guard : σ → τ → List τ → Prop) :
    Config σ τ → Config σ τ → Prop
  | fire {s : σ} {t : τ} (pre post : List τ) (h : guard s t (pre ++ post)) :
    Step next guard ⟨s, pre ++ t :: post⟩ ⟨(next t s).1, pre ++ ((next t s).2.toList ++ post)⟩

abbrev Run (next : τ → σ → σ × Option τ) (guard : σ → τ → List τ → Prop) :=
  Relation.ReflTransGen (Step next guard)

def anyStep : σ → τ → List τ → Prop := fun _ _ _ => True

def Covered (right : σ → Prop) (owes : σ → τ → Prop) (c : Config σ τ) : Prop :=
  right c.shared ∨ ∃ t ∈ c.pool, owes c.shared t

/-- What a step has to do for the debt of an update never to get lost: it makes the
state right, it leaves a task that owes the update, or it takes nothing away. -/
inductive Keeps (next : τ → σ → σ × Option τ) (right : σ → Prop) (owes : σ → τ → Prop)
    (s : σ) (t : τ) (others : List τ) : Prop
  | settles (h : right (next t s).1)
  | other (h : ∃ u ∈ others, owes (next t s).1 u)
  | rest (h : ∃ u ∈ (next t s).2, owes (next t s).1 u)
  | passes (hright : right s → right (next t s).1)
      (hothers : ∀ u, owes s u → owes (next t s).1 u)
      (hself : owes s t → ∃ u ∈ (next t s).2, owes (next t s).1 u)

theorem Keeps.covered {s : σ} {t : τ} {pre post : List τ}
    (h : Keeps next right owes s t (pre ++ post))
    (hc : Covered right owes ⟨s, pre ++ t :: post⟩) :
    Covered right owes ⟨(next t s).1, pre ++ ((next t s).2.toList ++ post)⟩ := by
  have hother : (∃ u ∈ pre ++ post, owes (next t s).1 u) →
      Covered right owes ⟨(next t s).1, pre ++ ((next t s).2.toList ++ post)⟩ := by
    rintro ⟨u, hu, ho⟩
    refine .inr ⟨u, ?_, ho⟩
    rcases mem_append.mp hu with hu | hu <;> simp [hu]
  have hrest : (∃ u ∈ (next t s).2, owes (next t s).1 u) →
      Covered right owes ⟨(next t s).1, pre ++ ((next t s).2.toList ++ post)⟩ := by
    rintro ⟨u, hu, ho⟩
    exact .inr ⟨u, by simp [Option.mem_def.mp hu], ho⟩
  cases h with
  | settles h => exact .inl h
  | other h => exact hother h
  | rest h => exact hrest h
  | passes hright hothers hself =>
    rcases hc with hr | ⟨u, hu, ho⟩
    · exact .inl (hright hr)
    · have hsplit : u = t ∨ u ∈ pre ++ post := by
        simp only [mem_append, mem_cons] at hu ⊢
        exact or_left_comm.mp hu
      rcases hsplit with rfl | hmem
      · exact hrest (hself ho)
      · exact hother ⟨u, hmem, hothers u ho⟩

theorem inv_of_run (hinv : ∀ s t, inv s → inv (next t s).1) {c c' : Config σ τ}
    (hrun : Run next guard c c') (hc : inv c.shared) : inv c'.shared := by
  induction hrun with
  | refl => exact hc
  | tail _ hstep ih =>
    cases hstep with
    | fire pre post _ => exact hinv _ _ ih

theorem covered_of_run (hinv : ∀ s t, inv s → inv (next t s).1)
    (hkeeps : ∀ s t others, inv s → guard s t others → Keeps next right owes s t others)
    {c c' : Config σ τ} (hrun : Run next guard c c') (hi : inv c.shared)
    (hc : Covered right owes c) : Covered right owes c' := by
  induction hrun with
  | refl => exact hc
  | tail hrun hstep ih =>
    have hbefore := inv_of_run hinv hrun hi
    cases hstep with
    | fire pre post hg => exact (hkeeps _ _ _ hbefore hg).covered ih

theorem right_of_run (hinv : ∀ s t, inv s → inv (next t s).1)
    (hkeeps : ∀ s t others, inv s → guard s t others → Keeps next right owes s t others)
    {s s' : σ} {pool : List τ} (hi : inv s) (hs : right s)
    (hrun : Run next guard ⟨s, pool⟩ ⟨s', []⟩) : right s' := by
  rcases covered_of_run hinv hkeeps hrun hi (.inl hs) with h | ⟨t, ht, -⟩
  · exact h
  · cases ht

/-- A relation between the shared state and the unfinished tasks, in whatever order they
are listed, that every step keeps. -/
theorem pool_inv_of_run {inv : σ → List τ → Prop} (hperm : ∀ s l l', l.Perm l' → inv s l → inv s l')
    (hstep : ∀ s t others, guard s t others → inv s (t :: others) →
      inv (next t s).1 ((next t s).2.toList ++ others))
    {c c' : Config σ τ} (hrun : Run next guard c c') (hc : inv c.shared c.pool) :
    inv c'.shared c'.pool := by
  induction hrun with
  | refl => exact hc
  | tail _ hstep' ih =>
    cases hstep' with
    | fire pre post hg =>
      have hfirst := hperm _ _ _ perm_middle ih
      exact hperm _ _ _ (perm_append_comm_assoc _ _ _) (hstep _ _ _ hg hfirst)

section Schedule

def fireAt (next : τ → σ → σ × Option τ) (c : Config σ τ) (i : Nat) : Config σ τ :=
  match c.pool[i]? with
  | none => c
  | some t =>
    ⟨(next t c.shared).1, c.pool.take i ++ ((next t c.shared).2.toList ++ c.pool.drop (i + 1))⟩

def schedule (next : τ → σ → σ × Option τ) (c : Config σ τ) (is : List Nat) : Config σ τ :=
  is.foldl (fireAt next) c

def Permits (next : τ → σ → σ × Option τ) (guard : σ → τ → List τ → Prop) : Config σ τ → List Nat → Prop
  | _, [] => True
  | c, i :: is =>
    (∀ t ∈ c.pool[i]?, guard c.shared t (c.pool.take i ++ c.pool.drop (i + 1))) ∧
      Permits next guard (fireAt next c i) is

instance decidablePermits [∀ s t others, Decidable (guard s t others)] :
    (c : Config σ τ) → (is : List Nat) → Decidable (Permits next guard c is)
  | _, [] => .isTrue trivial
  | c, i :: is =>
    have := decidablePermits (fireAt next c i) is
    inferInstanceAs (Decidable (_ ∧ _))

theorem run_fireAt {c : Config σ τ} {i : Nat}
    (hg : ∀ t ∈ c.pool[i]?, guard c.shared t (c.pool.take i ++ c.pool.drop (i + 1))) :
    Run next guard c (fireAt next c i) := by
  obtain ⟨s, pool⟩ := c
  cases ht : pool[i]? with
  | none =>
    simp only [fireAt, ht]
    exact .refl
  | some t =>
    have hguard := hg t ht
    obtain ⟨hi, rfl⟩ := List.getElem?_eq_some_iff.mp ht
    have hsplit : pool = pool.take i ++ pool[i] :: pool.drop (i + 1) := by
      rw [← drop_eq_getElem_cons hi, take_append_drop]
    simp only [fireAt, ht]
    have hstep : Step next guard ⟨s, pool.take i ++ pool[i] :: pool.drop (i + 1)⟩ _ :=
      .fire (pool.take i) (pool.drop (i + 1)) hguard
    rw [← hsplit] at hstep
    exact .single hstep

theorem run_of_permits (is : List Nat) {c : Config σ τ} (h : Permits next guard c is) :
    Run next guard c (schedule next c is) := by
  induction is generalizing c with
  | nil => exact .refl
  | cons i is ih => exact (run_fireAt h.1).trans (ih h.2)

variable (next) in
theorem run_schedule (is : List Nat) (c : Config σ τ) : Run next anyStep c (schedule next c is) := by
  induction is generalizing c with
  | nil => exact .refl
  | cons i is ih => exact (run_fireAt fun _ _ => trivial).trans (ih (fireAt next c i))

end Schedule

end Interleave
