import NovaNet.LastWrite

/-! Programs with a state that an error keeps. An outcome says what holds of the state after
a normal end and what after an error; a loop over keys goes on after an error, and is followed
by what each turn does to its own key. -/

namespace ErrorState

open List

variable {ε σ α β : Type} {κ ν : Type*}

section Outcomes

def Outcome (x : EStateM ε σ α) (s : σ) (Q E : σ → Prop) : Prop :=
  match x s with
  | .ok _ s' => Q s'
  | .error _ s' => E s'

instance (x : EStateM ε σ α) (s : σ) (Q E : σ → Prop) [DecidablePred Q] [DecidablePred E] :
    Decidable (Outcome x s Q E) :=
  match h : x s with
  | .ok _ s' => decidable_of_iff (Q s') (by rw [Outcome, h])
  | .error _ s' => decidable_of_iff (E s') (by rw [Outcome, h])

variable {x : EStateM ε σ α} {s s' : σ} {Q Q' E E' : σ → Prop}

variable {f : Unit → EStateM ε σ β} {y : EStateM ε σ α} {g : σ → σ} {p : Prop} {a : α} {e : ε}

theorem Outcome.of_ok (h : Outcome x s Q E) (hx : x s = .ok a s') : Q s' := by
  rwa [Outcome, hx] at h

theorem Outcome.of_error (h : Outcome x s Q E) (hx : x s = .error e s') : E s' := by
  rwa [Outcome, hx] at h

theorem outcome_intro (hok : ∀ a s', x s = .ok a s' → Q s')
    (herror : ∀ e s', x s = .error e s' → E s') : Outcome x s Q E := by
  unfold Outcome
  cases hx : x s with
  | ok a s' => exact hok a s' hx
  | error e s' => exact herror e s' hx

theorem Outcome.of_eq (h : Outcome y s Q E) (hxy : x s = y s) : Outcome x s Q E := by
  unfold Outcome
  rwa [hxy]

theorem Outcome.exists_ok (h : Outcome x s Q fun _ => False) : ∃ a s', x s = .ok a s' ∧ Q s' := by
  cases hx : x s with
  | ok a s' => exact ⟨a, s', rfl, h.of_ok hx⟩
  | error e s' => exact (h.of_error hx).elim

theorem Outcome.imp (h : Outcome x s Q E) (hQ : ∀ s', Q s' → Q' s') (hE : ∀ s', E s' → E' s') :
    Outcome x s Q' E' :=
  outcome_intro (fun _ s' hx => hQ s' (h.of_ok hx)) fun _ s' hx => hE s' (h.of_error hx)

theorem Outcome.and (h : Outcome x s Q E) (h' : Outcome x s Q' E') :
    Outcome x s (fun s' => Q s' ∧ Q' s') fun s' => E s' ∧ E' s' :=
  outcome_intro (fun _ _ hx => ⟨h.of_ok hx, h'.of_ok hx⟩) fun _ _ hx => ⟨h.of_error hx, h'.of_error hx⟩

theorem Outcome.bind {x : EStateM ε σ Unit} (h : Outcome x s (fun s' => Outcome (f ()) s' Q E) E) :
    Outcome (x >>= f) s Q E := by
  change match EStateM.bind x f s with | .ok _ s' => Q s' | .error _ s' => E s'
  unfold Outcome at h
  rw [EStateM.bind]
  cases hx : x s with
  | ok a s' | error e s' =>
    rwa [hx] at h

theorem bind_eq_ok {f : α → EStateM ε σ β} {b : β} (h : (x >>= f) s = .ok b s') :
    ∃ a s₁, x s = .ok a s₁ ∧ f a s₁ = .ok b s' := by
  replace h : EStateM.bind x f s = .ok b s' := h
  rw [EStateM.bind] at h
  cases hx : x s with
  | ok a s₁ =>
    rw [hx] at h
    exact ⟨a, s₁, rfl, h⟩
  | error e s₁ => simp [hx] at h

theorem outcome_get_bind {f : σ → EStateM ε σ β} (h : Outcome (f s) s Q E) :
    Outcome (get >>= f) s Q E := h

theorem outcome_if [Decidable p] (hpos : p → Outcome x s Q E) (hneg : ¬ p → Outcome y s Q E) :
    Outcome (if p then x else y) s Q E := by
  by_cases hp : p
  · rw [if_pos hp]
    exact hpos hp
  · rw [if_neg hp]
    exact hneg hp

theorem outcome_pure (h : Q s) : Outcome (pure a : EStateM ε σ α) s Q E := h

theorem outcome_throw (h : E s) : Outcome (throw e : EStateM ε σ α) s Q E := h

theorem outcome_modify (h : Q (g s)) : Outcome (modify g : EStateM ε σ PUnit) s Q E := h

theorem Outcome.bind_modify {x : EStateM ε σ Unit} (h : Outcome x s (fun s' => Q (g s')) E) :
    Outcome (x >>= fun _ => modify g) s Q E :=
  Outcome.bind (h.imp (fun _ hQ => outcome_modify hQ) fun _ hE => hE)

theorem forM_map (f : α → β) (g : β → EStateM ε σ PUnit) (l : List α) :
    forM (l.map f) g = forM l fun a => g (f a) := by
  induction l with
  | nil => rfl
  | cons a l ih => rw [map_cons, forM_cons, forM_cons, ih]

/-- The rule of a loop that stops at an error. The invariant knows what is still to do. -/
theorem outcome_forM {x : β → EStateM ε σ PUnit} {I : List β → σ → Prop}
    (hstep : ∀ b l s, I (b :: l) s → Outcome (x b) s (I l) E) {l : List β} (hI : I l s) :
    Outcome (forM l x) s (I []) E := by
  induction l generalizing s with
  | nil => exact outcome_pure hI
  | cons b l ih =>
    rw [forM_cons]
    exact Outcome.bind ((hstep b l s hI).imp (fun _ => ih) fun _ h => h)

def Keeps (x : EStateM ε σ α) (I : σ → Prop) : Prop := ∀ s, I s → Outcome x s I I

variable {I : σ → Prop}

theorem Keeps.bind {x : EStateM ε σ Unit} (hx : Keeps x I) (hf : Keeps (f ()) I) : Keeps (x >>= f) I :=
  fun s hs => Outcome.bind ((hx s hs).imp hf fun _ h => h)

theorem Keeps.get_bind {f : σ → EStateM ε σ β} (hf : ∀ s, Keeps (f s) I) :
    Keeps (get >>= f) I := fun s hs => outcome_get_bind (hf s s hs)

theorem Keeps.ite [Decidable p] {x : EStateM ε σ α} (hx : Keeps x I) (hy : Keeps y I) :
    Keeps (if p then x else y) I :=
  fun s hs => outcome_if (fun _ => hx s hs) fun _ => hy s hs

theorem keeps_pure (a : α) : Keeps (pure a : EStateM ε σ α) I := fun _ hs => outcome_pure hs

theorem keeps_throw (e : ε) : Keeps (throw e : EStateM ε σ α) I := fun _ hs => outcome_throw hs

theorem keeps_modify (hg : ∀ s, I s → I (g s)) :
    Keeps (modify g : EStateM ε σ PUnit) I := fun s hs => outcome_modify (hg s hs)

theorem keeps_forM {x : β → EStateM ε σ PUnit} (hx : ∀ b, Keeps (x b) I) (l : List β) :
    Keeps (forM l x) I := fun _ hs => outcome_forM (I := fun _ => I) (fun b _ => hx b) hs

end Outcomes

section KeyLoop

def forEachKey (body : κ → EStateM ε σ Unit) : List κ → σ → List ε × σ
  | [], s => ([], s)
  | k :: ks, s =>
    match body k s with
    | .ok _ s' => forEachKey body ks s'
    | .error e s' => (e :: (forEachKey body ks s').1, (forEachKey body ks s').2)

variable {body : κ → EStateM ε σ Unit} {I : σ → Prop} {ks : List κ} {s : σ}

variable {A B : σ → Prop} {k : κ} {s' : σ}

theorem forEachKey_ok (h : body k s = .ok () s') (ks : List κ) :
    forEachKey body (k :: ks) s = forEachKey body ks s' := by
  rw [forEachKey, h]

theorem forEachKey_error {e : ε} (h : body k s = .error e s') (ks : List κ) :
    forEachKey body (k :: ks) s = (e :: (forEachKey body ks s').1, (forEachKey body ks s').2) := by
  rw [forEachKey, h]

theorem forEachKey_of_idle (h : ∀ k ∈ ks, body k s = .ok () s) : forEachKey body ks s = ([], s) := by
  induction ks with
  | nil => rfl
  | cons k ks ih =>
    rw [forEachKey_ok (h k mem_cons_self)]
    exact ih fun k' hk' => h k' (mem_cons_of_mem k hk')

theorem forEachKey_cons_eq_nil (h : forEachKey body (k :: ks) s = ([], s')) :
    ∃ s₁, body k s = .ok () s₁ ∧ forEachKey body ks s₁ = ([], s') := by
  cases hk : body k s with
  | ok u s₁ =>
    rw [forEachKey_ok hk] at h
    exact ⟨s₁, rfl, h⟩
  | error e s₁ =>
    rw [forEachKey_error hk] at h
    exact absurd (congrArg Prod.fst h) (cons_ne_nil _ _)

theorem forEachKey_keeps (hstep : ∀ k ∈ ks, Keeps (body k) I) (hI : I s) :
    I (forEachKey body ks s).2 := by
  induction ks generalizing s with
  | nil => exact hI
  | cons k ks ih =>
    have hk := hstep k mem_cons_self s hI
    have ih' {s'} := ih (s := s') fun k' hk' => hstep k' (mem_cons_of_mem k hk')
    cases hrun : body k s with
    | ok u s' =>
      rw [forEachKey_ok hrun]
      exact ih' (hk.of_ok hrun)
    | error e s' =>
      rw [forEachKey_error hrun]
      exact ih' (hk.of_error hrun)

structure LoopEnds (out : List ε × σ) (A B : σ → Prop) : Prop where
  ok : out.1 = [] → A out.2
  failed : out.1 ≠ [] → B out.2

theorem LoopEnds.cons {A' : σ → Prop} (hk : Outcome (body k) s A B)
    (hok : ∀ s', A s' → LoopEnds (forEachKey body ks s') A' B)
    (hfail : ∀ k ∈ ks, Keeps (body k) B) : LoopEnds (forEachKey body (k :: ks) s) A' B := by
  cases hrun : body k s with
  | ok u s' =>
    rw [forEachKey_ok hrun]
    exact hok s' (hk.of_ok hrun)
  | error e s' =>
    rw [forEachKey_error hrun]
    exact ⟨fun h => absurd h (cons_ne_nil _ _), fun _ => forEachKey_keeps hfail (hk.of_error hrun)⟩

theorem LoopEnds.nil (h : A s) :
    LoopEnds (forEachKey body [] s) A B := ⟨fun _ => h, fun hne => absurd rfl hne⟩

theorem forEachKey_flawless (hstep : ∀ k s, I s → Outcome (body k) s I fun _ => False)
    (ks : List κ) (hI : I s) :
    (forEachKey body ks s).1 = [] ∧ I (forEachKey body ks s).2 := by
  induction ks generalizing s with
  | nil => exact ⟨rfl, hI⟩
  | cons k ks ih =>
    have hk := hstep k s hI
    cases hrun : body k s with
    | ok u s' =>
      rw [forEachKey_ok hrun]
      exact ih (hk.of_ok hrun)
    | error e s' => exact (hk.of_error hrun).elim

structure Turn (I : σ → Prop) (view : σ → κ → ν) (R : ν → ν → Prop) (k : κ) (s s' : σ) :
    Prop where
  inv : I s'
  own : R (view s k) (view s' k)
  frame : ∀ k', k' ≠ k → view s' k' = view s k'

structure EachKey (I : σ → Prop) (view : σ → κ → ν) (Q E : κ → ν → ν → Prop) (ks : List κ)
    (s : σ) (out : List ε × σ) : Prop where
  inv : I out.2
  own : ∀ k ∈ ks, Q k (view s k) (view out.2 k) ∨ E k (view s k) (view out.2 k) ∧ out.1 ≠ []
  frame : ∀ k, k ∉ ks → view out.2 k = view s k

variable {view : σ → κ → ν} {Q E : κ → ν → ν → Prop}

/-- The first turn and the loop over the other keys make the loop over all of them: each sees
its own keys as they are in the end, and as they were in the beginning. -/
theorem EachKey.cons {out : List ε × σ} (es : List ε) (hk : k ∉ ks)
    (hturn : Turn I view (if es = [] then Q k else E k) k s s')
    (hrest : EachKey I view Q E ks s' out) :
    EachKey I view Q E (k :: ks) s (es ++ out.1, out.2) := by
  have hown := hturn.own
  rw [← hrest.frame k hk] at hown
  refine ⟨hrest.inv, fun k' hk' => ?_, fun k' hk' => ?_⟩
  · rcases mem_cons.mp hk' with rfl | hk'
    · by_cases he : es = []
      · exact .inl (by rwa [if_pos he] at hown)
      · exact .inr ⟨by rwa [if_neg he] at hown, append_ne_nil_of_left_ne_nil he _⟩
    · rw [← hturn.frame k' fun heq => hk (heq ▸ hk')]
      exact (hrest.own k' hk').imp_right (And.imp_right (append_ne_nil_of_right_ne_nil es))
  · rw [mem_cons, not_or] at hk'
    rw [hrest.frame k' hk'.2, hturn.frame k' hk'.1]

/-- The rule of a loop whose turn at a key reads and changes only that key's part. -/
theorem forEachKey_spec
    (hstep : ∀ k ∈ ks, ∀ s, I s → Outcome (body k) s (Turn I view (Q k) k s)
      (Turn I view (E k) k s)) (hnd : ks.Nodup) (hI : I s) :
    EachKey I view Q E ks s (forEachKey body ks s) := by
  induction ks generalizing s with
  | nil => exact ⟨hI, by simp, fun _ _ => rfl⟩
  | cons k ks ih =>
    obtain ⟨hk, hnd⟩ := nodup_cons.mp hnd
    have hturn := hstep k mem_cons_self s hI
    have ih' {s'} := ih (s := s') (fun k' hk' => hstep k' (mem_cons_of_mem k hk')) hnd
    cases hrun : body k s with
    | ok u s' =>
      rw [forEachKey_ok hrun]
      have hturn := hturn.of_ok hrun
      exact EachKey.cons [] hk (by rwa [if_pos rfl]) (ih' hturn.inv)
    | error e s' =>
      rw [forEachKey_error hrun]
      have hturn := hturn.of_error hrun
      exact EachKey.cons [e] hk (by rwa [if_neg (cons_ne_nil _ _)]) (ih' hturn.inv)

end KeyLoop

end ErrorState
