import NovaNet.LastWrite

/-! A configuration maps lines to the values that commands write and clear. It renders a
keyed map when the lines a key owns hold what the key's object writes and no other line of
the map's scope is set. -/

namespace KeyedConfig

open LastWrite

variable {ι κ α V : Type*}

section Writes

def Covers (new old : List (ι × V)) : Prop := ∀ e ∈ old, e.1 ∈ new.map Prod.fst

theorem Covers.refl (l : List (ι × V)) : Covers l l := fun _ he => List.mem_map_of_mem he

variable [DecidableEq ι]

def writeAll (l : List (ι × V)) (c : ι → Option V) : ι → Option V :=
  l.foldl (fun c e => Function.update c e.1 (some e.2)) c

def clear (p : ι → Prop) [DecidablePred p] (c : ι → Option V) : ι → Option V :=
  fun i => if p i then none else c i

theorem writeAll_append (l l' : List (ι × V)) (c : ι → Option V) :
    writeAll (l ++ l') c = writeAll l' (writeAll l c) := List.foldl_append

theorem writeAll_apply (l : List (ι × V)) (c : ι → Option V) (i : ι) :
    writeAll l c i = (written i l).or (c i) := by
  induction l generalizing c with
  | nil => simp [writeAll]
  | cons e l ih =>
    have hhead : Function.update c e.1 (some e.2) i =
        (if e.1 = i then some e.2 else none).or (c i) := by
      by_cases he : e.1 = i
      · subst he
        simp
      · simp [he, Function.update_of_ne (Ne.symm he)]
    rw [written_cons, Option.or_assoc, ← hhead]
    exact ih (Function.update c e.1 (some e.2))

variable {l : List (ι × V)} {i : ι}

theorem writeAll_of_unwritten (h : ∀ e ∈ l, e.1 ≠ i) (c : ι → Option V) : writeAll l c i = c i := by
  rw [writeAll_apply, written_eq_none_iff.mpr h, Option.none_or]

theorem written_isSome {e : ι × V} (he : e ∈ l) : (written e.1 l).isSome = true := by
  cases h : written e.1 l with
  | some v => rfl
  | none => exact absurd rfl (written_eq_none_iff.mp h e he)

theorem writeAll_isSome {c : ι → Option V} (h : (c i).isSome = true) :
    (writeAll l c i).isSome = true := by
  rw [writeAll_apply]
  cases written i l with
  | some v => rfl
  | none => exact h

instance (new old : List (ι × V)) : Decidable (Covers new old) :=
  inferInstanceAs (Decidable (∀ e ∈ old, e.1 ∈ new.map Prod.fst))

theorem written_or_of_covers {new old : List (ι × V)} (h : Covers new old) (i : ι) :
    (written i new).or (written i old) = written i new := by
  cases hnew : written i new with
  | some v => rfl
  | none =>
    rw [Option.none_or, written_eq_none_iff]
    intro e he hi
    obtain ⟨e', he', heq⟩ := List.mem_map.mp (h e he)
    exact written_eq_none_iff.mp hnew e' he' (heq.trans hi)

end Writes

section Rendering

variable [DecidableEq ι] [DecidableEq κ] {scope : ι → Prop} {owns : κ → ι → Prop}
  {lines : α → List (ι × V)} {m : Finmap fun _ : κ => α} {c c' : ι → Option V}

structure Renders (scope : ι → Prop) (owns : κ → ι → Prop) (lines : α → List (ι × V))
    (m : Finmap fun _ : κ => α) (c : ι → Option V) : Prop where
  own : ∀ k a, m.lookup k = some a → ∀ i, owns k i → c i = written i (lines a)
  unowned : ∀ i, scope i → (∀ k ∈ m, ¬ owns k i) → c i = none

/-- No other key of the map owns a line of `k`. -/
def Apart (owns : κ → ι → Prop) (m : Finmap fun _ : κ => α) (k : κ) : Prop :=
  ∀ k' ∈ m, k' ≠ k → ∀ i, owns k i → ¬ owns k' i

theorem Renders.empty : Renders scope owns lines ∅ fun _ => (none : Option V) where
  own _ _ h := by simp at h
  unowned _ _ _ := rfl

theorem Renders.congr (h : Renders scope owns lines m c) (hown : ∀ k i, owns k i → scope i)
    (hc : ∀ i, scope i → c' i = c i) : Renders scope owns lines m c' where
  own k a hk i hi := (hc i (hown k i hi)).trans (h.own k a hk i hi)
  unowned i hi hno := (hc i hi).trans (h.unowned i hi hno)

variable {k : κ} {a : α} {i : ι}

theorem Renders.unique (h : Renders scope owns lines m c) (h' : Renders scope owns lines m c')
    (hi : scope i) : c i = c' i := by
  by_cases hk : ∃ k ∈ m, owns k i
  · obtain ⟨k, hmem, howns⟩ := hk
    obtain ⟨a, ha⟩ := Finmap.mem_iff.mp hmem
    rw [h.own k a ha i howns, h'.own k a ha i howns]
  · have hno : ∀ k ∈ m, ¬ owns k i := fun k hmem howns => hk ⟨k, hmem, howns⟩
    rw [h.unowned i hi hno, h'.unowned i hi hno]

theorem Renders.lookup (h : Renders scope owns lines m c) (hown : ∀ k i, owns k i → scope i)
    (hapart : Apart owns m k) (hi : owns k i) :
    c i = (m.lookup k).bind fun a => written i (lines a) := by
  cases hk : m.lookup k with
  | some a => exact h.own k a hk i hi
  | none =>
    refine h.unowned i (hown k i hi) fun k' hk' => hapart k' hk' ?_ i hi
    rintro rfl
    exact Finmap.lookup_eq_none.mp hk hk'

theorem Renders.insert (h : Renders scope owns lines m c)
    (hapart : Apart owns m k)
    (hk : ∀ i, owns k i → c' i = written i (lines a))
    (hother : ∀ i, scope i → ¬ owns k i → c' i = c i) (hown : ∀ k i, owns k i → scope i) :
    Renders scope owns lines (m.insert k a) c' where
  own k' a' hk' i hi := by
    rcases lookup_insert_eq_some hk' with ⟨rfl, rfl⟩ | ⟨hne, hk'⟩
    · exact hk i hi
    · have hmem : k' ∈ m := Finmap.mem_of_lookup_eq_some hk'
      rw [hother i (hown k' i hi) fun hik => hapart k' hmem hne i hik hi]
      exact h.own k' a' hk' i hi
  unowned i hi hno := by
    rw [hother i hi (hno k (Finmap.mem_insert.mpr (.inl rfl)))]
    exact h.unowned i hi fun k' hk' => hno k' (Finmap.mem_insert.mpr (.inr hk'))

theorem Renders.write (h : Renders scope owns lines m c) (hlines : ∀ e ∈ lines a, owns k e.1)
    (hcovers : ∀ b, m.lookup k = some b → Covers (lines a) (lines b))
    (hapart : Apart owns m k) (hown : ∀ k i, owns k i → scope i) :
    Renders scope owns lines (m.insert k a) (writeAll (lines a) c) := by
  refine h.insert hapart (fun i hi => ?_) (fun i _ hi => ?_) hown
  · rw [writeAll_apply, h.lookup hown hapart hi]
    cases hk : m.lookup k with
    | none => exact Option.or_none
    | some b => exact written_or_of_covers (hcovers b hk) i
  · exact writeAll_of_unwritten (fun e he heq => hi (heq.subst (hlines e he))) c

theorem Renders.erase (h : Renders scope owns lines m c)
    (hapart : Apart owns m k) (hk : ∀ i, owns k i → c' i = none)
    (hother : ∀ i, scope i → ¬ owns k i → c' i = c i) (hown : ∀ k i, owns k i → scope i) :
    Renders scope owns lines (m.erase k) c' where
  own k' a' hk' i hi := by
    obtain ⟨hne, hk'⟩ := lookup_erase_eq_some hk'
    have hmem : k' ∈ m := Finmap.mem_of_lookup_eq_some hk'
    rw [hother i (hown k' i hi) fun hik => hapart k' hmem hne i hik hi]
    exact h.own k' a' hk' i hi
  unowned i hi hno := by
    by_cases hik : owns k i
    · exact hk i hik
    · rw [hother i hi hik]
      refine h.unowned i hi fun k' hk' hik' => ?_
      refine hno k' (Finmap.mem_erase.mpr ⟨?_, hk'⟩) hik'
      rintro rfl
      exact hik hik'

def Keyed (key : α → κ) (valid : α → Prop) (m : Finmap fun _ : κ => α) : Prop :=
  ∀ k a, m.lookup k = some a → key a = k ∧ valid a

variable {key : α → κ} {valid : α → Prop}

theorem Keyed.empty : Keyed key valid (∅ : Finmap fun _ : κ => α) := fun _ _ h => by simp at h

theorem Keyed.insert (h : Keyed key valid m) (ha : valid a) : Keyed key valid (m.insert (key a) a) := by
  intro k b hb
  rcases lookup_insert_eq_some hb with ⟨rfl, rfl⟩ | ⟨-, hb⟩
  · exact ⟨rfl, ha⟩
  · exact h k b hb

theorem Keyed.erase (h : Keyed key valid m) (k : κ) : Keyed key valid (m.erase k) :=
  fun k' b hb => h k' b (lookup_erase_eq_some hb).2

end Rendering

end KeyedConfig
