import Mathlib.Data.Finmap

/-! Finite maps filled by a list of assignments. Only the last assignment to a
key survives, so a lookup is a search of the list from its end. -/

namespace LastWrite

open Finmap List Option

variable {α β κ ν : Type*}

def lastSome (f : α → Option β) : List α → Option β
  | [] => none
  | a :: l => (lastSome f l).or (f a)

@[simp] theorem lastSome_nil (f : α → Option β) : lastSome f [] = none := rfl

@[simp] theorem lastSome_cons (f : α → Option β) (a : α) (l : List α) :
    lastSome f (a :: l) = (lastSome f l).or (f a) := rfl

@[simp] theorem lastSome_append (f : α → Option β) (l l' : List α) :
    lastSome f (l ++ l') = (lastSome f l').or (lastSome f l) := by
  induction l with
  | nil => simp
  | cons a l ih => simp [ih, Option.or_assoc]

variable {f : α → Option β} {l : List α} {γ : Type*} {b : β}

theorem lastSome_flatten_mapIdx (f : α → Option β) {g : Nat → γ → List α} {w : γ → Option β}
    (hw : ∀ i c, lastSome f (g i c) = w c) (l : List γ) :
    lastSome f (l.mapIdx g).flatten = lastSome w l := by
  induction l generalizing g with
  | nil => rfl
  | cons c l ih =>
    rw [mapIdx_cons, flatten_cons, lastSome_append, ih fun i c => hw (i + 1) c, hw, lastSome_cons]

theorem lastSome_flatten_mapIdx_congr {δ : Type*} {f' : δ → Option β} {g : Nat → γ → List α}
    {g' : Nat → γ → List δ} (h : ∀ i c, lastSome f (g i c) = lastSome f' (g' i c)) (l : List γ) :
    lastSome f (l.mapIdx g).flatten = lastSome f' (l.mapIdx g').flatten := by
  induction l generalizing g g' with
  | nil => rfl
  | cons c l ih =>
    rw [mapIdx_cons, mapIdx_cons, flatten_cons, flatten_cons,
      lastSome_append, lastSome_append, h, ih fun i c => h (i + 1) c]

theorem lastSome_flatMap (f : α → Option β) (g : γ → List α) (l : List γ) :
    lastSome f (l.flatMap g) = lastSome (fun c => lastSome f (g c)) l := by
  induction l with
  | nil => rfl
  | cons c l ih => rw [flatMap_cons, lastSome_append, ih, lastSome_cons]

theorem lastSome_map (f : α → Option β) (g : γ → α) (l : List γ) :
    lastSome f (l.map g) = lastSome (fun c => f (g c)) l := by
  induction l with
  | nil => rfl
  | cons a l ih => simp [ih]

theorem lastSome_eq_none_iff : lastSome f l = none ↔ ∀ a ∈ l, f a = none := by
  induction l with
  | nil => simp
  | cons a l ih => simp [ih, and_comm]

theorem lastSome_congr {g : α → Option β} (h : ∀ a ∈ l, f a = g a) : lastSome f l = lastSome g l := by
  induction l with
  | nil => rfl
  | cons a l ih =>
    rw [lastSome_cons, lastSome_cons, ih fun x hx => h x (mem_cons_of_mem a hx), h a mem_cons_self]

theorem exists_of_lastSome (h : lastSome f l = some b) : ∃ a ∈ l, f a = some b := by
  induction l with
  | nil => simp at h
  | cons a l ih =>
    rw [lastSome_cons, or_eq_some_iff] at h
    rcases h with h | ⟨_, h⟩
    · obtain ⟨x, hx, he⟩ := ih h
      exact ⟨x, mem_cons_of_mem a hx, he⟩
    · exact ⟨a, mem_cons_self, h⟩

theorem lastSome_eq_some_iff :
    lastSome f l = some b ↔ ∃ l₁ a l₂, l = l₁ ++ a :: l₂ ∧ f a = some b ∧ ∀ x ∈ l₂, f x = none := by
  constructor
  · intro h
    induction l with
    | nil => simp at h
    | cons a l ih =>
      rw [lastSome_cons, or_eq_some_iff] at h
      rcases h with h | ⟨hl, ha⟩
      · obtain ⟨l₁, x, l₂, hsplit, hx, hlater⟩ := ih h
        exact ⟨a :: l₁, x, l₂, by rw [hsplit, cons_append], hx, hlater⟩
      · exact ⟨[], a, l, rfl, ha, lastSome_eq_none_iff.mp hl⟩
  · rintro ⟨l₁, a, l₂, rfl, ha, hlater⟩
    rw [lastSome_append, lastSome_cons, lastSome_eq_none_iff.mpr hlater, none_or, ha, some_or]

theorem lastSome_of_forall (hall : ∀ a ∈ l, ∀ c, f a = some c → c = b) :
    lastSome f l = some b ↔ ∃ a ∈ l, f a = some b := by
  refine ⟨exists_of_lastSome, ?_⟩
  rintro ⟨a, ha, hb⟩
  cases hl : lastSome f l with
  | none => simp [lastSome_eq_none_iff.mp hl a ha] at hb
  | some c =>
    obtain ⟨x, hx, hc⟩ := exists_of_lastSome hl
    rw [hall x hx c hc]

theorem lastSome_const {b : Option β} (hl : l ≠ []) (h : ∀ a ∈ l, f a = b) : lastSome f l = b := by
  cases b with
  | none => exact lastSome_eq_none_iff.mpr h
  | some b =>
    obtain ⟨a, ha⟩ := exists_mem_of_ne_nil l hl
    have hall : ∀ x ∈ l, ∀ c, f x = some c → c = b := by
      intro x hx c hc
      rw [h x hx] at hc
      exact (Option.some.inj hc).symm
    exact (lastSome_of_forall hall).mpr ⟨a, ha, h a ha⟩

section Assignments

variable [DecidableEq κ]

def written (k : κ) (l : List (κ × ν)) : Option ν :=
  lastSome (fun e => if e.1 = k then some e.2 else none) l

@[simp] theorem written_nil (k : κ) : written k ([] : List (κ × ν)) = none := rfl

theorem written_cons (k : κ) (e : κ × ν) (l : List (κ × ν)) :
    written k (e :: l) = (written k l).or (if e.1 = k then some e.2 else none) := rfl

theorem written_append (k : κ) (l l' : List (κ × ν)) :
    written k (l ++ l') = (written k l').or (written k l) := lastSome_append _ _ _

variable {m : Finmap fun _ : κ => ν} {l : List (κ × ν)} {k k' : κ} {v : ν}

theorem written_eq_none_iff : written k l = none ↔ ∀ e ∈ l, e.1 ≠ k := by
  simp [written, lastSome_eq_none_iff]

theorem written_map_snd {ν' : Type*} (f : ν → ν') (k : κ) (l : List (κ × ν)) :
    written k (l.map fun e => (e.1, f e.2)) = (written k l).map f := by
  induction l with
  | nil => rfl
  | cons e l ih =>
    rw [map_cons, written_cons, written_cons, ih]
    cases written k l with
    | some v => rfl
    | none => by_cases hk : e.1 = k <;> simp [hk]

theorem mem_of_written (h : written k l = some v) : (k, v) ∈ l := by
  obtain ⟨e, he, hv⟩ := exists_of_lastSome h
  by_cases hk : e.1 = k
  · simp only [hk, if_true, Option.some.injEq] at hv
    simpa only [← hk, ← hv] using he
  · simp [hk] at hv

theorem written_of_forall (hall : ∀ e ∈ l, e.1 = k → e.2 = v) :
    written k l = some v ↔ ∃ e ∈ l, e.1 = k := by
  have hf : ∀ a ∈ l, ∀ c, (if a.1 = k then some a.2 else none) = some c → c = v := by
    intro a ha c hc
    by_cases hk : a.1 = k
    · simp only [hk, if_true, Option.some.injEq] at hc
      rw [← hc, hall a ha hk]
    · simp [hk] at hc
  rw [written, lastSome_of_forall hf]
  constructor
  · rintro ⟨a, ha, he⟩
    by_cases hk : a.1 = k
    · exact ⟨a, ha, hk⟩
    · simp [hk] at he
  · rintro ⟨a, ha, hk⟩
    exact ⟨a, ha, by simp [hk, hall a ha hk]⟩

def assign (m : Finmap fun _ : κ => ν) (l : List (κ × ν)) : Finmap fun _ : κ => ν :=
  l.foldl (fun m e => m.insert e.1 e.2) m

theorem lookup_insert_eq (m : Finmap fun _ : κ => ν) (k k' : κ) (v : ν) :
    (m.insert k v).lookup k' = if k = k' then some v else m.lookup k' := by
  by_cases h : k = k'
  · subst h; simp
  · simp [h, lookup_insert_of_ne m (Ne.symm h)]

theorem lookup_erase_eq (m : Finmap fun _ : κ => ν) (k k' : κ) :
    (m.erase k).lookup k' = if k = k' then none else m.lookup k' := by
  by_cases h : k = k'
  · subst h; simp
  · rw [if_neg h, lookup_erase_ne fun he => h he.symm]

theorem lookup_insert_eq_some {v' : ν} (h : (m.insert k v).lookup k' = some v') :
    (k' = k ∧ v' = v) ∨ k' ≠ k ∧ m.lookup k' = some v' := by
  rw [lookup_insert_eq] at h
  by_cases hk : k = k'
  · rw [if_pos hk, Option.some.injEq] at h
    exact .inl ⟨hk.symm, h.symm⟩
  · rw [if_neg hk] at h
    exact .inr ⟨fun he => hk he.symm, h⟩

theorem forall_lookup_insert {p : κ → ν → Prop} (hv : p k v)
    (h : ∀ k v, m.lookup k = some v → p k v) :
    ∀ k' v', (m.insert k v).lookup k' = some v' → p k' v' := by
  intro k' v' hk'
  rcases lookup_insert_eq_some hk' with ⟨rfl, rfl⟩ | ⟨-, hold⟩
  · exact hv
  · exact h k' v' hold

theorem forall_mem_insert {p : κ → Prop} (hk : p k) (h : ∀ k ∈ m, p k) : ∀ k' ∈ m.insert k v, p k' := by
  intro k' hk'
  rcases mem_insert.mp hk' with rfl | hold
  · exact hk
  · exact h k' hold

/-- A symmetric relation between any two entries also holds with a new entry, if each of the
others has it to the new one. -/
theorem pairwise_lookup_insert {r : κ → ν → κ → ν → Prop}
    (hsymm : ∀ {k v k' v'}, r k v k' v' → r k' v' k v) (hself : r k v k v)
    (hnew : ∀ k' v', m.lookup k' = some v' → k' ≠ k → r k' v' k v)
    (h : ∀ k k' v v', m.lookup k = some v → m.lookup k' = some v' → r k v k' v') :
    ∀ k₁ k₂ v₁ v₂, (m.insert k v).lookup k₁ = some v₁ → (m.insert k v).lookup k₂ = some v₂ →
      r k₁ v₁ k₂ v₂ := by
  intro k₁ k₂ v₁ v₂ h₁ h₂
  rcases lookup_insert_eq_some h₁ with ⟨rfl, rfl⟩ | ⟨hk₁, hold₁⟩
  · rcases lookup_insert_eq_some h₂ with ⟨rfl, rfl⟩ | ⟨hk₂, hold₂⟩
    · exact hself
    · exact hsymm (hnew k₂ v₂ hold₂ hk₂)
  · rcases lookup_insert_eq_some h₂ with ⟨rfl, rfl⟩ | ⟨-, hold₂⟩
    · exact hnew k₁ v₁ hold₁ hk₁
    · exact h k₁ k₂ v₁ v₂ hold₁ hold₂

theorem lookup_erase_eq_some (h : (m.erase k).lookup k' = some v) : k' ≠ k ∧ m.lookup k' = some v := by
  rw [lookup_erase_eq] at h
  by_cases hk : k = k'
  · simp [hk] at h
  · rw [if_neg hk] at h
    exact ⟨fun he => hk he.symm, h⟩

theorem erase_of_notMem (h : k ∉ m) : m.erase k = m := by
  refine Finmap.ext_lookup fun x => ?_
  rw [lookup_erase_eq]
  split
  · next hx => rw [← hx, lookup_eq_none.mpr h]
  · rfl

theorem lookup_assign (m : Finmap fun _ : κ => ν) (l : List (κ × ν)) (k : κ) :
    (assign m l).lookup k = (written k l).or (m.lookup k) := by
  induction l generalizing m with
  | nil => simp [assign]
  | cons e l ih =>
    have h := ih (m.insert e.1 e.2)
    rw [assign, foldl_cons, ← assign, h, written_cons, lookup_insert_eq, Option.or_assoc]
    by_cases hk : e.1 = k <;> simp [hk]

theorem lookup_assign_empty (l : List (κ × ν)) (k : κ) :
    (assign (∅ : Finmap fun _ : κ => ν) l).lookup k = written k l := by
  simp [lookup_assign]

theorem keys_insert (m : Finmap fun _ : κ => ν) (k : κ) (v : ν) :
    (m.insert k v).keys = Insert.insert k m.keys := by
  ext a
  rw [Finset.mem_insert, Finmap.mem_keys, mem_insert, Finmap.mem_keys]

theorem mem_assign : k ∈ assign m l ↔ k ∈ m ∨ ∃ e ∈ l, e.1 = k := by
  induction l generalizing m with
  | nil => simp [assign]
  | cons e l ih =>
    rw [assign, foldl_cons, ← assign, ih, mem_insert]
    simp only [mem_cons, exists_eq_or_imp]
    constructor
    · rintro ((h | h) | h)
      · exact .inr (.inl h.symm)
      · exact .inl h
      · exact .inr (.inr h)
    · rintro (h | h | h)
      · exact .inl (.inr h)
      · exact .inl (.inl h.symm)
      · exact .inr h

def eraseAll (m : Finmap fun _ : κ => ν) (ks : List κ) : Finmap fun _ : κ => ν :=
  ks.foldl (fun m k => m.erase k) m

theorem lookup_eraseAll (m : Finmap fun _ : κ => ν) (ks : List κ) (k : κ) :
    (eraseAll m ks).lookup k = if k ∈ ks then none else m.lookup k := by
  induction ks generalizing m with
  | nil => simp [eraseAll]
  | cons a ks ih =>
    rw [eraseAll, foldl_cons, ← eraseAll, ih]
    by_cases hk : k = a
    · subst hk; simp
    · by_cases hks : k ∈ ks
      · simp [hks]
      · simp [hks, hk, lookup_erase_ne hk]

theorem keys_eraseAll (m : Finmap fun _ : κ => ν) (ks : List κ) :
    (eraseAll m ks).keys = m.keys \ ks.toFinset := by
  ext a
  rw [Finmap.mem_keys, ← lookup_isSome, lookup_eraseAll, Finset.mem_sdiff,
    Finmap.mem_keys, ← lookup_isSome, List.mem_toFinset]
  by_cases h : a ∈ ks <;> simp [h]

end Assignments

section KeysWhere

variable [DecidableEq κ] {m : Finmap fun _ : κ => ν} {p : ν → Prop} [DecidablePred p] {k : κ} {v : ν}

def keysWhere (m : Finmap fun _ : κ => ν) (p : ν → Prop) [DecidablePred p] : Finset κ :=
  m.keys.filter fun k => (m.lookup k).any fun v => p v

theorem mem_keysWhere : k ∈ keysWhere m p ↔ ∃ v, m.lookup k = some v ∧ p v := by
  simp only [keysWhere, Finset.mem_filter, Finmap.mem_keys, Finmap.mem_iff]
  cases m.lookup k <;> simp

theorem card_keysWhere_insert (hk : m.lookup k = none) :
    (keysWhere (m.insert k v) p).card = (keysWhere m p).card + if p v then 1 else 0 := by
  have hnot : k ∉ keysWhere m p := by
    intro hmem
    obtain ⟨v', hv', -⟩ := mem_keysWhere.mp hmem
    simp [hk] at hv'
  have hset : keysWhere (m.insert k v) p =
      if p v then insert k (keysWhere m p) else keysWhere m p := by
    ext k'
    by_cases he : k' = k
    · subst he
      by_cases hp : p v <;> simp [mem_keysWhere, hp, hk]
    · by_cases hp : p v <;> simp [mem_keysWhere, hp, he, lookup_insert_of_ne _ he]
  by_cases hp : p v
  · rw [hset, if_pos hp, if_pos hp, Finset.card_insert_of_notMem hnot]
  · rw [hset, if_neg hp, if_neg hp, Nat.add_zero]

theorem card_keysWhere_erase (hk : m.lookup k = some v) :
    (keysWhere (m.erase k) p).card + (if p v then 1 else 0) = (keysWhere m p).card := by
  have hset : keysWhere (m.erase k) p = (keysWhere m p).erase k := by
    ext k'
    rw [Finset.mem_erase, mem_keysWhere, mem_keysWhere]
    by_cases he : k' = k
    · subst he
      simp
    · simp [he, lookup_erase_ne he]
  by_cases hp : p v
  · rw [hset, if_pos hp]
    exact Finset.card_erase_add_one (mem_keysWhere.mpr ⟨v, hk, hp⟩)
  · have hnot : k ∉ keysWhere m p := by
      intro hmem
      obtain ⟨v', hv', hp'⟩ := mem_keysWhere.mp hmem
      rw [hk, Option.some.injEq] at hv'
      exact hp (hv' ▸ hp')
    rw [hset, if_neg hp, Finset.erase_eq_of_notMem hnot, Nat.add_zero]

end KeysWhere

end LastWrite
