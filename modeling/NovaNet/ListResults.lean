import Mathlib.Data.List.Forall2

/-! Lists of results that are computed element by element, and lists of blocks. -/

namespace List

variable {α β γ ε : Type*} {l : List α} {xs : List β}

theorem mapM_eq_ok_iff {f : α → Except ε β} :
    l.mapM f = .ok xs ↔ Forall₂ (fun a b => f a = .ok b) l xs := by
  induction l generalizing xs with
  | nil => simp [pure, Except.pure, eq_comm]
  | cons a l ih =>
    rw [mapM_cons, forall₂_cons_left_iff]
    simp only [← ih]
    cases f a with
    | error e => simp [bind, Except.bind]
    | ok b => cases l.mapM f <;> simp [bind, Except.bind, pure, Except.pure, eq_comm]

theorem exists_of_forall₂ {r : α → β → Prop} (h : Forall₂ r l xs) {a : α} (ha : a ∈ l) :
    ∃ b ∈ xs, r a b := by
  induction h with
  | nil => cases ha
  | cons hab _ ih =>
    rcases mem_cons.mp ha with rfl | hmem
    · exact ⟨_, mem_cons_self, hab⟩
    · obtain ⟨b, hb, hrel⟩ := ih hmem
      exact ⟨b, mem_cons_of_mem _ hb, hrel⟩

theorem filterMap_eq_of_forall₂ {f : α → Option β} (h : Forall₂ (fun a b => f a = some b) l xs) :
    l.filterMap f = xs := by
  induction h with
  | nil => rfl
  | cons hab _ ih => rw [filterMap_cons_some hab, ih]

theorem map_mapIdx (g : β → γ) (f : Nat → α → β) (l : List α) :
    (l.mapIdx f).map g = l.mapIdx fun i a => g (f i a) := by
  simp [mapIdx_eq_zipIdx_map]

theorem flatten_mapIdx_eq_nil {f : Nat → α → List β} {P : α → Prop}
    (hf : ∀ i a, f i a = [] ↔ P a) : (l.mapIdx f).flatten = [] ↔ ∀ a ∈ l, P a := by
  rw [flatten_eq_nil_iff]
  constructor
  · intro h a ha
    obtain ⟨i, hi, rfl⟩ := getElem_of_mem ha
    exact (hf i _).mp (h _ (mem_mapIdx.mpr ⟨i, hi, rfl⟩))
  · intro h b hb
    obtain ⟨i, hi, rfl⟩ := mem_mapIdx.mp hb
    exact (hf i _).mpr (h _ (getElem_mem hi))

theorem getElem?_flatten_of_length {L : List (List α)} {n i j : Nat}
    (hlen : ∀ l ∈ L, l.length = n) (hj : j < n) :
    L.flatten[i * n + j]? = L[i]?.bind fun l => l[j]? := by
  induction L generalizing i with
  | nil => simp
  | cons l rest ih =>
    have hl := hlen l mem_cons_self
    have hrest := fun l' hl' => hlen l' (mem_cons_of_mem l hl')
    cases i with
    | zero =>
      rw [Nat.zero_mul, Nat.zero_add, flatten_cons, getElem?_append_left (by omega)]
      rfl
    | succ i =>
      have hindex : (i + 1) * n + j - l.length = i * n + j := by
        rw [Nat.add_mul, Nat.one_mul]
        omega
      rw [flatten_cons, getElem?_append_right (by rw [Nat.add_mul]; omega), hindex, ih hrest]
      rfl

end List
