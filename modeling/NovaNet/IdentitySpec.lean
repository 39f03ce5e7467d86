import NovaNet.Identity

/-! What the identity allocator keeps true from call to call, whatever the hash. -/

namespace NovaNet

open Finmap LastWrite Option Finset

namespace Allocator

def refs (a : Allocator) (id : UInt64) : Nat := (a.refCount.lookup id).getD 0

structure Inv (a : Allocator) : Prop where
  labels_of_canonical : ∀ c id, a.labelsToID.lookup c = some id →
    ∃ l, a.idToLabels.lookup id = some l ∧ canonicalLabels l = c
  canonical_of_labels : ∀ id l, a.idToLabels.lookup id = some l →
    a.labelsToID.lookup (canonicalLabels l) = some id
  referenced_iff : ∀ id, 0 < a.refs id ↔ a.idToLabels.lookup id ≠ none

section Spec

variable {a a' : Allocator} {hash : String → UInt64} {lbls : Labels} {id : UInt64}

theorem inv_new : new.Inv where
  labels_of_canonical := by simp [new]
  canonical_of_labels := by simp [new]
  referenced_iff := by simp [new, refs]

theorem refs_incRef (a : Allocator) (id id' : UInt64) :
    (a.incRef id).refs id' = a.refs id' + if id = id' then 1 else 0 := by
  unfold refs incRef
  rw [lookup_insert_eq]
  by_cases h : id = id'
  · subst h
    simp
  · simp [h]

theorem refs_removeIdentity (a : Allocator) (id id' : UInt64) :
    (a.removeIdentity id).refs id' = a.refs id' - if id = id' then 1 else 0 := by
  unfold refs removeIdentity
  by_cases h : id = id'
  · subst h
    cases hc : a.refCount.lookup id with
    | none => simp [hc]
    | some count => by_cases hle : count ≤ 1 <;> simp [hle]
  · cases a.refCount.lookup id with
    | none => simp [h]
    | some count => by_cases hle : count ≤ 1 <;> simp [hle, h, lookup_erase_eq, lookup_insert_eq]

variable {id' start : UInt64} {l : Labels} {canonical c : String} {fuel : Nat}

theorem lookup_removeIdentity_eq (a : Allocator) (id id' : UInt64) :
    (a.removeIdentity id).idToLabels.lookup id' =
      if id = id' ∧ ∃ count ∈ a.refCount.lookup id, count ≤ 1 then none
      else a.idToLabels.lookup id' := by
  unfold removeIdentity
  cases a.refCount.lookup id with
  | none => simp
  | some count => by_cases hle : count ≤ 1 <;> simp [hle, lookup_erase_eq]

theorem lookup_removeIdentity (h : id = id' → 2 ≤ a.refs id) :
    (a.removeIdentity id).idToLabels.lookup id' = a.idToLabels.lookup id' := by
  rw [lookup_removeIdentity_eq, if_neg]
  rintro ⟨he, count, hc, hle⟩
  have hrefs := h he
  rw [refs, mem_def.mp hc, getD_some] at hrefs
  omega

theorem lookup_removeIdentity_of_mem (h : (a.removeIdentity id).idToLabels.lookup id' = some l) :
    a.idToLabels.lookup id' = some l := by
  rw [lookup_removeIdentity_eq] at h
  split at h
  · cases h
  · exact h

/-- The identity belongs to another label set. -/
def Taken (a : Allocator) (canonical : String) (id : UInt64) : Prop :=
  ∃ l, a.idToLabels.lookup id = some l ∧ canonicalLabels l ≠ canonical

theorem probe_of_taken (h : a.Taken canonical id) :
    a.probe canonical (fuel + 1) id = a.probe canonical fuel (id + 1) := by
  obtain ⟨l, hl, hne⟩ := h
  simp [probe, hl, hne]

theorem probe_of_not_taken (h : ¬ a.Taken canonical id) :
    a.probe canonical (fuel + 1) id = some id := by
  rw [probe]
  cases hl : a.idToLabels.lookup id with
  | none => rfl
  | some l => exact if_neg fun hne => h ⟨l, hl, hne⟩

theorem add_one_add_ofNat (start : UInt64) (i : Nat) :
    start + 1 + UInt64.ofNat i = start + UInt64.ofNat (i + 1) := by
  rw [UInt64.ofNat_add, UInt64.add_assoc, UInt64.add_comm (UInt64.ofNat i)]
  rfl

theorem taken_succ (h : a.Taken canonical start) {n : Nat}
    (hn : ∀ i < n, a.Taken canonical (start + 1 + UInt64.ofNat i)) :
    ∀ i < n + 1, a.Taken canonical (start + UInt64.ofNat i) := by
  intro i hi
  cases i with
  | zero => simpa using h
  | succ i =>
    rw [← add_one_add_ofNat]
    exact hn i (by omega)

theorem probe_spec (h : a.probe canonical fuel start = some id) : ¬ a.Taken canonical id ∧
    ∃ n, id = start + UInt64.ofNat n ∧ ∀ i < n, a.Taken canonical (start + UInt64.ofNat i) := by
  induction fuel generalizing start with
  | zero => simp [probe] at h
  | succ fuel ih =>
    by_cases ht : a.Taken canonical start
    · rw [probe_of_taken ht] at h
      obtain ⟨hfree, n, hid, hn⟩ := ih h
      exact ⟨hfree, n + 1, hid.trans (add_one_add_ofNat start n), taken_succ ht hn⟩
    · rw [probe_of_not_taken ht] at h
      cases h
      exact ⟨ht, 0, by simp, by simp⟩

theorem taken_of_probe_eq_none (h : a.probe canonical fuel start = none) :
    ∀ i < fuel, a.Taken canonical (start + UInt64.ofNat i) := by
  induction fuel generalizing start with
  | zero => simp
  | succ fuel ih =>
    by_cases ht : a.Taken canonical start
    · rw [probe_of_taken ht] at h
      exact taken_succ ht (ih h)
    · simp [probe_of_not_taken ht] at h

theorem allocateIdentity_isSome (hash : String → UInt64) (lbls : Labels)
    (hfree : a.idToLabels.keys.card < 2 ^ 64) : (a.allocateIdentity hash lbls).isSome := by
  unfold allocateIdentity
  cases a.labelsToID.lookup (canonicalLabels lbls) with
  | some id => rfl
  | none =>
    cases hp : a.probe (canonicalLabels lbls) (a.idToLabels.keys.card + 1)
      (hash (canonicalLabels lbls)) with
    | some id => rfl
    | none =>
      -- that many different identities cannot all be taken
      have hsub : ∀ i ∈ range (a.idToLabels.keys.card + 1),
          hash (canonicalLabels lbls) + UInt64.ofNat i ∈ a.idToLabels.keys := by
        intro i hi
        obtain ⟨l, hl, -⟩ := taken_of_probe_eq_none hp i (mem_range.mp hi)
        exact Finmap.mem_keys.mpr (mem_of_lookup_eq_some hl)
      have hinj : Set.InjOn (fun i => hash (canonicalLabels lbls) + UInt64.ofNat i)
          (range (a.idToLabels.keys.card + 1) : Set Nat) := by
        intro i hi j hj heq
        have hlt : i < a.idToLabels.keys.card + 1 := by simpa using hi
        have hlt' : j < a.idToLabels.keys.card + 1 := by simpa using hj
        have hof : UInt64.ofNat i = UInt64.ofNat j := by simpa using heq
        have hsize : UInt64.size = 2 ^ 64 := rfl
        have hnat := congrArg UInt64.toNat hof
        rwa [UInt64.toNat_ofNat_of_lt' (by omega), UInt64.toNat_ofNat_of_lt' (by omega)] at hnat
      have hcard := card_le_card_of_injOn _ hsub hinj
      rw [card_range] at hcard
      omega

theorem store_of_free (h : a.idToLabels.lookup id = none) : a.store id lbls =
    { a with
      idToLabels := a.idToLabels.insert id lbls
      labelsToID := a.labelsToID.insert (canonicalLabels lbls) id } :=
  if_neg (lookup_eq_none.mp h)

section Allocated

variable (ha : a.Inv) (h : a.allocateIdentity hash lbls = some (id, a'))

include ha h

theorem allocateIdentity_cases :
    (a.labelsToID.lookup (canonicalLabels lbls) = some id ∧ a' = a.incRef id) ∨
      a.labelsToID.lookup (canonicalLabels lbls) = none ∧ a.idToLabels.lookup id = none ∧
        a' = (a.store id lbls).incRef id := by
  unfold allocateIdentity at h
  cases hc : a.labelsToID.lookup (canonicalLabels lbls) with
  | some known =>
    simp only [hc] at h
    cases h
    exact .inl ⟨rfl, rfl⟩
  | none =>
    simp only [hc] at h
    cases hp : a.probe (canonicalLabels lbls) (a.idToLabels.keys.card + 1)
        (hash (canonicalLabels lbls)) with
    | none => simp [hp] at h
    | some free =>
      simp only [hp] at h
      cases h
      refine .inr ⟨rfl, ?_, rfl⟩
      cases hl : a.idToLabels.lookup id with
      | none => rfl
      | some l =>
        refine absurd ⟨l, hl, fun hcan => ?_⟩ (probe_spec hp).1
        have hback := ha.canonical_of_labels _ l hl
        rw [hcan, hc] at hback
        cases hback

theorem refs_allocateIdentity (id' : UInt64) :
    a'.refs id' = a.refs id' + if id = id' then 1 else 0 := by
  rcases allocateIdentity_cases ha h with ⟨-, rfl⟩ | ⟨-, hfree, rfl⟩
  · exact refs_incRef a id id'
  · rw [refs_incRef, store_of_free hfree]
    rfl

theorem lookup_allocateIdentity (hl : a.idToLabels.lookup id' = some l) :
    a'.idToLabels.lookup id' = some l := by
  rcases allocateIdentity_cases ha h with ⟨-, rfl⟩ | ⟨-, hfree, rfl⟩
  · exact hl
  · have hne : id ≠ id' := by
      rintro rfl
      simp [hfree] at hl
    rw [store_of_free hfree]
    exact (lookup_insert_eq _ _ _ _).trans (by rw [if_neg hne, hl])

theorem lookup_allocateIdentity_cases (hl : a'.idToLabels.lookup id' = some l) :
    a.idToLabels.lookup id' = some l ∨ id' = id ∧ l = lbls := by
  rcases allocateIdentity_cases ha h with ⟨-, rfl⟩ | ⟨-, hfree, rfl⟩
  · exact .inl hl
  · rw [store_of_free hfree] at hl
    change (a.idToLabels.insert id lbls).lookup id' = some l at hl
    rcases lookup_insert_eq_some hl with hnew | ⟨-, hold⟩
    · exact .inr hnew
    · exact .inl hold

theorem labels_allocateIdentity :
    ∃ l, a'.idToLabels.lookup id = some l ∧ canonicalLabels l = canonicalLabels lbls := by
  rcases allocateIdentity_cases ha h with ⟨hknown, rfl⟩ | ⟨-, hfree, rfl⟩
  · exact ha.labels_of_canonical _ id hknown
  · rw [store_of_free hfree]
    exact ⟨lbls, lookup_insert _, rfl⟩

theorem inv_allocateIdentity : a'.Inv := by
  have hrefs := refs_allocateIdentity ha h
  rcases allocateIdentity_cases ha h with ⟨hknown, rfl⟩ | ⟨hunknown, hfree, rfl⟩
  · refine ⟨ha.labels_of_canonical, ha.canonical_of_labels, ?_⟩
    intro id'
    rw [hrefs id']
    by_cases he : id = id'
    · obtain ⟨l, hl, -⟩ := ha.labels_of_canonical _ id hknown
      rw [← he]
      simp [incRef, hl]
    · rw [if_neg he, Nat.add_zero]
      exact ha.referenced_iff id'
  · rw [store_of_free hfree] at hrefs ⊢
    constructor
    · intro c id' hc
      change (a.labelsToID.insert (canonicalLabels lbls) id).lookup c = some id' at hc
      change ∃ l, (a.idToLabels.insert id lbls).lookup id' = some l ∧ canonicalLabels l = c
      rcases lookup_insert_eq_some hc with ⟨rfl, rfl⟩ | ⟨-, hold⟩
      · exact ⟨lbls, lookup_insert _, rfl⟩
      · obtain ⟨l, hl, hcan⟩ := ha.labels_of_canonical c id' hold
        have hne : id ≠ id' := by
          rintro rfl
          simp [hfree] at hl
        exact ⟨l, by rw [lookup_insert_eq, if_neg hne, hl], hcan⟩
    · intro id' l hl
      change (a.idToLabels.insert id lbls).lookup id' = some l at hl
      change (a.labelsToID.insert (canonicalLabels lbls) id).lookup (canonicalLabels l) = some id'
      rcases lookup_insert_eq_some hl with ⟨rfl, rfl⟩ | ⟨-, hold⟩
      · exact lookup_insert _
      · have hback := ha.canonical_of_labels id' l hold
        have hne : canonicalLabels lbls ≠ canonicalLabels l := by
          intro hcan
          rw [← hcan, hunknown] at hback
          cases hback
        rw [lookup_insert_eq, if_neg hne, hback]
    · intro id'
      rw [hrefs id']
      change _ ↔ (a.idToLabels.insert id lbls).lookup id' ≠ none
      rw [lookup_insert_eq]
      by_cases he : id = id'
      · simp [he]
      · simp only [he, if_false, Nat.add_zero]
        exact ha.referenced_iff id'

theorem card_allocateIdentity_le : a'.idToLabels.keys.card ≤ a.idToLabels.keys.card + 1 := by
  rcases allocateIdentity_cases ha h with ⟨-, rfl⟩ | ⟨-, hfree, rfl⟩
  · exact Nat.le_succ _
  · rw [store_of_free hfree]
    change (a.idToLabels.insert id lbls).keys.card ≤ _
    rw [keys_insert]
    exact card_insert_le _ _

theorem labelsToID_allocateIdentity (hc : a.labelsToID.lookup c = some id') :
    a'.labelsToID.lookup c = some id' := by
  rcases allocateIdentity_cases ha h with ⟨-, rfl⟩ | ⟨hunknown, hfree, rfl⟩
  · exact hc
  · have hne : canonicalLabels lbls ≠ c := by
      rintro rfl
      simp [hunknown] at hc
    rw [store_of_free hfree]
    exact (lookup_insert_eq _ _ _ _).trans (by rw [if_neg hne, hc])

end Allocated

theorem removeIdentity_last (ha : a.Inv) {count : Nat} (hc : a.refCount.lookup id = some count)
    (hle : count ≤ 1) :
    (∀ id', (a.removeIdentity id).idToLabels.lookup id' =
      if id = id' then none else a.idToLabels.lookup id') ∧
    ∀ c id', (a.removeIdentity id).labelsToID.lookup c = some id' ↔
      a.labelsToID.lookup c = some id' ∧ id ≠ id' := by
  simp only [removeIdentity, hc, hle, if_true]
  refine ⟨lookup_erase_eq a.idToLabels id, ?_⟩
  intro c id'
  cases hl : a.idToLabels.lookup id with
  | none =>
    constructor
    · intro h
      refine ⟨h, ?_⟩
      rintro rfl
      obtain ⟨l, hl', -⟩ := ha.labels_of_canonical c id h
      simp [hl] at hl'
    · exact And.left
  | some lbls =>
    have hid := ha.canonical_of_labels id lbls hl
    rw [lookup_erase_eq]
    by_cases hcan : canonicalLabels lbls = c
    · rw [if_pos hcan, ← hcan, hid]
      simp
    · rw [if_neg hcan]
      constructor
      · intro h
        refine ⟨h, ?_⟩
        rintro rfl
        obtain ⟨l, hl', hc'⟩ := ha.labels_of_canonical c id h
        rw [hl, some.injEq] at hl'
        exact hcan (hl' ▸ hc')
      · exact And.left

theorem inv_removeIdentity (ha : a.Inv) (id : UInt64) : (a.removeIdentity id).Inv := by
  cases hc : a.refCount.lookup id with
  | none => simpa only [removeIdentity, hc] using ha
  | some count =>
    have hrefs : a.refs id = count := by simp [refs, hc]
    by_cases hle : count ≤ 1
    · obtain ⟨hlabels, hids⟩ := removeIdentity_last ha hc hle
      constructor
      · intro c id' h
        obtain ⟨hold, hne⟩ := (hids c id').mp h
        rw [hlabels, if_neg hne]
        exact ha.labels_of_canonical c id' hold
      · intro id' l h
        rw [hlabels] at h
        by_cases he : id = id'
        · simp [he] at h
        · rw [if_neg he] at h
          exact (hids _ id').mpr ⟨ha.canonical_of_labels id' l h, he⟩
      · intro id'
        rw [hlabels, refs_removeIdentity]
        by_cases he : id = id'
        · subst he
          simp [hrefs, hle]
        · simp only [he, if_false, Nat.sub_zero]
          exact ha.referenced_iff id'
    · have hlabels : (a.removeIdentity id).idToLabels = a.idToLabels := by
        simp [removeIdentity, hc, hle]
      have hids : (a.removeIdentity id).labelsToID = a.labelsToID := by
        simp [removeIdentity, hc, hle]
      constructor
      · rw [hlabels, hids]
        exact ha.labels_of_canonical
      · rw [hlabels, hids]
        exact ha.canonical_of_labels
      · intro id'
        rw [hlabels, refs_removeIdentity, ← ha.referenced_iff id']
        by_cases he : id = id'
        · subst he
          rw [hrefs, if_pos rfl]
          omega
        · rw [if_neg he, Nat.sub_zero]

theorem card_removeIdentity_le (a : Allocator) (id : UInt64) :
    (a.removeIdentity id).idToLabels.keys.card ≤ a.idToLabels.keys.card := by
  refine card_le_card fun id' hid => ?_
  rw [Finmap.mem_keys] at hid ⊢
  obtain ⟨l, hl⟩ := Finmap.mem_iff.mp hid
  exact mem_of_lookup_eq_some (lookup_removeIdentity_of_mem hl)

theorem labelsToID_removeIdentity (ha : a.Inv) :
    (a.removeIdentity id).labelsToID.lookup c = some id' ↔
      a.labelsToID.lookup c = some id' ∧ (id = id' → 2 ≤ a.refs id) := by
  cases hc : a.refCount.lookup id with
  | none =>
    have hrefs : a.refs id = 0 := by simp [refs, hc]
    simp only [removeIdentity, hc]
    refine ⟨fun h => ⟨h, ?_⟩, And.left⟩
    rintro rfl
    obtain ⟨l, hl, -⟩ := ha.labels_of_canonical c id h
    have hpos := (ha.referenced_iff id).mpr (by simp [hl])
    omega
  | some count =>
    have hrefs : a.refs id = count := by simp [refs, hc]
    rw [hrefs]
    by_cases hle : count ≤ 1
    · rw [(removeIdentity_last ha hc hle).2]
      refine and_congr_right fun _ => ⟨fun hne he => absurd he hne, fun htwo he => ?_⟩
      have hcount := htwo he
      omega
    · have hsame : (a.removeIdentity id).labelsToID = a.labelsToID := by
        simp [removeIdentity, hc, hle]
      rw [hsame]
      exact ⟨fun h => ⟨h, fun _ => by omega⟩, And.left⟩

def Hashed (hash : String → UInt64) (a : Allocator) : Prop :=
  ∀ id l, a.idToLabels.lookup id = some l → id = hashLabels hash l

theorem allocateIdentity_hash (ha : a.Inv) (hh : a.Hashed hash)
    (hfree : ∀ id l, a.idToLabels.lookup id = some l → canonicalLabels l ≠ canonicalLabels lbls →
      hashLabels hash l ≠ hashLabels hash lbls)
    (h : a.allocateIdentity hash lbls = some (id, a')) :
    id = hashLabels hash lbls ∧ a'.Hashed hash := by
  have hid : id = hashLabels hash lbls := by
    unfold allocateIdentity at h
    cases hc : a.labelsToID.lookup (canonicalLabels lbls) with
    | some known =>
      obtain ⟨l, hl, hcan⟩ := ha.labels_of_canonical _ known hc
      simp only [hc, some.injEq, Prod.mk.injEq] at h
      rw [← h.1, hh known l hl, hashLabels, hashLabels, hcan]
    | none =>
      have hslot : a.idToLabels.lookup (hash (canonicalLabels lbls)) = none := by
        cases hl : a.idToLabels.lookup (hash (canonicalLabels lbls)) with
        | none => rfl
        | some l =>
          have hback := ha.canonical_of_labels _ l hl
          have hne : canonicalLabels l ≠ canonicalLabels lbls := by
            intro hcan
            rw [hcan, hc] at hback
            cases hback
          exact absurd (hh _ l hl).symm (hfree _ l hl hne)
      have hfree : ¬ a.Taken (canonicalLabels lbls) (hash (canonicalLabels lbls)) := by
        simp [Taken, hslot]
      simp only [hc, probe_of_not_taken hfree, some.injEq, Prod.mk.injEq] at h
      exact h.1.symm
  refine ⟨hid, ?_⟩
  intro id' l hl
  rcases lookup_allocateIdentity_cases ha h hl with hold | ⟨rfl, rfl⟩
  · exact hh id' l hold
  · exact hid

theorem hashed_removeIdentity (hh : a.Hashed hash) (id : UInt64) : (a.removeIdentity id).Hashed hash :=
  fun id' l hl => hh id' l (lookup_removeIdentity_of_mem hl)

end Spec

end Allocator

end NovaNet
