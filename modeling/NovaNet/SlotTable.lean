import NovaNet.IterOrder
import NovaNet.LastWrite

/-! Tables that find an entry by a slot computed from its key, as a trie does by the leading
bits. Of two keys with one slot the table holds the later one. -/

namespace SlotTable

open LastWrite List

variable {κ σ ν : Type*} [DecidableEq σ]

structure Table (slot : κ → σ) (ν : Type*) where
  entries : Finmap fun _ : σ => κ × ν
  slot_eq : ∀ s e, entries.lookup s = some e → slot e.1 = s

namespace Table

variable {slot : κ → σ} {t : Table slot ν} {k k' : κ} {v : ν} {s : σ}

def empty : Table slot ν := ⟨∅, fun s e h => by rw [Finmap.lookup_empty] at h; cases h⟩

def insert (t : Table slot ν) (k : κ) (v : ν) : Table slot ν where
  entries := t.entries.insert (slot k) (k, v)
  slot_eq := by
    intro s e h
    obtain ⟨rfl, rfl⟩ | ⟨-, h⟩ := lookup_insert_eq_some h
    · rfl
    · exact t.slot_eq s e h

def remove (t : Table slot ν) (k : κ) : Table slot ν where
  entries := t.entries.erase (slot k)
  slot_eq := fun s e h => t.slot_eq s e (lookup_erase_eq_some h).2

def keyAt (t : Table slot ν) (s : σ) : Finset κ := (t.entries.lookup s).elim ∅ fun e => {e.1}

def keys [DecidableEq κ] (t : Table slot ν) : Finset κ := t.entries.keys.biUnion t.keyAt

def listKeys (o : IterOrder σ) (t : Table slot ν) : List κ :=
  (o.enum [] t.entries.keys).filterMap fun s => (t.entries.lookup s).map Prod.fst

theorem mem_keyAt : k ∈ t.keyAt s ↔ ∃ v, t.entries.lookup s = some (k, v) := by
  rw [keyAt]
  cases h : t.entries.lookup s with
  | none => simp
  | some e =>
    obtain ⟨a, b⟩ := e
    simp [eq_comm]

variable [DecidableEq κ]

theorem mem_keys : k ∈ t.keys ↔ ∃ v, t.entries.lookup (slot k) = some (k, v) := by
  rw [keys, Finset.mem_biUnion]
  constructor
  · rintro ⟨s, -, hk⟩
    obtain ⟨v, hv⟩ := mem_keyAt.mp hk
    obtain rfl := t.slot_eq s (k, v) hv
    exact ⟨v, hv⟩
  · rintro ⟨v, hv⟩
    exact ⟨slot k, Finmap.mem_keys.mpr (Finmap.mem_of_lookup_eq_some hv), mem_keyAt.mpr ⟨v, hv⟩⟩

theorem mem_listKeys {o : IterOrder σ} : k ∈ t.listKeys o ↔ k ∈ t.keys := by
  rw [listKeys, mem_filterMap, mem_keys]
  constructor
  · rintro ⟨s, -, hs⟩
    obtain ⟨⟨a, v⟩, hv, rfl⟩ := Option.map_eq_some_iff.mp hs
    obtain rfl := t.slot_eq s (a, v) hv
    exact ⟨v, hv⟩
  · rintro ⟨v, hv⟩
    exact ⟨slot k, (o.mem_enum _ _ _).mpr (Finmap.mem_keys.mpr (Finmap.mem_of_lookup_eq_some hv)),
      by rw [hv, Option.map_some]⟩

theorem eq_of_slot_eq (hk : k ∈ t.keys) (hk' : k' ∈ t.keys) (hs : slot k = slot k') : k = k' := by
  obtain ⟨v, hv⟩ := mem_keys.mp hk
  obtain ⟨v', hv'⟩ := mem_keys.mp hk'
  rw [hs, hv', Option.some.injEq, Prod.mk.injEq] at hv
  exact hv.1.symm

@[simp] theorem keys_empty : (empty : Table slot ν).keys = ∅ := by
  ext k
  simp [mem_keys, empty]

theorem mem_keys_insert : k' ∈ (t.insert k v).keys ↔ k' = k ∨ slot k' ≠ slot k ∧ k' ∈ t.keys := by
  simp only [mem_keys, insert, lookup_insert_eq]
  by_cases hs : slot k = slot k'
  · simp [hs, eq_comm]
  · have hne : k' ≠ k := fun h => hs (congrArg slot h.symm)
    simp [hs, hne, Ne.symm hs]

theorem mem_keys_remove : k' ∈ (t.remove k).keys ↔ slot k' ≠ slot k ∧ k' ∈ t.keys := by
  simp only [mem_keys, remove, lookup_erase_eq]
  by_cases hs : slot k = slot k'
  · simp [hs]
  · simp [hs, Ne.symm hs]

def insertAll (t : Table slot ν) (l : List (κ × ν)) : Table slot ν :=
  l.foldl (fun t e => t.insert e.1 e.2) t

def removeAll (t : Table slot ν) (ks : List κ) : Table slot ν := ks.foldl remove t

theorem mem_keys_insertAll {l : List (κ × ν)}
    (hinj : ∀ e ∈ l, ∀ e' ∈ l, slot e.1 = slot e'.1 → e.1 = e'.1) :
    k ∈ (t.insertAll l).keys ↔ (∃ e ∈ l, e.1 = k) ∨ k ∈ t.keys ∧ ∀ e ∈ l, slot e.1 ≠ slot k := by
  induction l generalizing t with
  | nil => simp [insertAll]
  | cons e l ih =>
    have hl : ∀ e' ∈ l, ∀ e'' ∈ l, slot e'.1 = slot e''.1 → e'.1 = e''.1 :=
      fun e' he' e'' he'' => hinj e' (mem_cons_of_mem e he') e'' (mem_cons_of_mem e he'')
    rw [insertAll, foldl_cons, ← insertAll, ih hl, mem_keys_insert]
    constructor
    · rintro (⟨e', he', rfl⟩ | ⟨rfl | ⟨hs, hk⟩, hne⟩)
      · exact .inl ⟨e', mem_cons_of_mem e he', rfl⟩
      · exact .inl ⟨e, mem_cons_self, rfl⟩
      · exact .inr ⟨hk, forall_mem_cons.mpr ⟨Ne.symm hs, hne⟩⟩
    · rintro (⟨e', he', rfl⟩ | ⟨hk, hne⟩)
      · rcases mem_cons.mp he' with rfl | he'
        · -- a later key of the same slot is the same key
          by_cases hlater : ∃ e'' ∈ l, slot e''.1 = slot e'.1
          · obtain ⟨e'', he'', hs⟩ := hlater
            exact .inl ⟨e'', he'', hinj e'' (mem_cons_of_mem e' he'') e' mem_cons_self hs⟩
          · push Not at hlater
            exact .inr ⟨.inl rfl, hlater⟩
        · exact .inl ⟨e', he', rfl⟩
      · obtain ⟨hhead, htail⟩ := forall_mem_cons.mp hne
        exact .inr ⟨.inr ⟨Ne.symm hhead, hk⟩, htail⟩

theorem mem_keys_removeAll {ks : List κ} :
    k ∈ (t.removeAll ks).keys ↔ k ∈ t.keys ∧ ∀ k' ∈ ks, slot k' ≠ slot k := by
  induction ks generalizing t with
  | nil => simp [removeAll]
  | cons a ks ih =>
    rw [removeAll, foldl_cons, ← removeAll, ih, mem_keys_remove, forall_mem_cons]
    constructor
    · rintro ⟨⟨hs, hk⟩, hne⟩
      exact ⟨hk, Ne.symm hs, hne⟩
    · rintro ⟨hk, hs, hne⟩
      exact ⟨⟨Ne.symm hs, hk⟩, hne⟩

end Table

end SlotTable
