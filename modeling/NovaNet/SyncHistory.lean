import NovaNet.PolicyMap

/-! What a sync leaves behind, against the last-wins reading of its list. The
mock always agrees with that reading. The real manager does so only when no key
is given two actions. -/

namespace NovaNet

open LastWrite List

namespace MockMaps

theorem insert_of_lookup {m : PolicyMap} {k : PolicyKey} {v : PolicyValue}
    (h : m.lookup k = some v) : m.insert k v = m :=
  Finmap.ext_lookup fun k' => by
    rw [lookup_insert_eq]
    by_cases hk : k = k'
    · subst hk; simp [h]
    · simp [hk]

theorem syncEntry_map (st : SyncLoop) (e : PolicyKey × PolicyValue) :
    (syncEntry st e).map = st.map.insert e.1 e.2 := by
  cases hv : st.map.lookup e.1 with
  | none => simp [syncEntry, hv]
  | some v =>
    by_cases ha : v.action = e.2.action
    · have he : v = e.2 := PolicyValue.ext ha
      subst he
      simp [syncEntry, hv, insert_of_lookup hv]
    · simp [syncEntry, hv, ha]

theorem syncEntry_size (st : SyncLoop) (e : PolicyKey × PolicyValue) :
    (syncEntry st e).map.keys.card + st.added = st.map.keys.card + (syncEntry st e).added := by
  rw [syncEntry_map, keys_insert]
  cases hv : st.map.lookup e.1 with
  | none =>
    have hk : e.1 ∉ st.map.keys := fun h => Finmap.lookup_eq_none.mp hv (Finmap.mem_keys.mp h)
    rw [Finset.card_insert_of_notMem hk]
    simp only [syncEntry, hv]
    omega
  | some v =>
    have hk : e.1 ∈ st.map.keys := Finmap.mem_keys.mpr (Finmap.mem_of_lookup_eq_some hv)
    rw [Finset.insert_eq_of_mem hk]
    by_cases ha : v.action = e.2.action <;> simp [syncEntry, hv, ha]

theorem loop_map (l : PolicyEntries) (st : SyncLoop) :
    (l.foldl syncEntry st).map = assign st.map l := by
  induction l generalizing st with
  | nil => rfl
  | cons e l ih => rw [foldl_cons, ih, syncEntry_map, assign, assign, foldl_cons]

theorem loop_size (l : PolicyEntries) (st : SyncLoop) :
    (l.foldl syncEntry st).map.keys.card + st.added =
      st.map.keys.card + (l.foldl syncEntry st).added := by
  induction l generalizing st with
  | nil => rfl
  | cons e l ih =>
    have hstep := syncEntry_size st e
    have hrest := ih (syncEntry st e)
    rw [foldl_cons]
    omega

theorem foldl_removeKey (ks : List PolicyKey) (m : PolicyMap) (n : Nat) :
    ks.foldl removeKey (m, n) = (eraseAll m ks, n + ks.length) := by
  induction ks generalizing m n with
  | nil => rfl
  | cons k ks ih =>
    have hh := ih (m.erase k) (n + 1)
    rw [foldl_cons, show removeKey (m, n) k = (m.erase k, n + 1) from rfl, hh]
    simp only [eraseAll, foldl_cons, length_cons, Prod.mk.injEq, true_and]
    omega

variable (o : IterOrder PolicyKey) (m : PolicyMap) (l : PolicyEntries)

theorem syncPolicies_map : (syncPolicies o m l).map = eraseAll (assign m l) (staleKeys o m l) := by
  simp only [syncPolicies, foldl_removeKey, loop_map]

theorem syncPolicies_eq_assign : (syncPolicies o m l).map = assign ∅ l :=
  Finmap.ext_lookup fun k => by
    rw [syncPolicies_map, lookup_eraseAll, lookup_assign, lookup_assign_empty]
    by_cases hk : k ∈ newKeys l
    · obtain ⟨e, he, hek⟩ := mem_newKeys.mp hk
      have hw : written k l ≠ none := fun hn => written_eq_none_iff.mp hn e he hek
      obtain ⟨v, hv⟩ := Option.ne_none_iff_exists'.mp hw
      have hs : k ∉ staleKeys o m l := fun h => (mem_staleKeys.mp h).2 hk
      simp [hs, hv]
    · have hw : written k l = none :=
        written_eq_none_iff.mpr fun e he hek => hk (mem_newKeys.mpr ⟨e, he, hek⟩)
      by_cases hm : k ∈ m
      · have hs : k ∈ staleKeys o m l := mem_staleKeys.mpr ⟨hm, hk⟩
        simp [hs, hw]
      · simp [hw, Finmap.lookup_eq_none.mpr hm]

theorem syncPolicies_size :
    (syncPolicies o m l).map.keys.card + (syncPolicies o m l).removed =
      m.keys.card + (syncPolicies o m l).added := by
  have hloop := loop_size l ⟨m, 0, 0⟩
  rw [loop_map] at hloop
  have hsub : (staleKeys o m l).toFinset ⊆ (assign m l).keys := by
    intro k hk
    have hm := (mem_staleKeys.mp (List.mem_toFinset.mp hk)).1
    exact Finmap.mem_keys.mpr (mem_assign.mpr (.inl hm))
  have hcard := Finset.card_sdiff_add_card_eq_card hsub
  rw [toFinset_card_of_nodup (staleKeys_nodup o m l)] at hcard
  rw [syncPolicies_map, keys_eraseAll]
  simp only [syncPolicies, foldl_removeKey]
  simp only [Nat.zero_add, Nat.add_zero] at hloop ⊢
  omega

end MockMaps

def Consistent (l : List (PolicyKey × PolicyValue)) : Prop :=
  ∀ e ∈ l, ∀ e' ∈ l, e.1 = e'.1 → e.2.action = e'.2.action

def RepeatsHeld (m : PolicyMap) (l : List (PolicyKey × PolicyValue)) : Prop :=
  ∀ k, k ∉ m → (l.map Prod.fst).count k ≤ 1

theorem Consistent.written_eq {l : PolicyEntries} (h : Consistent l)
    {e : PolicyKey × PolicyValue} (he : e ∈ l) : written e.1 l = some e.2 := by
  have hall : ∀ x ∈ l, x.1 = e.1 → x.2 = e.2 := fun x hx hk => PolicyValue.ext (h x hx e he hk)
  exact (written_of_forall hall).mpr ⟨e, he, rfl⟩

theorem Consistent.filter {l : PolicyEntries} (h : Consistent l)
    (p : PolicyKey × PolicyValue → Bool) : Consistent (l.filter p) :=
  fun e he e' he' => h e (mem_filter.mp he).1 e' (mem_filter.mp he').1

namespace RealMaps

variable (o : IterOrder PolicyKey) (m : PolicyMap) (l : PolicyEntries)

theorem syncPolicies_eq_assign {l : PolicyEntries} (h : Consistent l) :
    (syncPolicies o m l).map = assign ∅ l :=
  Finmap.ext_lookup fun k => by
    rw [lookup_syncPolicies, lookup_assign_empty]
    by_cases hk : k ∈ newKeys l
    · obtain ⟨e, he, rfl⟩ := mem_newKeys.mp hk
      rw [if_pos hk, h.written_eq he]
      by_cases hc : changed m e = true
      · rw [(h.filter _).written_eq (mem_filter.mpr ⟨he, hc⟩), Option.some_or]
      · have hv : m.lookup e.1 = some e.2 := by simpa [changed] using hc
        cases hw : written e.1 (l.filter (changed m)) with
        | none => rw [Option.none_or, hv]
        | some v =>
          have hmem := (mem_filter.mp (mem_of_written hw)).1
          have hve : v = e.2 := PolicyValue.ext (h _ hmem e he rfl)
          rw [Option.some_or, hve]
    · rw [if_neg hk, eq_comm, written_eq_none_iff]
      exact fun e he hek => hk (mem_newKeys.mpr ⟨e, he, hek⟩)

/-- Syncing a list over its own last-wins map rewrites every key that the list
gives two actions to. -/
theorem consistent_of_fixed (h : (syncPolicies o (assign ∅ l) l).map = assign ∅ l) :
    Consistent l := by
  intro e he e' he' hk
  by_contra hne
  have hnew : e.1 ∈ newKeys l := mem_newKeys.mpr ⟨e, he, rfl⟩
  obtain ⟨v, hv⟩ := Option.ne_none_iff_exists'.mp
    fun hn : written e.1 l = none => written_eq_none_iff.mp hn e he rfl
  have hx : ∃ x ∈ l, x.1 = e.1 ∧ x.2 ≠ v := by
    by_cases hev : e.2 = v
    · exact ⟨e', he', hk.symm, fun h' => hne (by rw [hev, h'])⟩
    · exact ⟨e, he, rfl, hev⟩
  obtain ⟨x, hx, hxk, hxv⟩ := hx
  have hlook := lookup_syncPolicies o (assign ∅ l) l e.1
  rw [h, if_pos hnew, lookup_assign_empty, hv] at hlook
  have hchg : changed (assign ∅ l) x = true := by
    simp [changed, hxk, lookup_assign_empty, hv, Ne.symm hxv]
  cases hw : written e.1 (l.filter (changed (assign ∅ l))) with
  | none => exact written_eq_none_iff.mp hw x (mem_filter.mpr ⟨hx, hchg⟩) hxk
  | some w =>
    have hmem := (mem_filter.mp (mem_of_written hw)).2
    have hwv : w = v := by simpa [hw] using hlook.symm
    simp [changed, lookup_assign_empty, hv, hwv] at hmem

theorem syncPolicies_size_iff :
    (syncPolicies o m l).map.keys.card + (syncPolicies o m l).removed =
      m.keys.card + (syncPolicies o m l).added ↔ RepeatsHeld m l := by
  have hfresh : newKeys l \ m.keys = ((l.map Prod.fst).filter (fun k => k ∉ m)).toFinset := by
    ext k
    simp [newKeys, Finmap.mem_keys]
  have hl := Finset.card_sdiff_add_card_inter (newKeys l) m.keys
  have hm := Finset.card_sdiff_add_card_inter m.keys (newKeys l)
  rw [Finset.inter_comm m.keys] at hm
  rw [hfresh] at hl
  have hcount : ((l.map Prod.fst).filter (fun k => k ∉ m)).toFinset.card =
      ((l.map Prod.fst).filter (fun k => k ∉ m)).length ↔ RepeatsHeld m l := by
    have hnd := Multiset.toFinset_card_eq_card_iff_nodup
      (m := (((l.map Prod.fst).filter (fun k => k ∉ m) : List PolicyKey) : Multiset PolicyKey))
    rw [Multiset.coe_card, Multiset.coe_nodup] at hnd
    refine (Iff.trans (by rfl) hnd).trans ?_
    rw [nodup_iff_count_le_one]
    constructor
    · intro h k hk
      simpa [count_filter, hk] using h k
    · intro h k
      by_cases hk : k ∈ m
      · have hc : ((l.map Prod.fst).filter (fun k => k ∉ m)).count k = 0 :=
          count_eq_zero.mpr fun hmem => by simp [hk] at hmem
        omega
      · simpa [count_filter, hk] using h k hk
  rw [syncPolicies_keys, syncPolicies_removed, syncPolicies_added, ← hcount]
  omega

end RealMaps

open RealMaps

/-- What a sync of `l` over `m` has to leave: the last-wins map of the list, from
either manager and after any number of syncs, with counts that add up. -/
structure HistoryIndependent (o : IterOrder PolicyKey) (m : PolicyMap)
    (l : List (PolicyKey × PolicyValue)) : Prop where
  real_map : (syncPolicies o m l).map = assign ∅ l
  real_twice : (syncPolicies o (syncPolicies o m l).map l).map = (syncPolicies o m l).map
  mock_map : (MockMaps.syncPolicies o m l).map = (syncPolicies o m l).map
  real_size : (syncPolicies o m l).map.keys.card + (syncPolicies o m l).removed =
    m.keys.card + (syncPolicies o m l).added
  mock_size : (MockMaps.syncPolicies o m l).map.keys.card + (MockMaps.syncPolicies o m l).removed =
    m.keys.card + (MockMaps.syncPolicies o m l).added

theorem historyIndependent_iff (o : IterOrder PolicyKey) (m : PolicyMap)
    (l : List (PolicyKey × PolicyValue)) :
    HistoryIndependent o m l ↔ Consistent l ∧ RepeatsHeld m l := by
  constructor
  · intro h
    have htwice := h.real_twice
    rw [h.real_map] at htwice
    exact ⟨consistent_of_fixed o l htwice, (syncPolicies_size_iff o m l).mp h.real_size⟩
  · rintro ⟨hc, hr⟩
    have hmap := syncPolicies_eq_assign o m hc
    refine ⟨hmap, ?_, ?_, (syncPolicies_size_iff o m l).mpr hr, MockMaps.syncPolicies_size o m l⟩
    · rw [syncPolicies_eq_assign o _ hc, hmap]
    · rw [MockMaps.syncPolicies_eq_assign, hmap]

/-- An allowed key that the list first denies and then allows ends up denied. -/
theorem historyIndependent_fails :
    ¬ HistoryIndependent .arbitrary ((∅ : PolicyMap).insert ⟨7, 9, 6, 80⟩ ⟨actionAllow⟩)
      [(⟨7, 9, 6, 80⟩, ⟨actionDeny⟩), (⟨7, 9, 6, 80⟩, ⟨actionAllow⟩)] := by
  intro h
  have hlook := congrArg (Finmap.lookup ⟨7, 9, 6, 80⟩) h.real_map
  rw [lookup_syncPolicies, lookup_assign_empty] at hlook
  exact absurd hlook (by decide)

end NovaNet
