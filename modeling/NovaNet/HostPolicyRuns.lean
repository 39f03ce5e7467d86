import NovaNet.HostPolicies

/-! The host policy store over whole runs, against the rules that are live: for each rule id
the last definition that was accepted. The store keeps no count of the rules behind a key, so
replacing and deleting rules respects other rules only when they share no keys. -/

namespace NovaNet

open Finmap LastWrite List SlotTable HostPolicyStore

def HostPolicyEntry.definition (e : HostPolicyEntry) : Option (List HostPolicyKey) :=
  match e.check with
  | .error _ => none
  | .ok (_, direction) => e.policyKeys direction

open HostPolicyEntry

def HostPolicyEntry.expansion (e : HostPolicyEntry) : List HostPolicyKey := e.definition.getD []

abbrev LiveRules := Finmap fun _ : String => HostPolicyEntry

namespace LiveRules

def expansionOf (live : LiveRules) (id : String) : List HostPolicyKey :=
  ((live.lookup id).map expansion).getD []

def liveKeys (live : LiveRules) : Finset HostPolicyKey :=
  live.keys.biUnion fun id => (expansionOf live id).toFinset

def apply (live : LiveRules) : HostRequest → LiveRules
  | .upsert e => live.insert e.ruleId e
  | .delete id => live.erase id
  | .sync es => assign ∅ ((es.filter fun e => e.definition.isSome).map fun e => (e.ruleId, e))

variable {live : LiveRules} {k : HostPolicyKey} {id : String}

theorem mem_liveKeys : k ∈ liveKeys live ↔ ∃ id e, live.lookup id = some e ∧ k ∈ e.expansion := by
  rw [liveKeys, Finset.mem_biUnion]
  constructor
  · rintro ⟨id, hid, hk⟩
    obtain ⟨e, he⟩ := Finmap.mem_iff.mp (Finmap.mem_keys.mp hid)
    rw [expansionOf, he] at hk
    exact ⟨id, e, he, mem_toFinset.mp hk⟩
  · rintro ⟨id, e, he, hk⟩
    refine ⟨id, Finmap.mem_keys.mpr (mem_of_lookup_eq_some he), ?_⟩
    rw [expansionOf, he]
    exact mem_toFinset.mpr hk

theorem mem_liveKeys_erase :
    k ∈ liveKeys (live.erase id) ↔ ∃ id' e, id' ≠ id ∧ live.lookup id' = some e ∧ k ∈ e.expansion := by
  rw [mem_liveKeys]
  constructor
  · rintro ⟨id', e, he, hk⟩
    obtain ⟨hne, he⟩ := lookup_erase_eq_some he
    exact ⟨id', e, hne, he, hk⟩
  · rintro ⟨id', e, hne, he, hk⟩
    exact ⟨id', e, by rw [lookup_erase_ne hne, he], hk⟩

variable (id) in
theorem mem_liveKeys_split :
    k ∈ liveKeys live ↔ k ∈ expansionOf live id ∨ k ∈ liveKeys (live.erase id) := by
  rw [mem_liveKeys, mem_liveKeys_erase]
  constructor
  · rintro ⟨id', e, he, hk⟩
    by_cases hid : id' = id
    · rw [hid] at he
      exact .inl (by rw [expansionOf, he]; exact hk)
    · exact .inr ⟨id', e, hid, he, hk⟩
  · rintro (hk | ⟨id', e, -, he, hk⟩)
    · cases he : live.lookup id with
      | none => simp [expansionOf, he] at hk
      | some e => exact ⟨id, e, he, by simpa [expansionOf, he] using hk⟩
    · exact ⟨id', e, he, hk⟩

theorem mem_liveKeys_insert {e : HostPolicyEntry} :
    k ∈ liveKeys (live.insert id e) ↔ k ∈ e.expansion ∨ k ∈ liveKeys (live.erase id) := by
  have herase : (live.insert id e).erase id = live.erase id := by
    refine ext_lookup fun id' => ?_
    rw [lookup_erase_eq, lookup_erase_eq, lookup_insert_eq]
    by_cases hid : id = id' <;> simp [hid]
  rw [mem_liveKeys_split id, herase, expansionOf, lookup_insert]
  rfl

end LiveRules

open LiveRules

section Checks

variable {maps : HostMaps} {env : HostEnv}

theorem definition_of_accept {e : HostPolicyEntry} {keys : List HostPolicyKey}
    (h : accept maps env e = .ok keys) : e.definition = some keys := by
  unfold accept at h
  split at h
  · cases h
  · rename_i hcheck
    split at h
    · cases h
    · split at h
      · cases h
      · rename_i hkeys
        rwa [definition, hcheck, ← Except.ok.inj h]

theorem collect_eq {es : List HostPolicyEntry}
    {accepted : List (HostPolicyEntry × List HostPolicyKey)}
    (h : collect maps env es = .ok accepted) :
    accepted = (es.filter fun e => e.definition.isSome).map fun e => (e, e.expansion) := by
  induction es generalizing accepted with
  | nil => exact (Except.ok.inj h).symm
  | cons e es ih =>
    unfold collect at h
    split at h
    · rename_i err hcheck
      have hdef : e.definition = none := by rw [definition, hcheck]
      rw [filter_cons_of_neg (by simp [hdef]), ih h]
    · rename_i key direction hcheck
      have hdef : e.definition = e.policyKeys direction := by
        rw [definition, hcheck]
      split at h
      · cases h
      · rename_i hkeys
        rw [filter_cons_of_neg (by simp [hdef, hkeys]), ih h]
      · rename_i keys _ hkeys
        have hexp : e.expansion = keys := by
          rw [expansion, hdef, hkeys, Option.getD_some]
        split at h
        · cases h
        · rename_i rest hrest
          rw [filter_cons_of_pos (by simp [hdef, hkeys]), map_cons, hexp, ← ih hrest]
          exact (Except.ok.inj h).symm

theorem insertPolicies_eq {l : List (HostPolicyKey × HostPolicyValue)} {t : maps.Policies}
    (h : ∀ e ∈ l, maps.refusal env e.1 = none) :
    maps.insertPolicies env l t = (t.insertAll l, none) := by
  induction l generalizing t with
  | nil => rfl
  | cons e l ih =>
    obtain ⟨he, hl⟩ := forall_mem_cons.mp h
    rw [HostMaps.insertPolicies, he]
    exact ih hl

theorem deletePolicies_eq {ks : List HostPolicyKey} {t : maps.Policies}
    (h : ∀ k ∈ ks, maps.removes env k = true) :
    ks.foldl (maps.deletePolicy env) t = t.removeAll ks := by
  induction ks generalizing t with
  | nil => rfl
  | cons k ks ih =>
    obtain ⟨hk, hks⟩ := forall_mem_cons.mp h
    rw [foldl_cons, HostMaps.deletePolicy, if_pos hk, ih hks]
    rfl

theorem keys_clearPolicies {t : maps.Policies} (h : ∀ k ∈ t.keys, maps.removes env k = true) :
    (maps.clearPolicies env t).keys = ∅ := by
  refine Finset.eq_empty_of_forall_notMem fun k hk => ?_
  obtain ⟨hmem, hne⟩ := Table.mem_keys_removeAll.mp hk
  exact hne k (mem_filter.mpr ⟨Table.mem_listKeys.mpr hmem, h k hmem⟩) rfl

end Checks

structure HostWorld (maps : HostMaps) where
  store : HostPolicyStore maps
  live : LiveRules

namespace HostWorld

variable {maps : HostMaps}

def start : HostWorld maps := ⟨⟨Table.empty, ∅⟩, ∅⟩

def finish (live : LiveRules) (req : HostRequest) :
    Except GrpcError Unit × HostPolicyStore maps → HostWorld maps
  | (.ok _, s) => ⟨s, live.apply req⟩
  | (.error _, s) => ⟨s, live⟩

def handle (w : HostWorld maps) (env : HostEnv) (req : HostRequest) : HostWorld maps :=
  finish w.live req (w.store.serve env req)

def Coherent (w : HostWorld maps) : Prop := w.store.policies.keys = w.live.liveKeys

instance (w : HostWorld maps) : Decidable w.Coherent :=
  inferInstanceAs (Decidable (w.store.policies.keys = w.live.liveKeys))

def Intact (w : HostWorld maps) (env : HostEnv) (req : HostRequest) : Prop :=
  ∀ err, (w.store.serve env req).1 = .error err → w.handle env req = w

def Step (guard : HostWorld maps → HostEnv → HostRequest → Prop) (w w' : HostWorld maps) : Prop :=
  ∃ env req, guard w env req ∧ w' = w.handle env req

abbrev Run (guard : HostWorld maps → HostEnv → HostRequest → Prop) :=
  Relation.ReflTransGen (Step guard)

def Apart (maps : HostMaps) (ks ks' : List HostPolicyKey) : Prop :=
  ∀ k ∈ ks, ∀ k' ∈ ks', maps.slot k = maps.slot k' → k = k'

/-- A key of the old definition is in the new one, or in another rule, or a new key takes its
place; and new keys take the place of no key that stays. -/
def Replaceable (w : HostWorld maps) (id : String) (keys : List HostPolicyKey) : Prop :=
  (∀ k ∈ w.live.expansionOf id, k ∈ keys ∨ k ∈ liveKeys (w.live.erase id) ∨
      ∃ k' ∈ keys, maps.slot k' = maps.slot k) ∧
    Apart maps keys keys ∧
    ∀ k ∈ keys, ∀ k' ∈ liveKeys (w.live.erase id), maps.slot k = maps.slot k' → k = k'

def CleanUpsert (w : HostWorld maps) (env : HostEnv) (id : String) (keys : List HostPolicyKey) :
    Prop :=
  (∃ k ∈ keys.head?, maps.refusal env k ≠ none) ∨
    (∀ k ∈ keys, maps.refusal env k = none) ∧ w.Replaceable id keys

def CleanDelete (w : HostWorld maps) (env : HostEnv) (id : String) : Prop :=
  ∀ k ∈ w.live.expansionOf id, maps.removes env k = true ∧ k ∉ liveKeys (w.live.erase id)

/-- The map is emptied and nothing is refused; the keys of a definition that a later one of
the same rule replaces are in a rule that stays, and no two keys have one place. -/
def CleanSync (w : HostWorld maps) (env : HostEnv) (es : List HostPolicyEntry)
    (keys : List HostPolicyKey) : Prop :=
  (∀ k ∈ w.live.liveKeys, maps.removes env k = true) ∧
    (∀ k ∈ keys, maps.refusal env k = none ∧ k ∈ (w.live.apply (.sync es)).liveKeys) ∧
    Apart maps keys keys

def Clean (w : HostWorld maps) (env : HostEnv) : HostRequest → Prop
  | .upsert e => ∀ keys ∈ (accept maps env e).toOption, w.CleanUpsert env e.ruleId keys
  | .delete id => w.CleanDelete env id
  | .sync es => ∀ accepted ∈ (collect maps env es).toOption,
      maps.available = true → w.CleanSync env es (accepted.flatMap Prod.snd)

instance (ks ks' : List HostPolicyKey) : Decidable (Apart maps ks ks') :=
  inferInstanceAs (Decidable (∀ k ∈ ks, ∀ k' ∈ ks', maps.slot k = maps.slot k' → k = k'))

instance (w : HostWorld maps) (id : String) (keys : List HostPolicyKey) :
    Decidable (w.Replaceable id keys) := inferInstanceAs (Decidable (_ ∧ _ ∧ _))

instance (w : HostWorld maps) (env : HostEnv) (id : String) (keys : List HostPolicyKey) :
    Decidable (w.CleanUpsert env id keys) := inferInstanceAs (Decidable (_ ∨ _ ∧ _))

instance (w : HostWorld maps) (env : HostEnv) (id : String) : Decidable (w.CleanDelete env id) :=
  inferInstanceAs (Decidable (∀ k ∈ w.live.expansionOf id, _ ∧ _))

instance (w : HostWorld maps) (env : HostEnv) (es : List HostPolicyEntry)
    (keys : List HostPolicyKey) : Decidable (w.CleanSync env es keys) :=
  inferInstanceAs (Decidable (_ ∧ _ ∧ _))

instance decidableClean (w : HostWorld maps) (env : HostEnv) :
    (req : HostRequest) → Decidable (w.Clean env req)
  | .upsert e => inferInstanceAs (Decidable
      (∀ keys ∈ (accept maps env e).toOption, w.CleanUpsert env e.ruleId keys))
  | .delete id => inferInstanceAs (Decidable (w.CleanDelete env id))
  | .sync es => inferInstanceAs (Decidable
      (∀ accepted ∈ (collect maps env es).toOption,
        maps.available = true → w.CleanSync env es (accepted.flatMap Prod.snd)))

structure Inv (w : HostWorld maps) : Prop where
  recorded : ∀ id, w.store.rules.lookup id = (w.live.lookup id).map expansion
  coherent : w.Coherent

variable {w : HostWorld maps} {env : HostEnv}

theorem inv_start : (start : HostWorld maps).Inv := by
  refine ⟨fun id => rfl, ?_⟩
  rw [Coherent, start, Table.keys_empty]
  rfl

variable {es : List HostPolicyEntry} {e : HostPolicyEntry} {req : HostRequest} {k : HostPolicyKey}
  {id : String}

theorem serve_upsert (hclean : w.Clean env (.upsert e)) :
    (∃ err, w.store.serve env (.upsert e) = (.error err, w.store)) ∨
    w.Replaceable e.ruleId e.expansion ∧ w.store.serve env (.upsert e) = (.ok (),
      ⟨w.store.policies.insertAll (e.expansion.map fun k => (k, e.value)),
        w.store.rules.insert e.ruleId e.expansion⟩) := by
  simp only [serve, upsertHostPolicy]
  cases hacc : accept maps env e with
  | error err => exact .inl ⟨err, rfl⟩
  | ok keys =>
    have hexp : e.expansion = keys := by
      rw [expansion, definition_of_accept hacc, Option.getD_some]
    obtain ⟨k, hk, href⟩ | ⟨hall, hrep⟩ := hclean keys (by rw [hacc]; rfl)
    · obtain ⟨err, herr⟩ := Option.ne_none_iff_exists'.mp href
      obtain ⟨rest, rfl⟩ := head?_eq_some_iff.mp hk
      refine .inl ⟨⟨.internal, "Failed to upsert host policy: " ++ err⟩, ?_⟩
      simp only [map_cons, HostMaps.insertPolicies, herr]
      rfl
    · refine .inr ⟨hexp ▸ hrep, ?_⟩
      have hins : ∀ p ∈ keys.map fun k => (k, e.value), maps.refusal env p.1 = none := by
        simpa using hall
      simp only [insertPolicies_eq hins, hexp]
      rfl

theorem keys_upsert (h : w.Coherent) (hrep : w.Replaceable e.ruleId e.expansion) :
    (w.store.policies.insertAll (e.expansion.map fun k => (k, e.value))).keys =
      liveKeys (w.live.insert e.ruleId e) := by
  obtain ⟨hold, hapart, hothers⟩ := hrep
  have hmap : ∀ p ∈ e.expansion.map fun k => (k, e.value), p.1 ∈ e.expansion := by simp
  ext k
  rw [Table.mem_keys_insertAll fun p hp p' hp' => hapart p.1 (hmap p hp) p'.1 (hmap p' hp'),
    mem_liveKeys_insert, h, mem_liveKeys_split e.ruleId]
  constructor
  · rintro (⟨p, hp, rfl⟩ | ⟨hk | hk, hfree⟩)
    · exact .inl (hmap p hp)
    · rcases hold k hk with hnew | hother | ⟨k', hk', hs⟩
      · exact .inl hnew
      · exact .inr hother
      · exact absurd hs (hfree (k', e.value) (mem_map.mpr ⟨k', hk', rfl⟩))
    · exact .inr hk
  · rintro (hk | hk)
    · exact .inl ⟨(k, e.value), mem_map.mpr ⟨k, hk, rfl⟩, rfl⟩
    · by_cases hnew : k ∈ e.expansion
      · exact .inl ⟨(k, e.value), mem_map.mpr ⟨k, hnew, rfl⟩, rfl⟩
      · refine .inr ⟨.inr hk, fun p hp hs => hnew ?_⟩
        rw [← hothers p.1 (hmap p hp) k hk hs]
        exact hmap p hp

theorem keys_delete (h : w.Coherent) (hclean : w.CleanDelete env id) :
    ((w.live.expansionOf id).foldl (maps.deletePolicy env) w.store.policies).keys =
      liveKeys (w.live.erase id) := by
  have hin : ∀ k ∈ w.live.expansionOf id, k ∈ w.store.policies.keys := by
    intro k hk
    rw [h]
    exact (mem_liveKeys_split _).mpr (.inl hk)
  ext k
  rw [deletePolicies_eq fun k hk => (hclean k hk).1, Table.mem_keys_removeAll]
  constructor
  · rintro ⟨hk, hne⟩
    rw [h, mem_liveKeys_split id] at hk
    rcases hk with hk | hk
    · exact absurd rfl (hne k hk)
    · exact hk
  · intro hk
    have hheld : k ∈ w.store.policies.keys := by
      rw [h]
      exact (mem_liveKeys_split _).mpr (.inr hk)
    refine ⟨hheld, fun k' hk' hs => ?_⟩
    obtain rfl := Table.eq_of_slot_eq (hin k' hk') hheld hs
    exact (hclean k' hk').2 hk

theorem serve_delete (h : w.Inv) (id : String) : w.store.serve env (.delete id) = (.ok (),
    ⟨(w.live.expansionOf id).foldl (maps.deletePolicy env) w.store.policies,
      w.store.rules.erase id⟩) := by
  have hrec := h.recorded id
  simp only [serve, deleteHostPolicy, hrec, expansionOf]
  cases hlive : w.live.lookup id with
  | none =>
    rw [hlive] at hrec
    rw [erase_of_notMem (lookup_eq_none.mp hrec)]
    rfl
  | some e => rfl

def takenOver (es : List HostPolicyEntry) : List (HostPolicyEntry × List HostPolicyKey) :=
  (es.filter fun e => e.definition.isSome).map fun e => (e, e.expansion)

theorem serve_sync (hclean : w.Clean env (.sync es)) :
    (∃ err, w.store.serve env (.sync es) = (.error err, w.store)) ∨
    w.CleanSync env es ((takenOver es).flatMap Prod.snd) ∧ w.store.serve env (.sync es) = (.ok (),
      ⟨(maps.clearPolicies env w.store.policies).insertAll
          (HostPolicyStore.policyEntries (takenOver es)),
        newRules (takenOver es)⟩) := by
  simp only [serve, syncHostPolicies]
  cases hcol : collect maps env es with
  | error err => exact .inl ⟨err, rfl⟩
  | ok accepted =>
    obtain rfl : accepted = takenOver es := collect_eq hcol
    by_cases hav : maps.available = true
    · have hsync := hclean _ (by rw [hcol]; rfl) hav
      have hins : ∀ p ∈ HostPolicyStore.policyEntries (takenOver es), maps.refusal env p.1 = none := by
        intro p hp
        obtain ⟨q, hq, hp⟩ := mem_flatMap.mp hp
        obtain ⟨k, hk, rfl⟩ := mem_map.mp hp
        exact (hsync.2.1 k (mem_flatMap.mpr ⟨q, hq, hk⟩)).1
      refine .inr ⟨hsync, ?_⟩
      simp only [if_pos hav, insertPolicies_eq hins]
      rfl
    · simp only [if_neg hav]
      exact .inl ⟨_, rfl⟩

theorem mem_policyEntries {accepted : List (HostPolicyEntry × List HostPolicyKey)} :
    (∃ p ∈ HostPolicyStore.policyEntries accepted, p.1 = k) ↔ k ∈ accepted.flatMap Prod.snd := by
  rw [mem_flatMap]
  constructor
  · rintro ⟨p, hp, rfl⟩
    obtain ⟨q, hq, hp⟩ := mem_flatMap.mp hp
    obtain ⟨k, hk, rfl⟩ := mem_map.mp hp
    exact ⟨q, hq, hk⟩
  · rintro ⟨q, hq, hk⟩
    exact ⟨(k, q.1.value), mem_flatMap.mpr ⟨q, hq, mem_map.mpr ⟨k, hk, rfl⟩⟩, rfl⟩

theorem lookup_sync (live : LiveRules) (es : List HostPolicyEntry) (id : String) :
    (newRules (takenOver es)).lookup id = ((live.apply (.sync es)).lookup id).map expansion := by
  rw [newRules, apply, lookup_assign_empty, lookup_assign_empty,
    ← written_map_snd, takenOver, map_map, map_map]
  rfl

theorem keys_sync (h : w.Coherent) (hsync : w.CleanSync env es ((takenOver es).flatMap Prod.snd)) :
    ((maps.clearPolicies env w.store.policies).insertAll
      (HostPolicyStore.policyEntries (takenOver es))).keys = (w.live.apply (.sync es)).liveKeys := by
  obtain ⟨hremoved, hkeys, hapart⟩ := hsync
  have hclear : (maps.clearPolicies env w.store.policies).keys = ∅ :=
    keys_clearPolicies fun k hk => hremoved k (h ▸ hk)
  have hin : ∀ p ∈ HostPolicyStore.policyEntries (takenOver es),
      p.1 ∈ (takenOver es).flatMap Prod.snd := fun p hp => mem_policyEntries.mp ⟨p, hp, rfl⟩
  ext k
  rw [Table.mem_keys_insertAll fun p hp p' hp' => hapart p.1 (hin p hp) p'.1 (hin p' hp'),
    hclear, mem_policyEntries]
  constructor
  · rintro (hk | ⟨hk, -⟩)
    · exact (hkeys k hk).2
    · exact absurd hk (Finset.notMem_empty k)
  · intro hk
    obtain ⟨id, e, he, hke⟩ := mem_liveKeys.mp hk
    rw [apply, lookup_assign_empty] at he
    obtain ⟨e', he', heq⟩ := mem_map.mp (mem_of_written he)
    obtain rfl := (Prod.mk.inj heq).2
    exact .inl (mem_flatMap.mpr ⟨(e', e'.expansion), mem_map.mpr ⟨e', he', rfl⟩, hke⟩)

theorem Inv.serve (h : w.Inv) (hclean : w.Clean env req) :
    (∃ err, w.store.serve env req = (.error err, w.store)) ∨
      ∃ s, w.store.serve env req = (.ok (), s) ∧ Inv ⟨s, w.live.apply req⟩ := by
  cases req with
  | upsert e =>
    refine (serve_upsert hclean).imp_right fun ⟨hrep, hserve⟩ =>
      ⟨_, hserve, fun id => ?_, keys_upsert h.coherent hrep⟩
    rw [apply, lookup_insert_eq, lookup_insert_eq, h.recorded id]
    by_cases hid : e.ruleId = id <;> simp [hid]
  | delete id =>
    refine .inr ⟨_, serve_delete h id, fun id' => ?_, keys_delete h.coherent hclean⟩
    rw [apply, lookup_erase_eq, lookup_erase_eq, h.recorded id']
    by_cases hid : id = id' <;> simp [hid]
  | sync es =>
    exact (serve_sync hclean).imp_right fun ⟨hsync, hserve⟩ =>
      ⟨_, hserve, lookup_sync w.live es, keys_sync h.coherent hsync⟩

theorem Inv.handle (h : w.Inv) (hclean : w.Clean env req) : (w.handle env req).Inv := by
  obtain ⟨err, hserve⟩ | ⟨s, hserve, hinv⟩ := h.serve hclean
  · rw [HostWorld.handle, hserve]
    exact h
  · rw [HostWorld.handle, hserve]
    exact hinv

theorem Inv.intact (h : w.Inv) (hclean : w.Clean env req) : w.Intact env req := by
  intro err herr
  obtain ⟨err', hserve⟩ | ⟨s, hserve, -⟩ := h.serve hclean
  · rw [HostWorld.handle, hserve]
    rfl
  · simp [hserve] at herr

end HostWorld

/-- Over a run of clean requests the map holds exactly the keys of the live rules, and a
clean request that is rejected changes nothing. -/
theorem host_policies_coherent (maps : HostMaps) {w : HostWorld maps}
    (hrun : HostWorld.Run HostWorld.Clean HostWorld.start w) :
    w.Coherent ∧ ∀ env req, w.Clean env req → w.Intact env req := by
  have hinv : w.Inv := by
    induction hrun with
    | refl => exact HostWorld.inv_start
    | tail _ hstep ih =>
      obtain ⟨env, req, hclean, rfl⟩ := hstep
      exact ih.handle hclean
  exact ⟨hinv.coherent, fun env req hclean => hinv.intact hclean⟩

section Example

def HostPolicyKey.number (k : HostPolicyKey) : Nat :=
  (((k.prefixLen.toNat * 2 ^ 32 + k.identity.toNat) * 2 ^ 8 + k.direction.toNat) * 2 ^ 8 +
    k.protocol.toNat) * 2 ^ 16 + k.dstPort.toNat

theorem HostPolicyKey.number_injective : Function.Injective HostPolicyKey.number := by
  rintro ⟨len, identity, direction, protocol, port⟩ ⟨len', identity', direction', protocol', port'⟩ h
  have hid := identity.toNat_lt
  have hid' := identity'.toNat_lt
  have hdir := direction.toNat_lt
  have hdir' := direction'.toNat_lt
  have hproto := protocol.toNat_lt
  have hproto' := protocol'.toNat_lt
  have hport := port.toNat_lt
  have hport' := port'.toNat_lt
  simp only [number] at h
  obtain rfl : port = port' := UInt16.toNat_inj.mp (by omega)
  obtain rfl : protocol = protocol' := UInt8.toNat_inj.mp (by omega)
  obtain rfl : direction = direction' := UInt8.toNat_inj.mp (by omega)
  obtain rfl : identity = identity' := UInt32.toNat_inj.mp (by omega)
  obtain rfl : len = len' := UInt32.toNat_inj.mp (by omega)
  rfl

def quietEnv : HostEnv :=
  ⟨fun _ => none, fun _ => none, fun _ => false, .sortedBy _ HostPolicyKey.number_injective⟩

def tcpRule (id : String) (port : UInt32) : HostPolicyEntry :=
  ⟨id, 0, 6, [10, 0, 0, 0], 8, port, 0, 1⟩

def afterRequests (reqs : List HostRequest) : HostWorld .mock :=
  reqs.foldl (fun w req => w.handle quietEnv req) .start

theorem step_afterRequests (guard : HostWorld .mock → HostEnv → HostRequest → Prop)
    (reqs : List HostRequest) {req : HostRequest}
    (h : guard (afterRequests reqs) quietEnv req) :
    HostWorld.Step guard (afterRequests reqs) (afterRequests (reqs ++ [req])) := by
  refine ⟨quietEnv, req, h, ?_⟩
  rw [afterRequests, afterRequests, foldl_append]
  rfl

theorem run_afterRequests (reqs : List HostRequest) :
    HostWorld.Run (fun _ _ _ => True) .start (afterRequests reqs) := by
  induction reqs using reverseRecOn with
  | nil => exact .refl
  | append_singleton reqs req ih => exact ih.tail (step_afterRequests _ reqs trivial)

def webRequests : List HostRequest :=
  [.upsert (tcpRule "web" 80), .upsert (tcpRule "tls" 443), .delete "web"]

theorem host_policies_coherent_example :
    HostWorld.Run HostWorld.Clean .start (afterRequests webRequests) ∧
      (afterRequests webRequests).store.policies.keys.card = 1 ∧
      (afterRequests webRequests).Coherent := by
  have hrun : HostWorld.Run HostWorld.Clean .start (afterRequests webRequests) :=
    ((Relation.ReflTransGen.single (step_afterRequests _ [] (by decide +kernel))).tail
      (step_afterRequests _ _ (by decide +kernel))).tail (step_afterRequests _ _ (by decide +kernel))
  exact ⟨hrun, by decide +kernel, (host_policies_coherent .mock hrun).1⟩

/-- A rule that moves to another port leaves its old key behind, and deleting one of two
rules with a common key takes the key from the other. -/
theorem host_policies_not_coherent :
    (∃ w : HostWorld .mock, HostWorld.Run (fun _ _ _ => True) .start w ∧ ¬ w.Coherent ∧
      w.live.liveKeys ⊂ w.store.policies.keys) ∧
    ∃ w : HostWorld .mock, HostWorld.Run (fun _ _ _ => True) .start w ∧ ¬ w.Coherent ∧
      w.store.policies.keys ⊂ w.live.liveKeys := by
  refine ⟨⟨_, run_afterRequests [.upsert (tcpRule "web" 80), .upsert (tcpRule "web" 443)], ?_⟩,
    ⟨_, run_afterRequests [.upsert (tcpRule "web" 80), .upsert (tcpRule "shop" 80), .delete "web"], ?_⟩⟩
  · decide +kernel
  · decide +kernel

end Example

end NovaNet
