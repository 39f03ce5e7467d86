import NovaNet.LastWrite
import NovaNet.IterOrder

/-! The POLICIES map and its bulk update. The real map manager compares every
entry with a snapshot taken before the loop, the mock compares it with the map
it is writing. The packet programs look up three identity pairs, and for each of them the
exact port, any port, and any protocol. -/

namespace NovaNet

open LastWrite List

structure PolicyKey where
  srcIdentity : UInt32
  dstIdentity : UInt32
  protocol : UInt8
  dstPort : UInt16
  deriving DecidableEq

@[ext] structure PolicyValue where
  action : UInt8
  deriving DecidableEq

abbrev PolicyMap := Finmap fun _ : PolicyKey => PolicyValue

def actionDeny : UInt8 := 0

def actionAllow : UInt8 := 1

structure SyncLoop where
  map : PolicyMap
  added : Nat
  updated : Nat

structure SyncResult where
  map : PolicyMap
  added : Nat
  removed : Nat
  updated : Nat

abbrev PolicyEntries := List (PolicyKey × PolicyValue)

def newKeys (l : List (PolicyKey × PolicyValue)) : Finset PolicyKey := (l.map Prod.fst).toFinset

def staleKeys (o : IterOrder PolicyKey) (m : PolicyMap) (l : List (PolicyKey × PolicyValue)) :
    List PolicyKey :=
  (o.enum [] m.keys).filter (fun k => k ∉ newKeys l)

namespace RealMaps

def syncEntry (existing : PolicyMap) (st : SyncLoop) (e : PolicyKey × PolicyValue) : SyncLoop :=
  match existing.lookup e.1 with
  | some v =>
    if v.action = e.2.action then st
    else { st with map := st.map.insert e.1 e.2, updated := st.updated + 1 }
  | none => { st with map := st.map.insert e.1 e.2, added := st.added + 1 }

def removeKey (st : PolicyMap × Nat) (k : PolicyKey) : PolicyMap × Nat :=
  if k ∈ st.1 then (st.1.erase k, st.2 + 1) else st

def syncPolicies (o : IterOrder PolicyKey) (m : PolicyMap)
    (l : List (PolicyKey × PolicyValue)) : SyncResult :=
  let st := l.foldl (syncEntry m) ⟨m, 0, 0⟩
  let out := (staleKeys o m l).foldl removeKey (st.map, 0)
  ⟨out.1, st.added, out.2, st.updated⟩

end RealMaps

namespace MockMaps

def syncEntry (st : SyncLoop) (e : PolicyKey × PolicyValue) : SyncLoop :=
  match st.map.lookup e.1 with
  | some v =>
    if v.action = e.2.action then st
    else { st with map := st.map.insert e.1 e.2, updated := st.updated + 1 }
  | none => { st with map := st.map.insert e.1 e.2, added := st.added + 1 }

def removeKey (st : PolicyMap × Nat) (k : PolicyKey) : PolicyMap × Nat := (st.1.erase k, st.2 + 1)

def syncPolicies (o : IterOrder PolicyKey) (m : PolicyMap)
    (l : List (PolicyKey × PolicyValue)) : SyncResult :=
  let st := l.foldl syncEntry ⟨m, 0, 0⟩
  let out := (staleKeys o m l).foldl removeKey (st.map, 0)
  ⟨out.1, st.added, out.2, st.updated⟩

end MockMaps

variable {l : PolicyEntries} {k : PolicyKey}

theorem mem_newKeys : k ∈ newKeys l ↔ ∃ e ∈ l, e.1 = k := by
  simp [newKeys]

theorem mem_staleKeys {o : IterOrder PolicyKey} {m : PolicyMap} :
    k ∈ staleKeys o m l ↔ k ∈ m ∧ k ∉ newKeys l := by
  simp [staleKeys, Finmap.mem_keys]

theorem staleKeys_nodup (o : IterOrder PolicyKey) (m : PolicyMap)
    (l : PolicyEntries) : (staleKeys o m l).Nodup :=
  (o.nodup_enum [] m.keys).filter _

theorem staleKeys_length (o : IterOrder PolicyKey) (m : PolicyMap)
    (l : PolicyEntries) : (staleKeys o m l).length = (m.keys \ newKeys l).card := by
  rw [← toFinset_card_of_nodup (staleKeys_nodup o m l)]
  congr 1
  ext k
  rw [List.mem_toFinset, mem_staleKeys, Finset.mem_sdiff, Finmap.mem_keys]

theorem written_filter {p : PolicyKey × PolicyValue → Bool} (h : ∀ e ∈ l, e.1 = k → p e = true) :
    written k (l.filter p) = written k l := by
  induction l with
  | nil => rfl
  | cons e l ih =>
    have hh := ih fun x hx => h x (mem_cons_of_mem e hx)
    by_cases hp : p e = true
    · rw [filter_cons_of_pos hp, written_cons, written_cons, hh]
    · have hk : e.1 ≠ k := fun he => hp (h e mem_cons_self he)
      rw [filter_cons_of_neg hp, written_cons, hh]
      simp [hk]

namespace RealMaps

def changed (existing : PolicyMap) (e : PolicyKey × PolicyValue) : Bool :=
  existing.lookup e.1 ≠ some e.2

theorem syncEntry_map (existing : PolicyMap) (st : SyncLoop) (e : PolicyKey × PolicyValue) :
    (syncEntry existing st e).map =
      if changed existing e then st.map.insert e.1 e.2 else st.map := by
  cases hv : existing.lookup e.1 with
  | none => simp [syncEntry, changed, hv]
  | some v =>
    by_cases ha : v.action = e.2.action
    · simp [syncEntry, changed, hv, PolicyValue.ext ha]
    · have hne : v ≠ e.2 := fun he => ha (congrArg PolicyValue.action he)
      simp [syncEntry, changed, hv, ha, hne]

theorem syncEntry_added (existing : PolicyMap) (st : SyncLoop) (e : PolicyKey × PolicyValue) :
    (syncEntry existing st e).added = st.added + if e.1 ∈ existing then 0 else 1 := by
  cases hv : existing.lookup e.1 with
  | none => simp [syncEntry, hv, Finmap.lookup_eq_none.mp hv]
  | some v =>
    have hm : e.1 ∈ existing := Finmap.mem_of_lookup_eq_some hv
    by_cases ha : v.action = e.2.action <;> simp [syncEntry, hv, ha, hm]

theorem loop_map (existing : PolicyMap) (l : PolicyEntries) (st : SyncLoop) :
    (l.foldl (syncEntry existing) st).map = assign st.map (l.filter (changed existing)) := by
  induction l generalizing st with
  | nil => rfl
  | cons e l ih =>
    rw [foldl_cons, ih, syncEntry_map]
    by_cases hc : changed existing e = true
    · simp [hc, assign]
    · simp [hc]

theorem loop_added (existing : PolicyMap) (l : PolicyEntries) (st : SyncLoop) :
    (l.foldl (syncEntry existing) st).added =
      st.added + ((l.map Prod.fst).filter (fun k => k ∉ existing)).length := by
  induction l generalizing st with
  | nil => rfl
  | cons e l ih =>
    rw [foldl_cons, ih, syncEntry_added]
    by_cases hm : e.1 ∈ existing
    · simp [hm]
    · simp [hm]; omega

theorem foldl_removeKey {ks : List PolicyKey} {m : PolicyMap} {n : Nat}
    (hnd : ks.Nodup) (hm : ∀ k ∈ ks, k ∈ m) :
    ks.foldl removeKey (m, n) = (eraseAll m ks, n + ks.length) := by
  induction ks generalizing m n with
  | nil => rfl
  | cons k ks ih =>
    have hk := nodup_cons.mp hnd
    have hrest : ∀ k' ∈ ks, k' ∈ m.erase k := by
      intro k' hk'
      refine Finmap.mem_erase.mpr ⟨?_, hm k' (mem_cons_of_mem k hk')⟩
      rintro rfl
      exact hk.1 hk'
    have hh := ih (m := m.erase k) (n := n + 1) hk.2 hrest
    simp only [foldl_cons, removeKey, hm k mem_cons_self, if_true]
    rw [show List.foldl removeKey (m.erase k, n + 1) ks = _ from hh]
    simp only [eraseAll, foldl_cons, length_cons, Prod.mk.injEq, true_and]
    omega

variable (o : IterOrder PolicyKey) (m : PolicyMap) (l : PolicyEntries)

theorem remove_stale :
    (staleKeys o m l).foldl removeKey ((l.foldl (syncEntry m) ⟨m, 0, 0⟩).map, 0) =
      (eraseAll (assign m (l.filter (changed m))) (staleKeys o m l), (m.keys \ newKeys l).card) := by
  rw [loop_map, foldl_removeKey (staleKeys_nodup o m l)]
  · rw [staleKeys_length, Nat.zero_add]
  · intro k hk
    exact mem_assign.mpr (.inl (mem_staleKeys.mp hk).1)

theorem syncPolicies_added :
    (syncPolicies o m l).added = ((l.map Prod.fst).filter (fun k => k ∉ m)).length := by
  simp [syncPolicies, loop_added]

theorem syncPolicies_removed : (syncPolicies o m l).removed = (m.keys \ newKeys l).card := by
  simp only [syncPolicies, remove_stale]

/-- An entry equal to the snapshot is skipped even when the loop has already
overwritten its key. -/
theorem lookup_syncPolicies (k : PolicyKey) :
    (syncPolicies o m l).map.lookup k =
      if k ∈ newKeys l then (written k (l.filter (changed m))).or (m.lookup k) else none := by
  simp only [syncPolicies, remove_stale, lookup_eraseAll, lookup_assign, mem_staleKeys]
  by_cases hk : k ∈ newKeys l
  · simp [hk]
  · by_cases hm : k ∈ m
    · simp [hk, hm]
    · have hw : written k (l.filter (changed m)) = none := written_eq_none_iff.mpr fun e he hek =>
          hk (mem_newKeys.mpr ⟨e, (mem_filter.mp he).1, hek⟩)
      simp [hk, hm, hw, Finmap.lookup_eq_none.mpr hm]

theorem syncPolicies_keys : (syncPolicies o m l).map.keys = newKeys l := by
  ext k
  rw [Finmap.mem_keys, ← Finmap.lookup_isSome, lookup_syncPolicies]
  by_cases hk : k ∈ newKeys l
  · obtain ⟨e, he, rfl⟩ := mem_newKeys.mp hk
    simp only [hk, if_true, Option.isSome_or, Bool.or_eq_true, iff_true]
    by_cases hc : changed m e = true
    · refine .inl (Option.isSome_iff_ne_none.mpr fun hn => ?_)
      exact written_eq_none_iff.mp hn e (mem_filter.mpr ⟨he, hc⟩) rfl
    · refine .inr ?_
      have hv : m.lookup e.1 = some e.2 := by simpa [changed] using hc
      simp [hv]
  · simp [hk]

theorem lookup_syncPolicies_of_notMem {k : PolicyKey} (hk : k ∉ m) :
    (syncPolicies o m l).map.lookup k = written k l := by
  have hv : m.lookup k = none := Finmap.lookup_eq_none.mpr hk
  rw [lookup_syncPolicies, hv, Option.or_none]
  rw [written_filter (k := k) (p := changed m) (l := l) (by rintro e _ rfl; simp [changed, hv])]
  by_cases hl : k ∈ newKeys l
  · simp [hl]
  · rw [if_neg hl, eq_comm, written_eq_none_iff]
    exact fun e he hek => hl (mem_newKeys.mpr ⟨e, he, hek⟩)

theorem syncPolicies_empty : (syncPolicies o ∅ l).map = assign ∅ l :=
  Finmap.ext_lookup fun k => by
    rw [lookup_syncPolicies_of_notMem o ∅ l Finmap.notMem_empty, lookup_assign_empty]

end RealMaps

def checkPair (m : PolicyMap) (src dst : UInt32) (proto : UInt8) (dstPort : UInt16) :
    Option UInt8 :=
  match m.lookup ⟨src, dst, proto, dstPort⟩ with
  | some val => some val.action
  | none =>
    match if dstPort ≠ 0 then m.lookup ⟨src, dst, proto, 0⟩ else none with
    | some val => some val.action
    | none =>
      match if proto ≠ 0 then m.lookup ⟨src, dst, 0, 0⟩ else none with
      | some val => some val.action
      | none => none

def checkPolicy (m : PolicyMap) (srcId dstId : UInt32) (proto : UInt8) (dstPort : UInt16) :
    Option UInt8 :=
  [(srcId, dstId), (srcId, 0), (0, dstId)].findSome? fun pair =>
    checkPair m pair.1 pair.2 proto dstPort

/-- What the packet programs make of the lookup: no hit, like an unknown action,
falls back to the default-deny setting. -/
def policyDenies (defaultDeny : UInt64) (r : Option UInt8) : Bool :=
  if r = some actionDeny then true
  else if r = some actionAllow then false
  else defaultDeny == 1

def pairKeys (proto : UInt8) (dstPort : UInt16) (pair : UInt32 × UInt32) : List PolicyKey :=
  ⟨pair.1, pair.2, proto, dstPort⟩ ::
    ((if dstPort ≠ 0 then [⟨pair.1, pair.2, proto, 0⟩] else []) ++
      if proto ≠ 0 then [⟨pair.1, pair.2, 0, 0⟩] else [])

def lookupKeys (srcId dstId : UInt32) (proto : UInt8) (dstPort : UInt16) : List PolicyKey :=
  [(srcId, dstId), (srcId, 0), (0, dstId)].flatMap (pairKeys proto dstPort)

theorem checkPair_eq_findSome (m : PolicyMap) (pair : UInt32 × UInt32) (proto : UInt8)
    (dstPort : UInt16) : checkPair m pair.1 pair.2 proto dstPort =
      (pairKeys proto dstPort pair).findSome? fun k => (m.lookup k).map PolicyValue.action := by
  unfold checkPair pairKeys
  cases hex : m.lookup ⟨pair.1, pair.2, proto, dstPort⟩ with
  | some val => simp [hex]
  | none =>
    rcases eq_or_ne dstPort 0 with rfl | hq
    · rcases eq_or_ne proto 0 with rfl | hp
      · simp [hex]
      · cases h : m.lookup ⟨pair.1, pair.2, 0, 0⟩ <;> simp [hex, hp, h]
    · cases hany : m.lookup ⟨pair.1, pair.2, proto, 0⟩ with
      | some val => simp [hq, hex, hany]
      | none =>
        rcases eq_or_ne proto 0 with rfl | hp
        · simp [hex, hq, hany]
        · cases h : m.lookup ⟨pair.1, pair.2, 0, 0⟩ <;> simp [hp, hq, hex, hany, h]

theorem checkPolicy_eq_findSome (m : PolicyMap) (srcId dstId : UInt32) (proto : UInt8)
    (dstPort : UInt16) : checkPolicy m srcId dstId proto dstPort =
      (lookupKeys srcId dstId proto dstPort).findSome?
        fun k => (m.lookup k).map PolicyValue.action := by
  simp only [checkPolicy, lookupKeys, checkPair_eq_findSome, flatMap_cons, flatMap_nil,
    findSome?_append, findSome?_cons, findSome?_nil, append_nil]
  cases findSome? _ (pairKeys proto dstPort (srcId, dstId)) <;>
    cases findSome? _ (pairKeys proto dstPort (srcId, 0)) <;>
    cases findSome? _ (pairKeys proto dstPort (0, dstId)) <;> rfl

variable {m : PolicyMap} {srcId dstId : UInt32} {dstPort : UInt16} {proto a : UInt8}

theorem checkPolicy_eq_some_iff : checkPolicy m srcId dstId proto dstPort = some a ↔
      ∃ pre k post, lookupKeys srcId dstId proto dstPort = pre ++ k :: post ∧
        (∀ k' ∈ pre, m.lookup k' = none) ∧ m.lookup k = some ⟨a⟩ := by
  rw [checkPolicy_eq_findSome, findSome?_eq_some_iff]
  constructor
  · rintro ⟨pre, k, post, hkeys, hk, hpre⟩
    obtain ⟨v, hv, rfl⟩ := Option.map_eq_some_iff.mp hk
    exact ⟨pre, k, post, hkeys, fun k' hk' => Option.map_eq_none_iff.mp (hpre k' hk'), hv⟩
  · rintro ⟨pre, k, post, hkeys, hpre, hk⟩
    exact ⟨pre, k, post, hkeys, by simp [hk], fun k' hk' => by simp [hpre k' hk']⟩

def PolicyMap.KnownActions (m : PolicyMap) : Prop :=
  ∀ k v, m.lookup k = some v → v.action = actionAllow ∨ v.action = actionDeny

theorem checkPolicy_known (hm : PolicyMap.KnownActions m)
    (h : checkPolicy m srcId dstId proto dstPort = some a) : a = actionAllow ∨ a = actionDeny := by
  obtain ⟨pre, k, post, -, -, hk⟩ := checkPolicy_eq_some_iff.mp h
  exact hm k ⟨a⟩ hk

theorem policyDenies_zero_iff (hm : PolicyMap.KnownActions m) :
    policyDenies 0 (checkPolicy m srcId dstId proto dstPort) = true ↔
      checkPolicy m srcId dstId proto dstPort = some actionDeny := by
  cases h : checkPolicy m srcId dstId proto dstPort with
  | none => simp [policyDenies]
  | some a =>
    rcases checkPolicy_known hm h with rfl | rfl
    · simp [policyDenies, actionAllow, actionDeny]
    · simp [policyDenies]

end NovaNet
