import NovaNet.PolicyVerdict
import NovaNet.SyncHistory

/-! The nine lookups of the packet programs against the entries that the compiler can produce: the
verdict is that of the most specific entry, reading 0 as any. -/

namespace NovaNet

open Finmap LastWrite List

section FirstHit

variable {α β : Type} {before : α → α → Prop} {f : α → Option β}

theorem findSome?_eq_some_iff_before (hasymm : ∀ a b, before a b → ¬ before b a) {l : List α}
    (hsorted : l.Pairwise before) {b : β} : l.findSome? f = some b ↔
      ∃ a ∈ l, f a = some b ∧ ∀ a' ∈ l, f a' ≠ none → a' ≠ a → before a a' := by
  rw [List.findSome?_eq_some_iff]
  constructor
  · rintro ⟨pre, a, post, rfl, ha, hpre⟩
    refine ⟨a, by simp, ha, fun a' ha' hhit hne => ?_⟩
    rcases mem_append.mp ha' with hmem | hmem
    · exact absurd (hpre a' hmem) hhit
    · have hpost := (mem_cons.mp hmem).resolve_left hne
      exact rel_of_pairwise_cons (pairwise_append.mp hsorted).2.1 hpost
  · rintro ⟨a, ha, hhit, hfirst⟩
    obtain ⟨pre, post, rfl⟩ := append_of_mem ha
    refine ⟨pre, a, post, rfl, hhit, fun a' ha' => ?_⟩
    by_contra hsome
    have horder : before a' a := (pairwise_append.mp hsorted).2.2 a' ha' a mem_cons_self
    by_cases heq : a' = a
    · rw [heq] at horder
      exact hasymm a a horder horder
    · exact hasymm a a' (hfirst a' (mem_append_left _ ha') hsome heq) horder

end FirstHit

namespace PolicyKey

def Matches (k : PolicyKey) (src dst : UInt32) (proto : UInt8) (port : UInt16) : Prop :=
  (k.srcIdentity = src ∨ k.srcIdentity = 0) ∧ (k.dstIdentity = dst ∨ k.dstIdentity = 0) ∧
    (k.protocol = proto ∨ k.protocol = 0) ∧ (k.dstPort = port ∨ k.dstPort = 0)

def pairRank (k : PolicyKey) : Nat :=
  if k.srcIdentity = 0 then 2 else if k.dstIdentity = 0 then 1 else 0

def portRank (k : PolicyKey) : Nat :=
  if k.protocol = 0 then 2 else if k.dstPort = 0 then 1 else 0

def Before (k k' : PolicyKey) : Prop :=
  k.pairRank < k'.pairRank ∨ k.pairRank = k'.pairRank ∧ k.portRank < k'.portRank

theorem Before.asymm (k k' : PolicyKey) (h : k.Before k') : ¬ k'.Before k := by
  unfold Before at *
  omega

/-- What the compiler produces: an identity on one side, and no port without a protocol. -/
structure Shaped (k : PolicyKey) : Prop where
  identity : k.srcIdentity ≠ 0 ∨ k.dstIdentity ≠ 0
  port : k.protocol = 0 → k.dstPort = 0

end PolicyKey

section Lookup

variable {src dst : UInt32} {proto : UInt8} {port : UInt16}

theorem pairKeys_of_ne (hproto : proto ≠ 0) (hport : port ≠ 0) (pair : UInt32 × UInt32) :
    pairKeys proto port pair =
      [⟨pair.1, pair.2, proto, port⟩, ⟨pair.1, pair.2, proto, 0⟩, ⟨pair.1, pair.2, 0, 0⟩] := by
  rw [pairKeys, if_pos hport, if_pos hproto]
  rfl

theorem mem_pairKeys (hproto : proto ≠ 0) (hport : port ≠ 0) {pair : UInt32 × UInt32}
    {k : PolicyKey} (hshape : k.protocol = 0 → k.dstPort = 0) :
    k ∈ pairKeys proto port pair ↔ k.srcIdentity = pair.1 ∧ k.dstIdentity = pair.2 ∧
      (k.protocol = proto ∨ k.protocol = 0) ∧ (k.dstPort = port ∨ k.dstPort = 0) := by
  obtain ⟨s, d, p, q⟩ := k
  rw [pairKeys_of_ne hproto hport]
  simp only [mem_cons, not_mem_nil, or_false, PolicyKey.mk.injEq]
  constructor
  · rintro (⟨rfl, rfl, rfl, rfl⟩ | ⟨rfl, rfl, rfl, rfl⟩ | ⟨rfl, rfl, rfl, rfl⟩)
    · exact ⟨rfl, rfl, .inl rfl, .inl rfl⟩
    · exact ⟨rfl, rfl, .inl rfl, .inr rfl⟩
    · exact ⟨rfl, rfl, .inr rfl, .inr rfl⟩
  · rintro ⟨hs, hd, hp, hq⟩
    rcases hp with hp | hp
    · rcases hq with hq | hq
      · exact .inl ⟨hs, hd, hp, hq⟩
      · exact .inr (.inl ⟨hs, hd, hp, hq⟩)
    · exact .inr (.inr ⟨hs, hd, hp, hshape hp⟩)

theorem mem_lookupKeys (hproto : proto ≠ 0) (hport : port ≠ 0) {k : PolicyKey}
    (hshape : k.Shaped) : k ∈ lookupKeys src dst proto port ↔ k.Matches src dst proto port := by
  simp only [lookupKeys, flatMap_cons, flatMap_nil, append_nil, mem_append,
    mem_pairKeys hproto hport hshape.port, PolicyKey.Matches]
  have hid := hshape.identity
  constructor
  · rintro (⟨hs, hd, h⟩ | ⟨hs, hd, h⟩ | ⟨hs, hd, h⟩)
    · exact ⟨.inl hs, .inl hd, h⟩
    · exact ⟨.inl hs, .inr hd, h⟩
    · exact ⟨.inr hs, .inl hd, h⟩
  · rintro ⟨hs | hs, hd | hd, h⟩
    · exact .inl ⟨hs, hd, h⟩
    · exact .inr (.inl ⟨hs, hd, h⟩)
    · exact .inr (.inr ⟨hs, hd, h⟩)
    · exact absurd hid (not_or.mpr ⟨not_not.mpr hs, not_not.mpr hd⟩)

theorem lookupKeys_sorted (hsrc : src ≠ 0) (hdst : dst ≠ 0) (hproto : proto ≠ 0)
    (hport : port ≠ 0) : (lookupKeys src dst proto port).Pairwise PolicyKey.Before := by
  simp [lookupKeys, pairKeys_of_ne hproto hport, PolicyKey.Before, PolicyKey.pairRank,
    PolicyKey.portRank, hsrc, hdst, hproto, hport]

variable {m : PolicyMap}

theorem checkPolicy_eq_none_iff (hshaped : ∀ k ∈ m, k.Shaped) (hproto : proto ≠ 0)
    (hport : port ≠ 0) :
    checkPolicy m src dst proto port = none ↔ ∀ k ∈ m, ¬ k.Matches src dst proto port := by
  rw [checkPolicy_eq_findSome, List.findSome?_eq_none_iff]
  constructor
  · intro h k hk hmatches
    have hnone := h k ((mem_lookupKeys hproto hport (hshaped k hk)).mpr hmatches)
    exact lookup_eq_none.mp (Option.map_eq_none_iff.mp hnone) hk
  · intro h k hk
    rw [Option.map_eq_none_iff, lookup_eq_none]
    intro hmem
    exact h k hmem ((mem_lookupKeys hproto hport (hshaped k hmem)).mp hk)

theorem checkPolicy_eq_some_iff_before (hshaped : ∀ k ∈ m, k.Shaped) (hsrc : src ≠ 0)
    (hdst : dst ≠ 0) (hproto : proto ≠ 0) (hport : port ≠ 0) {a : UInt8} :
    checkPolicy m src dst proto port = some a ↔
      ∃ k, m.lookup k = some ⟨a⟩ ∧ k.Matches src dst proto port ∧
        ∀ k' ∈ m, k'.Matches src dst proto port → k' ≠ k → k.Before k' := by
  have hmem (k : PolicyKey) (hk : k ∈ m) :
      k ∈ lookupKeys src dst proto port ↔ k.Matches src dst proto port :=
    mem_lookupKeys hproto hport (hshaped k hk)
  have hvalue (k : PolicyKey) :
      (m.lookup k).map PolicyValue.action = some a ↔ m.lookup k = some ⟨a⟩ := by
    rw [Option.map_eq_some_iff]
    exact ⟨fun ⟨v, hv, ha⟩ => by rw [hv, ← ha], fun h => ⟨⟨a⟩, h, rfl⟩⟩
  have hhit (k : PolicyKey) : (m.lookup k).map PolicyValue.action ≠ none ↔ k ∈ m := by
    rw [Ne, Option.map_eq_none_iff, lookup_eq_none, not_not]
  rw [checkPolicy_eq_findSome, findSome?_eq_some_iff_before PolicyKey.Before.asymm
    (lookupKeys_sorted hsrc hdst hproto hport)]
  constructor
  · rintro ⟨k, hk, ha, hfirst⟩
    have hin : k ∈ m := (hhit k).mp (by rw [ha]; simp)
    refine ⟨k, (hvalue k).mp ha, (hmem k hin).mp hk, fun k' hk' hmatches hne => ?_⟩
    exact hfirst k' ((hmem k' hk').mpr hmatches) ((hhit k').mpr hk') hne
  · rintro ⟨k, hk, hmatches, hfirst⟩
    have hin : k ∈ m := mem_of_lookup_eq_some hk
    refine ⟨k, (hmem k hin).mpr hmatches, (hvalue k).mpr hk, fun k' hk' hsome hne => ?_⟩
    have hin' := (hhit k').mp hsome
    exact hfirst k' hin' ((hmem k' hin').mp hk') hne

end Lookup

section CompiledRules

def CompiledRule.PlainPort (r : CompiledRule) : Prop := r.protocol = 0 → r.dstPort = 0

variable {c : Compiler} {o : IterOrder UInt64} {r : CompiledRule}

variable {policies : List NetworkPolicy} {np : NetworkPolicy} {site : List Nat} {ns : String}
  {t : UInt64}

theorem plain_of_mem_rulePorts {ports : List NetworkPolicyPort} {sel : LabelSelector}
    {pp : PortProto} (h : pp ∈ c.rulePorts ports ns sel) : pp.protocol = 0 → pp.port = 0 := by
  intro hzero
  rcases Compiler.mem_rulePorts.mp h with ⟨p, -, hp⟩ | ⟨-, rfl⟩
  · have hnumber := Compiler.protocol_of_mem_resolvePort hp
    exact absurd (hnumber.symm.trans hzero) (Compiler.number_ne_zero _)
  · rfl

theorem plainPort_of_rules {ids : List UInt64} {entries : List CidrEntry} {fixedID : UInt64}
    {ports : List PortProto} {eg : Bool} (hports : ∀ pp ∈ ports, pp.protocol = 0 → pp.port = 0)
    (h : r ∈ buildIdentityRules ids fixedID ports eg ns ++
      buildCIDRRules entries fixedID ports eg ns) : r.PlainPort := by
  rcases mem_append.mp h with h | h <;>
  · obtain ⟨_, -, hm⟩ := mem_flatMap.mp h
    obtain ⟨pp, hpp, rfl⟩ := List.mem_map.mp hm
    exact hports pp hpp

theorem plainPort_of_compile
    (h : r ∈ c.compileIngress o site np t ++ c.compileEgress o site np t) : r.PlainPort := by
  unfold Compiler.compileIngress Compiler.compileEgress at h
  rcases mem_append.mp h with h | h <;>
  · split at h
    · split at h
      · rw [List.mem_singleton.mp h]
        exact fun _ => rfl
      · obtain ⟨l, hl, hr⟩ := mem_flatten.mp h
        obtain ⟨i, hi, rfl⟩ := mem_mapIdx.mp hl
        exact plainPort_of_rules (fun _ => plain_of_mem_rulePorts) hr
    · cases h

theorem plainPort_of_compileAll (h : r ∈ c.compileAll o policies) : r.PlainPort := by
  obtain ⟨l, hl, hr⟩ := mem_flatten.mp h
  obtain ⟨i, hi, rfl⟩ := mem_mapIdx.mp hl
  obtain ⟨l, hl, hr⟩ := mem_flatten.mp hr
  obtain ⟨j, hj, rfl⟩ := mem_mapIdx.mp hl
  exact plainPort_of_compile hr

/-- An identity rule keeps an identity on one of its sides when it is encoded. The identity of the
policy itself stands there; the other side may be the wildcard. -/
def CompiledRule.Encodes (r : CompiledRule) : Prop :=
  r.cidr = "" → r.srcIdentity.toUInt32 ≠ 0 ∨ r.dstIdentity.toUInt32 ≠ 0

instance : DecidablePred CompiledRule.Encodes := fun _ => inferInstanceAs (Decidable (_ → _))

theorem shaped_of_installed (hencodes : ∀ r ∈ c.compileAll o policies, r.Encodes) {k : PolicyKey}
    (hk : k ∈ newKeys (installedEntries (c.compileAll o policies))) : k.Shaped := by
  obtain ⟨e, he, rfl⟩ := mem_newKeys.mp hk
  obtain ⟨r, hr, hcidr, rfl⟩ := mem_installedEntries.mp he
  rw [decode_toPolicyEntry]
  exact ⟨hencodes r hr hcidr, plainPort_of_compileAll hr⟩

end CompiledRules

theorem MockMaps.syncPolicies_keys (o : IterOrder PolicyKey) (m : PolicyMap)
    (l : PolicyEntries) : (syncPolicies o m l).map.keys = newKeys l := by
  ext k
  rw [Finmap.mem_keys, syncPolicies_eq_assign, mem_assign, mem_newKeys]
  simp [notMem_empty]

/-- The maps that a sync of the compiled rules can leave, with either map manager and after any
earlier content. -/
def Synced (c : Compiler) (o : IterOrder UInt64) (policies : List NetworkPolicy) (m : PolicyMap) :
    Prop :=
  ∃ ok old, m = syncRules ok old (c.compileAll o policies) ∨
    m = (MockMaps.syncPolicies ok old (installedEntries (c.compileAll o policies))).map

variable {c : Compiler} {o : IterOrder UInt64} {policies : List NetworkPolicy} {m : PolicyMap}

theorem Synced.shaped (hm : Synced c o policies m)
    (hencodes : ∀ r ∈ c.compileAll o policies, r.Encodes) : ∀ k ∈ m, k.Shaped := by
  intro k hk
  apply shaped_of_installed hencodes
  rw [← Finmap.mem_keys] at hk
  obtain ⟨ok, old, rfl | rfl⟩ := hm
  · rwa [syncRules, RealMaps.syncPolicies_keys] at hk
  · rwa [MockMaps.syncPolicies_keys] at hk

/-- The nine lookups give the action of the most specific entry that applies, and nothing when no
entry does. -/
theorem checkPolicy_most_specific (hm : Synced c o policies m)
    (hencodes : ∀ r ∈ c.compileAll o policies, r.Encodes) {src dst : UInt32} {proto : UInt8}
    {port : UInt16} (hsrc : src ≠ 0) (hdst : dst ≠ 0) (hproto : proto ≠ 0) (hport : port ≠ 0) :
    (checkPolicy m src dst proto port = none ↔ ∀ k ∈ m, ¬ k.Matches src dst proto port) ∧
    ∀ a, checkPolicy m src dst proto port = some a ↔
      ∃ k, m.lookup k = some ⟨a⟩ ∧ k.Matches src dst proto port ∧
        ∀ k' ∈ m, k'.Matches src dst proto port → k' ≠ k → k.Before k' := by
  have hshaped := hm.shaped hencodes
  exact ⟨checkPolicy_eq_none_iff hshaped hproto hport,
    fun _ => checkPolicy_eq_some_iff_before hshaped hsrc hdst hproto hport⟩

theorem checkPolicy_most_specific_example :
    checkPolicy (exampleCompiler.installed identityOrder .arbitrary [allowFromWeb]) 7 9 6 80 =
        some actionAllow ↔
      ∃ k, (exampleCompiler.installed identityOrder .arbitrary [allowFromWeb]).lookup k =
          some ⟨actionAllow⟩ ∧ k.Matches 7 9 6 80 ∧
        ∀ k' ∈ exampleCompiler.installed identityOrder .arbitrary [allowFromWeb],
          k'.Matches 7 9 6 80 → k' ≠ k → k.Before k' := by
  have hencodes : ∀ r ∈ exampleCompiler.compileAll identityOrder [allowFromWeb], r.Encodes := by
    decide +kernel
  have hsynced : Synced exampleCompiler identityOrder [allowFromWeb]
      (exampleCompiler.installed identityOrder .arbitrary [allowFromWeb]) :=
    ⟨.arbitrary, ∅, .inl rfl⟩
  exact (checkPolicy_most_specific hsynced hencodes (by decide) (by decide) (by decide)
    (by decide)).2 actionAllow

end NovaNet
