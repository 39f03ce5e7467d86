import NovaNet.AddressPool
import NovaNet.ListResults
import Mathlib.Data.String.Basic

/-! Runs of calls to one pool. The slot of an address is what the bitmaps and the single
addresses say about it; the pool is exclusive when the slots agree with the allocations. -/

namespace NovaNet

open Finmap LastWrite List Option CidrRange

structure PoolLayout where
  networks : List Net.IPNet
  addrs : Finset String

namespace PoolLayout

def addresses (l : PoolLayout) : Finset String :=
  l.networks.foldr (fun net s => netNames net ∪ s) l.addrs

structure NoOverlap (l : PoolLayout) : Prop where
  networks : l.networks.Pairwise fun net net' => Disjoint (netNames net) (netNames net')
  addrs : ∀ net ∈ l.networks, Disjoint (netNames net) l.addrs

instance (l : PoolLayout) : Decidable l.NoOverlap :=
  decidable_of_iff (l.networks.Pairwise (fun net net' => Disjoint (netNames net) (netNames net')) ∧
    ∀ net ∈ l.networks, Disjoint (netNames net) l.addrs) ⟨fun h => ⟨h.1, h.2⟩, fun h => ⟨h.1, h.2⟩⟩

variable {net : Net.IPNet} {networks : List Net.IPNet} {addrs : Finset String} {name : String}

theorem mem_addresses {l : PoolLayout} :
    name ∈ l.addresses ↔ name ∈ l.addrs ∨ ∃ net ∈ l.networks, name ∈ netNames net := by
  obtain ⟨networks, addrs⟩ := l
  induction networks with
  | nil => simp [addresses]
  | cons net networks ih =>
    have hcons : addresses ⟨net :: networks, addrs⟩ = netNames net ∪ addresses ⟨networks, addrs⟩ := rfl
    rw [hcons, Finset.mem_union, ih]
    simp only [mem_cons, exists_eq_or_imp]
    tauto

theorem noOverlap_cons : NoOverlap ⟨net :: networks, addrs⟩ ↔
    Disjoint (netNames net) (addresses ⟨networks, addrs⟩) ∧ NoOverlap ⟨networks, addrs⟩ := by
  constructor
  · rintro ⟨hnets, haddrs⟩
    obtain ⟨hhead, htail⟩ := pairwise_cons.mp hnets
    refine ⟨Finset.disjoint_left.mpr fun name hname hmem => ?_, htail,
      fun net' hnet => haddrs net' (mem_cons_of_mem net hnet)⟩
    rcases mem_addresses.mp hmem with hsingle | ⟨net', hnet, hname'⟩
    · exact Finset.disjoint_left.mp (haddrs net mem_cons_self) hname hsingle
    · exact Finset.disjoint_left.mp (hhead net' hnet) hname hname'
  · rintro ⟨hhead, hnets, haddrs⟩
    have hsub : ∀ net' ∈ networks, Disjoint (netNames net) (netNames net') := fun net' hnet =>
      hhead.mono_right fun name hname => mem_addresses.mpr (.inr ⟨net', hnet, hname⟩)
    refine ⟨pairwise_cons.mpr ⟨hsub, hnets⟩, fun net' hnet => ?_⟩
    rcases mem_cons.mp hnet with heq | htail
    · rw [heq]
      have hsub : addrs ⊆ addresses ⟨networks, addrs⟩ := fun name hname =>
        mem_addresses.mpr (.inl hname)
      exact hhead.mono_right hsub
    · exact haddrs net' htail

theorem card_addresses_le (networks : List Net.IPNet) (addrs : Finset String) :
    (addresses ⟨networks, addrs⟩).card ≤
      addrs.card + (networks.map fun net => (netNames net).card).sum := by
  induction networks with
  | nil => exact Nat.le_refl _
  | cons net networks ih =>
    have hunion := Finset.card_union_le (netNames net) (addresses ⟨networks, addrs⟩)
    rw [map_cons, sum_cons]
    change (netNames net ∪ addresses ⟨networks, addrs⟩).card ≤ _
    omega

theorem card_addresses_eq_iff (networks : List Net.IPNet) (addrs : Finset String) :
    addrs.card + (networks.map fun net => (netNames net).card).sum =
      (addresses ⟨networks, addrs⟩).card ↔ NoOverlap ⟨networks, addrs⟩ := by
  induction networks with
  | nil => exact ⟨fun _ => ⟨List.Pairwise.nil, by simp⟩, fun _ => rfl⟩
  | cons net networks ih =>
    have hle := card_addresses_le networks addrs
    have hunion := Finset.card_union_le (netNames net) (addresses ⟨networks, addrs⟩)
    rw [noOverlap_cons, ← Finset.card_union_eq_card_add_card, ← ih, map_cons, sum_cons]
    change _ = (netNames net ∪ addresses ⟨networks, addrs⟩).card ↔ _
    omega

end PoolLayout

namespace Pool

def layout (p : Pool) : PoolLayout := ⟨p.ranges.map network, p.discreteAddrs.keys⟩

def slot (p : Pool) (ip : Option Net.IP) : Option Bool :=
  (p.discreteAddrs.lookup (ipText ip)).or (rangeSlot ip p.ranges)

section Ranges

variable {cr : CidrRange} {ranges ranges' : List CidrRange} {ip ip' : Option Net.IP} {idx : Nat}
  {taken : Bool}

theorem rangeSlot_of_find (h : cr.find ip = some (some idx)) (rest : List CidrRange) :
    rangeSlot ip (cr :: rest) = some (cr.bitmap.get idx) := by
  rw [rangeSlot, h]

theorem rangeSlot_of_not_found (h : cr.find ip = none) (rest : List CidrRange) :
    rangeSlot ip (cr :: rest) = rangeSlot ip rest := by
  rw [rangeSlot, h]

theorem rangeSlot_isSome_iff :
    (rangeSlot ip ranges).isSome ↔ ∃ cr ∈ ranges, ipText ip ∈ netNames cr.network := by
  induction ranges with
  | nil => simp [rangeSlot]
  | cons cr ranges ih =>
    simp only [mem_cons, exists_eq_or_imp, cr.mem_netNames]
    rcases cr.find_cases ip with ⟨idx, hlt, hfind, hsame⟩ | ⟨hfind, hnone⟩
    · rw [rangeSlot_of_find hfind]
      exact ⟨fun _ => .inl ⟨idx, hlt, hsame⟩, fun _ => rfl⟩
    · rw [rangeSlot_of_not_found hfind, ih]
      constructor
      · exact .inr
      · rintro (⟨idx, hlt, hsame⟩ | htail)
        · exact absurd hsame (hnone idx hlt)
        · exact htail

theorem bit_of_rangeSlot {bit : Bool} (h : rangeSlot ip ranges = some bit) :
    ∃ cr ∈ ranges, ∃ idx < cr.size, cr.bitmap.get idx = bit := by
  induction ranges with
  | nil => cases h
  | cons cr ranges ih =>
    rcases cr.find_cases ip with ⟨idx, hlt, hfind, -⟩ | ⟨hfind, -⟩
    · rw [rangeSlot_of_find hfind] at h
      exact ⟨cr, mem_cons_self, idx, hlt, Option.some.inj h⟩
    · rw [rangeSlot_of_not_found hfind] at h
      obtain ⟨cr', hcr, hbit⟩ := ih h
      exact ⟨cr', mem_cons_of_mem cr hcr, hbit⟩

structure RangesSet (ranges ranges' : List CidrRange) (ip : Option Net.IP) (taken : Bool) :
    Prop where
  slot : ∀ ip', rangeSlot ip' ranges' =
    if ipText ip' = ipText ip then some taken else rangeSlot ip' ranges
  networks : ranges'.map network = ranges.map network

theorem RangesSet.cons (h : RangesSet ranges ranges' ip taken) (hfind : cr.find ip = none) :
    RangesSet (cr :: ranges) (cr :: ranges') ip taken := by
  refine ⟨fun ip' => ?_, by rw [map_cons, map_cons, h.networks]⟩
  rcases cr.find_cases ip' with ⟨idx, -, hfind', -⟩ | ⟨hfind', -⟩
  · have hne : ipText ip' ≠ ipText ip := by
      intro htext
      simp [find_congr htext, hfind] at hfind'
    rw [rangeSlot_of_find hfind', rangeSlot_of_find hfind', if_neg hne]
  · rw [rangeSlot_of_not_found hfind', rangeSlot_of_not_found hfind', h.slot]

theorem rangesSet_head {cr' : CidrRange} (hfind : cr.find ip = some (some idx))
    (hkeep : ∀ ip, cr'.find ip = cr.find ip) (hnet : cr'.network = cr.network)
    (hget : cr'.bitmap.get idx = taken)
    (hother : ∀ j < cr.size, j ≠ idx → cr'.bitmap.get j = cr.bitmap.get j)
    (rest : List CidrRange) : RangesSet (cr :: rest) (cr' :: rest) ip taken := by
  refine ⟨fun ip' => ?_, by rw [map_cons, map_cons, hnet]⟩
  rcases cr.find_cases ip' with ⟨j, hj, hfind', hsame⟩ | ⟨hfind', -⟩
  · rw [rangeSlot_of_find ((hkeep ip').trans hfind'), rangeSlot_of_find hfind']
    by_cases htext : ipText ip' = ipText ip
    · rw [find_congr htext, hfind, Option.some.injEq, Option.some.injEq] at hfind'
      rw [if_pos htext, ← hfind', hget]
    · have hne : j ≠ idx := by
        rintro rfl
        rcases cr.find_cases ip with ⟨k, -, hk, hsame'⟩ | ⟨hnone, -⟩
        · rw [hfind, Option.some.injEq] at hk
          cases hk
          exact htext (hsame.symm.trans hsame')
        · simp [hfind] at hnone
      rw [if_neg htext, hother j hj hne]
  · have hne : ipText ip' ≠ ipText ip := by
      intro htext
      simp [find_congr htext, hfind] at hfind'
    rw [rangeSlot_of_not_found ((hkeep ip').trans hfind'), rangeSlot_of_not_found hfind', if_neg hne]

theorem rangesSet_set (hlt : idx < cr.size) (hfind : cr.find ip = some (some idx))
    (rest : List CidrRange) : RangesSet (cr :: rest) (cr.set idx :: rest) ip true :=
  rangesSet_head hfind (cr.find_set idx) rfl (by simp [get_set hlt])
    (fun j _ hne => by simp [get_set hlt, hne]) rest

theorem rangesSet_clear (hlt : idx < cr.size) (hfind : cr.find ip = some (some idx))
    (rest : List CidrRange) : RangesSet (cr :: rest) (cr.clear idx :: rest) ip false :=
  rangesSet_head hfind (cr.find_clear idx) rfl (by simp [get_clear hlt])
    (fun j _ hne => by simp [get_clear hlt, hne]) rest

theorem claim_spec (ip : Option Net.IP) (ranges : List CidrRange) :
    match claim ip ranges with
    | none => rangeSlot ip ranges = none
    | some (.error e) => e = .ipAlreadyAlloc ∧ rangeSlot ip ranges = some true
    | some (.ok ranges') => rangeSlot ip ranges = some false ∧ RangesSet ranges ranges' ip true := by
  induction ranges with
  | nil => rfl
  | cons cr ranges ih =>
    rcases cr.find_cases ip with ⟨idx, hlt, hfind, -⟩ | ⟨hfind, -⟩
    · rw [claim, hfind, rangeSlot_of_find hfind]
      cases hget : cr.bitmap.get idx with
      | true => simp [hget]
      | false =>
        simp only [hget, Bool.false_eq_true, if_false]
        exact ⟨trivial, rangesSet_set hlt hfind ranges⟩
    · rw [claim, hfind, rangeSlot_of_not_found hfind]
      cases hclaim : claim ip ranges with
      | none => simpa [hclaim] using ih
      | some r =>
        rw [hclaim] at ih
        cases r with
        | error e => exact ih
        | ok ranges' => exact ⟨ih.1, ih.2.cons hfind⟩

theorem free_spec (h : (rangeSlot ip ranges).isSome) : RangesSet ranges (free ip ranges) ip false := by
  induction ranges with
  | nil => cases h
  | cons cr ranges ih =>
    rcases cr.find_cases ip with ⟨idx, hlt, hfind, -⟩ | ⟨hfind, -⟩
    · rw [free, hfind]
      exact rangesSet_clear hlt hfind ranges
    · rw [rangeSlot_of_not_found hfind] at h
      rw [free, hfind]
      exact (ih h).cons hfind

theorem takeFree_spec {x : Net.IP} (h : takeFree ranges = some (x, ranges'))
    (hdisj : (ranges.map network).Pairwise fun net net' =>
      Disjoint (netNames net) (netNames net')) :
    rangeSlot (some x) ranges = some false ∧ RangesSet ranges ranges' (some x) true := by
  induction ranges generalizing ranges' with
  | nil => cases h
  | cons cr ranges ih =>
    obtain ⟨hhead, htail⟩ := pairwise_cons.mp hdisj
    have hspec := cr.bitmap.findFree_spec
    rw [takeFree] at h
    cases hfree : cr.bitmap.findFree with
    | some idx =>
      rw [hfree] at h hspec
      cases h
      obtain ⟨-, hsize, hclear, -⟩ := hspec
      have hlt : idx < cr.size := lt_of_lt_of_eq hsize cr.size_bitmap
      have hfind : cr.find (some (cr.addr idx)) = some (some idx) := find_of_text hlt rfl
      exact ⟨by rw [rangeSlot_of_find hfind, hclear], rangesSet_set hlt hfind ranges⟩
    | none =>
      rw [hfree] at h
      obtain ⟨⟨y, rest⟩, htake, heq⟩ := map_eq_some_iff.mp h
      obtain ⟨rfl, rfl⟩ : y = x ∧ cr :: rest = ranges' := Prod.mk.inj heq
      obtain ⟨hslot, hset⟩ := ih htake htail
      have hnot : cr.find (some y) = none := by
        rcases cr.find_cases (some y) with ⟨idx, hlt, -, hsame⟩ | ⟨hnone, -⟩
        · obtain ⟨cr', hcr, hmem⟩ := rangeSlot_isSome_iff.mp (by rw [hslot]; rfl)
          have hin : ipText (some y) ∈ netNames cr.network :=
            (cr.mem_netNames _).mpr ⟨idx, hlt, hsame⟩
          have hdis := hhead cr'.network (List.mem_map_of_mem hcr)
          exact absurd hmem (Finset.disjoint_left.mp hdis hin)
        · exact hnone
      exact ⟨by rw [rangeSlot_of_not_found hnot, hslot], hset.cons hnot⟩

end Ranges

section Spec

variable {p p' : Pool} {ip : Option Net.IP} {taken : Bool}

theorem slot_isSome_iff : (p.slot ip).isSome ↔ ipText ip ∈ p.layout.addresses := by
  rw [slot, isSome_or, Bool.or_eq_true, rangeSlot_isSome_iff, lookup_isSome, PoolLayout.mem_addresses]
  simp [layout, Finmap.mem_keys]

theorem isAvailable_iff (p : Pool) (ip : IPSlice) :
    p.isAvailable ip = true ↔ p.slot (normalizeIP ip) = some false := by
  cases hd : p.discreteAddrs.lookup (ipText (normalizeIP ip)) with
  | some allocated => simp [isAvailable, slot, hd]
  | none =>
    cases hr : rangeSlot (normalizeIP ip) p.ranges with
    | some set | none => simp [isAvailable, slot, hd, hr]

structure Sets (p p' : Pool) (ip : Option Net.IP) (taken : Bool) : Prop where
  slot : ∀ ip', p'.slot ip' = if ipText ip' = ipText ip then some taken else p.slot ip'
  layout : p'.layout = p.layout

theorem sets_setDiscrete (taken : Bool) {addr : String} (h : addr ∈ p.discreteAddrs)
    (htext : ipText ip = addr) : Sets p (p.setDiscrete addr taken h) ip taken := by
  constructor
  · intro ip'
    have hlookup := lookup_insert_eq p.discreteAddrs addr (ipText ip') taken
    change ((p.discreteAddrs.insert addr taken).lookup (ipText ip')).or _ = _
    rw [hlookup, htext]
    by_cases he : ipText ip' = addr
    · rw [if_pos he.symm, if_pos he, some_or]
    · rw [if_neg (Ne.symm he), if_neg he, slot]
      rfl
  · have hkeys : (p.discreteAddrs.insert addr taken).keys = p.discreteAddrs.keys := by
      rw [keys_insert, Finset.insert_eq_of_mem (Finmap.mem_keys.mpr h)]
    exact congrArg (PoolLayout.mk _) hkeys

theorem sets_ranges {ranges : List CidrRange} (h : RangesSet p.ranges ranges ip taken)
    (hnot : p.discreteAddrs.lookup (ipText ip) = none) :
    Sets p { p with ranges := ranges } ip taken := by
  constructor
  · intro ip'
    change (p.discreteAddrs.lookup (ipText ip')).or (rangeSlot ip' ranges) = _
    rw [h.slot]
    by_cases he : ipText ip' = ipText ip
    · rw [he, hnot, if_pos rfl, if_pos rfl, none_or]
    · rw [if_neg he, if_neg he, slot]
  · exact congrArg (PoolLayout.mk · _) h.networks

def Consistent (p : Pool) : Prop := ∀ ip, p.slot ip = some true ↔ ipText ip ∈ p.allocations

theorem Consistent.record {q : Pool} {name : String} {info : AllocationInfo} (h : p.Consistent)
    (hsets : Sets p q ip true) (hkeep : q.allocations = p.allocations) (htext : ipText ip = name) :
    (q.record name info).Consistent := by
  intro ip'
  change q.slot ip' = some true ↔ ipText ip' ∈ q.allocations.insert name info
  rw [hsets.slot, hkeep, mem_insert, htext]
  by_cases he : ipText ip' = name
  · simp [he]
  · rw [if_neg he, h ip']
    simp [he]

theorem Consistent.forget {q : Pool} (h : p.Consistent) (hsets : Sets p q ip false)
    (hkeep : q.allocations = p.allocations) : (q.forget (ipText ip)).Consistent := by
  intro ip'
  change q.slot ip' = some true ↔ ipText ip' ∈ q.allocations.erase (ipText ip)
  rw [hsets.slot, hkeep, mem_erase]
  by_cases he : ipText ip' = ipText ip
  · simp [he]
  · rw [if_neg he, h ip']
    simp [he]

structure Grants (p p' : Pool) (ip : Option Net.IP) (owner : String) : Prop where
  free : p.slot ip = some false
  layout : p'.layout = p.layout
  consistent : p.Consistent → p'.Consistent
  allocations : ∃ info : AllocationInfo, info.owner = owner ∧
    p'.allocations = p.allocations.insert (ipText ip) info

structure Frees (p p' : Pool) (ip : Option Net.IP) : Prop where
  layout : p'.layout = p.layout
  consistent : p'.Consistent
  allocations : p'.allocations = p.allocations.erase (ipText ip)

theorem allocate_spec {o : IterOrder String} {site : List Nat} {owner resource : String}
    (hno : p.layout.NoOverlap) (h : p.allocate o site owner resource = .ok (ip, p')) :
    Grants p p' ip owner := by
  unfold allocate at h
  split at h
  · next x ranges htake =>
    cases h
    obtain ⟨hslot, hset⟩ := takeFree_spec htake hno.networks
    obtain ⟨cr, hcr, hmem⟩ := rangeSlot_isSome_iff.mp (by rw [hslot]; rfl)
    have hnot : p.discreteAddrs.lookup (ipText (some x)) = none := by
      refine lookup_eq_none.mpr fun hin => ?_
      have hdis := hno.addrs cr.network (List.mem_map_of_mem hcr)
      exact Finset.disjoint_left.mp hdis hmem (Finmap.mem_keys.mpr hin)
    have hsets := sets_ranges hset hnot
    exact ⟨by rw [slot, hnot, none_or, hslot], hsets.layout,
      fun hc => hc.record hsets rfl rfl, _, rfl, rfl⟩
  · split at h
    · next addr hfind =>
      cases h
      have hmem := mem_of_find hfind
      obtain ⟨x, rfl⟩ := p.discrete_text addr hmem
      have htext : ipText (Net.parseIp x.string) = x.string := by
        rw [Net.parseIp_string]
        exact Net.string_normalize x
      have hfree : p.discreteAddrs.lookup x.string = some false := by
        simpa using List.find?_some hfind
      have hsets := sets_setDiscrete true hmem htext
      exact ⟨by rw [slot, htext, hfree, some_or], hsets.layout,
        fun hc => hc.record hsets rfl htext, _, rfl, by rw [htext]; rfl⟩
    · cases h

theorem allocateSpecific_spec {x : IPSlice} {owner resource : String}
    (h : p.allocateSpecific x owner resource = .ok p') : Grants p p' (normalizeIP x) owner := by
  unfold allocateSpecific at h
  dsimp only at h
  split at h
  · cases h
  · next hfree =>
    cases h
    have hsets := sets_setDiscrete true (mem_of_lookup_eq_some hfree) rfl
    exact ⟨by rw [slot, hfree, some_or], hsets.layout, fun hc => hc.record hsets rfl rfl, _,
      rfl, rfl⟩
  · next hnot =>
    have hspec := claim_spec (normalizeIP x) p.ranges
    split at h
    · cases h
    · next ranges hclaim =>
      cases h
      rw [hclaim] at hspec
      have hsets := sets_ranges hspec.2 hnot
      exact ⟨by rw [slot, hnot, none_or, hspec.1], hsets.layout,
        fun hc => hc.record hsets rfl rfl, _, rfl, rfl⟩
    · cases h

theorem release_spec {x : IPSlice} (hc : p.Consistent) (h : p.release x = .ok p') :
    Frees p p' (normalizeIP x) := by
  unfold release at h
  dsimp only at h
  split at h
  · cases h
  · next info halloc =>
    have hslot := (hc (normalizeIP x)).mpr (mem_of_lookup_eq_some halloc)
    split at h
    · next taken hdisc =>
      cases h
      have hsets := sets_setDiscrete false (mem_of_lookup_eq_some hdisc) rfl
      exact ⟨hsets.layout, hc.forget hsets rfl, rfl⟩
    · next hnot =>
      cases h
      rw [slot, hnot, none_or] at hslot
      have hsets := sets_ranges (free_spec (by rw [hslot]; rfl)) hnot
      exact ⟨hsets.layout, hc.forget hsets rfl, rfl⟩

theorem forall_parsed {cidrs : List String} {ranges : List CidrRange}
    (h : cidrs.mapM parseCIDRRange = .ok ranges) :
    ∀ cr ∈ ranges, ∀ idx, cr.bitmap.get idx = false := by
  intro cr hcr idx
  obtain ⟨cidr, -, hparse⟩ := exists_of_forall₂ (mapM_eq_ok_iff.mp h).flip hcr
  unfold parseCIDRRange at hparse
  split at hparse
  · cases hparse
  · split at hparse
    · cases hparse
    · cases hparse
      exact Bitmap.get_new _ _

theorem newPool_spec {cfg : PoolConfig} (h : newPool cfg = .ok p) :
    p.allocations = ∅ ∧ p.Consistent := by
  unfold newPool at h
  split at h
  · cases h
  · next ranges hranges =>
    split at h
    · cases h
    · next addrs haddrs =>
      cases h
      refine ⟨rfl, fun ip => ?_⟩
      have hdisc : ∀ b, (assign (∅ : Finmap fun _ : String => Bool)
          (addrs.map fun ip => (ip.string, false))).lookup (ipText ip) = some b → b = false := by
        intro b hb
        rw [lookup_assign_empty] at hb
        obtain ⟨x, -, hx⟩ := List.mem_map.mp (mem_of_written hb)
        exact (Prod.mk.inj hx).2.symm
      constructor
      · intro htrue
        rcases or_eq_some_iff.mp htrue with hb | ⟨-, hb⟩
        · cases hdisc true hb
        · obtain ⟨cr, hcr, idx, -, hbit⟩ := bit_of_rangeSlot hb
          simp [forall_parsed hranges cr hcr idx] at hbit
      · intro hmem
        exact absurd hmem notMem_empty

end Spec

end Pool

inductive PoolCall where
  | allocate (site : List Nat) (owner resource : String)
  | allocateSpecific (ip : IPSlice) (owner resource : String)
  | release (ip : IPSlice)

inductive PoolAnswer where
  | granted (addr owner : String)
  | released (addr : String)
  | failed (e : PoolError)
  deriving DecidableEq

def Pool.call (o : IterOrder String) (p : Pool) : PoolCall → PoolAnswer × Pool
  | .allocate site owner resource =>
    match p.allocate o site owner resource with
    | .ok (ip, p') => (.granted (ipText ip) owner, p')
    | .error e => (.failed e, p)
  | .allocateSpecific ip owner resource =>
    match p.allocateSpecific ip owner resource with
    | .ok p' => (.granted (ipText (normalizeIP ip)) owner, p')
    | .error e => (.failed e, p)
  | .release ip =>
    match p.release ip with
    | .ok p' => (.released (ipText (normalizeIP ip)), p')
    | .error e => (.failed e, p)

abbrev Granted := Finmap fun _ : String => String

def PoolAnswer.apply (granted : Granted) : PoolAnswer → Granted
  | .granted addr owner => granted.insert addr owner
  | .released addr => granted.erase addr
  | .failed _ => granted

structure PoolRun where
  pool : Pool
  granted : Granted

namespace PoolRun

variable (o : IterOrder String)

def call (s : PoolRun) (q : PoolCall) : PoolRun :=
  ⟨(s.pool.call o q).2, (s.pool.call o q).1.apply s.granted⟩

def after (s : PoolRun) (calls : List PoolCall) : PoolRun := calls.foldl (call o) s

/-- What the claims of holders, the table, the answers and the counts have to say. `p` is
the pool before the run. -/
structure Exclusive (p : Pool) (s : PoolRun) : Prop where
  grants : ∀ q addr owner, (s.pool.call o q).1 = .granted addr owner → addr ∉ s.granted
  allocations : ∀ addr,
    (s.pool.allocations.lookup addr).map AllocationInfo.owner = s.granted.lookup addr
  available : ∀ ip, s.pool.isAvailable ip = true ↔
    ipText (normalizeIP ip) ∈ p.layout.addresses ∧ ipText (normalizeIP ip) ∉ s.granted
  allocated : ∀ site, (s.pool.status o site).allocated = s.granted.keys.card
  total : ∀ site, (s.pool.status o site).total = p.layout.addresses.card

structure Agrees (p : Pool) (s : PoolRun) : Prop where
  layout : s.pool.layout = p.layout
  consistent : s.pool.Consistent
  owners : ∀ addr, (s.pool.allocations.lookup addr).map AllocationInfo.owner = s.granted.lookup addr

variable {o} {p : Pool} {s : PoolRun}

theorem Agrees.mem_iff (h : s.Agrees p) (addr : String) :
    addr ∈ s.pool.allocations ↔ addr ∈ s.granted := by
  rw [← lookup_isSome, ← lookup_isSome, ← h.owners, isSome_map]

theorem total_eq_iff (p : Pool) (site : List Nat) :
    (p.status o site).total = p.layout.addresses.card ↔ p.layout.NoOverlap := by
  have hsizes : p.ranges.map size = (p.ranges.map network).map fun net => (netNames net).card := by
    rw [List.map_map]
    exact map_congr_left fun cr _ => cr.card_netNames.symm
  rw [← PoolLayout.card_addresses_eq_iff]
  change p.discreteAddrs.keys.card + (p.ranges.map size).sum = _ ↔ _
  rw [hsizes]
  rfl

theorem call_cases (q : PoolCall) (hno : s.pool.layout.NoOverlap) (hc : s.pool.Consistent) :
    (∃ ip owner, (s.pool.call o q).1 = .granted (ipText ip) owner ∧
      s.pool.Grants (s.pool.call o q).2 ip owner) ∨
    (∃ ip, (s.pool.call o q).1 = .released (ipText ip) ∧ s.pool.Frees (s.pool.call o q).2 ip) ∨
    ∃ e, s.pool.call o q = (.failed e, s.pool) := by
  cases q with
  | allocate site owner resource =>
    cases h : s.pool.allocate o site owner resource with
    | ok r =>
      obtain ⟨ip, p'⟩ := r
      simp only [Pool.call, h]
      exact .inl ⟨ip, owner, rfl, Pool.allocate_spec hno h⟩
    | error e => exact .inr (.inr ⟨e, by simp only [Pool.call, h]⟩)
  | allocateSpecific ip owner resource =>
    cases h : s.pool.allocateSpecific ip owner resource with
    | ok p' =>
      simp only [Pool.call, h]
      exact .inl ⟨_, owner, rfl, Pool.allocateSpecific_spec h⟩
    | error e => exact .inr (.inr ⟨e, by simp only [Pool.call, h]⟩)
  | release ip =>
    cases h : s.pool.release ip with
    | ok p' =>
      simp only [Pool.call, h]
      exact .inr (.inl ⟨_, rfl, Pool.release_spec hc h⟩)
    | error e => exact .inr (.inr ⟨e, by simp only [Pool.call, h]⟩)

theorem Agrees.call (h : s.Agrees p) (hno : p.layout.NoOverlap) (q : PoolCall) :
    (s.call o q).Agrees p := by
  unfold PoolRun.call
  rcases call_cases (o := o) q (h.layout ▸ hno) h.consistent with
    ⟨ip, owner, hanswer, hg⟩ | ⟨ip, hanswer, hf⟩ | ⟨e, hfail⟩
  · obtain ⟨info, rfl, halloc⟩ := hg.allocations
    refine ⟨hg.layout.trans h.layout, hg.consistent h.consistent, fun addr => ?_⟩
    simp only [hanswer, PoolAnswer.apply, halloc, lookup_insert_eq]
    by_cases he : ipText ip = addr
    · rw [if_pos he, if_pos he, map_some]
    · rw [if_neg he, if_neg he, h.owners]
  · refine ⟨hf.layout.trans h.layout, hf.consistent, fun addr => ?_⟩
    simp only [hanswer, PoolAnswer.apply, hf.allocations, lookup_erase_eq]
    by_cases he : ipText ip = addr
    · rw [if_pos he, if_pos he, map_none]
    · rw [if_neg he, if_neg he, h.owners]
  · rwa [hfail]

theorem Agrees.after (h : s.Agrees p) (hno : p.layout.NoOverlap) (calls : List PoolCall) :
    (s.after o calls).Agrees p := by
  induction calls generalizing s with
  | nil => exact h
  | cons q calls ih => exact ih (h.call hno q)

theorem Agrees.exclusive (h : s.Agrees p) (hno : p.layout.NoOverlap) : s.Exclusive o p where
  grants := by
    intro q addr owner hgrant
    rcases call_cases (o := o) q (h.layout ▸ hno) h.consistent with
      ⟨ip, owner', hanswer, hg⟩ | ⟨ip, hanswer, -⟩ | ⟨e, hfail⟩
    · rw [hanswer] at hgrant
      cases hgrant
      rw [← h.mem_iff, ← h.consistent ip, hg.free]
      decide
    · simp [hanswer] at hgrant
    · simp [hfail] at hgrant
  allocations := h.owners
  available := by
    intro ip
    rw [Pool.isAvailable_iff, ← h.mem_iff, ← h.consistent, ← h.layout, ← Pool.slot_isSome_iff]
    cases s.pool.slot (normalizeIP ip) with
    | none => simp
    | some taken => simp
  allocated := by
    intro site
    have hkeys : s.pool.allocations.keys = s.granted.keys := by
      ext addr
      rw [Finmap.mem_keys, Finmap.mem_keys, h.mem_iff]
    exact congrArg Finset.card hkeys
  total := by
    intro site
    rwa [← h.layout, total_eq_iff, h.layout]

theorem pool_exclusive_iff {cfg : PoolConfig} {p : Pool} (h : Pool.newPool cfg = .ok p) :
    (∀ (o : IterOrder String) (calls : List PoolCall),
      (after o ⟨p, ∅⟩ calls).Exclusive o p) ↔ p.layout.NoOverlap := by
  constructor
  · intro hall
    exact (total_eq_iff p []).mp ((hall IterOrder.sorted []).total [])
  · intro hno o calls
    obtain ⟨hempty, hc⟩ := Pool.newPool_spec h
    have hstart : (⟨p, ∅⟩ : PoolRun).Agrees p := ⟨rfl, hc, by simp [hempty]⟩
    exact (hstart.after hno calls).exclusive hno

theorem exists_newPool (cfg : PoolConfig) {q : Pool → Prop} [DecidablePred q]
    (h : (Pool.newPool cfg).toOption.any (fun p => q p) = true) :
    ∃ p, Pool.newPool cfg = .ok p ∧ q p := by
  cases hp : Pool.newPool cfg with
  | error e => simp [hp, Except.toOption] at h
  | ok p => exact ⟨p, rfl, by simpa [hp, Except.toOption] using h⟩

def smallConfig : PoolConfig :=
  ⟨"ingress", .ingressIP, ["10.0.0.0/31"], ["10.0.0.2"], true, "operator"⟩

theorem pool_exclusive_example : ∃ p, Pool.newPool smallConfig = .ok p ∧ p.layout.NoOverlap ∧
    ∀ (o : IterOrder String) (calls : List PoolCall), (after o ⟨p, ∅⟩ calls).Exclusive o p := by
  obtain ⟨p, hp, hno⟩ := exists_newPool smallConfig (q := fun p => p.layout.NoOverlap)
    (by decide +kernel)
  exact ⟨p, hp, hno, (pool_exclusive_iff hp).mpr hno⟩

def overlapConfig : PoolConfig :=
  ⟨"ingress", .ingressIP, ["10.0.0.0/32"], ["10.0.0.0"], true, "operator"⟩

theorem pool_grants_twice : ∃ p, Pool.newPool overlapConfig = .ok p ∧
    (after .sorted ⟨p, ∅⟩ [.allocate [] "first" "a"]).granted.lookup "10.0.0.0" = some "first" ∧
    ((after .sorted ⟨p, ∅⟩ [.allocate [] "first" "a"]).pool.call .sorted
      (.allocate [] "second" "b")).1 = .granted "10.0.0.0" "second" :=
  exists_newPool overlapConfig (by decide +kernel)

end PoolRun

end NovaNet
