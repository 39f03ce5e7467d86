import NovaNet.Admission
import NovaNet.LbIpam
import NovaNet.PoolManager

/-! The webhook of IPPool objects (internal/webhook/ippool_webhook.go), and what the pools built
from accepted objects can serve. -/

namespace NovaNet

open List Net

section Webhook

def ipPoolTypes : List String :=
  ["LoadBalancerVIP", "IngressIP", "PodCIDR", "ServiceClusterIP", "Custom"]

def validatePoolType : IPPoolType → List FieldError
  | .other text => [⟨.notSupported ipPoolTypes, "spec.type", .text text⟩]
  | _ => []

/-- The loop over the CIDRs, with the networks of the valid ones so far. An overlap is reported
under the text at the same place of the list, whether or not that text was valid. -/
def validatePoolCIDRs (cidrs : List String) : List Net.IPNet → Nat → List String → List FieldError
  | _, _, [] => []
  | parsedNets, i, cidr :: rest =>
    match validateCIDR cidr, parseCIDR cidr with
    | none, some ipNet =>
      (parsedNets.mapIdx fun j prev =>
        if cidrsOverlap ipNet prev then
          invalid (FieldPath.index "spec.cidrs" i) (.text cidr)
            (some ("overlaps with cidrs[" ++ Nat.repr j ++ "] " ++ cidrs.getD j ""))
        else []).flatten ++ validatePoolCIDRs cidrs (parsedNets ++ [ipNet]) (i + 1) rest
    | err, _ =>
      invalid (FieldPath.index "spec.cidrs" i) (.text cidr) err ++
        validatePoolCIDRs cidrs parsedNets (i + 1) rest

def validateIPPoolSpec (spec : IPPoolSpec) : List FieldError :=
  validatePoolType spec.type ++
  (validatePoolCIDRs spec.cidrs [] 0 spec.cidrs ++
  ((spec.addresses.mapIdx fun i addr =>
    invalid (FieldPath.index "spec.addresses" i) (.text addr) (validateIP addr)).flatten ++
  if spec.cidrs.length = 0 ∧ spec.addresses.length = 0 then
    [⟨.required "at least one of cidrs or addresses must be specified", "spec", .absent⟩]
  else []))

theorem validateCIDR_eq_none {cidr : String} (h : validateCIDR cidr = none) :
    ∃ net, parseCIDR cidr = some net := by
  unfold validateCIDR at h
  cases hp : parseCIDR cidr with
  | none => rw [hp] at h; cases h
  | some net => exact ⟨net, rfl⟩

theorem validateIP_eq_none {addr : String} (h : validateIP addr = none) :
    ∃ ip, parseIp addr = some ip := by
  unfold validateIP at h
  cases hp : parseIp addr with
  | none => rw [hp] at h; cases h
  | some ip => exact ⟨ip, rfl⟩

theorem networks_of_accepted {cidrs rest : List String} {parsedNets : List Net.IPNet} {i : Nat}
    (h : validatePoolCIDRs cidrs parsedNets i rest = []) :
    ∃ nets, List.Forall₂ (fun cidr net => parseCIDR cidr = some net) rest nets ∧
      nets.Pairwise (fun a b => cidrsOverlap b a = false) ∧
      ∀ net ∈ nets, ∀ prev ∈ parsedNets, cidrsOverlap net prev = false := by
  induction rest generalizing parsedNets i with
  | nil => exact ⟨[], .nil, .nil, fun _ hnet => absurd hnet not_mem_nil⟩
  | cons cidr rest ih =>
    unfold validatePoolCIDRs at h
    split at h
    · rename_i ipNet hvalid hparse
      obtain ⟨hoverlap, hrest⟩ := append_eq_nil_iff.mp h
      obtain ⟨nets, hnets, hpairs, hprev⟩ := ih hrest
      have hhead : ∀ prev ∈ parsedNets, cidrsOverlap ipNet prev = false := by
        refine (flatten_mapIdx_eq_nil fun j prev => ?_).mp hoverlap
        cases cidrsOverlap ipNet prev <;> simp [invalid]
      refine ⟨ipNet :: nets, .cons hparse hnets,
        pairwise_cons.mpr ⟨fun net hnet => ?_, hpairs⟩,
        forall_mem_cons.mpr ⟨hhead, fun net hnet prev hmem => ?_⟩⟩
      · exact hprev net hnet ipNet (mem_append_right _ mem_cons_self)
      · exact hprev net hnet prev (mem_append_left _ hmem)
    · rename_i err hnot
      obtain ⟨herr, -⟩ := append_eq_nil_iff.mp h
      have hvalid := invalid_eq_nil.mp herr
      obtain ⟨net, hnet⟩ := validateCIDR_eq_none hvalid
      exact absurd hnet (hnot net hvalid)

end Webhook

section Networks

variable {a b : Net.IPNet} {i j : Nat}

theorem contains_of_common (ha : a.IsNetwork) (hb : b.IsNetwork) (hbits : b.hostBits ≤ 20)
    (hle : a.hostBits ≤ b.hostBits) (hi : i < a.size) (hj : j < b.size)
    (h : (a.ip.add i).normalize = (b.ip.add j).normalize) : b.contains a.ip = true := by
  obtain ⟨k, hk⟩ : a.size ∣ b.size := Nat.pow_dvd_pow 2 hle
  rw [normalize_eq_iff, ha.toNat_to16_add hi, hb.toNat_to16_add hj] at h
  rw [contains_iff (le_trans hbits (by decide)), ← div_add_of_dvd hb.dvd_to16 hj, ← h, hk,
    ← Nat.div_div_eq_div_mul, div_add_of_dvd ha.dvd_to16 hi, Nat.div_div_eq_div_mul]

theorem disjoint_of_not_overlap (ha : a.IsNetwork) (hb : b.IsNetwork) (habits : a.hostBits ≤ 20)
    (hbbits : b.hostBits ≤ 20) (h : cidrsOverlap b a = false) :
    Disjoint (netNames a) (netNames b) := by
  obtain ⟨hba, hab⟩ := Bool.or_eq_false_iff.mp h
  rw [Finset.disjoint_left]
  intro name hname hname'
  simp only [netNames, Finset.mem_image, Finset.mem_range] at hname hname'
  obtain ⟨i, hi, rfl⟩ := hname
  obtain ⟨j, hj, hsame⟩ := hname'
  have hnorm := string_eq_iff.mp hsame
  rcases Nat.le_total a.hostBits b.hostBits with hle | hle
  · have hin := contains_of_common ha hb hbbits hle hi hj hnorm.symm
    simp [hba] at hin
  · have hin := contains_of_common hb ha habits hle hj hi hnorm
    simp [hab] at hin

theorem contains_iff_netNames (ha : a.IsNetwork) (hbits : a.hostBits ≤ 20) (ip : Net.IP) :
    a.contains ip = true ↔ ip.string ∈ netNames a := by
  simp only [netNames, Finset.mem_image, Finset.mem_range, string_eq_iff, contains_iff_index ha hbits]

end Networks

section NewPool

def PoolConfig.layout (cfg : PoolConfig) : PoolLayout where
  networks := cfg.cidrs.filterMap parseCIDR
  addrs := ((cfg.addresses.filterMap parseIp).map Net.IP.string).toFinset

theorem parseCIDRRange_eq_ok {cidr : String} {cr : CidrRange} (h : parseCIDRRange cidr = .ok cr) :
    parseCIDR cidr = some cr.network := by
  unfold parseCIDRRange at h
  split at h
  · cases h
  · rename_i net hnet
    split at h
    · cases h
    · cases h
      exact hnet

theorem parseAddress_eq_ok {addr : String} {ip : Net.IP} (h : parseAddress addr = .ok ip) :
    parseIp addr = some ip := by
  unfold parseAddress at h
  split at h
  · rename_i ip' hip
    cases h
    exact hip
  · cases h

theorem newPool_layout {cfg : PoolConfig} {p : Pool} (h : Pool.newPool cfg = .ok p) :
    p.layout = cfg.layout ∧ ∀ net ∈ cfg.layout.networks, net.IsNetwork ∧ net.hostBits ≤ 20 := by
  unfold Pool.newPool at h
  split at h
  · cases h
  · rename_i ranges hranges
    split at h
    · cases h
    · rename_i addrs haddrs
      cases h
      have hnets : cfg.cidrs.filterMap parseCIDR = ranges.map CidrRange.network := by
        apply filterMap_eq_of_forall₂
        rw [List.forall₂_map_right_iff]
        exact (mapM_eq_ok_iff.mp hranges).imp fun _ _ => parseCIDRRange_eq_ok
      have hips : cfg.addresses.filterMap parseIp = addrs :=
        filterMap_eq_of_forall₂ ((mapM_eq_ok_iff.mp haddrs).imp fun _ _ => parseAddress_eq_ok)
      have hkeys : (LastWrite.assign (∅ : Finmap fun _ : String => Bool)
          (addrs.map fun ip => (ip.string, false))).keys = (addrs.map Net.IP.string).toFinset := by
        ext name
        simp [Finmap.mem_keys, LastWrite.mem_assign, Finmap.notMem_empty]
      refine ⟨?_, fun net hnet => ?_⟩
      · rw [PoolConfig.layout, hnets, hips, ← hkeys]
        rfl
      · rw [PoolConfig.layout, hnets] at hnet
        obtain ⟨cr, -, rfl⟩ := List.mem_map.mp hnet
        exact ⟨cr.isNetwork, cr.hostBits_le⟩

theorem exists_newPool_of_valid {cfg : PoolConfig}
    (hcidrs : ∀ cidr ∈ cfg.cidrs, ∃ net, parseCIDR cidr = some net ∧ net.hostBits ≤ 20)
    (haddrs : ∀ addr ∈ cfg.addresses, ∃ ip, parseIp addr = some ip) :
    ∃ p, Pool.newPool cfg = .ok p := by
  have hexists {α β : Type} {f : α → Except PoolError β} (l : List α)
      (h : ∀ a ∈ l, ∃ b, f a = .ok b) : ∃ xs, l.mapM f = .ok xs := by
    induction l with
    | nil => exact ⟨[], rfl⟩
    | cons a l ih =>
      obtain ⟨⟨b, hb⟩, hl⟩ := forall_mem_cons.mp h
      obtain ⟨xs, hxs⟩ := ih hl
      exact ⟨b :: xs, mapM_eq_ok_iff.mpr (.cons hb (mapM_eq_ok_iff.mp hxs))⟩
  obtain ⟨ranges, hranges⟩ := hexists (f := parseCIDRRange) cfg.cidrs fun cidr hcidr => by
    obtain ⟨net, hnet, hbits⟩ := hcidrs cidr hcidr
    unfold parseCIDRRange
    split
    · rename_i hnone
      simp [hnet] at hnone
    · rename_i net' hnet'
      rw [hnet] at hnet'
      cases hnet'
      rw [dif_neg (Nat.not_lt.mpr hbits)]
      exact ⟨_, rfl⟩
  obtain ⟨addrs, haddrs⟩ := hexists (f := parseAddress) cfg.addresses fun addr haddr => by
    obtain ⟨ip, hip⟩ := haddrs addr haddr
    exact ⟨ip, by rw [parseAddress, hip]⟩
  unfold Pool.newPool
  rw [hranges, haddrs]
  exact ⟨_, rfl⟩

end NewPool

section Allocations

structure AllocateRequest where
  site : List Nat
  owner : String
  resource : String

namespace Pool

def allocateAll (o : IterOrder String) :
    Pool → List AllocateRequest → List (Except PoolError (Option Net.IP))
  | _, [] => []
  | p, q :: requests =>
    match p.allocate o q.site q.owner q.resource with
    | .ok (ip, p') => .ok ip :: allocateAll o p' requests
    | .error e => .error e :: allocateAll o p requests

def remaining (p : Pool) : Finset String := p.layout.addresses \ p.allocations.keys

variable {p p' : Pool} {o : IterOrder String}

theorem takeFree_eq_none {ranges : List CidrRange} (h : takeFree ranges = none) :
    ∀ cr ∈ ranges, ∀ idx < cr.size, cr.bitmap.get idx = true := by
  induction ranges with
  | nil => exact fun _ hcr => absurd hcr not_mem_nil
  | cons cr ranges ih =>
    rw [takeFree] at h
    have hspec := cr.bitmap.findFree_spec
    cases hfree : cr.bitmap.findFree with
    | some idx => rw [hfree] at h; cases h
    | none =>
      simp only [hfree, Option.map_eq_none_iff] at h
      rw [hfree, cr.size_bitmap] at hspec
      exact forall_mem_cons.mpr ⟨fun idx hlt => hspec idx (Nat.zero_le _) hlt, ih h⟩

theorem slot_of_allocate_error {site : List Nat} {owner resource : String} {e : PoolError}
    (h : p.allocate o site owner resource = .error e) (ip : Option Net.IP) :
    p.slot ip ≠ some false := by
  unfold allocate at h
  split at h
  · cases h
  · rename_i hnone
    split at h
    · cases h
    · rename_i hfind
      intro hslot
      rcases Option.or_eq_some_iff.mp hslot with hdisc | ⟨-, hrange⟩
      · have hmem : ipText ip ∈ o.enum site p.discreteAddrs.keys := by
          rw [o.mem_enum, Finmap.mem_keys]
          exact Finmap.mem_of_lookup_eq_some hdisc
        exact absurd (decide_eq_true hdisc) (List.find?_eq_none.mp hfind _ hmem)
      · obtain ⟨cr, hcr, idx, hlt, hbit⟩ := bit_of_rangeSlot hrange
        simp [takeFree_eq_none hnone cr hcr idx hlt] at hbit

theorem exists_text_of_mem {name : String} (h : name ∈ p.layout.addresses) :
    ∃ ip : Net.IP, name = ip.string := by
  rcases PoolLayout.mem_addresses.mp h with hmem | ⟨net, -, hmem⟩
  · exact p.discrete_text name (Finmap.mem_keys.mp hmem)
  · obtain ⟨idx, -, rfl⟩ := Finset.mem_image.mp hmem
    exact ⟨_, rfl⟩

theorem allocate_cases (hno : p.layout.NoOverlap) (hc : p.Consistent) (q : AllocateRequest) :
    (∃ ip p', p.allocate o q.site q.owner q.resource = .ok (some ip, p') ∧
      ip.string ∈ p.remaining ∧ p'.remaining = p.remaining.erase ip.string ∧
      p'.layout = p.layout ∧ p'.Consistent) ∨
    (∃ e, p.allocate o q.site q.owner q.resource = .error e) ∧ p.remaining = ∅ := by
  cases h : p.allocate o q.site q.owner q.resource with
  | error e =>
    refine .inr ⟨⟨e, rfl⟩, ?_⟩
    rw [remaining, Finset.sdiff_eq_empty_iff_subset]
    intro name hname
    obtain ⟨ip, rfl⟩ := exists_text_of_mem hname
    rw [Finmap.mem_keys]
    refine (hc (some ip)).mp ?_
    have hsome := slot_isSome_iff.mpr (show ipText (some ip) ∈ p.layout.addresses from hname)
    have hfull := slot_of_allocate_error h (some ip)
    cases hslot : p.slot (some ip) with
    | none => rw [hslot] at hsome; cases hsome
    | some taken =>
      cases taken with
      | true => rfl
      | false => exact absurd hslot hfull
  | ok r =>
    obtain ⟨ip, p'⟩ := r
    have hgrants := allocate_spec hno h
    have hmem : ipText ip ∈ p.layout.addresses := slot_isSome_iff.mp (by rw [hgrants.free]; rfl)
    have hfree : ipText ip ∉ p.allocations := by
      rw [← hc ip, hgrants.free]
      decide
    obtain ⟨info, -, halloc⟩ := hgrants.allocations
    cases ip with
    | none =>
      obtain ⟨x, hx⟩ := exists_text_of_mem hmem
      exact absurd hx (ipText_ne_string x)
    | some ip =>
      refine .inl ⟨ip, p', rfl, ?_, ?_, hgrants.layout, hgrants.consistent hc⟩
      · exact Finset.mem_sdiff.mpr ⟨hmem, by rwa [Finmap.mem_keys]⟩
      · rw [remaining, hgrants.layout, halloc, LastWrite.keys_insert, remaining]
        ext name
        simp only [Finset.mem_sdiff, Finset.mem_insert, Finset.mem_erase, ipText, not_or]
        tauto

theorem allocateAll_spec (hno : p.layout.NoOverlap) (hc : p.Consistent)
    (requests : List AllocateRequest) :
    ∃ ips : List Net.IP, (ips.map Net.IP.string).Nodup ∧ (∀ ip ∈ ips, ip.string ∈ p.remaining) ∧
      (p.allocateAll o requests).take p.remaining.card = ips.map (fun ip => .ok (some ip)) ∧
      ∀ a ∈ (p.allocateAll o requests).drop p.remaining.card, ∃ e, a = .error e := by
  induction requests generalizing p with
  | nil => exact ⟨[], by simp [allocateAll]⟩
  | cons q requests ih =>
    rcases allocate_cases (o := o) hno hc q with
      ⟨ip, p', h, hmem, hrest, hlayout, hcons⟩ | ⟨⟨e, h⟩, hnone⟩
    · obtain ⟨ips, hnodup, hips, htake, hdrop⟩ := ih (p := p') (hlayout ▸ hno) hcons
      have hcard : p.remaining.card = p'.remaining.card + 1 := by
        rw [hrest, Finset.card_erase_add_one hmem]
      have hall : p.allocateAll o (q :: requests) = .ok (some ip) :: p'.allocateAll o requests := by
        rw [allocateAll, h]
      refine ⟨ip :: ips, ?_, forall_mem_cons.mpr ⟨hmem, fun x hx => ?_⟩, ?_, ?_⟩
      · refine nodup_cons.mpr ⟨fun hin => ?_, hnodup⟩
        obtain ⟨x, hx, hsame⟩ := List.mem_map.mp hin
        have hleft := hips x hx
        rw [hrest, hsame] at hleft
        exact absurd rfl (Finset.mem_erase.mp hleft).1
      · have hleft := hips x hx
        rw [hrest] at hleft
        exact Finset.mem_of_mem_erase hleft
      · rw [hall, hcard, take_succ_cons, htake, map_cons]
      · rw [hall, hcard, drop_succ_cons]
        exact hdrop
    · obtain ⟨ips, hnodup, hips, htake, hdrop⟩ := ih hno hc
      have hall : p.allocateAll o (q :: requests) = .error e :: p.allocateAll o requests := by
        rw [allocateAll, h]
      rw [hnone, Finset.card_empty, drop_zero] at hdrop
      refine ⟨[], nodup_nil, fun _ hx => absurd hx not_mem_nil, ?_, ?_⟩
      · rw [hnone, Finset.card_empty, take_zero, map_nil]
      · rw [hall, hnone, Finset.card_empty, drop_zero]
        exact forall_mem_cons.mpr ⟨⟨e, rfl⟩, hdrop⟩

end Pool

/-- The pool counts the addresses that its configuration names and gives out each of them once. -/
structure Serves (cfg : PoolConfig) (p : Pool) : Prop where
  total : ∀ o site, (p.status o site).total = cfg.layout.addresses.card
  granted : ∀ o requests, ∃ ips : List Net.IP, (ips.map Net.IP.normalize).Nodup ∧
    (∀ ip ∈ ips, ip.string ∈ cfg.layout.addresses) ∧
    (p.allocateAll o requests).take cfg.layout.addresses.card = ips.map (fun ip => .ok (some ip)) ∧
    ∀ a ∈ (p.allocateAll o requests).drop cfg.layout.addresses.card, ∃ e, a = .error e

theorem serves_iff {cfg : PoolConfig} {p : Pool} (h : Pool.newPool cfg = .ok p) :
    Serves cfg p ↔ cfg.layout.NoOverlap := by
  obtain ⟨hlayout, -⟩ := newPool_layout h
  obtain ⟨hempty, hc⟩ := Pool.newPool_spec h
  rw [← hlayout]
  constructor
  · intro hserves
    have htotal := hserves.total .sorted []
    rw [← hlayout] at htotal
    exact (PoolRun.total_eq_iff p []).mp htotal
  · intro hno
    have hremaining : p.remaining = cfg.layout.addresses := by
      rw [Pool.remaining, hlayout, hempty, Finmap.keys_empty, Finset.sdiff_empty]
    refine ⟨fun o site => ?_, fun o requests => ?_⟩
    · rw [← hlayout]
      exact (PoolRun.total_eq_iff p site).mpr hno
    · obtain ⟨ips, hnodup, hips, htake, hdrop⟩ := Pool.allocateAll_spec (o := o) hno hc requests
      rw [hremaining] at hips htake hdrop
      refine ⟨ips, ?_, hips, htake, hdrop⟩
      rw [List.Nodup, pairwise_map] at hnodup ⊢
      exact hnodup.imp fun hne hsame => hne (string_eq_iff.mpr hsame)

/-- For an accepted object the pool can be built and serves exactly the distinct addresses of the
object, exactly when no CIDR has more than 20 host bits and none contains a single address. -/
theorem accepted_pool_serves_iff {spec : IPPoolSpec} (haccepted : validateIPPoolSpec spec = [])
    {cfg : PoolConfig} (hcidrs : cfg.cidrs = spec.cidrs) (haddrs : cfg.addresses = spec.addresses) :
    (∃ p, Pool.newPool cfg = .ok p ∧ Serves cfg p) ↔
      ∀ net ∈ spec.cidrs.filterMap Net.parseCIDR, net.hostBits ≤ 20 ∧
        ∀ ip ∈ spec.addresses.filterMap Net.parseIp, net.contains ip = false := by
  obtain ⟨-, haccepted⟩ := append_eq_nil_iff.mp haccepted
  obtain ⟨hvalid, haccepted⟩ := append_eq_nil_iff.mp haccepted
  obtain ⟨hips, -⟩ := append_eq_nil_iff.mp haccepted
  obtain ⟨nets, hnets, hpairs, -⟩ := networks_of_accepted hvalid
  have hparsed : spec.cidrs.filterMap parseCIDR = nets := filterMap_eq_of_forall₂ hnets
  have hlayout : cfg.layout.networks = nets := by rw [PoolConfig.layout, hcidrs, hparsed]
  have hsingle (ip : Net.IP) (h : ip ∈ spec.addresses.filterMap parseIp) :
      ip.string ∈ cfg.layout.addrs := by
    rw [PoolConfig.layout, haddrs, List.mem_toFinset]
    exact List.mem_map_of_mem h
  rw [hparsed]
  constructor
  · rintro ⟨p, hp, hserves⟩ net hnet
    obtain ⟨-, hbits⟩ := newPool_layout hp
    obtain ⟨hnetwork, hle⟩ := hbits net (hlayout ▸ hnet)
    refine ⟨hle, fun ip hip => ?_⟩
    have hno := (serves_iff hp).mp hserves
    by_contra hin
    rw [Bool.not_eq_false, contains_iff_netNames hnetwork hle] at hin
    exact Finset.disjoint_left.mp (hno.addrs net (hlayout ▸ hnet)) hin (hsingle ip hip)
  · intro hcond
    have hnetwork : ∀ net ∈ nets, net.IsNetwork := by
      intro net hnet
      rw [← hparsed] at hnet
      obtain ⟨cidr, -, hparse⟩ := mem_filterMap.mp hnet
      exact isNetwork_of_parseCIDR hparse
    obtain ⟨p, hp⟩ : ∃ p, Pool.newPool cfg = .ok p := by
      apply exists_newPool_of_valid
      · intro cidr hcidr
        rw [hcidrs] at hcidr
        obtain ⟨net, hnet, hparse⟩ := exists_of_forall₂ hnets hcidr
        exact ⟨net, hparse, (hcond net hnet).1⟩
      · intro addr haddr
        rw [haddrs] at haddr
        have hok := (flatten_mapIdx_eq_nil (P := fun addr => validateIP addr = none)
          fun i addr => invalid_eq_nil).mp hips
        exact validateIP_eq_none (hok addr haddr)
    refine ⟨p, hp, (serves_iff hp).mpr ⟨?_, ?_⟩⟩
    · rw [hlayout]
      refine hpairs.imp_of_mem fun ha hb hover => ?_
      exact disjoint_of_not_overlap (hnetwork _ ha) (hnetwork _ hb) (hcond _ ha).1 (hcond _ hb).1 hover
    · rw [hlayout]
      intro net hnet
      obtain ⟨hle, hout⟩ := hcond net hnet
      rw [Finset.disjoint_left]
      intro name hname haddr
      rw [PoolConfig.layout, haddrs, List.mem_toFinset] at haddr
      obtain ⟨ip, hip, rfl⟩ := List.mem_map.mp haddr
      have hin := (contains_iff_netNames (hnetwork net hnet) hle ip).mpr hname
      simp [hout ip hip] at hin

section Example

def ingressPool : IPPoolSpec :=
  ⟨.ingressIP, ["10.0.0.0/31"], ["10.0.0.2", "::ffff:10.0.0.2"], true, "operator"⟩

def largePool : IPPoolSpec := ⟨.ingressIP, ["10.0.0.0/8"], [], true, "operator"⟩

def overlapPool : IPPoolSpec := ⟨.ingressIP, ["10.0.0.0/31"], ["10.0.0.1"], true, "operator"⟩

theorem accepted_pool_serves_example : ∃ p, Pool.newPool (ingressPool.config "ingress") = .ok p ∧
    Serves (ingressPool.config "ingress") p := by
  have haccepted : validateIPPoolSpec ingressPool = [] := by decide +kernel
  exact (accepted_pool_serves_iff haccepted rfl rfl).mpr (by decide +kernel)

/-- The webhook accepts a network that is too large for a pool, and an address that is given out
twice. -/
theorem accepted_pools_fail :
    (validateIPPoolSpec largePool = [] ∧ ¬ ∃ p, Pool.newPool (largePool.config "large") = .ok p) ∧
    validateIPPoolSpec overlapPool = [] ∧ ∃ p, Pool.newPool (overlapPool.config "overlap") = .ok p ∧
      ¬ Serves (overlapPool.config "overlap") p := by
  refine ⟨⟨by decide +kernel, ?_⟩, by decide +kernel, ?_⟩
  · rintro ⟨p, hp⟩
    have hmem : (⟨.v4 0x0a000000, 8⟩ : Net.IPNet) ∈ (largePool.config "large").layout.networks := by
      decide +kernel
    exact absurd ((newPool_layout hp).2 _ hmem).2 (by decide)
  · obtain ⟨p, hp, -⟩ := PoolRun.exists_newPool (overlapPool.config "overlap")
      (q := fun _ => True) (by decide +kernel)
    refine ⟨p, hp, fun h => ?_⟩
    exact absurd ((serves_iff hp).mp h) (by decide +kernel)

end Example

end Allocations

end NovaNet
