import NovaNet.IpamCalls
import NovaNet.LastWrite
import NovaNet.IterOrder

/-! The address pools of the operator: ranges with a bitmap each, single addresses, and a
table of the allocations. An address is named by its text, which is the same for its 4-byte
and 16-byte forms. -/

namespace NovaNet

open Finset

inductive PoolType where
  | loadBalancerVIP
  | ingressIP
  | podCIDR
  | serviceClusterIP
  | custom
  deriving DecidableEq

structure PoolConfig where
  name : String
  type : PoolType
  cidrs : List String
  addresses : List String
  autoAssign : Bool
  owner : String

inductive PoolError where
  | parsingCIDR (cidr : String)
  | cidrTooLarge (cidr : String) (hostBits : Nat)
  | invalidIPAddress (addr : String)
  | sentinel (err : IpamSentinel) (detail : String)
  deriving DecidableEq

def PoolError.text : PoolError → String
  | .parsingCIDR cidr => "parsing CIDR \"" ++ cidr ++ "\": invalid CIDR address: " ++ cidr
  | .cidrTooLarge cidr hostBits => "parsing CIDR \"" ++ cidr ++ "\": " ++
      IpamSentinel.cidrTooLarge.text ++ ": " ++ cidr ++ " has " ++ Nat.repr hostBits ++
      " host bits (max 20, 1048576 addresses)"
  | .invalidIPAddress addr => "invalid IP address: " ++ addr
  | .sentinel err detail => err.text ++ ": " ++ detail

/-- The 4-byte form of an address, else its 16-byte form; a slice of another length has
neither. -/
def normalizeIP : IPSlice → Option Net.IP
  | .ok ip => some ip.normalize
  | .error _ => none

def ipText : Option Net.IP → String
  | some ip => ip.string
  | none => "<nil>"

theorem ipText_ne_string (ip : Net.IP) : ipText none ≠ ip.string := by
  intro h
  have hparse := Net.parseIp_string ip
  rw [← h] at hparse
  have hnone : Net.parseIp (ipText none) = none := by decide +kernel
  simp [hnone] at hparse

structure CidrRange where
  network : Net.IPNet
  bitmap : Bitmap
  isNetwork : network.IsNetwork
  hostBits_le : network.hostBits ≤ 20
  size_bitmap : bitmap.size = network.size

theorem hostBits_le_of_not_gt {net : Net.IPNet} (h : ¬ net.hostBits > 20) : net.hostBits ≤ 20 :=
  Nat.not_lt.mp h

def parseCIDRRange (cidr : String) : Except PoolError CidrRange :=
  match h : Net.parseCIDR cidr with
  | none => .error (.parsingCIDR cidr)
  | some net =>
    if hbits : net.hostBits > 20 then .error (.cidrTooLarge cidr net.hostBits)
    else .ok ⟨net, .new net.size, Net.isNetwork_of_parseCIDR h, hostBits_le_of_not_gt hbits, rfl⟩

def netNames (net : Net.IPNet) : Finset String :=
  (range net.size).image fun idx => (indexToIP net.ip idx).string

namespace CidrRange

def size (cr : CidrRange) : Nat := cr.network.size

def addr (cr : CidrRange) (idx : Nat) : Net.IP := indexToIP cr.network.ip idx

def set (cr : CidrRange) (idx : Nat) : CidrRange :=
  { cr with bitmap := cr.bitmap.set idx, size_bitmap := cr.size_bitmap }

def clear (cr : CidrRange) (idx : Nat) : CidrRange :=
  { cr with bitmap := cr.bitmap.clear idx, size_bitmap := cr.size_bitmap }

/-- The place of an address: `none` when the network does not contain it, `some none` when
its index is out of range. -/
def find (cr : CidrRange) : Option Net.IP → Option (Option Nat)
  | none => none
  | some ip =>
    if cr.network.contains ip then
      let idx := ipToIndex cr.network.ip ip (addrLen cr.network)
      if idx < 0 ∨ (cr.size : Int) ≤ idx then some none else some (some idx.toNat)
    else none

variable {cr : CidrRange} {idx idx' : Nat} {ip ip' : Option Net.IP}

theorem string_addr_inj (h : idx < cr.size) (h' : idx' < cr.size) :
    (cr.addr idx).string = (cr.addr idx').string ↔ idx = idx' := by
  constructor
  · intro heq
    exact cr.isNetwork.normalize_add_inj h h' (Net.string_eq_iff.mp heq)
  · rintro rfl
    rfl

theorem find_cases (cr : CidrRange) (ip : Option Net.IP) :
    (∃ idx < cr.size, cr.find ip = some (some idx) ∧ (cr.addr idx).string = ipText ip) ∨
    cr.find ip = none ∧ ∀ idx < cr.size, (cr.addr idx).string ≠ ipText ip := by
  cases ip with
  | none => exact .inr ⟨rfl, fun idx _ h => ipText_ne_string _ h.symm⟩
  | some ip =>
    cases hin : cr.network.contains ip with
    | true =>
      obtain ⟨idx, hlt, hsame⟩ := (contains_iff_index cr.isNetwork cr.hostBits_le).mp hin
      have hidx := ipToIndex_of_normalize_eq cr.isNetwork cr.hostBits_le hlt hsame
      refine .inl ⟨idx, hlt, ?_, Net.string_eq_iff.mpr hsame⟩
      have hrange : ¬ ((idx : Int) < 0 ∨ (cr.size : Int) ≤ idx) := by
        have hlt' : idx < cr.size := hlt
        omega
      simp only [find, hin, if_true, hidx, if_neg hrange, Int.toNat_natCast]
    | false =>
      refine .inr ⟨by simp [find, hin], fun idx hlt hsame => ?_⟩
      have hcontains := (contains_iff_index cr.isNetwork cr.hostBits_le).mpr
        ⟨idx, hlt, Net.string_eq_iff.mp hsame⟩
      simp [hin] at hcontains

theorem find_of_text (h : idx < cr.size) (htext : (cr.addr idx).string = ipText ip) :
    cr.find ip = some (some idx) := by
  rcases cr.find_cases ip with ⟨idx', hlt, hfind, hsame⟩ | ⟨-, hnone⟩
  · rw [hfind, (string_addr_inj hlt h).mp (hsame.trans htext.symm)]
  · exact absurd htext (hnone idx h)

theorem find_congr (h : ipText ip = ipText ip') : cr.find ip = cr.find ip' := by
  rcases cr.find_cases ip with ⟨idx, hlt, hfind, hsame⟩ | ⟨hfind, hnone⟩
  · rw [hfind, find_of_text hlt (hsame.trans h)]
  · rcases cr.find_cases ip' with ⟨idx, hlt, -, hsame⟩ | ⟨hfind', -⟩
    · exact absurd (hsame.trans h.symm) (hnone idx hlt)
    · rw [hfind, hfind']

theorem mem_netNames (cr : CidrRange) (name : String) :
    name ∈ netNames cr.network ↔ ∃ idx < cr.size, (cr.addr idx).string = name := by
  simp only [netNames, mem_image, mem_range]
  rfl

theorem card_netNames (cr : CidrRange) : (netNames cr.network).card = cr.size := by
  rw [netNames, card_image_of_injOn, card_range, size]
  intro i hi j hj heq
  have hi' : i < cr.size := mem_range.mp hi
  have hj' : j < cr.size := mem_range.mp hj
  exact (string_addr_inj hi' hj').mp heq

theorem get_set (h : idx < cr.size) (j : Nat) :
    (cr.set idx).bitmap.get j = (cr.bitmap.get j || decide (j = idx)) :=
  cr.bitmap.get_set (cr.size_bitmap ▸ h) j

theorem get_clear (h : idx < cr.size) (j : Nat) :
    (cr.clear idx).bitmap.get j = (cr.bitmap.get j && decide (j ≠ idx)) :=
  cr.bitmap.get_clear (cr.size_bitmap ▸ h) j

theorem find_set (cr : CidrRange) (idx : Nat) (ip : Option Net.IP) :
    (cr.set idx).find ip = cr.find ip := by
  cases ip <;> rfl

theorem find_clear (cr : CidrRange) (idx : Nat) (ip : Option Net.IP) :
    (cr.clear idx).find ip = cr.find ip := by
  cases ip <;> rfl

end CidrRange

structure AllocationInfo where
  ip : Option Net.IP
  owner : String
  resource : String

/-- The single addresses are kept under their texts. -/
structure Pool where
  name : String
  poolType : PoolType
  autoAssign : Bool
  owner : String
  ranges : List CidrRange
  discreteAddrs : Finmap fun _ : String => Bool
  allocations : Finmap fun _ : String => AllocationInfo
  discrete_text : ∀ name ∈ discreteAddrs, ∃ ip : Net.IP, name = ip.string

structure PoolStatus where
  name : String
  type : PoolType
  allocated : Nat
  total : Nat
  available : Int
  allocations : List AllocationInfo

def parseAddress (addr : String) : Except PoolError Net.IP :=
  match Net.parseIp addr with
  | some ip => .ok ip
  | none => .error (.invalidIPAddress addr)

namespace Pool

theorem text_of_assign {addrs : List Net.IP} {name : String}
    (h : name ∈ LastWrite.assign (∅ : Finmap fun _ : String => Bool)
      (addrs.map fun ip => (ip.string, false))) : ∃ ip : Net.IP, name = ip.string := by
  rcases LastWrite.mem_assign.mp h with hempty | ⟨e, he, rfl⟩
  · exact absurd hempty Finmap.notMem_empty
  · obtain ⟨ip, -, rfl⟩ := List.mem_map.mp he
    exact ⟨ip, rfl⟩

def newPool (cfg : PoolConfig) : Except PoolError Pool :=
  match cfg.cidrs.mapM parseCIDRRange with
  | .error e => .error e
  | .ok ranges =>
    match cfg.addresses.mapM parseAddress with
    | .error e => .error e
    | .ok addrs => .ok {
        name := cfg.name
        poolType := cfg.type
        autoAssign := cfg.autoAssign
        owner := cfg.owner
        ranges := ranges
        discreteAddrs := LastWrite.assign ∅ (addrs.map fun ip => (ip.string, false))
        allocations := ∅
        discrete_text := fun _ => text_of_assign }

def setDiscrete (p : Pool) (addr : String) (taken : Bool) (h : addr ∈ p.discreteAddrs) : Pool :=
  { p with
    discreteAddrs := p.discreteAddrs.insert addr taken
    discrete_text := by
      intro name hname
      rcases Finmap.mem_insert.mp hname with rfl | hold
      · exact p.discrete_text name h
      · exact p.discrete_text name hold }

def takeFree : List CidrRange → Option (Net.IP × List CidrRange)
  | [] => none
  | cr :: rest =>
    match cr.bitmap.findFree with
    | some idx => some (cr.addr idx, cr.set idx :: rest)
    | none => (takeFree rest).map fun t => (t.1, cr :: t.2)

def record (p : Pool) (name : String) (info : AllocationInfo) : Pool :=
  { p with allocations := p.allocations.insert name info }

def forget (p : Pool) (name : String) : Pool :=
  { p with allocations := p.allocations.erase name }

theorem mem_of_find {p : Pool} {o : IterOrder String} {site : List Nat} {q : String → Bool}
    {addr : String} (h : (o.enum site p.discreteAddrs.keys).find? q = some addr) :
    addr ∈ p.discreteAddrs := by
  have hmem := List.mem_of_find?_eq_some h
  rwa [o.mem_enum, Finmap.mem_keys] at hmem

def allocate (o : IterOrder String) (site : List Nat) (p : Pool) (owner resource : String) :
    Except PoolError (Option Net.IP × Pool) :=
  match takeFree p.ranges with
  | some (ip, ranges) =>
    .ok (some ip, { p with ranges := ranges }.record ip.string ⟨some ip, owner, resource⟩)
  | none =>
    match h : (o.enum site p.discreteAddrs.keys).find? fun addr =>
        p.discreteAddrs.lookup addr = some false with
    | some addr =>
      let ip := Net.parseIp addr
      .ok (ip, (p.setDiscrete addr true (mem_of_find h)).record addr ⟨ip, owner, resource⟩)
    | none => .error (.sentinel .noFreeAddresses ("pool " ++ p.name))

def claim (ip : Option Net.IP) : List CidrRange → Option (Except IpamSentinel (List CidrRange))
  | [] => none
  | cr :: rest =>
    match cr.find ip with
    | none => (claim ip rest).map fun r => r.map (cr :: ·)
    | some none => some (.error .ipOutOfRange)
    | some (some idx) =>
      if cr.bitmap.get idx then some (.error .ipAlreadyAlloc) else some (.ok (cr.set idx :: rest))

def allocateSpecific (p : Pool) (ip : IPSlice) (owner resource : String) :
    Except PoolError Pool :=
  let ipNorm := normalizeIP ip
  let ipStr := ipText ipNorm
  match h : p.discreteAddrs.lookup ipStr with
  | some true => .error (.sentinel .ipAlreadyAlloc ipStr)
  | some false =>
    .ok ((p.setDiscrete ipStr true (Finmap.mem_of_lookup_eq_some h)).record ipStr
      ⟨ipNorm, owner, resource⟩)
  | none =>
    match claim ipNorm p.ranges with
    | some (.error e) => .error (.sentinel e ipStr)
    | some (.ok ranges) => .ok ({ p with ranges := ranges }.record ipStr ⟨ipNorm, owner, resource⟩)
    | none => .error (.sentinel .ipOutsideCIDR (ipStr ++ " in pool " ++ p.name))

def free (ip : Option Net.IP) : List CidrRange → List CidrRange
  | [] => []
  | cr :: rest =>
    match cr.find ip with
    | some (some idx) => cr.clear idx :: rest
    | _ => cr :: free ip rest

def release (p : Pool) (ip : IPSlice) : Except PoolError Pool :=
  let ipNorm := normalizeIP ip
  let ipStr := ipText ipNorm
  match p.allocations.lookup ipStr with
  | none => .error (.sentinel .ipNotAllocated ipStr)
  | some _ =>
    match h : p.discreteAddrs.lookup ipStr with
    | some _ => .ok ((p.setDiscrete ipStr false (Finmap.mem_of_lookup_eq_some h)).forget ipStr)
    | none => .ok ({ p with ranges := free ipNorm p.ranges }.forget ipStr)

def rangeSlot (ip : Option Net.IP) : List CidrRange → Option Bool
  | [] => none
  | cr :: rest =>
    match cr.find ip with
    | some (some idx) => some (cr.bitmap.get idx)
    | _ => rangeSlot ip rest

def isAvailable (p : Pool) (ip : IPSlice) : Bool :=
  let ipNorm := normalizeIP ip
  match p.discreteAddrs.lookup (ipText ipNorm) with
  | some allocated => !allocated
  | none =>
    match rangeSlot ipNorm p.ranges with
    | some set => !set
    | none => false

def status (o : IterOrder String) (site : List Nat) (p : Pool) : PoolStatus where
  name := p.name
  type := p.poolType
  allocated := p.allocations.keys.card
  total := p.discreteAddrs.keys.card + (p.ranges.map CidrRange.size).sum
  available := ((p.discreteAddrs.keys.card + (p.ranges.map CidrRange.size).sum : Nat) : Int) -
    p.allocations.keys.card
  allocations := (o.enum site p.allocations.keys).filterMap fun name => p.allocations.lookup name

end Pool

end NovaNet
