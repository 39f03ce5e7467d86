import NovaNet.Bitmap
import NovaNet.AddrText
import NovaNet.ByteOrder

/-! The allocator for pod addresses: a bitmap over the pod CIDR of the node, and a
directory with one file for each allocated address from which the bitmap is rebuilt. -/

namespace NovaNet

open List Net Bitmap Net.IP

inductive IpamSentinel where
  | cidrTooSmall
  | noFreeAddresses
  | ipOutsideCIDR
  | ipOutOfRange
  | ipAlreadyAlloc
  | ipNotAllocated
  | releaseNetwork
  | releaseGateway
  | releaseBroadcast
  | cidrTooLarge
  deriving DecidableEq

def IpamSentinel.text : IpamSentinel → String
  | .cidrTooSmall => "CIDR is too small (need at least /30 for IPv4 or /127 for IPv6)"
  | .noFreeAddresses => "no free IP addresses"
  | .ipOutsideCIDR => "IP is not within CIDR"
  | .ipOutOfRange => "IP is out of range"
  | .ipAlreadyAlloc => "IP is already allocated"
  | .ipNotAllocated => "IP is not allocated"
  | .releaseNetwork => "cannot release network address"
  | .releaseGateway => "cannot release gateway address"
  | .releaseBroadcast => "cannot release broadcast address"
  | .cidrTooLarge => "CIDR too large"

inductive IpamError where
  | parsing (podCIDR : String)
  | sentinel (err : IpamSentinel) (detail : String)
  | persisting (ip : String) (err : String)
  deriving DecidableEq

def IpamError.text : IpamError → String
  | .parsing podCIDR => "parsing podCIDR \"" ++ podCIDR ++ "\": invalid CIDR address: " ++ podCIDR
  | .sentinel err detail => err.text ++ ": " ++ detail
  | .persisting ip err => "persisting IP " ++ ip ++ ": " ++ err

def minSize (net : Net.IPNet) : Nat :=
  match net.ip with
  | .v4 _ => 4
  | .v6 _ => 2

structure PodCidr where
  net : Net.IPNet
  isNetwork : net.IsNetwork
  hostBits_le : net.hostBits ≤ 20
  minSize_le : minSize net ≤ net.size

namespace PodCidr

def parse (podCIDR : String) : Except IpamError PodCidr :=
  match h : parseCIDR podCIDR with
  | none => .error (.parsing podCIDR)
  | some net =>
    if hbits : net.hostBits > 20 then
      .error (.sentinel .cidrTooLarge (podCIDR ++ " has " ++ Nat.repr net.hostBits ++
        " host bits (max 20, 1048576 addresses)"))
    else if hsize : net.size < minSize net then
      .error (.sentinel .cidrTooSmall ("\"" ++ podCIDR ++ "\""))
    else .ok ⟨net, isNetwork_of_parseCIDR h, Nat.not_lt.mp hbits, Nat.not_lt.mp hsize⟩

def size (c : PodCidr) : Nat := c.net.size

def isIPv4 (c : PodCidr) : Bool :=
  match c.net.ip with
  | .v4 _ => true
  | .v6 _ => false

def baseIP (c : PodCidr) : Net.IP := c.net.ip

def ipLen (c : PodCidr) : Nat := if c.isIPv4 then 4 else 16

/-- The network address, the gateway and the broadcast address; only the first of them in
an IPv6 network. -/
def reserved (c : PodCidr) : List Nat := if c.isIPv4 then [0, 1, c.size - 1] else [0]

end PodCidr

open PodCidr

section Index

def indexToIP (baseIP : Net.IP) (idx : Nat) : Net.IP := baseIP.add idx

def int64 (x : Int) : Int := x.bmod (2 ^ 64)

def ipToIndex (baseIP ip : Net.IP) (ipLen : Nat) : Int :=
  if ipLen = 4 then
    match baseIP.to4, ip.to4 with
    | some base, some addr => int64 (addr.toNat - base.toNat)
    | _, _ => -1
  else int64 (ip.to16.toNat - baseIP.to16.toNat)

def PodCidr.indexOf (c : PodCidr) (ip : Net.IP) : Except IpamError {idx : Nat // idx < c.size} :=
  if c.net.contains ip.normalize then
    if h : ipToIndex c.baseIP ip.normalize c.ipLen < 0 ∨
        (c.size : Int) ≤ ipToIndex c.baseIP ip.normalize c.ipLen then
      .error (.sentinel .ipOutOfRange ip.string)
    else .ok ⟨(ipToIndex c.baseIP ip.normalize c.ipLen).toNat, by omega⟩
  else .error (.sentinel .ipOutsideCIDR (ip.string ++ " in " ++ c.net.string))

theorem int64_of_lt {x : Int} (h : |x| < 2 ^ 63) : int64 x = x := by
  obtain ⟨hlo, hhi⟩ := abs_lt.mp h
  rw [int64, Int.bmod_def]
  omega

theorem ipToIndex_normalize (baseIP ip : Net.IP) (ipLen : Nat) :
    ipToIndex baseIP ip.normalize ipLen = ipToIndex baseIP ip ipLen := by
  simp only [ipToIndex, to4_normalize, to16_normalize]

section Networks

variable {net : Net.IPNet} {idx : Nat}

def addrLen (net : Net.IPNet) : Nat :=
  match net.ip with
  | .v4 _ => 4
  | .v6 _ => 16

theorem ipToIndex_eq_sub {ip : Net.IP} (h : addrLen net = 4 → ip.to4 ≠ none) :
    ipToIndex net.ip ip (addrLen net) = int64 (ip.to16.toNat - net.ip.to16.toNat) := by
  cases hip : net.ip with
  | v4 b =>
    have hlen : addrLen net = 4 := by simp [addrLen, hip]
    obtain ⟨a, ha⟩ := Option.ne_none_iff_exists'.mp (h hlen)
    have hsub : ((0xffff * 2 ^ 32 + a.toNat : Nat) : Int) - (0xffff * 2 ^ 32 + b.toNat : Nat) =
        a.toNat - b.toNat := by omega
    rw [ipToIndex, if_pos hlen, ha, toNat_to16_of_to4 ha, toNat_to16_v4, hsub]
    rfl
  | v6 b => simp [ipToIndex, addrLen, hip]

theorem ipToIndex_of_normalize_eq {ip : Net.IP} (hnet : net.IsNetwork) (hbits : net.hostBits ≤ 20)
    (h : idx < net.size) (hsame : (indexToIP net.ip idx).normalize = ip.normalize) :
    ipToIndex net.ip ip (addrLen net) = idx := by
  have hsmall : net.size ≤ 2 ^ 20 := Nat.pow_le_pow_right (by decide) hbits
  have hto4 : ip.to4 = (net.ip.add idx).to4 := by
    rw [← to4_normalize, ← hsame, to4_normalize, indexToIP]
  have hfamily : addrLen net = 4 → ip.to4 ≠ none := by
    intro hlen
    rw [hto4]
    cases hip : net.ip with
    | v4 b => exact Option.some_ne_none _
    | v6 b => simp [addrLen, hip] at hlen
  have hsub : ((net.ip.to16.toNat + idx : Nat) : Int) - net.ip.to16.toNat = idx := by omega
  rw [ipToIndex_eq_sub hfamily, ← normalize_eq_iff.mp hsame, indexToIP, hnet.toNat_to16_add h, hsub]
  exact int64_of_lt (abs_lt.mpr ⟨by omega, by omega⟩)

theorem contains_iff_index {ip : Net.IP} (hnet : net.IsNetwork) (hbits : net.hostBits ≤ 20) :
    net.contains ip = true ↔ ∃ idx < net.size, (indexToIP net.ip idx).normalize = ip.normalize :=
  hnet.contains_iff_add (le_trans hbits (by decide))

theorem ipToIndex_outside {ip : Net.IP} (hnet : net.IsNetwork) (hbits : net.hostBits ≤ 20)
    (hout : net.contains ip = false) (hnear : |(ip.to16.toNat : Int) - net.ip.to16.toNat| < 2 ^ 63) :
    ipToIndex net.ip ip (addrLen net) < 0 ∨ net.size ≤ ipToIndex net.ip ip (addrLen net) := by
  by_cases hfamily : addrLen net = 4 → ip.to4 ≠ none
  · rw [ipToIndex_eq_sub hfamily, int64_of_lt hnear]
    by_contra hin
    have hadd : ip.to16.toNat = net.ip.to16.toNat + (ip.to16.toNat - net.ip.to16.toNat) := by omega
    have hcontains : net.contains ip = true := by
      rw [contains_iff (le_trans hbits (by decide)), hadd, div_add_of_dvd hnet.dvd_to16 (by omega)]
    simp [hout] at hcontains
  · obtain ⟨hlen, hnone⟩ := Classical.not_imp.mp hfamily
    left
    rw [ipToIndex, if_pos hlen, not_not.mp hnone]
    cases net.ip.to4 <;> exact Int.negSucc_lt_zero 0

/-- The bytes of an address, as the source holds them. -/
def ipBytes (ip : Net.IP) : List Nat := (ByteOrder.leBytes (ip.bits / 8) ip.toNat).reverse

/-- The bytes of the sum, which have no leading zeros, stand at the end of the new address; a sum
of too many bytes panics. -/
def indexToIPBytes (baseIP : List Nat) (idx ipLen : Nat) : Option (List Nat) :=
  let b := (Nat.digits 256 (ByteOrder.leRead baseIP.reverse + idx)).reverse
  if ipLen < b.length then none else some (replicate (ipLen - b.length) 0 ++ b)

theorem indexToIPBytes_eq (hnet : net.IsNetwork) (h : idx < net.size) :
    indexToIPBytes (ipBytes net.ip) idx (addrLen net) = some (ipBytes (indexToIP net.ip idx)) := by
  have hlt (ip : Net.IP) : ip.toNat < 256 ^ (ip.bits / 8) := by
    cases ip with
    | v4 a => simpa [bits, IP.toNat] using a.toNat_lt
    | v6 a => simpa [bits, IP.toNat] using a.isLt
  have hlen : addrLen net = (net.ip.add idx).bits / 8 := by
    cases hip : net.ip <;> simp [addrLen, hip, add, bits]
  obtain ⟨hle, hbytes⟩ := ByteOrder.replicate_append_digits (hlt (net.ip.add idx))
  rw [indexToIPBytes, ipBytes, reverse_reverse, ByteOrder.leRead_leBytes (hlt net.ip),
    ← hnet.toNat_add h, hlen, length_reverse, if_neg (Nat.not_lt.mpr hle), hbytes]
  rfl

/-- Indices and the addresses of a network correspond, whatever the form of the address. -/
theorem index_conversion (net : Net.IPNet) (hnet : net.IsNetwork) (hbits : net.hostBits ≤ 20) :
    (∀ idx < net.size,
      indexToIPBytes (ipBytes net.ip) idx (addrLen net) = some (ipBytes (indexToIP net.ip idx)) ∧
      net.contains (indexToIP net.ip idx) = true ∧
      ipToIndex net.ip (indexToIP net.ip idx) (addrLen net) = idx ∧
      ∀ idx' < net.size, (indexToIP net.ip idx).normalize = (indexToIP net.ip idx').normalize →
        idx = idx') ∧
    (∀ ip, net.contains ip = true → ∃ idx < net.size,
      ipToIndex net.ip ip (addrLen net) = idx ∧
      (indexToIP net.ip idx).normalize = ip.normalize) ∧
    ∀ ip, net.contains ip = false → |(ip.to16.toNat : Int) - net.ip.to16.toNat| < 2 ^ 63 →
      ipToIndex net.ip ip (addrLen net) < 0 ∨ net.size ≤ ipToIndex net.ip ip (addrLen net) := by
  refine ⟨fun idx h => ⟨indexToIPBytes_eq hnet h, ?_, ?_, fun idx' h' => ?_⟩, fun ip hin => ?_,
    fun ip hout hnear => ipToIndex_outside hnet hbits hout hnear⟩
  · exact (contains_iff_index hnet hbits).mpr ⟨idx, h, rfl⟩
  · exact ipToIndex_of_normalize_eq hnet hbits h rfl
  · exact hnet.normalize_add_inj h h'
  · obtain ⟨idx, h, hsame⟩ := (contains_iff_index hnet hbits).mp hin
    exact ⟨idx, h, ipToIndex_of_normalize_eq hnet hbits h hsame, hsame⟩

theorem index_conversion_example : indexToIPBytes [10, 0, 0, 0] 255 4 = some [10, 0, 0, 255] ∧
    ipToIndex (.v4 0x0a000000) (.v4 0x0a0000ff) 4 = 255 := by
  obtain ⟨hin, -⟩ := index_conversion ⟨.v4 0x0a000000, 24⟩ ⟨by decide, by decide⟩ (by decide)
  obtain ⟨hbytes, -, hidx, -⟩ := hin 255 (by decide)
  exact ⟨hbytes, hidx⟩

end Networks

variable {c : PodCidr} {idx : Nat}

theorem PodCidr.ipLen_eq (c : PodCidr) : c.ipLen = addrLen c.net := by
  cases hip : c.net.ip with
  | v4 b | v6 b => simp [ipLen, isIPv4, addrLen, hip]

theorem PodCidr.indexOf_of_contains (c : PodCidr) {ip : Net.IP} (hin : c.net.contains ip = true) :
    ∃ idx, ∃ h : idx < c.size, c.indexOf ip = .ok ⟨idx, h⟩ ∧
      (indexToIP c.baseIP idx).normalize = ip.normalize := by
  obtain ⟨idx, hlt, hsame⟩ := (contains_iff_index c.isNetwork c.hostBits_le).mp hin
  have hidx := ipToIndex_of_normalize_eq c.isNetwork c.hostBits_le hlt hsame
  refine ⟨idx, hlt, ?_, hsame⟩
  rw [← contains_normalize] at hin
  rw [← c.ipLen_eq, ← ipToIndex_normalize] at hidx
  change ipToIndex c.baseIP ip.normalize c.ipLen = idx at hidx
  have hrange : ¬ ((idx : Int) < 0 ∨ (c.size : Int) ≤ idx) := by
    have hlt' : idx < c.size := hlt
    omega
  simp only [indexOf, hin, if_true, hidx, dif_neg hrange, Int.toNat_natCast]

theorem indexToIP_normalize_injective {idx' : Nat} (h : idx < c.size) (h' : idx' < c.size)
    (heq : (indexToIP c.baseIP idx).normalize = (indexToIP c.baseIP idx').normalize) : idx = idx' :=
  c.isNetwork.normalize_add_inj h h' heq

theorem PodCidr.indexOf_indexToIP (h : idx < c.size) :
    c.indexOf (indexToIP c.baseIP idx) = .ok ⟨idx, h⟩ := by
  have hin := (contains_iff_index c.isNetwork c.hostBits_le).mpr ⟨idx, h, rfl⟩
  obtain ⟨idx', hlt, hplace, hsame⟩ := c.indexOf_of_contains hin
  obtain rfl := indexToIP_normalize_injective hlt h hsame
  exact hplace

theorem PodCidr.indexOf_cases (c : PodCidr) (ip : Net.IP) :
    (∃ idx, ∃ h : idx < c.size, c.indexOf ip = .ok ⟨idx, h⟩ ∧
      (indexToIP c.baseIP idx).normalize = ip.normalize) ∨
    ∃ e, c.indexOf ip = .error e ∧
      ∀ idx, idx < c.size → (indexToIP c.baseIP idx).normalize ≠ ip.normalize := by
  cases hin : c.net.contains ip with
  | true => exact .inl (c.indexOf_of_contains hin)
  | false =>
    have hnot : c.net.contains ip.normalize = false := by rw [contains_normalize, hin]
    refine .inr ⟨_, by rw [indexOf, hnot]; rfl, fun idx hlt hsame => ?_⟩
    simp [(contains_iff_index c.isNetwork c.hostBits_le).mpr ⟨idx, hlt, hsame⟩] at hin

theorem indexToIP_injective {idx' : Nat} (h : idx < c.size) (h' : idx' < c.size)
    (heq : indexToIP c.baseIP idx = indexToIP c.baseIP idx') : idx = idx' :=
  indexToIP_normalize_injective h h' (congrArg normalize heq)

end Index

theorem PodCidr.le_size (c : PodCidr) : (if c.isIPv4 then 4 else 2) ≤ c.size := by
  have hmin := c.minSize_le
  cases hip : c.net.ip <;> simpa [minSize, hip, size, isIPv4] using hmin

theorem PodCidr.reserved_lt (c : PodCidr) {i : Nat} (h : i ∈ c.reserved) : i < c.size := by
  have hsize := c.le_size
  unfold reserved at h
  split_ifs at h hsize
  · simp only [mem_cons, not_mem_nil, or_false] at h
    omega
  · rw [mem_singleton] at h
    omega

theorem PodCidr.nodup_reserved (c : PodCidr) : c.reserved.Nodup := by
  have hsize := c.le_size
  unfold reserved
  split_ifs at hsize ⊢
  · simp only [nodup_cons, mem_cons, not_mem_nil, or_false, not_or, not_false_eq_true, nodup_nil,
      and_true]
    omega
  · exact nodup_singleton 0

/-- The reserved addresses are always marked. `used` counts them too, and `stateDir` says
whether allocations are kept in a directory. -/
@[ext]
structure IpAllocator where
  cidr : PodCidr
  bitmap : Bitmap
  used : Nat
  stateDir : Bool
  size_bitmap : bitmap.size = cidr.size
  reserved_set : ∀ i ∈ cidr.reserved, bitmap.get i = true

namespace IpAllocator

def reserve (c : PodCidr) (stateDir : Bool) : IpAllocator where
  cidr := c
  bitmap := c.reserved.foldl set (.new c.size)
  used := c.reserved.length
  stateDir := stateDir
  size_bitmap := size_foldl_set _ _
  reserved_set := by
    intro i hi
    rw [get_foldl_set _ _ fun j hj => c.reserved_lt hj]
    simp [hi]

def mark (a : IpAllocator) (idx : Nat) (h : idx < a.cidr.size) : IpAllocator where
  cidr := a.cidr
  bitmap := a.bitmap.set idx
  used := a.used + 1
  stateDir := a.stateDir
  size_bitmap := a.size_bitmap
  reserved_set := by
    intro i hi
    rw [get_set _ (a.size_bitmap ▸ h), a.reserved_set i hi, Bool.true_or]

def unmark (a : IpAllocator) (idx : Nat) (h : idx < a.cidr.size) (hfree : idx ∉ a.cidr.reserved) :
    IpAllocator where
  cidr := a.cidr
  bitmap := a.bitmap.clear idx
  used := a.used - 1
  stateDir := a.stateDir
  size_bitmap := a.size_bitmap
  reserved_set := by
    intro i hi
    have hne : i ≠ idx := fun he => hfree (he ▸ hi)
    rw [get_clear _ (a.size_bitmap ▸ h), a.reserved_set i hi]
    simp [hne]

theorem findFree_lt {a : IpAllocator} {idx : Nat} (h : a.bitmap.findFree = some idx) :
    idx < a.cidr.size ∧ idx ∉ a.cidr.reserved ∧ a.bitmap.get idx = false := by
  have hspec := a.bitmap.findFree_spec
  rw [h] at hspec
  obtain ⟨-, hlt, hfree, -⟩ := hspec
  refine ⟨a.size_bitmap ▸ hlt, fun hres => ?_, hfree⟩
  simp [a.reserved_set idx hres] at hfree

abbrev Files := List String

/-- `write` is the error text of a failed write. -/
def saveIP (write : Option String) (ip : Net.IP) (files : Files) : Except String Files :=
  match write with
  | some text => .error text
  | none => .ok (if ip.string ∈ files then files else files ++ [ip.string])

/-- A file that cannot be removed stays. -/
def removeIP (removed : Bool) (ip : Net.IP) (files : Files) : Files :=
  if removed then files.filter (· ≠ ip.string) else files

def allocate (a : IpAllocator) (write : Option String) (files : Files) :
    Except IpamError Net.IP × IpAllocator × Files :=
  match h : a.bitmap.findFree with
  | none => (.error (.sentinel .noFreeAddresses a.cidr.net.string), a, files)
  | some idx =>
    let ip := indexToIP a.cidr.baseIP idx
    let marked := a.mark idx (findFree_lt h).1
    if a.stateDir then
      match saveIP write ip files with
      | .ok files' => (.ok ip, marked, files')
      | .error text => (.error (.persisting ip.string text),
          marked.unmark idx (findFree_lt h).1 (findFree_lt h).2.1, files)
    else (.ok ip, marked, files)

theorem not_reserved_of_clear {a : IpAllocator} {idx : Nat} (h : ¬ a.bitmap.get idx = true) :
    idx ∉ a.cidr.reserved := fun hres => h (a.reserved_set idx hres)

def allocateSpecific (a : IpAllocator) (write : Option String) (ip : Net.IP) (files : Files) :
    Except IpamError Unit × IpAllocator × Files :=
  match a.cidr.indexOf ip with
  | .error e => (.error e, a, files)
  | .ok ⟨idx, hidx⟩ =>
    if hset : a.bitmap.get idx = true then
      (.error (.sentinel .ipAlreadyAlloc ip.string), a, files)
    else
      let marked := a.mark idx hidx
      if a.stateDir then
        match saveIP write ip.normalize files with
        | .ok files' => (.ok (), marked, files')
        | .error text => (.error (.persisting ip.string text),
            marked.unmark idx hidx (not_reserved_of_clear (a := a) hset), files)
      else (.ok (), marked, files)

def checkReserved (c : PodCidr) (ip : Net.IP) (idx : Nat) :
    Except IpamError (PLift (idx ∉ c.reserved)) :=
  if h0 : idx = 0 then .error (.sentinel .releaseNetwork ip.string)
  else if h4 : c.isIPv4 = true then
    if h1 : idx = 1 then .error (.sentinel .releaseGateway ip.string)
    else if hlast : idx = c.size - 1 then .error (.sentinel .releaseBroadcast ip.string)
    else .ok ⟨by simp [reserved, h4, h0, h1, hlast]⟩
  else .ok ⟨by simp [reserved, h4, h0]⟩

def release (a : IpAllocator) (removed : Bool) (ip : Net.IP) (files : Files) :
    Except IpamError Unit × IpAllocator × Files :=
  match a.cidr.indexOf ip with
  | .error e => (.error e, a, files)
  | .ok ⟨idx, hidx⟩ =>
    match checkReserved a.cidr ip idx with
    | .error e => (.error e, a, files)
    | .ok ⟨hfree⟩ =>
      if a.bitmap.get idx then
        (.ok (), a.unmark idx hidx hfree,
          if a.stateDir then removeIP removed ip.normalize files else files)
      else (.error (.sentinel .ipNotAllocated ip.string), a, files)

/-- The address that a file stands for. Other files are skipped. -/
def fileIndex (c : PodCidr) (name : String) : Option {idx : Nat // idx < c.size} :=
  match parseIp name with
  | none => none
  | some ip => (c.indexOf ip).toOption

def loadFile (a : IpAllocator) (name : String) : IpAllocator :=
  match fileIndex a.cidr name with
  | none => a
  | some ⟨idx, hidx⟩ => if a.bitmap.get idx then a else a.mark idx hidx

def loadState (a : IpAllocator) (files : Files) : IpAllocator := files.foldl loadFile a

def newAllocatorWithStateDir (c : PodCidr) (stateDir : Bool) (files : Files) : IpAllocator :=
  if stateDir then (reserve c stateDir).loadState files else reserve c stateDir

def allocated (a : IpAllocator) : Finset Net.IP :=
  ((Finset.range a.cidr.size).filter fun idx =>
    a.bitmap.get idx = true ∧ idx ∉ a.cidr.reserved).image (indexToIP a.cidr.baseIP)

def setBits (a : IpAllocator) : Finset Nat :=
  (Finset.range a.cidr.size).filter fun idx => a.bitmap.get idx = true

def Counted (a : IpAllocator) : Prop := a.used = a.setBits.card

section Spec

variable {a a' : IpAllocator} {idx : Nat} {write : Option String} {removed : Bool}
  {files files' : Files} {r : Except IpamError Net.IP}

theorem unmark_mark (h : idx < a.cidr.size) (hres : idx ∉ a.cidr.reserved)
    (hfree : a.bitmap.get idx = false) : (a.mark idx h).unmark idx h hres = a := by
  have hlt : idx < a.bitmap.size := a.size_bitmap ▸ h
  have hbits : (a.bitmap.set idx).clear idx = a.bitmap := a.bitmap.clear_set hlt hfree
  apply IpAllocator.ext
  · rfl
  · exact hbits
  · exact Nat.add_sub_cancel a.used 1
  · rfl

theorem mem_saveIP {ip : Net.IP} (h : saveIP write ip files = .ok files') (name : String) :
    name ∈ files' ↔ name ∈ files ∨ name = ip.string := by
  unfold saveIP at h
  cases write with
  | some text => cases h
  | none =>
    simp only [Except.ok.injEq] at h
    subst h
    by_cases hmem : ip.string ∈ files
    · rw [if_pos hmem]
      exact (or_iff_left_of_imp fun heq => heq ▸ hmem).symm
    · rw [if_neg hmem, mem_append, List.mem_singleton]

theorem mem_removeIP {ip : Net.IP} (name : String) :
    name ∈ removeIP removed ip files ↔ name ∈ files ∧ (removed = true → name ≠ ip.string) := by
  unfold removeIP
  cases removed with
  | true => simp
  | false => simp

structure Marks (a : IpAllocator) (idx : Nat) (files : Files) (a' : IpAllocator) (files' : Files) :
    Prop where
  lt : idx < a.cidr.size
  clear : a.bitmap.get idx = false
  marked : a' = a.mark idx lt
  files : ∀ name, name ∈ files' ↔
    name ∈ files ∨ a.stateDir = true ∧ name = (indexToIP a.cidr.baseIP idx).string

theorem Marks.not_reserved (h : Marks a idx files a' files') : idx ∉ a.cidr.reserved :=
  not_reserved_of_clear (by rw [h.clear]; decide)

/-- An address that cannot be written to its file is given back. -/
theorem persist_cases {α : Type} {r x : Except IpamError α} {ip : Net.IP} {detail : String}
    {marked back : IpAllocator}
    (h : (if a.stateDir then
        match saveIP write ip files with
        | .ok files' => (x, marked, files')
        | .error text => (.error (.persisting detail text), back, files)
      else (x, marked, files)) = (r, a', files')) :
    (write ≠ none ∧ ∃ e, r = .error e ∧ a' = back ∧ files' = files) ∨
      r = x ∧ a' = marked ∧
        ∀ name, name ∈ files' ↔ name ∈ files ∨ a.stateDir = true ∧ name = ip.string := by
  by_cases hdir : a.stateDir = true
  · simp only [hdir, if_true] at h
    cases hsave : saveIP write ip files with
    | ok files' =>
      simp only [hsave] at h
      cases h
      exact .inr ⟨rfl, rfl, fun name => by simp [mem_saveIP hsave, hdir]⟩
    | error text =>
      simp only [hsave] at h
      cases h
      refine .inl ⟨?_, _, rfl, rfl, rfl⟩
      rintro rfl
      cases hsave
  · simp only [hdir, Bool.false_eq_true, if_false] at h
    cases h
    exact .inr ⟨rfl, rfl, by simp [hdir]⟩

theorem allocate_cases (h : a.allocate write files = (r, a', files')) :
    (∃ e, r = .error e ∧ a' = a ∧ files' = files ∧
      (write = none → ∀ j, j < a.cidr.size → a.bitmap.get j = true)) ∨
    ∃ idx, Marks a idx files a' files' ∧ r = .ok (indexToIP a.cidr.baseIP idx) ∧
      ∀ j, j < idx → a.bitmap.get j = true := by
  have hspec := a.bitmap.findFree_spec
  unfold allocate at h
  split at h
  · next hfind =>
    cases h
    rw [hfind] at hspec
    refine .inl ⟨_, rfl, rfl, rfl, fun _ j hj => hspec j (Nat.zero_le j) ?_⟩
    rwa [a.size_bitmap]
  · next idx hfind =>
    obtain ⟨hlt, hres, hfree⟩ := findFree_lt hfind
    rw [hfind] at hspec
    rcases persist_cases h with ⟨hwrite, e, rfl, rfl, rfl⟩ | ⟨rfl, rfl, hfiles⟩
    · exact .inl ⟨e, rfl, unmark_mark hlt hres hfree, rfl, fun h => absurd h hwrite⟩
    · exact .inr ⟨idx, ⟨hlt, hfree, rfl, hfiles⟩, rfl, fun j => hspec.2.2.2 j (Nat.zero_le j)⟩

theorem allocateSpecific_cases {ip : Net.IP} {r : Except IpamError Unit}
    (h : a.allocateSpecific write ip files = (r, a', files')) :
    (∃ e, r = .error e ∧ a' = a ∧ files' = files ∧
      (write = none → ∀ j, j < a.cidr.size →
        (indexToIP a.cidr.baseIP j).normalize = ip.normalize → a.bitmap.get j = true)) ∨
    ∃ idx, Marks a idx files a' files' ∧ r = .ok () ∧
      (indexToIP a.cidr.baseIP idx).normalize = ip.normalize := by
  unfold allocateSpecific at h
  rcases a.cidr.indexOf_cases ip with ⟨idx, hlt, hplace, hsame⟩ | ⟨e, hplace, hnone⟩
  · simp only [hplace] at h
    have hname : ip.normalize.string = (indexToIP a.cidr.baseIP idx).string := by
      rw [← hsame, string_normalize]
    by_cases hset : a.bitmap.get idx = true
    · rw [dif_pos hset] at h
      cases h
      refine .inl ⟨_, rfl, rfl, rfl, fun _ j hj hj' => ?_⟩
      rwa [indexToIP_normalize_injective hj hlt (hj'.trans hsame.symm)]
    · have hclear : a.bitmap.get idx = false := by simpa using hset
      rw [dif_neg hset] at h
      rcases persist_cases h with ⟨hwrite, e, rfl, rfl, rfl⟩ | ⟨rfl, rfl, hfiles⟩
      · exact .inl ⟨e, rfl, unmark_mark hlt (not_reserved_of_clear hset) hclear, rfl,
          fun h => absurd h hwrite⟩
      · exact .inr ⟨idx, ⟨hlt, hclear, rfl, hname ▸ hfiles⟩, rfl, hsame⟩
  · simp only [hplace] at h
    cases h
    exact .inl ⟨e, rfl, rfl, rfl, fun _ j hj hj' => absurd hj' (hnone j hj)⟩

theorem checkReserved_of_not_mem (c : PodCidr) (ip : Net.IP) (h : idx ∉ c.reserved) :
    checkReserved c ip idx = .ok ⟨h⟩ := by
  have hmem := h
  unfold checkReserved
  by_cases h4 : c.isIPv4 = true
  · simp only [reserved, h4, if_true, mem_cons, not_mem_nil, or_false, not_or] at hmem
    rw [dif_neg hmem.1, dif_pos h4, dif_neg hmem.2.1, dif_neg hmem.2.2]
  · simp only [reserved, h4, Bool.false_eq_true, if_false, mem_cons, not_mem_nil, or_false] at hmem
    rw [dif_neg hmem, dif_neg h4]

theorem checkReserved_of_mem (c : PodCidr) (ip : Net.IP) (h : idx ∈ c.reserved) :
    ∃ e, checkReserved c ip idx = .error e := by
  cases hcheck : checkReserved c ip idx with
  | error e => exact ⟨e, rfl⟩
  | ok p => exact absurd h p.down

structure Clears (a : IpAllocator) (idx : Nat) (removed : Bool) (files : Files) (a' : IpAllocator)
    (files' : Files) : Prop where
  lt : idx < a.cidr.size
  set : a.bitmap.get idx = true
  not_reserved : idx ∉ a.cidr.reserved
  cleared : a' = a.unmark idx lt not_reserved
  files : ∀ name, name ∈ files' ↔ name ∈ files ∧
    (a.stateDir = true → removed = true → name ≠ (indexToIP a.cidr.baseIP idx).string)

theorem release_cases {ip : Net.IP} {r : Except IpamError Unit}
    (h : a.release removed ip files = (r, a', files')) :
    (∃ e, r = .error e ∧ a' = a ∧ files' = files ∧ ∀ j, j < a.cidr.size →
      (indexToIP a.cidr.baseIP j).normalize = ip.normalize → a.bitmap.get j = true →
      j ∈ a.cidr.reserved) ∨
    ∃ idx, Clears a idx removed files a' files' ∧ r = .ok () ∧
      (indexToIP a.cidr.baseIP idx).normalize = ip.normalize := by
  unfold release at h
  rcases a.cidr.indexOf_cases ip with ⟨idx, hlt, hplace, hsame⟩ | ⟨e, hplace, hnone⟩
  · rw [hplace] at h
    dsimp only at h
    have honly : ∀ j, j < a.cidr.size → (indexToIP a.cidr.baseIP j).normalize = ip.normalize →
        j = idx := fun j hj hj' => indexToIP_normalize_injective hj hlt (hj'.trans hsame.symm)
    by_cases hres : idx ∈ a.cidr.reserved
    · obtain ⟨e, hcheck⟩ := checkReserved_of_mem a.cidr ip hres
      rw [hcheck] at h
      cases h
      exact .inl ⟨e, rfl, rfl, rfl, fun j hj hj' _ => honly j hj hj' ▸ hres⟩
    · rw [checkReserved_of_not_mem a.cidr ip hres] at h
      dsimp only at h
      by_cases hset : a.bitmap.get idx = true
      · rw [if_pos hset] at h
        cases h
        refine .inr ⟨idx, ⟨hlt, hset, hres, rfl, fun name => ?_⟩, rfl, hsame⟩
        have hname : ip.normalize.string = (indexToIP a.cidr.baseIP idx).string := by
          rw [← hsame, string_normalize]
        cases hdir : a.stateDir with
        | true =>
          rw [if_pos rfl, mem_removeIP, hname]
          simp
        | false => simp
      · rw [if_neg hset] at h
        cases h
        refine .inl ⟨_, rfl, rfl, rfl, fun j hj hj' hj'' => ?_⟩
        rw [honly j hj hj'] at hj''
        exact absurd hj'' hset
  · rw [hplace] at h
    cases h
    exact .inl ⟨e, rfl, rfl, rfl, fun j hj hj' => absurd hj' (hnone j hj)⟩

theorem get_mark (hlt : idx < a.cidr.size) (j : Nat) :
    (a.mark idx hlt).bitmap.get j = (a.bitmap.get j || decide (j = idx)) :=
  a.bitmap.get_set (a.size_bitmap ▸ hlt) j

theorem get_unmark (hlt : idx < a.cidr.size) (hres : idx ∉ a.cidr.reserved) (j : Nat) :
    (a.unmark idx hlt hres).bitmap.get j = (a.bitmap.get j && decide (j ≠ idx)) :=
  a.bitmap.get_clear (a.size_bitmap ▸ hlt) j

variable (removed files) in
theorem release_indexToIP (hlt : idx < a.cidr.size) (hres : idx ∉ a.cidr.reserved)
    (hset : a.bitmap.get idx = true) :
    ∃ files', a.release removed (indexToIP a.cidr.baseIP idx) files =
      (.ok (), a.unmark idx hlt hres, files') := by
  refine ⟨if a.stateDir then removeIP removed (indexToIP a.cidr.baseIP idx).normalize files
    else files, ?_⟩
  unfold release
  rw [indexOf_indexToIP hlt]
  dsimp only
  rw [checkReserved_of_not_mem _ _ hres]
  exact if_pos hset

variable (removed files) in
theorem release_mark (hlt : idx < a.cidr.size) (hres : idx ∉ a.cidr.reserved)
    (hfree : a.bitmap.get idx = false) :
    ∃ files', (a.mark idx hlt).release removed (indexToIP a.cidr.baseIP idx) files =
      (.ok (), a, files') := by
  have hset : (a.mark idx hlt).bitmap.get idx = true := by
    rw [get_mark, decide_eq_true rfl, Bool.or_true]
  have hrel := release_indexToIP removed files (a := a.mark idx hlt) hlt hres hset
  rwa [unmark_mark hlt hres hfree] at hrel

theorem get_loadFile (a : IpAllocator) (name : String) (j : Nat) :
    (a.loadFile name).bitmap.get j = true ↔
      a.bitmap.get j = true ∨ (fileIndex a.cidr name).map Subtype.val = some j := by
  unfold loadFile
  cases hidx : fileIndex a.cidr name with
  | none => simp
  | some p =>
    obtain ⟨idx, hlt⟩ := p
    by_cases hset : a.bitmap.get idx = true
    · simp only [hset, if_true, Option.map_some, Option.some.injEq]
      exact (or_iff_left_of_imp fun heq => heq ▸ hset).symm
    · simp only [hset, Bool.false_eq_true, if_false, Option.map_some, Option.some.injEq]
      rw [get_mark, Bool.or_eq_true, decide_eq_true_iff]
      exact or_congr Iff.rfl eq_comm

theorem cidr_loadFile (a : IpAllocator) (name : String) : (a.loadFile name).cidr = a.cidr := by
  unfold loadFile
  split
  · rfl
  · split <;> rfl

theorem cidr_loadState (files : Files) (a : IpAllocator) : (a.loadState files).cidr = a.cidr := by
  induction files generalizing a with
  | nil => rfl
  | cons name files ih => exact (ih (a.loadFile name)).trans (cidr_loadFile a name)

theorem get_loadState (files : Files) (a : IpAllocator) (j : Nat) :
    (a.loadState files).bitmap.get j = true ↔ a.bitmap.get j = true ∨
      ∃ name ∈ files, (fileIndex a.cidr name).map Subtype.val = some j := by
  induction files generalizing a with
  | nil => simp [loadState]
  | cons name files ih =>
    have hstep := ih (a.loadFile name)
    rw [cidr_loadFile, get_loadFile] at hstep
    show ((a.loadFile name).loadState files).bitmap.get j = true ↔ _
    rw [hstep, exists_mem_cons_iff, or_assoc]

theorem mem_setBits {j : Nat} : j ∈ a.setBits ↔ j < a.cidr.size ∧ a.bitmap.get j = true := by
  rw [setBits, Finset.mem_filter, Finset.mem_range]

theorem setBits_mark (hlt : idx < a.cidr.size) : (a.mark idx hlt).setBits = insert idx a.setBits := by
  ext j
  rw [mem_setBits, Finset.mem_insert, mem_setBits, get_mark, Bool.or_eq_true, decide_eq_true_iff]
  constructor
  · rintro ⟨hj, hset | rfl⟩
    · exact .inr ⟨hj, hset⟩
    · exact .inl rfl
  · rintro (rfl | ⟨hj, hset⟩)
    · exact ⟨hlt, .inr rfl⟩
    · exact ⟨hj, .inl hset⟩

theorem Counted.mark (h : a.Counted) (hlt : idx < a.cidr.size) (hfree : a.bitmap.get idx = false) :
    (a.mark idx hlt).Counted := by
  have hnot : idx ∉ a.setBits := by
    rw [mem_setBits, hfree]
    simp
  rw [Counted, setBits_mark, Finset.card_insert_of_notMem hnot]
  exact congrArg (· + 1) h

theorem Counted.unmark (h : a.Counted) (hlt : idx < a.cidr.size) (hres : idx ∉ a.cidr.reserved)
    (hset : a.bitmap.get idx = true) : (a.unmark idx hlt hres).Counted := by
  have hbits : (a.unmark idx hlt hres).setBits = a.setBits.erase idx := by
    ext j
    rw [mem_setBits, Finset.mem_erase, mem_setBits, get_unmark, Bool.and_eq_true, decide_eq_true_iff]
    exact ⟨fun h => ⟨h.2.2, h.1, h.2.1⟩, fun h => ⟨h.2.1, h.2.2, h.1⟩⟩
  rw [Counted, hbits, Finset.card_erase_of_mem (mem_setBits.mpr ⟨hlt, hset⟩)]
  exact congrArg (· - 1) h

theorem get_reserve (c : PodCidr) (stateDir : Bool) (j : Nat) :
    (reserve c stateDir).bitmap.get j = decide (j ∈ c.reserved) := by
  show (c.reserved.foldl set (.new c.size)).get j = _
  rw [get_foldl_set _ _ fun i hi => c.reserved_lt hi, get_new, Bool.false_or]

theorem counted_reserve (c : PodCidr) (stateDir : Bool) : (reserve c stateDir).Counted := by
  have hbits : (reserve c stateDir).setBits = c.reserved.toFinset := by
    ext j
    rw [mem_setBits, get_reserve, decide_eq_true_iff, List.mem_toFinset]
    exact ⟨fun h => h.2, fun h => ⟨c.reserved_lt h, h⟩⟩
  rw [Counted, hbits, toFinset_card_of_nodup c.nodup_reserved]
  rfl

theorem Counted.loadState (h : a.Counted) (files : Files) : (a.loadState files).Counted := by
  induction files generalizing a with
  | nil => exact h
  | cons name files ih =>
    refine ih ?_
    unfold loadFile
    cases fileIndex a.cidr name with
    | none => exact h
    | some p =>
      obtain ⟨idx, hlt⟩ := p
      by_cases hset : a.bitmap.get idx = true
      · simpa only [hset, if_true] using h
      · simp only [hset, Bool.false_eq_true, if_false]
        exact h.mark hlt (by simpa using hset)

theorem counted_new (c : PodCidr) (stateDir : Bool) (files : Files) :
    (newAllocatorWithStateDir c stateDir files).Counted := by
  unfold newAllocatorWithStateDir
  cases stateDir with
  | true => exact (counted_reserve c true).loadState files
  | false => exact counted_reserve c false

theorem mem_allocated {ip : Net.IP} : ip ∈ a.allocated ↔ ∃ idx, idx < a.cidr.size ∧
    a.bitmap.get idx = true ∧ idx ∉ a.cidr.reserved ∧ indexToIP a.cidr.baseIP idx = ip := by
  simp only [allocated, Finset.mem_image, Finset.mem_filter, Finset.mem_range, and_assoc]

theorem not_mem_allocated (hlt : idx < a.cidr.size) (hfree : a.bitmap.get idx = false) :
    indexToIP a.cidr.baseIP idx ∉ a.allocated := by
  intro hmem
  obtain ⟨idx', hlt', hset, -, heq⟩ := mem_allocated.mp hmem
  simp [indexToIP_injective hlt' hlt heq, hfree] at hset

theorem allocated_eq (a : IpAllocator) : a.allocated =
    (a.setBits.filter (· ∉ a.cidr.reserved)).image (indexToIP a.cidr.baseIP) := by
  rw [allocated, setBits, Finset.filter_filter]

theorem allocated_mark (hlt : idx < a.cidr.size) (hres : idx ∉ a.cidr.reserved) :
    (a.mark idx hlt).allocated = insert (indexToIP a.cidr.baseIP idx) a.allocated := by
  rw [allocated_eq, setBits_mark, Finset.filter_insert]
  change Finset.image _ (if idx ∉ a.cidr.reserved then _ else _) = _
  rw [if_pos hres, Finset.image_insert, allocated_eq]
  rfl

theorem allocated_unmark (hlt : idx < a.cidr.size) (hres : idx ∉ a.cidr.reserved) :
    (a.unmark idx hlt hres).allocated = a.allocated.erase (indexToIP a.cidr.baseIP idx) := by
  have hget := get_unmark hlt hres
  ext ip
  rw [mem_allocated, Finset.mem_erase, mem_allocated]
  constructor
  · rintro ⟨j, hj, hset, hjres, hip⟩
    rw [hget, Bool.and_eq_true, decide_eq_true_iff] at hset
    refine ⟨?_, j, hj, hset.1, hjres, hip⟩
    rintro rfl
    exact hset.2 (indexToIP_injective hj hlt hip)
  · rintro ⟨hne, j, hj, hold, hjres, rfl⟩
    have hj' : j ≠ idx := fun he => hne (by rw [he])
    exact ⟨j, hj, by rw [hget, hold]; simp [hj'], hjres, rfl⟩

theorem allocated_of_allocate {ip : Net.IP} (h : a.allocate write files = (.ok ip, a', files')) :
    ip ∉ a.allocated ∧ a'.allocated = insert ip a.allocated ∧ a'.cidr = a.cidr := by
  rcases allocate_cases h with ⟨e, hr, -⟩ | ⟨idx, hmarks, hr, -⟩
  · cases hr
  · cases hr
    rw [hmarks.marked]
    exact ⟨not_mem_allocated hmarks.lt hmarks.clear, allocated_mark hmarks.lt hmarks.not_reserved,
      rfl⟩

variable (removed files) in
theorem allocated_of_release {ip : Net.IP} (h : ip ∈ a.allocated) :
    (a.release removed ip files).2.1.allocated = a.allocated.erase ip ∧
      (a.release removed ip files).2.1.cidr = a.cidr := by
  obtain ⟨idx, hlt, hset, hres, rfl⟩ := mem_allocated.mp h
  obtain ⟨files', hrel⟩ := release_indexToIP removed files hlt hres hset
  rw [hrel]
  exact ⟨allocated_unmark hlt hres, rfl⟩

theorem cidr_new (c : PodCidr) (stateDir : Bool) (files : Files) :
    (newAllocatorWithStateDir c stateDir files).cidr = c := by
  unfold newAllocatorWithStateDir
  cases stateDir with
  | true => exact cidr_loadState files (reserve c true)
  | false => rfl

theorem allocated_new (c : PodCidr) (stateDir : Bool) (files : Files)
    (h : ∀ name ∈ files, ∀ idx, fileIndex c name = some idx → idx.val ∈ c.reserved) :
    (newAllocatorWithStateDir c stateDir files).allocated = ∅ := by
  have hreserve : ∀ j, (reserve c stateDir).bitmap.get j = true → j ∈ c.reserved := by
    intro j hj
    rwa [get_reserve, decide_eq_true_iff] at hj
  have hget : ∀ j, (newAllocatorWithStateDir c stateDir files).bitmap.get j = true →
      j ∈ c.reserved := by
    intro j hj
    cases stateDir with
    | false => exact hreserve j hj
    | true =>
      rcases (get_loadState files (reserve c true) j).mp hj with hold | ⟨name, hname, hfile⟩
      · exact hreserve j hold
      · obtain ⟨idx, hidx, rfl⟩ := Option.map_eq_some_iff.mp hfile
        exact h name hname idx hidx
  apply Finset.eq_empty_of_forall_notMem
  intro ip hip
  obtain ⟨idx, -, hset, hres, -⟩ := mem_allocated.mp hip
  rw [cidr_new] at hres
  exact hres (hget idx hset)

end Spec

end IpAllocator

end NovaNet
