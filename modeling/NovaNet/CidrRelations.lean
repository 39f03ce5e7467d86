import NovaNet.Admission

/-! The CIDR helpers of the webhooks against the sets of addresses they are about. -/

namespace NovaNet

open Net IPNet

/-- Both results of `net.ParseCIDR`: the address as written, and its network. -/
def parsePrefix (pfx : String) : Option (IP × IPNet) :=
  (cidrAddress pfx).bind fun ip => (parseCIDR pfx).map fun ipNet => (ip, ipNet)

/-- The addresses of a network, where an IPv4 address and its mapped one are the same. -/
def addresses (net : IPNet) : Set IP :=
  {x | net.ip.to16.toNat / net.size = x.to16.toNat / net.size}

def topAddr (net : IPNet) : IP := net.ip.add (net.size - 1)

/-- IPv4 networks, or IPv6 networks that neither begin nor end with a mapped address. -/
def OneFamily (a b : IPNet) : Prop :=
  (a.ip.bits = 32 ∧ b.ip.bits = 32) ∨ ∀ net ∈ [a, b], net.ip.to4 = none ∧ (lastAddr net).to4 = none

variable {a b : IPNet} {x : IP}

theorem parsePrefix_cases {pfx : String} (h : parsePrefix pfx = some (x, a)) :
    a.IsNetwork ∧ ((∃ n, x = .v4 n ∧ a = ⟨.v4 (n &&& mask4 a.ones), a.ones⟩ ∧ a.ones ≤ 32) ∨
      ∃ n, x = .v6 n ∧ a = ⟨.v6 (n &&& mask6 a.ones), a.ones⟩) := by
  obtain ⟨ip, haddr, h⟩ := Option.bind_eq_some_iff.mp h
  obtain ⟨net, hnet, heq⟩ := Option.map_eq_some_iff.mp h
  cases heq
  refine ⟨isNetwork_of_parseCIDR hnet, ?_⟩
  rcases parseCIDR_cases hnet with ⟨n, hip, hle, hn⟩ | ⟨n, hip, -, hn⟩
  · exact .inl ⟨n, Option.some.inj (haddr.symm.trans hn), by rw [← hip], hle⟩
  · exact .inr ⟨n, Option.some.inj (haddr.symm.trans hn), by rw [← hip]⟩

theorem div_size_eq (h : a.hostBits ≤ b.hostBits) {x y : Nat} (hxy : x / a.size = y / a.size) :
    x / b.size = y / b.size := by
  obtain ⟨k, hk⟩ : a.size ∣ b.size := Nat.pow_dvd_pow 2 h
  rw [hk, ← Nat.div_div_eq_div_mul, hxy, Nat.div_div_eq_div_mul]

theorem toNat_or_hostMask {w h : Nat} (x : BitVec w) (hw : h ≤ w) (hx : 2 ^ h ∣ x.toNat) :
    (x ||| ~~~ (BitVec.allOnes w <<< h)).toNat = x.toNat + (2 ^ h - 1) := by
  have hmask : ~~~ (BitVec.allOnes w <<< h) = BitVec.ofNat w (2 ^ h - 1) := by
    apply BitVec.eq_of_getLsbD_eq
    intro i hi
    rw [BitVec.getLsbD_ofNat, Nat.testBit_two_pow_sub_one]
    simp [hi]
  have hpos := Nat.two_pow_pos h
  have hle := Nat.pow_le_pow_right (by decide : 0 < 2) hw
  obtain ⟨q, hq⟩ := hx
  rw [hmask, BitVec.toNat_or, BitVec.toNat_ofNat, Nat.mod_eq_of_lt (by omega), hq,
    Nat.two_pow_add_eq_or_of_lt (by omega)]

theorem lastAddr_eq_topAddr (h : a.IsNetwork) : lastAddr a = topAddr a := by
  have hadd := h.toNat_add (i := a.size - 1) (Nat.sub_lt (Nat.two_pow_pos _) Nat.one_pos)
  have hdvd := h.aligned
  unfold lastAddr topAddr
  rw [size, hostBits] at hadd hdvd ⊢
  cases hip : a.ip with
  | v4 n =>
    rw [hip] at hadd hdvd
    have hor := toNat_or_hostMask n.toBitVec (Nat.sub_le _ _) hdvd
    exact congrArg IP.v4 (UInt32.toNat_inj.mp (hor.trans hadd.symm))
  | v6 n =>
    rw [hip] at hadd hdvd
    have hor := toNat_or_hostMask n (Nat.sub_le _ _) hdvd
    exact congrArg IP.v6 (BitVec.toNat_inj.mp (hor.trans hadd.symm))

theorem toNat_to16_lastAddr (h : a.IsNetwork) :
    (lastAddr a).to16.toNat = a.ip.to16.toNat + (a.size - 1) := by
  rw [lastAddr_eq_topAddr h]
  exact h.toNat_to16_add (Nat.sub_lt (Nat.two_pow_pos _) Nat.one_pos)

theorem mem_addresses_iff (h : a.IsNetwork) :
    x ∈ addresses a ↔ a.ip.to16.toNat ≤ x.to16.toNat ∧ x.to16.toNat ≤ (lastAddr a).to16.toNat := by
  have hpos : 0 < a.size := Nat.two_pow_pos _
  obtain ⟨q, hq⟩ := h.dvd_to16
  rw [toNat_to16_lastAddr h, hq]
  change a.ip.to16.toNat / a.size = _ ↔ _
  rw [hq, Nat.mul_div_cancel_left q hpos, eq_comm, Nat.div_eq_iff hpos, Nat.mul_comm]
  omega

theorem lastAddr_mem (h : a.IsNetwork) : lastAddr a ∈ addresses a := by
  rw [mem_addresses_iff h, toNat_to16_lastAddr h]
  omega

theorem OneFamily.symm (h : OneFamily a b) : OneFamily b a :=
  h.imp And.symm fun h net hnet => h net (List.mem_pair.mpr (List.mem_pair.mp hnet).symm)

theorem OneFamily.contains_iff (h : OneFamily a b) (hx : x = b.ip ∨ x = lastAddr b) :
    a.contains x = true ↔ x ∈ addresses a := by
  rcases h with ⟨hbits, -⟩ | h
  · exact Net.contains_iff (by rw [hostBits]; omega)
  · have ha := h a (by simp)
    have hb := h b (by simp)
    rcases hx with rfl | rfl
    · exact contains_iff_of_to4_none ha.1 hb.1
    · exact contains_iff_of_to4_none ha.1 hb.2

theorem overlap_iff (h : OneFamily a b) :
    cidrsOverlap a b = true ↔ (addresses a ∩ addresses b).Nonempty := by
  rw [cidrsOverlap, Bool.or_eq_true, h.contains_iff (.inl rfl), h.symm.contains_iff (.inl rfl)]
  constructor
  · rintro (hmem | hmem)
    · exact ⟨b.ip, hmem, rfl⟩
    · exact ⟨a.ip, rfl, hmem⟩
  · rintro ⟨x, hxa, hxb⟩
    -- the network with fewer host bits lies in the other
    rcases Nat.le_total a.hostBits b.hostBits with hle | hle
    · exact .inr (Eq.trans hxb (div_size_eq hle hxa).symm)
    · exact .inl (Eq.trans hxa (div_size_eq hle hxb).symm)

theorem contains_iff_subset (h : OneFamily a b) (hb : b.IsNetwork) :
    cidrContains a b = true ↔ addresses b ⊆ addresses a := by
  rw [cidrContains, Bool.and_eq_true, h.contains_iff (.inl rfl), h.contains_iff (.inr rfl)]
  constructor
  · rintro ⟨hfirst, hlast⟩ x hx
    obtain ⟨hle, hle'⟩ := (mem_addresses_iff hb).mp hx
    have hlow := Nat.div_le_div_right (c := a.size) hle
    have hhigh := Nat.div_le_div_right (c := a.size) hle'
    exact Nat.le_antisymm (hfirst.trans_le hlow) (hhigh.trans_eq hlast.symm)
  · intro hsub
    exact ⟨hsub rfl, hsub (lastAddr_mem hb)⟩

/-- Go's `Contains` compares a mapped address in its 4-byte form, so a network of IPv6 that ends
with one would not hold its own last address. -/
theorem cidr_relations {s : String} (hb : parseCIDR s = some b) (h : OneFamily a b) :
    (cidrsOverlap a b = true ↔ ∃ x, x ∈ addresses a ∧ x ∈ addresses b) ∧
      (cidrContains a b = true ↔ ∀ x ∈ addresses b, x ∈ addresses a) ∧
      lastAddr b = topAddr b ∧ lastAddr b ∈ addresses b ∧
      ∀ x ∈ addresses b, x.to16 ≤ (lastAddr b).to16 := by
  have hnet := isNetwork_of_parseCIDR hb
  refine ⟨overlap_iff h, contains_iff_subset h hnet, lastAddr_eq_topAddr hnet,
    lastAddr_mem hnet, fun x hx => ?_⟩
  exact ((mem_addresses_iff hnet).mp hx).2

theorem cidr_relations_example :
    (cidrContains ⟨.v6 (0xfd <<< 120), 48⟩ ⟨.v6 (0xfd <<< 120 ||| 5 <<< 64), 64⟩ = true ∧
      ∀ x ∈ addresses ⟨.v6 (0xfd <<< 120 ||| 5 <<< 64), 64⟩, x ∈ addresses ⟨.v6 (0xfd <<< 120), 48⟩) ∧
    cidrsOverlap ⟨.v4 0x0a000000, 8⟩ ⟨.v4 0x0b000000, 16⟩ = false ∧
      ¬ ∃ x, x ∈ addresses ⟨.v4 0x0a000000, 8⟩ ∧ x ∈ addresses ⟨.v4 0x0b000000, 16⟩ := by
  have hin : cidrContains ⟨.v6 (0xfd <<< 120), 48⟩ ⟨.v6 (0xfd <<< 120 ||| 5 <<< 64), 64⟩ = true := by
    decide +kernel
  have hout : cidrsOverlap ⟨.v4 0x0a000000, 8⟩ ⟨.v4 0x0b000000, 16⟩ = false := by decide +kernel
  have hb : parseCIDR "fd00:0:0:5::/64" = some ⟨.v6 (0xfd <<< 120 ||| 5 <<< 64), 64⟩ := by
    decide +kernel
  have hb' : parseCIDR "11.0.0.0/16" = some ⟨.v4 0x0b000000, 16⟩ := by decide +kernel
  refine ⟨⟨hin, (cidr_relations hb (.inr (by decide +kernel))).2.1.mp hin⟩, hout, ?_⟩
  rw [← (cidr_relations hb' (.inl ⟨rfl, rfl⟩)).1, hout]
  exact Bool.false_ne_true

end NovaNet
