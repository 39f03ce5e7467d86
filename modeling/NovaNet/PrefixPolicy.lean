import NovaNet.CidrRelations

/-! The prefix policy of the routing owners. A prefix is compared with the allowed CIDRs by the
lengths of the masks, which count from different ends for the two notations of IPv4. -/

namespace NovaNet

open Net

structure PrefixPolicy where
  type : String
  allowedCIDRs : List String

inductive PrefixError where
  | unknownOwner (owner : String)
  | invalidPrefix (pfx : String)
  | hostOnlyIPv4 (owner pfx : String)
  | hostOnlyIPv6 (owner pfx : String)
  | subnetIPv4 (owner pfx : String) (ones : Nat)
  | subnetIPv6 (owner pfx : String) (ones : Nat)
  | unknownType (type owner : String)
  | invalidAllowed (owner cidr : String)
  | notInAllowed (owner net : String) (allowedCIDRs : List String)
  deriving DecidableEq

def validatePrefixType (policy : PrefixPolicy) (owner pfx : String) (ip : IP) (ipNet : IPNet) :
    Except PrefixError Unit :=
  let isIPv4 := ip.to4.isSome
  match policy.type.toLower with
  | "host_only" =>
    if isIPv4 ∧ ipNet.ones ≠ 32 then .error (.hostOnlyIPv4 owner pfx)
    else if ¬ isIPv4 ∧ ipNet.ones ≠ 128 then .error (.hostOnlyIPv6 owner pfx)
    else .ok ()
  | "subnet" =>
    if isIPv4 then
      if ipNet.ones < 8 ∨ ipNet.ones > 28 then .error (.subnetIPv4 owner pfx ipNet.ones)
      else .ok ()
    else if ipNet.ones = ipNet.ip.bits then .error (.subnetIPv6 owner pfx ipNet.ones)
    else .ok ()
  | "any" => .ok ()
  | _ => .error (.unknownType policy.type owner)

def validateAllowedCIDRs (owner : String) (ip : IP) (ipNet : IPNet) (allowedCIDRs : List String) :
    List String → Except PrefixError Unit
  | [] => .error (.notInAllowed owner ipNet.string allowedCIDRs)
  | allowedCIDR :: rest =>
    match parseCIDR allowedCIDR with
    | none => .error (.invalidAllowed owner allowedCIDR)
    | some allowedNet =>
      if allowedNet.contains ip ∧ allowedNet.ones ≤ ipNet.ones then .ok ()
      else validateAllowedCIDRs owner ip ipNet allowedCIDRs rest

abbrev PrefixOwners := Finmap fun _ : String => PrefixPolicy

def validatePrefix (owners : PrefixOwners) (owner pfx : String) :
    Except PrefixError Unit :=
  match owners.lookup owner, parsePrefix pfx with
  | none, _ => .error (.unknownOwner owner)
  | some _, none => .error (.invalidPrefix pfx)
  | some policy, some (ip, ipNet) => do
    validatePrefixType policy owner pfx ip ipNet
    if policy.allowedCIDRs ≠ [] then
      validateAllowedCIDRs owner ip ipNet policy.allowedCIDRs policy.allowedCIDRs

def Confined (policy : PrefixPolicy) (ipNet : IPNet) : Prop :=
  ∃ cidr ∈ policy.allowedCIDRs, ∃ allowed ∈ parseCIDR cidr, addresses ipNet ⊆ addresses allowed

variable {p a : IPNet} {ip : IP} {pfx owner : String}

theorem addresses_subset_iff (hp : p.IsNetwork) :
    addresses p ⊆ addresses a ↔ p.ip ∈ addresses a ∧ p.hostBits ≤ a.hostBits := by
  constructor
  · intro h
    refine ⟨h rfl, ?_⟩
    by_contra hlt
    -- the network goes on after as many addresses as the allowed one has
    have hi : a.size < p.size := Nat.pow_lt_pow_right (by decide) (by omega)
    have hpos : 0 < a.size := Nat.two_pow_pos _
    have hadd := hp.toNat_to16_add hi
    have hnext : p.ip.to16.toNat / p.size = (p.ip.add a.size).to16.toNat / p.size := by
      rw [hadd, div_add_of_dvd hp.dvd_to16 hi]
    have hdiv : p.ip.to16.toNat / a.size = (p.ip.add a.size).to16.toNat / a.size :=
      (h rfl).symm.trans (h hnext)
    rw [hadd, Nat.add_div_right _ hpos] at hdiv
    omega
  · rintro ⟨hmem, hle⟩ x hx
    exact Eq.trans hmem (div_size_eq hle hx)

theorem mem_addresses_of_contains (ha : a.IsNetwork) (h : a.contains ip = true) : ip ∈ addresses a := by
  by_cases hbits : a.hostBits ≤ 32
  · exact (contains_iff hbits).mp h
  · have hto4 : a.ip.to4 = none := by
      by_contra hne
      obtain ⟨x, hx⟩ := Option.ne_none_iff_exists'.mp hne
      exact hbits (ha.hostBits_le_of_to4 hx)
    cases hip : ip.to4 with
    | none => exact (contains_iff_of_to4_none hto4 hip).mp h
    | some x =>
      unfold IPNet.contains at h
      rw [hto4, hip] at h
      cases h

/-- The written address is in the network, and of its notation. -/
theorem parsePrefix_spec (h : parsePrefix pfx = some (ip, p)) :
    p.IsNetwork ∧ p.ip.bits = ip.bits ∧ ip ∈ addresses p := by
  obtain ⟨hnet, ⟨n, rfl, heq, -⟩ | ⟨n, rfl, heq⟩⟩ := parsePrefix_cases h
  · refine ⟨hnet, by rw [heq]; rfl, (contains_iff ?_).mp ?_⟩
    · rw [heq]
      exact Nat.sub_le _ _
    · rw [heq]
      unfold IPNet.contains
      simp [IP.to4, IPNet.shortMask, UInt32.and_assoc]
  · refine ⟨hnet, by rw [heq]; rfl, ?_⟩
    rw [heq]
    change (n &&& mask6 p.ones).toNat / 2 ^ (128 - p.ones) = n.toNat / 2 ^ (128 - p.ones)
    rw [toNat_and_mask6, Nat.mul_div_cancel _ (Nat.two_pow_pos _)]

theorem accepted_cases {all l : List String}
    (h : validateAllowedCIDRs owner ip p all l = .ok ()) :
    ∃ cidr ∈ l, ∃ a ∈ parseCIDR cidr, a.contains ip = true ∧ a.ones ≤ p.ones := by
  induction l with
  | nil => cases h
  | cons cidr l ih =>
    rw [validateAllowedCIDRs] at h
    split at h
    · cases h
    · next a ha =>
      split at h
      · next hin => exact ⟨cidr, List.mem_cons_self, a, ha, hin⟩
      · obtain ⟨cidr', hmem, hrest⟩ := ih h
        exact ⟨cidr', List.mem_cons_of_mem _ hmem, hrest⟩

/-- An accepted prefix is within an allowed CIDR, unless it is written as a mapped IPv4 address:
then there has to be one that holds it and leaves as many bits for the hosts. -/
theorem prefix_confined_iff {owners : PrefixOwners}
    {policy : PrefixPolicy} (hpolicy : owners.lookup owner = some policy)
    (hcidrs : policy.allowedCIDRs ≠ []) (hparse : parsePrefix pfx = some (ip, p))
    (hok : validatePrefix owners owner pfx = .ok ()) :
    Confined policy p ↔ (ip.bits = 128 → ip.to4 ≠ none →
      ∃ cidr ∈ policy.allowedCIDRs, ∃ a ∈ parseCIDR cidr,
        p.ip ∈ addresses a ∧ p.hostBits ≤ a.hostBits) := by
  obtain ⟨hnet, hbits, hmem⟩ := parsePrefix_spec hparse
  simp only [Confined, addresses_subset_iff hnet]
  refine ⟨fun h _ _ => h, fun h => ?_⟩
  by_cases hmapped : ip.bits = 128 ∧ ip.to4 ≠ none
  · exact h hmapped.1 hmapped.2
  · have hallowed : validateAllowedCIDRs owner ip p policy.allowedCIDRs policy.allowedCIDRs =
        .ok () := by
      simp only [validatePrefix, hpolicy, hparse, if_pos hcidrs] at hok
      cases htype : validatePrefixType policy owner pfx ip p with
      | error e =>
        rw [htype] at hok
        cases hok
      | ok u =>
        rw [htype] at hok
        exact hok
    obtain ⟨cidr, hcidr, a, ha, hin, hones⟩ := accepted_cases hallowed
    have hfamily : ip.bits ≤ a.ip.bits := by
      cases hip : a.ip with
      | v6 _ => cases ip <;> simp [IP.bits]
      | v4 _ =>
        cases ip with
        | v4 _ => exact le_rfl
        | v6 x =>
          have hto4 : (IP.v6 x).to4 = none := by simpa [IP.bits] using hmapped
          unfold IPNet.contains at hin
          rw [hip, hto4] at hin
          cases hin
    have hle : p.hostBits ≤ a.hostBits := by
      rw [IPNet.hostBits, IPNet.hostBits, hbits]
      omega
    have hip := mem_addresses_of_contains (isNetwork_of_parseCIDR ha) hin
    exact ⟨cidr, hcidr, a, ha, hip.trans (div_size_eq hle hmem).symm, hle⟩

section Example

def teamPolicies : PrefixOwners :=
  (∅ : PrefixOwners).insert "team" ⟨"any", ["10.0.0.0/8"]⟩

theorem prefix_confined_example : Confined ⟨"any", ["10.0.0.0/8"]⟩ ⟨.v4 0x0a010000, 16⟩ := by
  have hparse : parsePrefix "10.1.2.3/16" = some (.v4 0x0a010203, ⟨.v4 0x0a010000, 16⟩) := by
    decide +kernel
  have hok : validatePrefix teamPolicies "team" "10.1.2.3/16" = .ok () := by decide +kernel
  exact (prefix_confined_iff rfl (by decide) hparse hok).mpr nofun

/-- Of the 28 bits that the mask leaves, the allowed network has 24. -/
theorem mapped_prefix_not_confined :
    validatePrefix teamPolicies "team" "::ffff:10.0.0.0/100" = .ok () ∧
      ∃ p ∈ (parsePrefix "::ffff:10.0.0.0/100").map Prod.snd, ¬ Confined ⟨"any", ["10.0.0.0/8"]⟩ p := by
  refine ⟨by decide +kernel, ⟨.v6 0xffff00000000, 100⟩, by decide +kernel, ?_⟩
  rintro ⟨cidr, hcidr, a, ha, hsub⟩
  obtain rfl := List.mem_singleton.mp hcidr
  obtain rfl : ⟨.v4 0x0a000000, 8⟩ = a := Option.some.inj (ha.symm.trans (by decide +kernel)).symm
  have hout : 0xffff0a000000 / 2 ^ 24 = 0xffff00000000 / 2 ^ 24 :=
    hsub (show (.v4 0 : IP) ∈ addresses ⟨.v6 0xffff00000000, 100⟩ by rfl)
  exact absurd hout (by decide)

end Example

end NovaNet
