import NovaNet.NetAddr

/-! Networks and the addresses in them. An IPv6 network may lie in the range of the mapped
IPv4 addresses, which are compared in their 4-byte form. -/

namespace Net

open Option

def IP.bits : IP → Nat
  | .v4 _ => 32
  | .v6 _ => 128

open IP

def IP.toNat : IP → Nat
  | .v4 a => a.toNat
  | .v6 a => a.toNat

def IP.to16 : IP → BitVec 128
  | .v4 a => BitVec.ofNat 128 (0xffff * 2 ^ 32 + a.toNat)
  | .v6 a => a

def IP.normalize (ip : IP) : IP :=
  match ip.to4 with
  | some a => .v4 a
  | none => ip

namespace IPNet

def hostBits (net : IPNet) : Nat := net.ip.bits - net.ones

def size (net : IPNet) : Nat := 2 ^ net.hostBits

def shortMask (net : IPNet) : UInt32 :=
  match net.ip with
  | .v4 _ => mask4 net.ones
  | .v6 _ => mask4 (net.ones - 96)

def contains (net : IPNet) (ip : IP) : Bool :=
  match net.ip.to4, ip.to4 with
  | some n, some a => n &&& net.shortMask = a &&& net.shortMask
  | none, none =>
    match net.ip, ip with
    | .v6 n, .v6 a => n &&& mask6 net.ones = a &&& mask6 net.ones
    | _, _ => false
  | _, _ => false

structure IsNetwork (net : IPNet) : Prop where
  ones_le : net.ones ≤ net.ip.bits
  aligned : net.size ∣ net.ip.toNat

end IPNet

open IPNet

section Masks

theorem toNat_and_allOnes_shiftLeft {w : Nat} (x : BitVec w) (h : Nat) :
    (x &&& BitVec.allOnes w <<< h).toNat = x.toNat / 2 ^ h * 2 ^ h := by
  have hshift : x &&& BitVec.allOnes w <<< h = (x >>> h) <<< h := by
    apply BitVec.eq_of_getLsbD_eq
    intro i hi
    simp only [BitVec.getLsbD_and, BitVec.getLsbD_shiftLeft, BitVec.getLsbD_allOnes,
      BitVec.getLsbD_ushiftRight]
    by_cases hlt : i < h
    · simp [hlt]
    · have hadd : h + (i - h) = i := by omega
      simp [hi, hlt, hadd]
      omega
  have hlt : x.toNat / 2 ^ h * 2 ^ h < 2 ^ w := lt_of_le_of_lt (Nat.div_mul_le_self _ _) x.isLt
  rw [hshift, BitVec.toNat_shiftLeft, BitVec.toNat_ushiftRight, Nat.shiftLeft_eq,
    Nat.shiftRight_eq_div_pow, Nat.mod_eq_of_lt hlt]

theorem toNat_and_mask4 (a : UInt32) (n : Nat) :
    (a &&& mask4 n).toNat = a.toNat / 2 ^ (32 - n) * 2 ^ (32 - n) :=
  toNat_and_allOnes_shiftLeft a.toBitVec (32 - n)

theorem toNat_and_mask6 (a : BitVec 128) (n : Nat) :
    (a &&& mask6 n).toNat = a.toNat / 2 ^ (128 - n) * 2 ^ (128 - n) :=
  toNat_and_allOnes_shiftLeft a (128 - n)

end Masks

theorem isNetwork_of_parseCIDR {s : String} {net : IPNet} (h : parseCIDR s = some net) :
    net.IsNetwork := by
  rcases parseCIDR_cases h with ⟨a, hip, hle, -⟩ | ⟨a, hip, hle, -⟩ <;>
  · refine ⟨by rw [hip]; exact hle, ?_⟩
    simp only [size, hostBits, hip, IP.bits, IP.toNat, toNat_and_mask4, toNat_and_mask6]
    exact Nat.dvd_mul_left _ _

section Forms

variable {x : BitVec 128} {a : UInt32} {net : IPNet} {ip : IP}

theorem to4_eq_some_iff : (v6 x).to4 = some a ↔ x.toNat = 0xffff * 2 ^ 32 + a.toNat := by
  have hlt := a.toNat_lt
  have hmapped : x >>> 32 = 0xffff#128 ↔ x.toNat / 2 ^ 32 = 0xffff := by
    rw [← BitVec.toNat_inj, BitVec.toNat_ushiftRight, Nat.shiftRight_eq_div_pow]
    rfl
  simp only [to4, hmapped]
  by_cases h : x.toNat / 2 ^ 32 = 0xffff
  · rw [if_pos h, Option.some.injEq, ← UInt32.toNat_inj, UInt32.toNat_ofNat']
    omega
  · simp only [if_neg h, reduceCtorEq, false_iff]
    omega

theorem to4_eq_none_iff : (v6 x).to4 = none ↔ x.toNat / 2 ^ 32 ≠ 0xffff := by
  constructor
  · intro h hmapped
    have hsome : (v6 x).to4 = some (UInt32.ofNat x.toNat) := by
      rw [to4_eq_some_iff, UInt32.toNat_ofNat']
      omega
    simp [h] at hsome
  · intro h
    cases hx : (v6 x).to4 with
    | none => rfl
    | some a =>
      have hnat := to4_eq_some_iff.mp hx
      have hlt := a.toNat_lt
      omega

theorem normalize_of_to4 (h : ip.to4 = some a) : ip.normalize = .v4 a := by
  rw [IP.normalize, h]

theorem to4_normalize (ip : IP) : ip.normalize.to4 = ip.to4 := by
  unfold IP.normalize
  cases h : ip.to4 with
  | none => exact h
  | some a => rfl

theorem normalize_normalize (ip : IP) : ip.normalize.normalize = ip.normalize := by
  cases h : ip.to4 with
  | none =>
    have hsame : ip.normalize = ip := by rw [IP.normalize, h]
    rw [hsame, hsame]
  | some a => rw [normalize_of_to4 h, normalize_of_to4 rfl]

theorem to16_normalize (ip : IP) : ip.normalize.to16 = ip.to16 := by
  unfold IP.normalize
  cases h : ip.to4 with
  | none => rfl
  | some a =>
    cases ip with
    | v4 b =>
      cases h
      rfl
    | v6 x =>
      have hnat := to4_eq_some_iff.mp h
      have hlt := x.isLt
      rw [← BitVec.toNat_inj]
      show (BitVec.ofNat 128 (0xffff * 2 ^ 32 + a.toNat)).toNat = x.toNat
      rw [BitVec.toNat_ofNat, ← hnat, Nat.mod_eq_of_lt hlt]

theorem toNat_to16_v4 (a : UInt32) : (v4 a).to16.toNat = 0xffff * 2 ^ 32 + a.toNat := by
  have hlt := a.toNat_lt
  show (BitVec.ofNat 128 (0xffff * 2 ^ 32 + a.toNat)).toNat = _
  rw [BitVec.toNat_ofNat, Nat.mod_eq_of_lt (by omega)]

theorem toNat_to16_of_to4 (h : ip.to4 = some a) : ip.to16.toNat = 0xffff * 2 ^ 32 + a.toNat := by
  cases ip with
  | v4 b =>
    cases h
    exact toNat_to16_v4 a
  | v6 x => exact to4_eq_some_iff.mp h

theorem to16_div_of_to4_none (h : ip.to4 = none) : ip.to16.toNat / 2 ^ 32 ≠ 0xffff := by
  cases ip with
  | v4 b => cases h
  | v6 x => exact to4_eq_none_iff.mp h

theorem normalize_to16 (ip : IP) : (v6 ip.to16).normalize = ip.normalize := by
  cases ip with
  | v4 b => exact normalize_of_to4 (to4_eq_some_iff.mpr (toNat_to16_v4 b))
  | v6 x => rfl

theorem normalize_eq_iff {ip' : IP} :
    ip.normalize = ip'.normalize ↔ ip.to16.toNat = ip'.to16.toNat := by
  constructor
  · intro h
    rw [← to16_normalize ip, h, to16_normalize]
  · intro h
    rw [← normalize_to16 ip, BitVec.toNat_inj.mp h, normalize_to16]

theorem toNat_and_shortMask (hbits : net.hostBits ≤ 32) (a : UInt32) :
    (a &&& net.shortMask).toNat = a.toNat / net.size * net.size := by
  rw [size, shortMask]
  rw [hostBits] at hbits ⊢
  cases hip : net.ip with
  | v4 b => exact toNat_and_mask4 a net.ones
  | v6 b =>
    have hones : 32 - (net.ones - 96) = 128 - net.ones := by
      rw [hip, bits] at hbits
      omega
    show (a &&& mask4 (net.ones - 96)).toNat = a.toNat / 2 ^ (128 - net.ones) * 2 ^ (128 - net.ones)
    rw [toNat_and_mask4, hones]

theorem contains_iff_of_to4_none (hn : net.ip.to4 = none) (ha : ip.to4 = none) :
    net.contains ip = true ↔ net.ip.to16.toNat / net.size = ip.to16.toNat / net.size := by
  have hpos : 0 < net.size := Nat.two_pow_pos _
  cases hip : net.ip with
  | v4 b => simp [hip, to4] at hn
  | v6 b =>
    cases ip with
    | v4 a => cases ha
    | v6 a =>
      have hsize : net.size = 2 ^ (128 - net.ones) := by rw [size, hostBits, hip]; rfl
      rw [hip] at hn
      unfold contains
      rw [hip, hn, ha]
      simp only [decide_eq_true_eq, ← BitVec.toNat_inj, toNat_and_mask6, ← hsize,
        Nat.mul_left_inj hpos.ne', to16]

/-- A network holds the addresses whose 16-byte form begins as its own does. -/
theorem contains_iff (hbits : net.hostBits ≤ 32) :
    net.contains ip = true ↔ net.ip.to16.toNat / net.size = ip.to16.toNat / net.size := by
  have hpos : 0 < net.size := Nat.two_pow_pos _
  obtain ⟨k, hk⟩ : net.size ∣ 2 ^ 32 := Nat.pow_dvd_pow 2 hbits
  have hhigh : ∀ {x y : Nat}, x / net.size = y / net.size → x / 2 ^ 32 = y / 2 ^ 32 := by
    intro x y h
    rw [hk, ← Nat.div_div_eq_div_mul, h, Nat.div_div_eq_div_mul]
  cases hn : net.ip.to4 with
  | some n =>
    have hnet := toNat_to16_of_to4 hn
    cases ha : ip.to4 with
    | some a =>
      have hdiv : ∀ x, (0xffff * 2 ^ 32 + x) / net.size = 0xffff * k + x / net.size := by
        intro x
        rw [hk, Nat.mul_left_comm, Nat.mul_add_div hpos]
      unfold contains
      rw [hn, ha]
      simp only [decide_eq_true_eq, ← UInt32.toNat_inj, toNat_and_shortMask hbits, Nat.mul_left_inj hpos.ne', hnet, toNat_to16_of_to4 ha, hdiv,
        Nat.add_left_cancel_iff]
    | none =>
      have hmixed : net.contains ip = false := by unfold contains; rw [hn, ha]
      refine iff_of_false (by simp [hmixed]) fun h => to16_div_of_to4_none ha ?_
      have hlt := n.toNat_lt
      rw [← hhigh h]
      omega
  | none =>
    cases ha : ip.to4 with
    | some a =>
      have hmixed : net.contains ip = false := by unfold contains; rw [hn, ha]
      refine iff_of_false (by simp [hmixed]) fun h => to16_div_of_to4_none hn ?_
      have hip := toNat_to16_of_to4 ha
      have hlt := a.toNat_lt
      rw [hhigh h]
      omega
    | none => exact contains_iff_of_to4_none hn ha

theorem contains_normalize (net : IPNet) (ip : IP) : net.contains ip.normalize = net.contains ip := by
  unfold contains
  rw [to4_normalize]
  cases h : ip.to4 with
  | none => rw [IP.normalize, h]
  | some a => cases net.ip.to4 <;> rfl

end Forms

section Addresses

def IP.add (ip : IP) (i : Nat) : IP :=
  match ip with
  | .v4 a => .v4 (UInt32.ofNat (a.toNat + i))
  | .v6 a => .v6 (BitVec.ofNat 128 (a.toNat + i))

variable {b : BitVec 128} {a : UInt32} {n m : Nat}

theorem div_add_of_dvd {b i : Nat} (hb : n ∣ b) (hi : i < n) : (b + i) / n = b / n := by
  obtain ⟨q, rfl⟩ := hb
  have hpos : 0 < n := by omega
  rw [Nat.mul_add_div hpos, Nat.div_eq_of_lt hi, Nat.add_zero, Nat.mul_div_cancel_left q hpos]

theorem add_lt_of_dvd {b i : Nat} (hb : n ∣ b) (hm : n ∣ m) (hlt : b < m) (hi : i < n) : b + i < m := by
  obtain ⟨q, rfl⟩ := hb
  obtain ⟨r, rfl⟩ := hm
  have hqr : q + 1 ≤ r := Nat.lt_of_mul_lt_mul_left hlt
  have hle := Nat.mul_le_mul_left n hqr
  rw [Nat.mul_add, Nat.mul_one] at hle
  omega

variable {net : IPNet} {i : Nat}

theorem IPNet.IsNetwork.toNat_add (h : net.IsNetwork) (hi : i < net.size) :
    (net.ip.add i).toNat = net.ip.toNat + i := by
  have hones := h.ones_le
  have hdvd := h.aligned
  have hbits : net.size ∣ 2 ^ net.ip.bits := Nat.pow_dvd_pow 2 (Nat.sub_le _ _)
  cases hip : net.ip with
  | v4 b =>
    rw [hip] at hdvd hbits
    have hlt := add_lt_of_dvd hdvd hbits b.toNat_lt hi
    exact UInt32.toNat_ofNat_of_lt' hlt
  | v6 b =>
    rw [hip] at hdvd hbits
    have hlt := add_lt_of_dvd hdvd hbits b.isLt hi
    exact (BitVec.toNat_ofNat _ _).trans (Nat.mod_eq_of_lt hlt)

theorem IPNet.IsNetwork.toNat_to16_add (h : net.IsNetwork) (hi : i < net.size) :
    (net.ip.add i).to16.toNat = net.ip.to16.toNat + i := by
  have hadd := h.toNat_add hi
  cases hip : net.ip with
  | v4 b =>
    rw [hip] at hadd
    rw [add, toNat_to16_v4, toNat_to16_v4]
    change (UInt32.ofNat (b.toNat + i)).toNat = b.toNat + i at hadd
    omega
  | v6 b =>
    rwa [hip] at hadd

theorem IPNet.IsNetwork.normalize_add_inj {j : Nat} (h : net.IsNetwork) (hi : i < net.size)
    (hj : j < net.size) (heq : (net.ip.add i).normalize = (net.ip.add j).normalize) : i = j := by
  rw [normalize_eq_iff, h.toNat_to16_add hi, h.toNat_to16_add hj] at heq
  omega

theorem IPNet.IsNetwork.dvd_to16 (h : net.IsNetwork) : net.size ∣ net.ip.to16.toNat := by
  have hdvd := h.aligned
  have hsize : net.size ∣ 2 ^ net.ip.bits := Nat.pow_dvd_pow 2 (Nat.sub_le _ _)
  cases hip : net.ip with
  | v4 b =>
    rw [hip] at hdvd hsize
    rw [toNat_to16_v4]
    exact Nat.dvd_add (Nat.dvd_mul_left_of_dvd hsize _) hdvd
  | v6 b =>
    rwa [hip] at hdvd

theorem IPNet.IsNetwork.contains_iff_add (h : net.IsNetwork) (hbits : net.hostBits ≤ 32) {ip : IP} :
    net.contains ip = true ↔ ∃ i < net.size, (net.ip.add i).normalize = ip.normalize := by
  rw [contains_iff hbits]
  constructor
  · intro hdiv
    have hlt := Nat.mod_lt ip.to16.toNat (show net.size > 0 from Nat.two_pow_pos _)
    refine ⟨_, hlt, normalize_eq_iff.mpr ?_⟩
    rw [h.toNat_to16_add hlt, ← Nat.mul_div_cancel' h.dvd_to16, hdiv, Nat.div_add_mod]
  · rintro ⟨i, hi, hsame⟩
    rw [← normalize_eq_iff.mp hsame, h.toNat_to16_add hi, div_add_of_dvd h.dvd_to16 hi]

theorem IPNet.IsNetwork.hostBits_le_of_to4 (h : net.IsNetwork) (ha : net.ip.to4 = some a) :
    net.hostBits ≤ 32 := by
  have hnet := toNat_to16_of_to4 ha
  have hlt := a.toNat_lt
  by_contra hlarge
  have hpow : 2 ^ 33 ∣ net.ip.to16.toNat := dvd_trans (Nat.pow_dvd_pow 2 (by omega)) h.dvd_to16
  omega

theorem IPNet.IsNetwork.to4_add_ne_none (h : net.IsNetwork) (ha : net.ip.to4 = some a)
    (hi : i < net.size) : (net.ip.add i).to4 ≠ none := by
  intro hnone
  have hdvd := h.dvd_to16
  have hnet := toNat_to16_of_to4 ha
  have hlt := a.toNat_lt
  obtain ⟨k, hk⟩ : net.size ∣ 2 ^ 32 := Nat.pow_dvd_pow 2 (h.hostBits_le_of_to4 ha)
  refine to16_div_of_to4_none hnone ?_
  rw [h.toNat_to16_add hi, hk, ← Nat.div_div_eq_div_mul, div_add_of_dvd hdvd hi,
    Nat.div_div_eq_div_mul, ← hk]
  omega

end Addresses

end Net
