import NovaNet.TcPrograms

/-! Address translation in the bytes of a packet: what the two rewriting helpers store,
and which headers the next program reads afterwards. -/

namespace NovaNet

def be16Bytes (x : UInt16) : List UInt8 := [(x >>> 8).toUInt8, x.toUInt8]

def be32Bytes (x : UInt32) : List UInt8 :=
  be16Bytes (x >>> 16).toUInt16 ++ be16Bytes x.toUInt16

attribute [local simp] be16Bytes be32Bytes

theorem length_be16Bytes (x : UInt16) : (be16Bytes x).length = 2 := rfl

theorem length_be32Bytes (x : UInt32) : (be32Bytes x).length = 4 := rfl

/-- The kernel's incremental update of a checksum, by the flags of the call, from the old
checksum and the old and new value of a field. -/
abbrev CsumReplace := UInt64 → UInt16 → UInt64 → UInt64 → UInt16

namespace Packet

def overwrite (p : Packet) (offset : Nat) (bytes : List UInt8) : Packet :=
  p.mapIdx fun i b => if offset ≤ i ∧ i < offset + bytes.length then bytes.getD (i - offset) 0 else b

def store (p : Packet) (offset : Nat) (bytes : List UInt8) : Except Unit Packet :=
  if p.fits offset bytes.length then .ok (p.overwrite offset bytes) else .error ()

def csumReplace (csum : CsumReplace) (p : Packet) (offset : Nat) (old new flags : UInt64) :
    Except Unit Packet :=
  p.store offset (be16Bytes (csum flags (p.be16 offset) old new))

def storeAll (p : Packet) : List (Packet → Except Unit Packet) → Packet
  | [] => p
  | f :: fs =>
    match f p with
    | .error _ => p
    | .ok p' => p'.storeAll fs

end Packet

open Packet

def l4CsumOffset (l4Offset : Nat) (protocol : UInt8) : Nat :=
  if protocol = 6 then l4Offset + 16 else l4Offset + 6

def performNat (csum : CsumReplace) (ipOffset portOffset l4Offset : Nat) (protocol : UInt8)
    (oldIp newIp : UInt32) (oldPort newPort : UInt16) (p : Packet) : Packet :=
  p.storeAll <|
    [fun p => p.csumReplace csum 24 oldIp.toUInt64 newIp.toUInt64 4,
      fun p => p.store ipOffset (be32Bytes newIp)] ++
    if protocol = 6 ∨ protocol = 17 then
      [fun p => p.csumReplace csum (l4CsumOffset l4Offset protocol) oldIp.toUInt64 newIp.toUInt64 0x14,
        fun p => p.csumReplace csum (l4CsumOffset l4Offset protocol) oldPort.toUInt64
          newPort.toUInt64 2,
        fun p => p.store portOffset (be16Bytes newPort)]
    else []

def performDnat (csum : CsumReplace) (l4Offset : Nat) :=
  performNat csum 30 (l4Offset + 2) l4Offset

def performSnat (csum : CsumReplace) (l4Offset : Nat) := performNat csum 26 l4Offset l4Offset

section Bytes

variable {p : Packet} {offset i : Nat} {bytes : List UInt8}

@[simp] theorem length_overwrite : (p.overwrite offset bytes).length = p.length := by
  simp [overwrite]

theorem byte_overwrite (hi : i < p.length) : (p.overwrite offset bytes).byte i =
    if offset ≤ i ∧ i < offset + bytes.length then bytes.getD (i - offset) 0 else p.byte i := by
  simp [byte, overwrite, List.getD_eq_getElem?_getD, hi]

theorem byte_overwrite_of_lt (h : i < offset ∨ offset + bytes.length ≤ i) :
    (p.overwrite offset bytes).byte i = p.byte i := by
  by_cases hi : i < p.length
  · rw [byte_overwrite hi, if_neg (by omega)]
  · simp [byte, overwrite, hi]

theorem be16_congr {q : Packet} (h : ∀ j, i ≤ j → j < i + 2 → q.byte j = p.byte j) :
    q.be16 i = p.be16 i := by
  rw [be16, h i (by omega) (by omega), h (i + 1) (by omega) (by omega), be16]

theorem be32_congr {q : Packet} (h : ∀ j, i ≤ j → j < i + 4 → q.byte j = p.byte j) :
    q.be32 i = p.be32 i := by
  rw [be32, be16_congr fun j _ _ => h j (by omega) (by omega),
    be16_congr fun j _ _ => h j (by omega) (by omega), be32]

theorem shiftLeft_or_mod (n k : Nat) : (n / 2 ^ k) <<< k ||| n % 2 ^ k = n := by
  rw [← Nat.shiftLeft_add_eq_or_of_lt (Nat.mod_lt n (Nat.two_pow_pos k)), Nat.shiftLeft_eq,
    Nat.div_add_mod']

theorem be16_join (x : UInt16) : ((x >>> 8).toUInt8.toUInt16 <<< 8) ||| x.toUInt8.toUInt16 = x := by
  have hx := x.toNat_lt
  apply UInt16.toNat_inj.mp
  conv_rhs => rw [← shiftLeft_or_mod x.toNat 8]
  simp [Nat.shiftLeft_eq, Nat.shiftRight_eq_div_pow]
  congr 1
  omega

theorem be32_join (x : UInt32) : ((x >>> 16).toUInt16.toUInt32 <<< 16) ||| x.toUInt16.toUInt32 = x := by
  have hx := x.toNat_lt
  apply UInt32.toNat_inj.mp
  conv_rhs => rw [← shiftLeft_or_mod x.toNat 16]
  simp [Nat.shiftLeft_eq, Nat.shiftRight_eq_div_pow]
  congr 1
  omega

theorem be16_eq {x : UInt16} (hhi : p.byte i = (x >>> 8).toUInt8)
    (hlo : p.byte (i + 1) = x.toUInt8) : p.be16 i = x := by
  rw [be16, hhi, hlo, be16_join]

theorem be16_overwrite (x : UInt16) (h : offset + 2 ≤ p.length) :
    (p.overwrite offset (be16Bytes x)).be16 offset = x := by
  apply be16_eq <;>
  · rw [byte_overwrite (by omega), if_pos (by simp)]
    simp

theorem be32_overwrite (x : UInt32) (h : offset + 4 ≤ p.length) :
    (p.overwrite offset (be32Bytes x)).be32 offset = x := by
  have hbyte : ∀ k < 4, (p.overwrite offset (be32Bytes x)).byte (offset + k) =
      (be32Bytes x).getD k 0 := by
    intro k hk
    rw [byte_overwrite (by omega), if_pos (by simp; omega), Nat.add_sub_cancel_left]
  have hhi := be16_eq (x := (x >>> 16).toUInt16) (hbyte 0 (by decide)) (hbyte 1 (by decide))
  have hlo := be16_eq (x := x.toUInt16) (hbyte 2 (by decide)) (hbyte 3 (by decide))
  rw [Nat.add_zero] at hhi
  rw [be32, hhi, hlo, be32_join]

end Bytes

section Nat

variable {ihl : UInt8 → UInt8} {p q : Packet} {h : Headers} {csum : CsumReplace}
  {oldIp newIp : UInt32} {oldPort newPort : UInt16} {ipOffset portOffset : Nat}

def Packet.l4Offset (ihl : UInt8 → UInt8) (p : Packet) : Nat := 14 + (ihl (p.byte 14)).toNat * 4

/-- A TCP or UDP packet whose transport header comes after the IP header and is there
as a whole. -/
structure Packet.WellFormed (ihl : UInt8 → UInt8) (p : Packet) (h : Headers) : Prop where
  parsed : parseHeaders ihl p = .ok (some h)
  transport : h.protocol = 6 ∨ h.protocol = 17
  after : 34 ≤ p.l4Offset ihl
  complete : p.l4Offset ihl + (if h.protocol = 6 then 20 else 8) ≤ p.length

theorem Packet.WellFormed.parse (hp : p.WellFormed ihl h) (hlen : q.length = p.length)
    (hsame : ∀ i, i < 24 → q.byte i = p.byte i) :
    parseHeaders ihl q = .ok (some { h with
      srcIp := q.be32 26
      dstIp := q.be32 30
      srcPort := q.be16 (p.l4Offset ihl)
      dstPort := q.be16 (p.l4Offset ihl + 2)
      tcpFlags := if h.protocol = 6 then q.byte (p.l4Offset ihl + 13) else 0 }) := by
  obtain ⟨hparsed, htransport, hafter, hcomplete⟩ := hp
  have hlong : 34 ≤ p.length := by omega
  have hframe : p.fits 0 14 = true ∧ p.fits 14 20 = true := by
    simp only [fits, decide_eq_true_eq]
    omega
  have hframe' : q.fits 0 14 = true ∧ q.fits 14 20 = true := by
    simp only [fits, decide_eq_true_eq, hlen]
    omega
  have hipv4 : p.be16 12 = 0x0800 := by
    by_contra hne
    simp [parseHeaders, hframe, hne] at hparsed
  simp only [parseHeaders, hframe, hipv4, ne_eq, not_true, if_true, if_false, Except.ok.injEq,
    Option.some.injEq] at hparsed
  subst hparsed
  simp only at htransport hcomplete
  have hword : ∀ i, i + 2 ≤ 24 → q.be16 i = p.be16 i :=
    fun i hi => be16_congr fun j _ _ => hsame j (by omega)
  simp only [parseHeaders, hframe', hword 12 (by omega), hipv4, hsame 14 (by omega),
    hword 16 (by omega), hsame 23 (by omega), ne_eq, not_true, if_true, if_false, l4Offset]
  unfold l4Offset at hcomplete
  rcases htransport with htcp | hudp
  · rw [if_pos htcp] at hcomplete
    have hflags : 14 + (ihl (p.byte 14)).toNat * 4 + 13 + 1 ≤ p.length := by omega
    simp [parseL4Ports, fits, htcp, hlen, hcomplete, hflags]
  · have hne : ¬ p.byte 23 = 6 := by simp [hudp]
    rw [if_neg hne] at hcomplete
    simp [parseL4Ports, fits, hudp, hlen, hcomplete]

def Packet.translated (p : Packet) (ipOffset csumOffset portOffset : Nat) (newIp : UInt32)
    (newPort c₁ c₂ c₃ : UInt16) : Packet :=
  ((((p.overwrite 24 (be16Bytes c₁)).overwrite ipOffset (be32Bytes newIp)).overwrite csumOffset
    (be16Bytes c₂)).overwrite csumOffset (be16Bytes c₃)).overwrite portOffset (be16Bytes newPort)

section Translated

variable {csumOffset i : Nat} {c₁ c₂ c₃ : UInt16}

theorem byte_translated (hi : (i < 24 ∨ 26 ≤ i) ∧ (i < ipOffset ∨ ipOffset + 4 ≤ i) ∧
      (i < csumOffset ∨ csumOffset + 2 ≤ i) ∧ (i < portOffset ∨ portOffset + 2 ≤ i)) :
    (p.translated ipOffset csumOffset portOffset newIp newPort c₁ c₂ c₃).byte i = p.byte i := by
  obtain ⟨hcs, hip, hl4, hport⟩ := hi
  unfold translated
  rw [byte_overwrite_of_lt hport, byte_overwrite_of_lt hl4, byte_overwrite_of_lt hl4,
    byte_overwrite_of_lt hip, byte_overwrite_of_lt hcs]

theorem newIp_translated (hip : ipOffset + 4 ≤ p.length) (hl4 : ipOffset + 4 ≤ csumOffset)
    (hport : ipOffset + 4 ≤ portOffset) :
    (p.translated ipOffset csumOffset portOffset newIp newPort c₁ c₂ c₃).be32 ipOffset = newIp := by
  refine Eq.trans (be32_congr fun j _ _ => ?_)
    (be32_overwrite (p := p.overwrite 24 (be16Bytes c₁)) newIp (by simpa using hip))
  rw [translated, byte_overwrite_of_lt (by omega), byte_overwrite_of_lt (by omega),
    byte_overwrite_of_lt (by omega)]

theorem newPort_translated (hport : portOffset + 2 ≤ p.length) :
    (p.translated ipOffset csumOffset portOffset newIp newPort c₁ c₂ c₃).be16 portOffset =
      newPort := by
  unfold translated
  rw [be16_overwrite newPort (by simpa using hport)]

end Translated

theorem Packet.WellFormed.room (hp : p.WellFormed ihl h) : 34 ≤ p.l4Offset ihl ∧
    p.l4Offset ihl + 8 ≤ p.length ∧ p.l4Offset ihl + 4 ≤ l4CsumOffset (p.l4Offset ihl) h.protocol ∧
    l4CsumOffset (p.l4Offset ihl) h.protocol + 2 ≤ p.length := by
  have hcomplete := hp.complete
  refine ⟨hp.after, ?_⟩
  unfold l4CsumOffset
  by_cases htcp : h.protocol = 6 <;> simp only [htcp, if_true, if_false] at hcomplete ⊢ <;> omega

variable (csum oldIp newIp oldPort newPort) in
theorem Packet.WellFormed.performNat_eq (hp : p.WellFormed ihl h)
    (hip : ipOffset + 4 ≤ p.length) (hport : portOffset + 2 ≤ p.length) :
    ∃ c₁ c₂ c₃ : UInt16, performNat csum ipOffset portOffset (p.l4Offset ihl) h.protocol oldIp newIp
      oldPort newPort p =
      p.translated ipOffset (l4CsumOffset (p.l4Offset ihl) h.protocol) portOffset newIp newPort
        c₁ c₂ c₃ := by
  obtain ⟨hafter, hshort, -, hl4Csum⟩ := hp.room
  have hipCsum : 24 + 2 ≤ p.length := by omega
  simp only [performNat, hp.transport, if_true, List.cons_append, List.nil_append, storeAll,
    csumReplace, store, fits, length_overwrite, length_be16Bytes,
    length_be32Bytes, hipCsum, hip, hl4Csum, hport, decide_true]
  exact ⟨_, _, _, rfl⟩

theorem Packet.WellFormed.headers (hp : p.WellFormed ihl h) :
    p.be32 26 = h.srcIp ∧ p.be32 30 = h.dstIp ∧ p.be16 (p.l4Offset ihl) = h.srcPort ∧
      p.be16 (p.l4Offset ihl + 2) = h.dstPort ∧
      (if h.protocol = 6 then p.byte (p.l4Offset ihl + 13) else 0) = h.tcpFlags := by
  have hparsed := hp.parse (q := p) rfl fun _ _ => rfl
  rw [hp.parsed] at hparsed
  have hsame := Option.some.inj (Except.ok.inj hparsed)
  generalize h.protocol = x at hsame ⊢
  rw [hsame]
  exact ⟨rfl, rfl, rfl, rfl, rfl⟩

theorem Packet.WellFormed.parse_translated (hp : p.WellFormed ihl h) {c₁ c₂ c₃ : UInt16}
    (hoffsets : 26 ≤ ipOffset ∧ ipOffset + 4 ≤ 34 ∧ p.l4Offset ihl ≤ portOffset ∧
      portOffset + 2 ≤ p.l4Offset ihl + 4) (hq : q = p.translated ipOffset
      (l4CsumOffset (p.l4Offset ihl) h.protocol) portOffset newIp newPort c₁ c₂ c₃) :
    parseHeaders ihl q = .ok (some { h with
      srcIp := q.be32 26
      dstIp := q.be32 30
      srcPort := q.be16 (p.l4Offset ihl)
      dstPort := q.be16 (p.l4Offset ihl + 2) }) := by
  obtain ⟨hafter, -, hcs, -⟩ := hp.room
  have hbyte : ∀ i, i < 24 → q.byte i = p.byte i := by
    intro i hi
    rw [hq, byte_translated (by omega)]
  have hflags : (if h.protocol = 6 then q.byte (p.l4Offset ihl + 13) else 0) = h.tcpFlags := by
    rw [← hp.headers.2.2.2.2]
    by_cases htcp : h.protocol = 6
    · have hcsTcp : l4CsumOffset (p.l4Offset ihl) h.protocol = p.l4Offset ihl + 16 := by
        rw [l4CsumOffset, if_pos htcp]
      simp only [htcp, if_true]
      rw [hq, byte_translated (by omega)]
    · simp only [htcp, if_false]
  have hlen : q.length = p.length := by
    simp [hq, translated]
  rw [hp.parse hlen hbyte, hflags]

theorem Packet.WellFormed.parse_performDnat (hp : p.WellFormed ihl h) :
    parseHeaders ihl (performDnat csum (p.l4Offset ihl) h.protocol oldIp newIp oldPort newPort p) =
      .ok (some { h with dstIp := newIp, dstPort := newPort }) := by
  obtain ⟨hafter, hshort, hcs, -⟩ := hp.room
  obtain ⟨hsrcIp, -, hsrcPort, -, -⟩ := hp.headers
  obtain ⟨c₁, c₂, c₃, heq⟩ := hp.performNat_eq csum oldIp newIp oldPort newPort
    (show 30 + 4 ≤ p.length by omega) (show p.l4Offset ihl + 2 + 2 ≤ p.length by omega)
  rw [performDnat, heq, hp.parse_translated (by omega) rfl,
    newIp_translated (by omega) (by omega) (by omega), newPort_translated (by omega),
    be32_congr fun j _ _ => byte_translated (by omega),
    be16_congr fun j _ _ => byte_translated (by omega), hsrcIp, hsrcPort]

theorem Packet.WellFormed.parse_performSnat (hp : p.WellFormed ihl h) :
    parseHeaders ihl (performSnat csum (p.l4Offset ihl) h.protocol oldIp newIp oldPort newPort p) =
      .ok (some { h with srcIp := newIp, srcPort := newPort }) := by
  obtain ⟨hafter, hshort, hcs, -⟩ := hp.room
  obtain ⟨-, hdstIp, -, hdstPort, -⟩ := hp.headers
  obtain ⟨c₁, c₂, c₃, heq⟩ := hp.performNat_eq csum oldIp newIp oldPort newPort
    (show 26 + 4 ≤ p.length by omega) (show p.l4Offset ihl + 2 ≤ p.length by omega)
  rw [performSnat, heq, hp.parse_translated (by omega) rfl,
    newIp_translated (by omega) (by omega) (by omega), newPort_translated (by omega),
    be32_congr fun j _ _ => byte_translated (by omega),
    be16_congr fun j _ _ => byte_translated (by omega), hdstIp, hdstPort]

end Nat

end NovaNet
