import Mathlib.Data.List.TakeDrop
import Mathlib.Data.Nat.Digits.Defs

/-! IP addresses and CIDR blocks with their textual forms, as the standard
libraries of the agent and of the dataplane read and print them. -/

namespace Net

open List

/-- An address in its 4-byte or its 16-byte form. -/
inductive IP where
  | v4 (addr : UInt32)
  | v6 (addr : BitVec 128)
  deriving DecidableEq

structure IPNet where
  ip : IP
  ones : Nat
  deriving DecidableEq

def parseOctet (cs : List Char) : Option Nat :=
  if cs.all Char.isDigit && cs.length ∈ [1, 2, 3] && !(cs.length ≠ 1 && cs.head? = some '0') then
    let n := Nat.ofDigitChars 10 cs 0
    if n ≤ 255 then some n else none
  else none

def joinOctets (a b c d : Nat) : UInt32 := UInt32.ofNat (((a * 256 + b) * 256 + c) * 256 + d)

def octet (a : UInt32) (i : Nat) : Nat := a.toNat / 256 ^ i % 256

def parseIPv4 (cs : List Char) : Option UInt32 :=
  match (cs.splitOn '.').mapM parseOctet with
  | some [a, b, c, d] => some (joinOctets a b c d)
  | _ => none

def printIPv4 (a : UInt32) : List Char :=
  ['.'].intercalate ([3, 2, 1, 0].map fun i => Nat.toDigits 10 (octet a i))

def hexDigit (c : Char) : Option Nat :=
  if c.isDigit then some (c.toNat - '0'.toNat)
  else if 'a' ≤ c ∧ c ≤ 'f' then some (c.toNat - 'a'.toNat + 10)
  else if 'A' ≤ c ∧ c ≤ 'F' then some (c.toNat - 'A'.toNat + 10)
  else none

def parseGroup (cs : List Char) : Option Nat :=
  if cs.length ∈ [1, 2, 3, 4] then
    (cs.mapM hexDigit).map (fun ds => ds.foldl (fun n d => 16 * n + d) 0)
  else none

/-- Colon-separated groups, of which the last may be a dotted IPv4 address. -/
def parseGroups : List (List Char) → Option (List Nat)
  | [] => some []
  | [cs] =>
    match parseGroup cs with
    | some g => some [g]
    | none => (parseIPv4 cs).map fun a => [a.toNat / 65536, a.toNat % 65536]
  | cs :: rest => do
    let g ← parseGroup cs
    let gs ← parseGroups rest
    return g :: gs

def fieldGroups (cs : List Char) : Option (List Nat) :=
  if cs = [] then some [] else parseGroups (cs.splitOn ':')

def splitEllipsis : List Char → Option (List Char × List Char)
  | ':' :: ':' :: cs => some ([], cs)
  | c :: cs => (splitEllipsis cs).map fun p => (c :: p.1, p.2)
  | [] => none

def joinGroups (gs : List Nat) : BitVec 128 :=
  BitVec.ofNat 128 (gs.foldl (fun n g => 65536 * n + g) 0)

def parseIPv6 (cs : List Char) : Option (BitVec 128) :=
  match splitEllipsis cs with
  | none => do
    let gs ← fieldGroups cs
    if gs.length = 8 then some (joinGroups gs) else none
  | some (h, t) => do
    let hs ← if h.contains '.' then none else fieldGroups h
    let ts ← fieldGroups t
    if hs.length + ts.length < 8 then
      some (joinGroups (hs ++ replicate (8 - (hs.length + ts.length)) 0 ++ ts))
    else none

def group (a : BitVec 128) (i : Nat) : Nat := a.toNat / 65536 ^ (7 - i) % 65536

def zeroRun (a : BitVec 128) (i : Nat) : Nat :=
  ((range (8 - i)).takeWhile fun j => group a (i + j) = 0).length

def ellipsisAt (a : BitVec 128) : Option (Nat × Nat) :=
  (range 8).foldl (fun best i =>
    let l := zeroRun a i
    if 2 ≤ l ∧ (best.map (fun b => b.2 - b.1)).getD 0 < l then some (i, i + l) else best) none

def printGroups (a : BitVec 128) (i j : Nat) : List Char :=
  [':'].intercalate (((range (j - i)).map (i + ·)).map fun k => Nat.toDigits 16 (group a k))

def printIPv6 (a : BitVec 128) : List Char :=
  match ellipsisAt a with
  | none => printGroups a 0 8
  | some (i, j) => printGroups a 0 i ++ [':', ':'] ++ printGroups a j 8

def IP.to4 : IP → Option UInt32
  | .v4 a => some a
  | .v6 a => if a >>> 32 = 0xffff#128 then some (UInt32.ofNat a.toNat) else none

def IP.chars (ip : IP) : List Char :=
  match ip.to4, ip with
  | some a, _ => printIPv4 a
  | none, .v6 a => printIPv6 a
  | none, .v4 a => printIPv4 a

def IP.string (ip : IP) : String := String.ofList ip.chars

def parseAddr (cs : List Char) : Option IP :=
  match parseIPv4 cs with
  | some a => some (.v4 a)
  | none => (parseIPv6 cs).map .v6

def mask4 (n : Nat) : UInt32 := ⟨BitVec.allOnes 32 <<< (32 - n)⟩

def mask6 (n : Nat) : BitVec 128 := BitVec.allOnes 128 <<< (128 - n)

def parseMaskLength (cs : List Char) : Option Nat :=
  if cs ≠ [] ∧ cs.all Char.isDigit then some (Nat.ofDigitChars 10 cs 0) else none

def parseCIDR (s : String) : Option IPNet :=
  match s.toList.span (· ≠ '/') with
  | (addr, '/' :: mask) =>
    match parseAddr addr, parseMaskLength mask with
    | some (.v4 a), some n => if n ≤ 32 then some ⟨.v4 (a &&& mask4 n), n⟩ else none
    | some (.v6 a), some n => if n ≤ 128 then some ⟨.v6 (a &&& mask6 n), n⟩ else none
    | _, _ => none
  | _ => none

/-- A network whose number has a 4-byte form prints with the length of the
low 32 bits of its mask. -/
def IPNet.string (net : IPNet) : String :=
  let len := match net.ip, net.ip.to4 with
    | .v6 _, some _ => net.ones - 96
    | _, _ => net.ones
  String.ofList (net.ip.chars ++ '/' :: Nat.toDigits 10 len)

/-- Address parsing of the dataplane, which accepts the same texts. -/
def parseIp (s : String) : Option IP := parseAddr s.toList

def stripPrefixLen (s : String) : String := String.ofList (s.toList.takeWhile (· ≠ '/'))

variable {cs : List Char} {c : Char} {s : String} {net : IPNet} {n b : Nat}

theorem parseOctet_toDigits (h : n < 256) : parseOctet (Nat.toDigits 10 n) = some n := by
  have hall : ∀ i : Fin 256, parseOctet (Nat.toDigits 10 i.val) = some i.val := by
    decide +kernel
  exact hall ⟨n, h⟩

theorem not_mem_toDigits (hc : ∀ n, Nat.digitChar n ≠ c) (hb : 1 < b) (n : Nat) :
    c ∉ Nat.toDigits b n := by
  induction n using Nat.strong_induction_on with
  | h n ih =>
    rw [Nat.toDigits_eq_if hb]
    split
    · simpa using fun he => hc n he.symm
    · have hlt : n / b < n := Nat.div_lt_self (by omega) hb
      simpa [ih _ hlt] using fun he => hc (n % b) he.symm

theorem octet_lt (a : UInt32) (i : Nat) : octet a i < 256 := Nat.mod_lt _ (by decide)

theorem toNat_octets (a : UInt32) :
    ((octet a 3 * 256 + octet a 2) * 256 + octet a 1) * 256 + octet a 0 = a.toNat := by
  have hlt : a.toNat < 2 ^ 32 := a.toNat_lt
  simp only [octet]
  omega

theorem joinOctets_octet (a : UInt32) :
    joinOctets (octet a 3) (octet a 2) (octet a 1) (octet a 0) = a := by
  rw [joinOctets, toNat_octets, UInt32.ofNat_toNat]

theorem parseIPv4_printIPv4 (a : UInt32) : parseIPv4 (printIPv4 a) = some a := by
  have hno : ∀ p ∈ [3, 2, 1, 0].map (fun i => Nat.toDigits 10 (octet a i)), '.' ∉ p := by
    intro p hp
    obtain ⟨i, _, rfl⟩ := mem_map.mp hp
    exact not_mem_toDigits (fun _ => Nat.digitChar_ne '.' (by decide)) (by decide) _
  rw [parseIPv4, printIPv4, splitOn_intercalate '.' hno (by simp)]
  simp [parseOctet_toDigits (octet_lt a _), joinOctets_octet]

theorem not_mem_printIPv4 (hdot : c ≠ '.') (hc : ∀ n, Nat.digitChar n ≠ c) (a : UInt32) :
    c ∉ printIPv4 a := by
  have hno := fun i => not_mem_toDigits (b := 10) hc (by decide) (octet a i)
  simp [printIPv4, intercalate_cons_cons, hno, hdot]

theorem mem_intercalate {sep : List Char} {ls : List (List Char)} (h : c ∈ sep.intercalate ls) :
    c ∈ sep ∨ ∃ p ∈ ls, c ∈ p := by
  induction ls with
  | nil => simp at h
  | cons p ls ih =>
    cases ls with
    | nil => exact .inr ⟨p, by simp, by simpa using h⟩
    | cons q ls =>
      rw [intercalate_cons_cons, append_assoc, mem_append, mem_append] at h
      rcases h with h | h | h
      · exact .inr ⟨p, by simp, h⟩
      · exact .inl h
      · rcases ih h with h | ⟨x, hx, hc⟩
        · exact .inl h
        · exact .inr ⟨x, mem_cons_of_mem p hx, hc⟩

theorem mapM_eq_none {α β : Type*} {f : α → Option β} {l : List α} {a : α} (ha : a ∈ l)
    (hf : f a = none) : l.mapM f = none := by
  induction l with
  | nil => simp at ha
  | cons x l ih =>
    rw [mapM_cons]
    rcases mem_cons.mp ha with rfl | ha
    · simp [hf]
    · cases f x <;> simp [ih ha]

theorem parseIPv4_of_mem (hc : c.isDigit = false) (hdot : c ≠ '.') (h : c ∈ cs) :
    parseIPv4 cs = none := by
  have hsplit : ['.'].intercalate (cs.splitOn '.') = cs := intercalate_splitOn '.'
  rw [← hsplit] at h
  rcases mem_intercalate h with h | ⟨p, hp, hmem⟩
  · exact absurd (mem_singleton.mp h) hdot
  · have hall : p.all Char.isDigit = false := all_eq_false.mpr ⟨c, hmem, by simp [hc]⟩
    have hoctet : parseOctet p = none := by simp [parseOctet, hall]
    simp [parseIPv4, mapM_eq_none hp hoctet]

theorem parseIPv4_of_colon (h : ':' ∈ cs) : parseIPv4 cs = none :=
  parseIPv4_of_mem (by decide) (by decide) h

section Foreign

variable {c : Char} (hc : hexDigit c = none) (hdot : c ≠ '.')

theorem not_isDigit_of_hexDigit (hc : hexDigit c = none) : c.isDigit = false := by
  by_contra hd
  simp [hexDigit, if_pos (eq_true_of_ne_false hd)] at hc

include hc hdot

theorem parseGroups_of_mem {ls : List (List Char)} {p : List Char} (hp : p ∈ ls) (h : c ∈ p) :
    parseGroups ls = none := by
  have hgroup {cs : List Char} (hmem : c ∈ cs) : parseGroup cs = none := by
    simp [parseGroup, mapM_eq_none hmem hc]
  induction ls using parseGroups.induct with
  | case1 => simp at hp
  | case2 cs g hg =>
    rw [mem_singleton.mp hp] at h
    simp [hgroup h] at hg
  | case3 cs hg =>
    rw [mem_singleton.mp hp] at h
    simp [parseGroups, hg, parseIPv4_of_mem (not_isDigit_of_hexDigit hc) hdot h]
  | case4 cs rest hne ih =>
    rw [parseGroups.eq_3 _ _ hne]
    rcases mem_cons.mp hp with rfl | hp
    · simp [hgroup h]
    · simp [ih hp]

theorem fieldGroups_of_mem (hcolon : c ≠ ':') {cs : List Char} (h : c ∈ cs) :
    fieldGroups cs = none := by
  have hsplit : [':'].intercalate (cs.splitOn ':') = cs := intercalate_splitOn ':'
  rw [fieldGroups, if_neg (ne_nil_of_mem h)]
  rw [← hsplit] at h
  rcases mem_intercalate h with h | ⟨p, hp, hmem⟩
  · exact absurd (mem_singleton.mp h) hcolon
  · exact parseGroups_of_mem hc hdot hp hmem

omit hc hdot in
theorem splitEllipsis_eq_some {cs h t : List Char} (hs : splitEllipsis cs = some (h, t)) :
    cs = h ++ ':' :: ':' :: t := by
  induction cs using splitEllipsis.induct generalizing h with
  | case1 cs =>
    obtain ⟨rfl, rfl⟩ : [] = h ∧ cs = t := by simpa [splitEllipsis] using hs
    rfl
  | case2 c cs hne ih =>
    rw [splitEllipsis.eq_2 _ _ hne, Option.map_eq_some_iff] at hs
    obtain ⟨⟨h', t'⟩, hs', heq⟩ := hs
    obtain ⟨rfl, rfl⟩ := Prod.mk.inj heq
    rw [ih hs', cons_append]
  | case3 => simp [splitEllipsis] at hs

theorem parseIPv6_of_mem (hcolon : c ≠ ':') {cs : List Char} (h : c ∈ cs) : parseIPv6 cs = none := by
  have hfield {cs : List Char} (hmem : c ∈ cs) := fieldGroups_of_mem hc hdot hcolon hmem
  unfold parseIPv6
  split
  · simp [hfield h]
  · rename_i head tail hs
    rw [splitEllipsis_eq_some hs] at h
    have hmem : c ∈ head ∨ c ∈ tail := by simpa [hcolon] using h
    rcases hmem with hmem | hmem <;> simp [hfield hmem]

theorem parseAddr_of_mem (hcolon : c ≠ ':') {cs : List Char} (h : c ∈ cs) : parseAddr cs = none := by
  simp [parseAddr, parseIPv4_of_mem (not_isDigit_of_hexDigit hc) hdot h,
    parseIPv6_of_mem hc hdot hcolon h]

end Foreign

theorem colon_mem_printIPv6 (a : BitVec 128) : ':' ∈ printIPv6 a := by
  unfold printIPv6
  split
  · simp [printGroups, range_succ, intercalate_cons_cons]
  · simp

theorem not_mem_printGroups (hsep : c ≠ ':') (hc : ∀ n, Nat.digitChar n ≠ c) (a : BitVec 128)
    (i j : Nat) : c ∉ printGroups a i j := by
  intro h
  rcases mem_intercalate h with h | ⟨p, hp, hmem⟩
  · exact hsep (mem_singleton.mp h)
  · obtain ⟨k, -, rfl⟩ := mem_map.mp hp
    exact not_mem_toDigits hc (by decide) _ hmem

theorem IP.not_mem_chars (hdot : c ≠ '.') (hsep : c ≠ ':') (hc : ∀ n, Nat.digitChar n ≠ c)
    (ip : IP) : c ∉ ip.chars := by
  have hv4 := not_mem_printIPv4 hdot hc
  have hg := not_mem_printGroups hsep hc
  unfold IP.chars printIPv6
  split
  · exact hv4 _
  · split <;> simp [hg, hsep]
  · exact hv4 _

theorem IP.chars_no_slash (ip : IP) : '/' ∉ ip.chars :=
  ip.not_mem_chars (by decide) (by decide) fun _ => Nat.digitChar_ne '/' (by decide)

theorem parseIp_stripPrefixLen (net : IPNet) :
    parseIp (stripPrefixLen net.string) = parseAddr net.ip.chars := by
  have htake : ∀ t, (net.ip.chars ++ '/' :: t).takeWhile (· ≠ '/') = net.ip.chars := by
    intro t
    rw [takeWhile_append_of_pos]
    · simp
    · intro c hc
      simpa using fun he : c = '/' => net.ip.chars_no_slash (he ▸ hc)
  simp only [parseIp, stripPrefixLen, IPNet.string, String.toList_ofList, htake]

theorem parseAddr_chars_v4 (a : UInt32) : parseAddr (IP.v4 a).chars = some (.v4 a) := by
  simp [parseAddr, IP.chars, IP.to4, parseIPv4_printIPv4]

theorem le_of_to4 {a : BitVec 128} (h : (IP.v6 (a &&& mask6 n)).to4 ≠ none) : 96 ≤ n := by
  by_contra hn
  have hbit : ((a &&& mask6 n) >>> 32).getLsbD 0 = false := by
    have h32 : 32 < 128 - n := by omega
    simp [mask6, h32]
  have he : (a &&& mask6 n) >>> 32 ≠ 0xffff#128 := by
    intro he
    rw [he] at hbit
    exact absurd hbit (by decide)
  simp [IP.to4, he] at h

theorem parseCIDR_cases (h : parseCIDR s = some net) :
    (∃ a, net.ip = .v4 (a &&& mask4 net.ones) ∧ net.ones ≤ 32 ∧
      parseAddr (s.toList.takeWhile (· ≠ '/')) = some (.v4 a)) ∨
    ∃ a, net.ip = .v6 (a &&& mask6 net.ones) ∧ net.ones ≤ 128 ∧
      parseAddr (s.toList.takeWhile (· ≠ '/')) = some (.v6 a) := by
  unfold parseCIDR at h
  rw [span_eq_takeWhile_dropWhile] at h
  split at h
  · next addr mask hspan =>
    obtain ⟨rfl, -⟩ := Prod.mk.inj hspan
    split at h
    · next a n haddr hmask =>
      obtain ⟨hle, hnet⟩ := Option.ite_none_right_eq_some.mp h
      cases hnet
      exact .inl ⟨a, rfl, hle, haddr⟩
    · next a n haddr hmask =>
      obtain ⟨hle, hnet⟩ := Option.ite_none_right_eq_some.mp h
      cases hnet
      exact .inr ⟨a, rfl, hle, haddr⟩
    · cases h
  · cases h

theorem parseIp_network_v4_iff (h : parseCIDR s = some net) (hle : net.ones ≤ 32) {d : UInt32} :
    parseIp (stripPrefixLen net.string) = some (.v4 d) ↔ net.ip = .v4 d := by
  rw [parseIp_stripPrefixLen]
  rcases parseCIDR_cases h with ⟨a, ha, -⟩ | ⟨a, ha, -⟩
  · rw [ha, parseAddr_chars_v4, Option.some.injEq]
  · have hto4 : (IP.v6 (a &&& mask6 net.ones)).to4 = none := by
      by_contra hne
      have hge := le_of_to4 hne
      omega
    have hcolon := colon_mem_printIPv6 (a &&& mask6 net.ones)
    rw [ha]
    simp [parseAddr, IP.chars, hto4, parseIPv4_of_colon hcolon]

end Net
