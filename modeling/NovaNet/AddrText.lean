import NovaNet.Subnet

/-! Addresses read back from their text. The text of an IPv6 address leaves out its longest
run of zero groups, which the reader fills in again. -/

namespace Net

open List Option

section Groups

theorem hexDigit_digitChar {n : Nat} (h : n < 16) : hexDigit (Nat.digitChar n) = some n := by
  have hall : ∀ i : Fin 16, hexDigit (Nat.digitChar i.val) = some i.val := by decide
  exact hall ⟨n, h⟩

theorem mapM_hexDigit_toDigits (n : Nat) :
    ((Nat.toDigits 16 n).mapM hexDigit).map (fun ds => ds.foldl (fun n d => 16 * n + d) 0) =
      some n := by
  induction n using Nat.strong_induction_on with
  | h n ih =>
    rw [Nat.toDigits_eq_if (by decide)]
    by_cases hlt : n < 16
    · simp [hlt, hexDigit_digitChar hlt]
    · have hdigit := hexDigit_digitChar (Nat.mod_lt n (show 16 > 0 by decide))
      obtain ⟨ds, hds, hsum⟩ := map_eq_some_iff.mp (ih (n / 16) (by omega))
      have hjoin : (ds ++ [n % 16]).foldl (fun n d => 16 * n + d) 0 = n := by
        rw [foldl_append, hsum]
        show 16 * (n / 16) + n % 16 = n
        omega
      rw [if_neg hlt, mapM_append, hds]
      simpa [hdigit] using hjoin

theorem parseGroup_toDigits {n : Nat} (h : n < 65536) : parseGroup (Nat.toDigits 16 n) = some n := by
  have hle := Nat.toDigits_length 16 n 4 (by decide) h
  have hpos := length_pos_iff.mpr (Nat.toDigits_ne_nil (n := n) (b := 16))
  have hmem : (Nat.toDigits 16 n).length ∈ [1, 2, 3, 4] := by
    simp only [mem_cons, not_mem_nil, or_false]
    omega
  rw [parseGroup, if_pos hmem]
  exact mapM_hexDigit_toDigits n

theorem parseGroups_toDigits (gs : List Nat) (h : ∀ g ∈ gs, g < 65536) :
    parseGroups (gs.map (Nat.toDigits 16)) = some gs := by
  induction gs with
  | nil => rfl
  | cons g gs ih =>
    have hg := parseGroup_toDigits (h g mem_cons_self)
    have htail := ih fun g' hg' => h g' (mem_cons_of_mem g hg')
    cases gs with
    | nil => simp [parseGroups, hg]
    | cons g' gs =>
      simp only [map_cons] at htail ⊢
      simp [parseGroups, hg, htail]

theorem colon_not_mem_toDigits (n : Nat) : ':' ∉ Nat.toDigits 16 n :=
  not_mem_toDigits (fun _ => Nat.digitChar_ne ':' (by decide)) (by decide) n

theorem fieldGroups_intercalate {gs : List Nat} (h : ∀ g ∈ gs, g < 65536) :
    fieldGroups ([':'].intercalate (gs.map (Nat.toDigits 16))) = some gs := by
  cases gs with
  | nil => rfl
  | cons g gs =>
    have hne : [':'].intercalate ((g :: gs).map (Nat.toDigits 16)) ≠ [] := by
      cases gs with
      | nil => simp [Nat.toDigits_ne_nil]
      | cons g' gs => simp [intercalate_cons_cons]
    have hno : ∀ p ∈ (g :: gs).map (Nat.toDigits 16), ':' ∉ p := by
      intro p hp
      obtain ⟨g', -, rfl⟩ := List.mem_map.mp hp
      exact colon_not_mem_toDigits g'
    rw [fieldGroups, if_neg hne, splitOn_intercalate ':' hno (by simp)]
    exact parseGroups_toDigits (g :: gs) h

end Groups

section Ellipsis

theorem splitEllipsis_append {w : List Char} (hw : ':' ∉ w) (r : List Char) :
    splitEllipsis (w ++ r) = (splitEllipsis r).map fun p => (w ++ p.1, p.2) := by
  induction w with
  | nil => simp
  | cons c w ih =>
    have hc : c ≠ ':' := fun he => hw (he ▸ mem_cons_self)
    have hstep : splitEllipsis (c :: (w ++ r)) =
        (splitEllipsis (w ++ r)).map fun p => (c :: p.1, p.2) := by
      rw [splitEllipsis]
      rintro cs ⟨⟩
      exact absurd rfl hc
    rw [cons_append, hstep, ih fun hmem => hw (mem_cons_of_mem c hmem), Option.map_map]
    rfl

theorem splitEllipsis_intercalate {ws : List (List Char)} (hno : ∀ w ∈ ws, ':' ∉ w)
    (hne : ∀ w ∈ ws, w ≠ []) (r : List Char) :
    splitEllipsis ([':'].intercalate ws ++ r) =
      (splitEllipsis r).map fun p => ([':'].intercalate ws ++ p.1, p.2) := by
  induction ws with
  | nil => simp
  | cons w ws ih =>
    have hw := hno w mem_cons_self
    have htail := ih (fun w' h => hno w' (mem_cons_of_mem w h))
      (fun w' h => hne w' (mem_cons_of_mem w h))
    cases ws with
    | nil => simpa using splitEllipsis_append hw r
    | cons w' ws =>
      obtain ⟨c, cs, rfl⟩ := exists_cons_of_ne_nil (hne w' (by simp))
      have hc : c ≠ ':' := fun he => hno (c :: cs) (by simp) (he ▸ mem_cons_self)
      have hcolon : ∀ l, splitEllipsis (':' :: c :: l) =
          (splitEllipsis (c :: l)).map fun p => (':' :: p.1, p.2) := by
        intro l
        rw [splitEllipsis]
        intro cs' _ he
        exact hc (List.cons.inj he).1
      obtain ⟨l, hl⟩ : ∃ l, [':'].intercalate ((c :: cs) :: ws) ++ r = c :: l := by
        cases ws with
        | nil => exact ⟨cs ++ r, by simp⟩
        | cons w'' ws => exact ⟨_, by rw [intercalate_cons_cons]; rfl⟩
      rw [intercalate_cons_cons, append_assoc, append_assoc,
        splitEllipsis_append hw, singleton_append, hl, hcolon, ← hl, htail, Option.map_map,
        Option.map_map]
      congr 1
      funext p
      simp

end Ellipsis

section Address

variable (a : BitVec 128)

theorem group_lt (i : Nat) : group a i < 65536 := Nat.mod_lt _ (by decide)

theorem foldl_groups {k : Nat} (hk : k ≤ 8) :
    ((List.range k).map (group a)).foldl (fun n g => 65536 * n + g) 0 = a.toNat / 65536 ^ (8 - k) := by
  induction k with
  | zero =>
    have hlt : a.toNat < 65536 ^ 8 := a.isLt
    exact (Nat.div_eq_of_lt hlt).symm
  | succ k ih =>
    have hpow : 65536 ^ (8 - k) = 65536 ^ (7 - k) * 65536 := by
      rw [← Nat.pow_succ]
      congr 1
      omega
    rw [range_succ, map_append, foldl_append, ih (by omega), hpow, ← Nat.div_div_eq_div_mul]
    show 65536 * (a.toNat / 65536 ^ (7 - k) / 65536) + a.toNat / 65536 ^ (7 - k) % 65536 = _
    rw [Nat.div_add_mod, show 8 - (k + 1) = 7 - k by omega]

theorem joinGroups_groups : joinGroups ((List.range 8).map (group a)) = a := by
  rw [joinGroups, foldl_groups a (Nat.le_refl 8), Nat.sub_self, Nat.pow_zero, Nat.div_one,
    BitVec.ofNat_toNat, BitVec.setWidth_eq]

theorem printGroups_eq (i j : Nat) : printGroups a i j =
    [':'].intercalate (((List.range' i (j - i)).map (group a)).map (Nat.toDigits 16)) := by
  rw [printGroups, range'_eq_map_range, List.map_map, List.map_map, List.map_map]
  rfl

theorem fieldGroups_printGroups (i j : Nat) :
    fieldGroups (printGroups a i j) = some ((List.range' i (j - i)).map (group a)) := by
  rw [printGroups_eq]
  apply fieldGroups_intercalate
  intro g hg
  obtain ⟨k, -, rfl⟩ := List.mem_map.mp hg
  exact group_lt a k

theorem splitEllipsis_printGroups (i j : Nat) (r : List Char) :
    splitEllipsis (printGroups a i j ++ r) =
      (splitEllipsis r).map fun p => (printGroups a i j ++ p.1, p.2) := by
  rw [printGroups_eq]
  apply splitEllipsis_intercalate
  · intro w hw
    obtain ⟨g, -, rfl⟩ := List.mem_map.mp hw
    exact colon_not_mem_toDigits g
  · intro w hw
    obtain ⟨g, -, rfl⟩ := List.mem_map.mp hw
    exact Nat.toDigits_ne_nil

theorem group_eq_zero_of_zeroRun {i k : Nat} (hik : i ≤ k) (hk : k < i + zeroRun a i) :
    group a k = 0 := by
  have hpre : (List.range (8 - i)).takeWhile (fun j => group a (i + j) = 0) <+:
      List.range (8 - i) := takeWhile_prefix _
  have hlt : k - i < ((List.range (8 - i)).takeWhile fun j => group a (i + j) = 0).length := by
    unfold zeroRun at hk
    omega
  have hget := hpre.getElem hlt
  rw [getElem_range] at hget
  have hall := all_takeWhile (p := fun j => group a (i + j) = 0) (l := List.range (8 - i))
  have hzero := List.all_eq_true.mp hall _ (getElem_mem hlt)
  rw [hget, show i + (k - i) = k by omega] at hzero
  exact of_decide_eq_true hzero

theorem zeroRun_le (i : Nat) : zeroRun a i ≤ 8 - i := by
  have hle := ( takeWhile_prefix (fun j => group a (i + j) = 0) (l := List.range (8 - i))).length_le
  rwa [length_range] at hle

theorem ellipsisAt_spec {i j : Nat} (h : ellipsisAt a = some (i, j)) :
    i < j ∧ j ≤ 8 ∧ ∀ k, i ≤ k → k < j → group a k = 0 := by
  have hfold : ∀ (is : List Nat) (best : Option (Nat × Nat)),
      (∀ b ∈ best, b.1 < b.2 ∧ b.2 ≤ 8 ∧ ∀ k, b.1 ≤ k → k < b.2 → group a k = 0) →
      (∀ i ∈ is, i < 8) →
      ∀ b ∈ is.foldl (fun best i =>
        let l := zeroRun a i
        if 2 ≤ l ∧ (best.map (fun b => b.2 - b.1)).getD 0 < l then some (i, i + l) else best) best,
        b.1 < b.2 ∧ b.2 ≤ 8 ∧ ∀ k, b.1 ≤ k → k < b.2 → group a k = 0 := by
    intro is
    induction is with
    | nil => exact fun best hbest _ => hbest
    | cons i is ih =>
      intro best hbest his
      refine ih _ ?_ fun i' hi' => his i' (mem_cons_of_mem i hi')
      have hi := his i mem_cons_self
      have hle := zeroRun_le a i
      dsimp only
      split
      · rintro b ⟨⟩
        exact ⟨by omega, by omega, fun k hk => group_eq_zero_of_zeroRun a hk⟩
      · exact hbest
  exact hfold (List.range 8) none (by simp) (by simp) (i, j) h

theorem groups_eq {i j : Nat} (hij : i < j) (hj : j ≤ 8)
    (hzero : ∀ k, i ≤ k → k < j → group a k = 0) :
    (List.range' 0 i).map (group a) ++ List.replicate (j - i) 0 ++
      (List.range' j (8 - j)).map (group a) = (List.range 8).map (group a) := by
  have hmid : List.replicate (j - i) 0 = (List.range' i (j - i)).map (group a) := by
    symm
    rw [eq_replicate_iff]
    refine ⟨by simp, fun g hg => ?_⟩
    obtain ⟨k, hk, rfl⟩ := List.mem_map.mp hg
    have hbound := mem_range'_1.mp hk
    exact hzero k hbound.1 (by omega)
  have hleft : List.range' 0 i ++ List.range' i (j - i) = List.range' 0 j := by
    have happ : List.range' 0 i ++ List.range' (0 + i) (j - i) = List.range' 0 (i + (j - i)) :=
      range'_append_1
    rwa [Nat.zero_add, show i + (j - i) = j by omega] at happ
  have hright : List.range' 0 j ++ List.range' j (8 - j) = List.range' 0 8 := by
    have happ : List.range' 0 j ++ List.range' (0 + j) (8 - j) = List.range' 0 (j + (8 - j)) :=
      range'_append_1
    rwa [Nat.zero_add, show j + (8 - j) = 8 by omega] at happ
  rw [hmid, ← map_append, ← map_append, hleft, hright, range_eq_range']

theorem parseIPv6_printIPv6 : parseIPv6 (printIPv6 a) = some a := by
  unfold printIPv6
  cases he : ellipsisAt a with
  | none =>
    have hsplit : splitEllipsis (printGroups a 0 8) = none := by
      have happ := splitEllipsis_printGroups a 0 8 []
      rwa [append_nil] at happ
    have hgroups := fieldGroups_printGroups a 0 8
    rw [← range_eq_range'] at hgroups
    simp only [parseIPv6, hsplit, hgroups, bind_eq_bind, bind_some]
    rw [if_pos (by simp)]
    exact congrArg some (joinGroups_groups a)
  | some p =>
    obtain ⟨i, j⟩ := p
    obtain ⟨hij, hj, hzero⟩ := ellipsisAt_spec a he
    have hsplit : splitEllipsis (printGroups a 0 i ++ [':', ':'] ++ printGroups a j 8) =
        some (printGroups a 0 i, printGroups a j 8) := by
      rw [append_assoc, splitEllipsis_printGroups]
      simp [splitEllipsis]
    have hdot : (printGroups a 0 i).contains '.' = false := by
      have hmem := not_mem_printGroups (show '.' ≠ ':' by decide)
        (fun _ => Nat.digitChar_ne '.' (by decide)) a 0 i
      simpa using hmem
    have hleft := fieldGroups_printGroups a 0 i
    rw [Nat.sub_zero] at hleft
    have hgap : 8 - (i + (8 - j)) = j - i := by omega
    simp only [parseIPv6, hsplit, hdot, Bool.false_eq_true, if_false, hleft,
      fieldGroups_printGroups, bind_eq_bind, bind_some, length_map,
      length_range', hgap]
    rw [if_pos (by omega), groups_eq a hij hj hzero, joinGroups_groups]

end Address

theorem chars_of_to4 {ip : IP} {a : UInt32} (h : ip.to4 = some a) : ip.chars = printIPv4 a := by
  unfold IP.chars
  rw [h]

theorem chars_of_long {a : BitVec 128} (h : (IP.v6 a).to4 = none) : (IP.v6 a).chars = printIPv6 a := by
  unfold IP.chars
  rw [h]

theorem parseIp_string (ip : IP) : parseIp ip.string = some ip.normalize := by
  rw [parseIp, IP.string, String.toList_ofList, parseAddr]
  cases h : ip.to4 with
  | some a => rw [chars_of_to4 h, parseIPv4_printIPv4, normalize_of_to4 h]
  | none =>
    cases ip with
    | v4 a => cases h
    | v6 a =>
      rw [chars_of_long h, parseIPv4_of_colon (colon_mem_printIPv6 a), parseIPv6_printIPv6,
        IP.normalize, h]
      rfl

theorem string_normalize (ip : IP) : ip.normalize.string = ip.string := by
  cases h : ip.to4 with
  | some a => rw [IP.string, IP.string, chars_of_to4 h, normalize_of_to4 h, chars_of_to4 rfl]
  | none => rw [IP.normalize, h]

theorem string_eq_iff {ip ip' : IP} : ip.string = ip'.string ↔ ip.normalize = ip'.normalize := by
  constructor
  · intro h
    have hparse := parseIp_string ip
    rw [h, parseIp_string ip'] at hparse
    exact (Option.some.inj hparse).symm
  · intro h
    rw [← string_normalize ip, h, string_normalize]

end Net
