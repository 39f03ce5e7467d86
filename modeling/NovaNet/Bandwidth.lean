import Mathlib.Algebra.Group.Nat.Defs
import Mathlib.Data.List.Basic

/-! Bandwidth annotations (internal/bandwidth/manager.go). The product wraps at 64 bits, and a
rate below one byte per second rounds down to 0, which means unlimited. -/

namespace NovaNet

open List

inductive NumError where
  | invalidSyntax
  | outOfRange
  deriving DecidableEq

inductive BandwidthError where
  | emptyValue
  | invalidValue (value : String) (cause : NumError)
  deriving DecidableEq

def isSpace (c : Char) : Bool :=
  c.toNat ∈ [0x9, 0xa, 0xb, 0xc, 0xd, 0x20, 0x85, 0xa0, 0x1680, 0x2028, 0x2029, 0x202f, 0x205f,
    0x3000] || (0x2000 ≤ c.toNat && c.toNat ≤ 0x200a)

def trimSpace (cs : List Char) : List Char :=
  ((cs.dropWhile isSpace).reverse.dropWhile isSpace).reverse

def parseUintFrom (n : Nat) : List Char → Except NumError Nat
  | [] => .ok n
  | c :: cs =>
    if c.isDigit then
      if 10 * n + (c.toNat - '0'.toNat) < 2 ^ 64 then
        parseUintFrom (10 * n + (c.toNat - '0'.toNat)) cs
      else .error .outOfRange
    else .error .invalidSyntax

def parseUint (cs : List Char) : Except NumError Nat :=
  if cs = [] then .error .invalidSyntax else parseUintFrom 0 cs

def suffixMultiplier (c : Char) : Option Nat :=
  if c = 'K' ∨ c = 'k' then some 1000
  else if c = 'M' ∨ c = 'm' then some (1000 * 1000)
  else if c = 'G' ∨ c = 'g' then some (1000 * 1000 * 1000)
  else none

/-- The number in front of the suffix and the multiplier in bits. -/
def splitSuffix (value : List Char) : List Char × Nat :=
  match value.getLast?.bind suffixMultiplier with
  | some m => (value.dropLast, m)
  | none => (value, 1)

def parseBandwidth (value : String) : Except BandwidthError Nat :=
  let value := trimSpace value.toList
  if value = [] then .error .emptyValue
  else
    match parseUint (trimSpace (splitSuffix value).1) with
    | .error e => .error (.invalidValue (String.ofList value) e)
    | .ok num => .ok (if num = 0 then 0 else num * (splitSuffix value).2 % 2 ^ 64 / 8)

/-- The text is the number `n` with a suffix of multiplier `m` or none, blanks aside. -/
def WrittenAs (s : String) (n m : Nat) : Prop :=
  ∃ ds, ds ≠ [] ∧ (∀ c ∈ ds, c.isDigit = true) ∧ n = Nat.ofDigitChars 10 ds 0 ∧
    (s.toList.filter (!isSpace ·) = ds ∧ m = 1 ∨
      ∃ c, s.toList.filter (!isSpace ·) = ds ++ [c] ∧ suffixMultiplier c = some m)

variable {s : String} {cs : List Char} {n m b : Nat}

theorem filter_trimSpace (cs : List Char) :
    (trimSpace cs).filter (!isSpace ·) = cs.filter (!isSpace ·) := by
  have hdrop : ∀ cs : List Char,
      (cs.dropWhile isSpace).filter (!isSpace ·) = cs.filter (!isSpace ·) := by
    intro cs
    induction cs with
    | nil => rfl
    | cons c cs ih =>
      by_cases hc : isSpace c = true
      · rw [dropWhile_cons_of_pos hc, ih, filter_cons_of_neg (by simp [hc])]
      · rw [dropWhile_cons_of_neg hc]
  rw [trimSpace, filter_reverse, hdrop, filter_reverse, reverse_reverse, hdrop]

theorem parseUintFrom_ok (h : parseUintFrom n cs = .ok b) :
    (∀ c ∈ cs, c.isDigit = true) ∧ b = Nat.ofDigitChars 10 cs n := by
  induction cs generalizing n with
  | nil =>
    cases h
    exact ⟨by simp, rfl⟩
  | cons c cs ih =>
    unfold parseUintFrom at h
    split_ifs at h with hc hlt
    obtain ⟨hcs, hb⟩ := ih h
    exact ⟨forall_mem_cons.mpr ⟨hc, hcs⟩, hb⟩

theorem suffix_not_digit {c : Char} (h : suffixMultiplier c = some m) :
    c.isDigit = false ∧ isSpace c = false := by
  unfold suffixMultiplier at h
  split_ifs at h with hK hM hG
  · rcases hK with rfl | rfl <;> decide
  · rcases hM with rfl | rfl <;> decide
  · rcases hG with rfl | rfl <;> decide

theorem not_isSpace_of_isDigit {c : Char} (h : c.isDigit = true) : isSpace c = false := by
  have hrange : 48 ≤ c.toNat ∧ c.toNat ≤ 57 := by
    simpa [Char.isDigit, UInt32.le_iff_toNat_le] using h
  simp only [isSpace, mem_cons, not_mem_nil, or_false, Bool.or_eq_false_iff, Bool.and_eq_false_iff,
    decide_eq_false_iff_not]
  omega

theorem WrittenAs.unique {n' m' : Nat} (h : WrittenAs s n m) (h' : WrittenAs s n' m') :
    n = n' ∧ m = m' := by
  obtain ⟨ds, -, hds, rfl, hread⟩ := h
  obtain ⟨ds', -, hds', rfl, hread'⟩ := h'
  rcases hread with ⟨hs, rfl⟩ | ⟨c, hs, hc⟩ <;> rcases hread' with ⟨hs', rfl⟩ | ⟨c', hs', hc'⟩
  · rw [← hs, ← hs']
    exact ⟨rfl, rfl⟩
  · have hdigit := hds c' (by rw [← hs, hs']; simp)
    simp [(suffix_not_digit hc').1] at hdigit
  · have hdigit := hds' c (by rw [← hs', hs]; simp)
    simp [(suffix_not_digit hc).1] at hdigit
  · rw [hs] at hs'
    obtain ⟨rfl, hsame⟩ := append_inj' hs' rfl
    cases hsame
    rw [hc] at hc'
    cases hc'
    exact ⟨rfl, rfl⟩

theorem parseBandwidth_ok (h : parseBandwidth s = .ok b) :
    ∃ n m, WrittenAs s n m ∧ b = if n = 0 then 0 else n * m % 2 ^ 64 / 8 := by
  have hfilter := filter_trimSpace s.toList
  unfold parseBandwidth at h
  generalize trimSpace s.toList = value at h hfilter
  dsimp only at h
  split_ifs at h
  cases hnum : parseUint (trimSpace (splitSuffix value).1) with
  | error e => simp [hnum] at h
  | ok num =>
    simp only [hnum, Except.ok.injEq] at h
    unfold parseUint at hnum
    split_ifs at hnum with hne
    obtain ⟨hdigits, rfl⟩ := parseUintFrom_ok hnum
    refine ⟨_, _, ⟨_, hne, hdigits, rfl, ?_⟩, h.symm⟩
    have hplain : (splitSuffix value).1.filter (!isSpace ·) = trimSpace (splitSuffix value).1 := by
      rw [← filter_trimSpace, filter_eq_self]
      intro c hc
      rw [not_isSpace_of_isDigit (hdigits c hc), Bool.not_false]
    rw [← hplain, ← hfilter]
    cases hlast : value.getLast?.bind suffixMultiplier with
    | none => exact .inl (by simp [splitSuffix, hlast])
    | some m =>
      obtain ⟨c, hc, hsuffix⟩ := Option.bind_eq_some_iff.mp hlast
      refine .inr ⟨c, ?_, by simpa [splitSuffix, hlast] using hsuffix⟩
      have hsplit : (splitSuffix value).1 = value.dropLast := by simp [splitSuffix, hlast]
      rw [hsplit]
      conv_lhs => rw [← dropLast_append_getLast? c hc]
      simp [(suffix_not_digit hsuffix).2]

/-- A number that is accepted gives the bytes of its bits exactly if the bits do not wrap and
come to a byte at least. -/
theorem parseBandwidth_exact_iff (h : parseBandwidth s = .ok b) :
    (∃ n m, WrittenAs s n m) ∧ ∀ n m, WrittenAs s n m →
      ((b = n * m / 8 ∧ (0 < n → b ≠ 0)) ↔ n * m < 2 ^ 64 ∧ (n = 0 ∨ 8 ≤ n * m)) := by
  obtain ⟨n, m, hread, rfl⟩ := parseBandwidth_ok h
  refine ⟨⟨n, m, hread⟩, fun n' m' hread' => ?_⟩
  obtain ⟨rfl, rfl⟩ := hread.unique hread'
  by_cases hn : n = 0
  · simp [hn]
  · rw [if_neg hn]
    generalize n * m = bits
    omega

theorem parseBandwidth_exact_iff_example : parseBandwidth " 10M" = .ok 1250000 ∧
    ∃ n m, WrittenAs " 10M" n m :=
  have h : parseBandwidth " 10M" = .ok 1250000 := by decide +kernel
  ⟨h, (parseBandwidth_exact_iff h).1⟩

/-- Seven bits per second become unlimited, and a large rate becomes 48 bytes per second. -/
theorem parseBandwidth_rounds_and_wraps :
    (parseBandwidth "7" = .ok 0 ∧ WrittenAs "7" 7 1 ∧ ¬ (0 < 7 → 0 ≠ 0)) ∧
    parseBandwidth "18446744073709552K" = .ok 48 ∧
      WrittenAs "18446744073709552K" 18446744073709552 1000 ∧ 48 ≠ 18446744073709552 * 1000 / 8 :=
  ⟨⟨by decide +kernel, ⟨['7'], by decide, by simp, rfl, .inl ⟨by decide +kernel, rfl⟩⟩, by decide⟩,
    by decide +kernel,
    ⟨"18446744073709552".toList, by decide +kernel, by simp, by decide +kernel,
      .inr ⟨'K', by decide +kernel, rfl⟩⟩, by omega⟩

end NovaNet
