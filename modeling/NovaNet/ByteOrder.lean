import Mathlib.Data.Nat.Digits.Lemmas

/-! Words of a fixed number of bytes. A word written with its high byte first and read
with its low byte first comes out swapped, and swapping twice gives the word back. -/

namespace ByteOrder

open List

def leBytes : Nat → Nat → List Nat
  | 0, _ => []
  | n + 1, x => x % 256 :: leBytes n (x / 256)

def leRead (bytes : List Nat) : Nat := Nat.ofDigits 256 bytes

def swap (n x : Nat) : Nat := leRead (leBytes n x).reverse

theorem length_leBytes (n x : Nat) : (leBytes n x).length = n := by
  induction n generalizing x with
  | zero => rfl
  | succ n ih => simp [leBytes, ih]

theorem lt_of_mem_leBytes {n x d : Nat} (h : d ∈ leBytes n x) : d < 256 := by
  induction n generalizing x with
  | zero => simp [leBytes] at h
  | succ n ih =>
    rcases mem_cons.mp h with rfl | h
    · exact Nat.mod_lt _ (by decide)
    · exact ih h

theorem leRead_leBytes {n x : Nat} (h : x < 256 ^ n) : leRead (leBytes n x) = x := by
  induction n generalizing x with
  | zero =>
    have hx : x = 0 := by omega
    simp [leBytes, leRead, hx]
  | succ n ih =>
    have hlt : x / 256 < 256 ^ n := by
      rw [Nat.pow_succ] at h
      exact Nat.div_lt_of_lt_mul (by omega)
    have htail : Nat.ofDigits 256 (leBytes n (x / 256)) = x / 256 := ih hlt
    rw [leRead, leBytes, Nat.ofDigits_cons, htail]
    omega

theorem leBytes_leRead (bytes : List Nat) (h : ∀ d ∈ bytes, d < 256) :
    leBytes bytes.length (leRead bytes) = bytes := by
  induction bytes with
  | nil => rfl
  | cons d ds ih =>
    have hd : d < 256 := h d (by simp)
    have htail := ih fun d' hd' => h d' (mem_cons_of_mem d hd')
    have hmod : (d + 256 * leRead ds) % 256 = d := by omega
    have hdiv : (d + 256 * leRead ds) / 256 = leRead ds := by omega
    show leBytes (ds.length + 1) (Nat.ofDigits 256 (d :: ds)) = d :: ds
    rw [Nat.ofDigits_cons]
    show (d + 256 * leRead ds) % 256 :: leBytes ds.length ((d + 256 * leRead ds) / 256) = d :: ds
    rw [hmod, hdiv, htail]

/-- The digits of a number at the end of a word of zeros. -/
theorem replicate_append_digits {n x : Nat} (h : x < 256 ^ n) : (Nat.digits 256 x).length ≤ n ∧
    replicate (n - (Nat.digits 256 x).length) 0 ++ (Nat.digits 256 x).reverse =
      (leBytes n x).reverse := by
  have hlen := (Nat.digits_length_le_iff (b := 256) (by decide) x).mpr h
  have hread := leBytes_leRead (Nat.digits 256 x ++ replicate (n - (Nat.digits 256 x).length) 0) (by
    intro d hd
    rcases mem_append.mp hd with hd | hd
    · exact Nat.digits_lt_base (by decide) hd
    · rw [eq_of_mem_replicate hd]
      decide)
  rw [length_append, length_replicate, Nat.add_sub_cancel' hlen, leRead,
    Nat.ofDigits_append_replicate_zero, Nat.ofDigits_digits] at hread
  exact ⟨hlen, by rw [hread, reverse_append, reverse_replicate]⟩

theorem swap_lt (n x : Nat) : swap n x < 256 ^ n := by
  have hlt := Nat.ofDigits_lt_base_pow_length (b := 256) (l := (leBytes n x).reverse) (by decide)
    fun d hd => lt_of_mem_leBytes (mem_reverse.mp hd)
  rwa [length_reverse, length_leBytes] at hlt

theorem swap_swap {n x : Nat} (h : x < 256 ^ n) : swap n (swap n x) = x := by
  have hbytes : leBytes n (swap n x) = (leBytes n x).reverse := by
    have hread := leBytes_leRead (leBytes n x).reverse fun d hd => lt_of_mem_leBytes (mem_reverse.mp hd)
    rwa [length_reverse, length_leBytes] at hread
  rw [swap, hbytes, reverse_reverse, leRead_leBytes h]

end ByteOrder
