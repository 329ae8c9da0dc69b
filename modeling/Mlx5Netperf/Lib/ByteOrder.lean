import Mathlib.Data.List.Basic
import Mathlib.Algebra.Order.Ring.Nat
import Mathlib.Tactic.Ring

/-!
# Byte Order and Struct Layout

Unsigned numbers as little-endian and big-endian byte strings of a given
length, and the byte swaps that convert between the two orders.

How a C compiler lays the members of a structure out in memory: each member at
the next multiple of its alignment, and the whole padded to a multiple of the
largest alignment. Padding bytes are zero, as they are in an object of static
storage duration.
-/

namespace ByteOrder

/-- The `n` low bytes of `v`, least significant first. -/
def leBytes : ℕ → ℕ → List UInt8
  | 0, _ => []
  | n + 1, v => UInt8.ofNat v :: leBytes n (v / 256)

/-- The number a little-endian byte string stands for. -/
def leValue : List UInt8 → ℕ
  | [] => 0
  | b :: bs => b.toNat + 256 * leValue bs

/-- The `n` low bytes of `v`, most significant first. -/
def beBytes (n v : ℕ) : List UInt8 := (leBytes n v).reverse

/-- The number a big-endian byte string stands for. -/
def beValue (bs : List UInt8) : ℕ := leValue bs.reverse

@[simp] theorem length_leBytes (n v : ℕ) : (leBytes n v).length = n := by
  induction n generalizing v with
  | zero => rfl
  | succ n ih => simp [leBytes, ih]

@[simp] theorem length_beBytes (n v : ℕ) : (beBytes n v).length = n := by
  simp [beBytes]

/-- Decoding what was encoded gives the number modulo the width. -/
theorem leValue_leBytes (n v : ℕ) : leValue (leBytes n v) = v % 256 ^ n := by
  induction n generalizing v with
  | zero => simp [leBytes, leValue, Nat.mod_one]
  | succ n ih =>
    simp only [leBytes, leValue, ih, UInt8.toNat_ofNat', Nat.reducePow]
    -- the low byte and the rest, each modulo its own width
    rw [pow_succ, Nat.mul_comm (256 ^ n) 256, Nat.mod_mul]

theorem leValue_lt (bs : List UInt8) : leValue bs < 256 ^ bs.length := by
  induction bs with
  | nil => simp [leValue]
  | cons b bs ih =>
    have hb := b.toNat_lt
    simp only [leValue, List.length_cons, pow_succ] at ih ⊢
    omega

/-- Encoding what was decoded gives the bytes back. -/
theorem leBytes_leValue (bs : List UInt8) : leBytes bs.length (leValue bs) = bs := by
  induction bs with
  | nil => rfl
  | cons b bs ih =>
    have hb := b.toNat_lt
    have hhead : UInt8.ofNat (b.toNat + 256 * leValue bs) = b := by
      rw [← UInt8.toNat_inj, UInt8.toNat_ofNat']
      omega
    have htail : (b.toNat + 256 * leValue bs) / 256 = leValue bs := by omega
    simp only [leValue, List.length_cons, leBytes, hhead, htail, ih]

theorem beValue_beBytes (n v : ℕ) : beValue (beBytes n v) = v % 256 ^ n := by
  simp [beValue, beBytes, leValue_leBytes]

/-- A big-endian encoding of a number that fits is decoded exactly. -/
theorem beValue_beBytes_of_lt {n v : ℕ} (h : v < 256 ^ n) : beValue (beBytes n v) = v := by
  rw [beValue_beBytes, Nat.mod_eq_of_lt h]

/-- Reverse the order of the `n` low bytes of `v`. -/
def swap (n v : ℕ) : ℕ := leValue (beBytes n v)

theorem swap_lt (n v : ℕ) : swap n v < 256 ^ n := by
  simpa [swap] using leValue_lt (beBytes n v)

/-- The bytes of a swapped number are the bytes of the number, the other way round. -/
theorem leBytes_swap (n v : ℕ) : leBytes n (swap n v) = beBytes n v := by
  simpa [swap] using leBytes_leValue (beBytes n v)

theorem swap_swap (n v : ℕ) : swap n (swap n v) = v % 256 ^ n := by
  rw [swap, beBytes, leBytes_swap, beBytes, List.reverse_reverse, leValue_leBytes]

/-- Swap the two bytes of a 16-bit word. -/
def bswap16 (x : UInt16) : UInt16 := UInt16.ofNat (swap 2 x.toNat)

/-- Swap the four bytes of a 32-bit word. -/
def bswap32 (x : UInt32) : UInt32 := UInt32.ofNat (swap 4 x.toNat)

/-- Swap the eight bytes of a 64-bit word. -/
def bswap64 (x : UInt64) : UInt64 := UInt64.ofNat (swap 8 x.toNat)

@[simp] theorem toNat_bswap16 (x : UInt16) : (bswap16 x).toNat = swap 2 x.toNat := by
  rw [bswap16, UInt16.toNat_ofNat']
  exact Nat.mod_eq_of_lt (swap_lt 2 _)

@[simp] theorem toNat_bswap32 (x : UInt32) : (bswap32 x).toNat = swap 4 x.toNat := by
  rw [bswap32, UInt32.toNat_ofNat']
  exact Nat.mod_eq_of_lt (swap_lt 4 _)

@[simp] theorem toNat_bswap64 (x : UInt64) : (bswap64 x).toNat = swap 8 x.toNat := by
  rw [bswap64, UInt64.toNat_ofNat']
  exact Nat.mod_eq_of_lt (swap_lt 8 _)

@[simp] theorem bswap16_bswap16 (x : UInt16) : bswap16 (bswap16 x) = x := by
  rw [← UInt16.toNat_inj, toNat_bswap16, toNat_bswap16, swap_swap]
  exact Nat.mod_eq_of_lt x.toNat_lt

end ByteOrder

namespace StructLayout

/-- A member as the compiler sees it: its alignment and its bytes. -/
structure Member where
  align : ℕ
  bytes : List UInt8

/-- The bytes between offset `off` and the next multiple of `align`. -/
def padding (off align : ℕ) : List UInt8 :=
  List.replicate ((align - off % align) % align) 0

/-- Append the members one after the other to the bytes laid out so far. -/
def place : List UInt8 → List Member → List UInt8
  | acc, [] => acc
  | acc, m :: ms => place (acc ++ padding acc.length m.align ++ m.bytes) ms

/-- The alignment of a structure is the largest of its members'. -/
def structAlign (ms : List Member) : ℕ := (ms.map Member.align).foldl max 1

/-- The bytes of a structure with the given members. -/
def image (ms : List Member) : List UInt8 :=
  place [] ms ++ padding (place [] ms).length (structAlign ms)

/-- A packed structure has no padding. -/
theorem image_packed (ms : List Member) (h : ∀ m ∈ ms, m.align = 1) :
    image ms = (ms.map Member.bytes).flatten := by
  -- for any prefix, since the offset does not matter
  have hplace : ∀ acc, place acc ms = acc ++ (ms.map Member.bytes).flatten := by
    induction ms with
    | nil => simp [place]
    | cons m ms ih =>
      intro acc
      have hm := h m (List.mem_cons_self ..)
      rw [place, ih fun m' hm' => h m' (List.mem_cons_of_mem _ hm')]
      simp [hm, padding, Nat.mod_one]
  have halign : ∀ ms : List Member, (∀ m ∈ ms, m.align = 1) →
      (ms.map Member.align).foldl max 1 = 1 := by
    intro ms
    induction ms with
    | nil => simp
    | cons m ms ih =>
      intro hms
      simp only [List.map_cons, List.foldl_cons, hms m (List.mem_cons_self ..), Nat.max_self]
      exact ih fun m' hm' => hms m' (List.mem_cons_of_mem _ hm')
  simp [image, hplace, structAlign, halign ms h, padding, Nat.mod_one]

end StructLayout
