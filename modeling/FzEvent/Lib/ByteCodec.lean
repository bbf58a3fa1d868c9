import Mathlib.Algebra.Order.Ring.Nat
import Mathlib.Data.Nat.Basic

/-
  Fixed-width byte codecs and sequential reads from a byte
  string.

  A codec pairs an encoder with a decoder that are inverse to
  each other on byte strings of the codec's width. Reading
  takes one encoded value off the front of a byte string and
  fails when the string is too short.

  Main declarations:
    * `ByteCodec.leBytes` and `ByteCodec.leNat`
    * `ByteCodec.Codec` with `word`, `map` and `prod`
    * `ByteCodec.Codec.read` and `read_eq_some_iff`
    * `ByteCodec.Codec.overwrite` and `overwrite_of_read`
-/

------------------------------------------------------------
-- Little-Endian Naturals
------------------------------------------------------------

namespace ByteCodec

/- The `n` low bytes of `v`, least significant byte first. -/
def leBytes : Nat → Nat → List UInt8
| 0, _ => []
| n + 1, v => UInt8.ofNat v :: leBytes n (v / 256)

/- The natural that a little-endian byte string denotes. -/
def leNat : List UInt8 → Nat
| [] => 0
| b :: bs => b.toNat + 256 * leNat bs

@[simp] theorem length_leBytes
    (n v : Nat) :
    (leBytes n v).length = n := by
  induction n generalizing v with
  | zero => rfl
  | succ n ih => simp [leBytes, ih]

theorem leNat_lt
    (bs : List UInt8) :
    leNat bs < 256 ^ bs.length := by
  induction bs with
  | nil => simp [leNat]
  | cons b bs ih =>
      have hByte : b.toNat < 256 := b.toNat_lt
      simp only [leNat, List.length_cons, pow_succ]
      omega

theorem leNat_leBytes
    (n v : Nat) :
    leNat (leBytes n v) = v % 256 ^ n := by
  induction n generalizing v with
  | zero => simp [leBytes, leNat, Nat.mod_one]
  | succ n ih =>
      have hSplit :
          v % 256 ^ (n + 1) =
            v % 256 + 256 * (v / 256 % 256 ^ n) := by
        rw [pow_succ, Nat.mul_comm, Nat.mod_mul]
      simp [leBytes, leNat, ih, hSplit]

theorem leBytes_leNat
    (bs : List UInt8) :
    leBytes bs.length (leNat bs) = bs := by
  induction bs with
  | nil => rfl
  | cons b bs ih =>
      have hByte : b.toNat < 256 := b.toNat_lt
      have hHead :
          UInt8.ofNat (b.toNat + 256 * leNat bs) = b := by
        apply UInt8.toNat_inj.mp
        simp only [UInt8.toNat_ofNat']
        omega
      have hTail :
          (b.toNat + 256 * leNat bs) / 256 = leNat bs := by
        omega
      simp only [List.length_cons, leNat, leBytes, hHead,
        hTail, ih]

/- A word of two halves is written half by half. -/
theorem leBytes_append
    (m n v w : Nat)
    (hLt : v < 256 ^ m) :
    leBytes m v ++ leBytes n w =
      leBytes (m + n) (v + 256 ^ m * w) := by
  induction m generalizing v with
  | zero =>
      have hZero : v = 0 := by simpa using hLt
      simp [leBytes, hZero]
  | succ m ih =>
      have hHead :
          UInt8.ofNat (v + 256 ^ (m + 1) * w) =
            UInt8.ofNat v := by
        apply UInt8.toNat_inj.mp
        rw [UInt8.toNat_ofNat', UInt8.toNat_ofNat', pow_succ,
          Nat.mul_comm _ 256, Nat.mul_assoc]
        omega
      have hTail :
          (v + 256 ^ (m + 1) * w) / 256 =
            v / 256 + 256 ^ m * w := by
        rw [pow_succ, Nat.mul_comm _ 256, Nat.mul_assoc]
        omega
      have hBelow : v / 256 < 256 ^ m := by
        rw [pow_succ] at hLt
        omega
      rw [Nat.succ_add, leBytes, leBytes, hHead, hTail,
        ← ih _ hBelow, List.cons_append]

end ByteCodec

------------------------------------------------------------
-- Codecs
------------------------------------------------------------

namespace ByteCodec

/-
  A fixed-width codec. The laws are fields, so an encoder
  and a decoder that disagree cannot be paired.
-/
structure Codec (α : Type) where
  width : Nat
  encode : α → List UInt8
  decode : List UInt8 → α
  length_encode : ∀ a, (encode a).length = width
  decode_encode : ∀ a, decode (encode a) = a
  encode_decode :
    ∀ bs : List UInt8,
      bs.length = width → encode (decode bs) = bs

namespace Codec

variable {α β : Type}

attribute [simp] length_encode decode_encode

/-
  The little-endian codec of a word type that is in
  bijection with the naturals below `256 ^ n`.
-/
def word
    (n : Nat)
    (toNat : α → Nat)
    (ofNat : Nat → α)
    (toNat_lt : ∀ a, toNat a < 256 ^ n)
    (ofNat_toNat : ∀ a, ofNat (toNat a) = a)
    (toNat_ofNat :
      ∀ v, v < 256 ^ n → toNat (ofNat v) = v) :
    Codec α where
  width := n
  encode a := leBytes n (toNat a)
  decode bs := ofNat (leNat bs)
  length_encode a := length_leBytes n (toNat a)
  decode_encode a := by
    rw [leNat_leBytes, Nat.mod_eq_of_lt (toNat_lt a),
      ofNat_toNat]
  encode_decode bs hLength := by
    subst hLength
    rw [toNat_ofNat _ (leNat_lt bs), leBytes_leNat]

/- Transport a codec along a bijection. -/
def map
    (c : Codec α)
    (f : α → β)
    (g : β → α)
    (f_g : ∀ b, f (g b) = b)
    (g_f : ∀ a, g (f a) = a) :
    Codec β where
  width := c.width
  encode b := c.encode (g b)
  decode bs := f (c.decode bs)
  length_encode b := c.length_encode (g b)
  decode_encode b := by rw [c.decode_encode, f_g]
  encode_decode bs hLength := by
    rw [g_f, c.encode_decode bs hLength]

/- Two fields one after the other. -/
def prod
    (c : Codec α)
    (d : Codec β) :
    Codec (α × β) where
  width := c.width + d.width
  encode p := c.encode p.1 ++ d.encode p.2
  decode bs :=
    (c.decode (bs.take c.width), d.decode (bs.drop c.width))
  length_encode p := by simp
  decode_encode p := by
    have hLeft :
        (c.encode p.1 ++ d.encode p.2).take c.width =
          c.encode p.1 :=
      List.take_left' (c.length_encode p.1)
    have hRight :
        (c.encode p.1 ++ d.encode p.2).drop c.width =
          d.encode p.2 :=
      List.drop_left' (c.length_encode p.1)
    rw [hLeft, hRight, c.decode_encode, d.decode_encode]
  encode_decode bs hLength := by
    have hTake : (bs.take c.width).length = c.width := by
      rw [List.length_take]
      omega
    have hDrop : (bs.drop c.width).length = d.width := by
      rw [List.length_drop]
      omega
    rw [c.encode_decode _ hTake, d.encode_decode _ hDrop,
      List.take_append_drop]

end Codec

end ByteCodec

------------------------------------------------------------
-- Sequential Reads
------------------------------------------------------------

namespace ByteCodec

namespace Codec

variable {α : Type}

/-
  Take one value off the front of a byte string. The read
  fails when fewer than `width` bytes are left.
-/
def read
    (c : Codec α)
    (bs : List UInt8) :
    Option (α × List UInt8) :=
  if c.width ≤ bs.length then
    some (c.decode (bs.take c.width), bs.drop c.width)
  else
    none

/- Reading succeeds exactly in front of an encoded value. -/
theorem read_eq_some_iff
    (c : Codec α)
    {bs rest : List UInt8}
    {a : α} :
    c.read bs = some (a, rest) ↔ bs = c.encode a ++ rest := by
  constructor
  · intro hRead
    unfold read at hRead
    by_cases hLe : c.width ≤ bs.length
    · have hTake : (bs.take c.width).length = c.width := by
        rw [List.length_take]
        omega
      simp only [hLe, if_true, Option.some.injEq,
        Prod.mk.injEq] at hRead
      rcases hRead with ⟨rfl, rfl⟩
      rw [c.encode_decode _ hTake, List.take_append_drop]
    · simp [hLe] at hRead
  · rintro rfl
    have hLe : c.width ≤ (c.encode a ++ rest).length := by
      rw [List.length_append, c.length_encode]
      omega
    rw [read, if_pos hLe,
      List.take_left' (c.length_encode a),
      List.drop_left' (c.length_encode a), c.decode_encode]

@[simp] theorem read_encode_append
    (c : Codec α)
    (a : α)
    (rest : List UInt8) :
    c.read (c.encode a ++ rest) = some (a, rest) :=
  c.read_eq_some_iff.mpr rfl

/- A successful read takes exactly `width` bytes. -/
theorem length_of_read
    (c : Codec α)
    {bs rest : List UInt8}
    {a : α}
    (hRead : c.read bs = some (a, rest)) :
    bs.length = c.width + rest.length := by
  rw [c.read_eq_some_iff.mp hRead, List.length_append,
    c.length_encode]

/- Where enough bytes are left, a read succeeds. -/
theorem exists_read
    (c : Codec α)
    {bs : List UInt8}
    (hLe : c.width ≤ bs.length) :
    ∃ a rest, c.read bs = some (a, rest) ∧
      rest.length = bs.length - c.width :=
  ⟨_, _, if_pos hLe, List.length_drop⟩

end Codec

end ByteCodec

------------------------------------------------------------
-- Short Reads
------------------------------------------------------------

namespace ByteCodec

namespace Codec

variable {α : Type}

/-
  A variable after a read that may fall short: the bytes that
  are there replace its first bytes, and the others stay.
-/
def overwrite
    (c : Codec α)
    (a : α)
    (bs : List UInt8) : α :=
  c.decode (bs.take c.width ++ (c.encode a).drop bs.length)

theorem encode_overwrite
    (c : Codec α)
    (a : α)
    (bs : List UInt8) :
    c.encode (c.overwrite a bs) =
      bs.take c.width ++ (c.encode a).drop bs.length := by
  apply c.encode_decode
  simp only [List.length_append, List.length_take,
    List.length_drop, c.length_encode]
  omega

/- A byte behind those that are there stays. -/
theorem getElem?_encode_overwrite
    (c : Codec α)
    (a : α)
    {bs : List UInt8}
    {i : Nat}
    (hLe : bs.length ≤ i)
    (hLt : i < c.width) :
    (c.encode (c.overwrite a bs))[i]? = (c.encode a)[i]? := by
  rw [c.encode_overwrite, List.take_of_length_le (by omega),
    List.getElem?_append_right hLe, List.getElem?_drop,
    Nat.add_sub_cancel' hLe]

@[simp] theorem overwrite_nil
    (c : Codec α)
    (a : α) :
    c.overwrite a [] = a := by
  simp [overwrite]

/- Where enough bytes are there, nothing stays. -/
theorem overwrite_of_read
    (c : Codec α)
    {bs rest : List UInt8}
    {b : α}
    (hRead : c.read bs = some (b, rest))
    (a : α) :
    c.overwrite a bs = b ∧ bs.drop c.width = rest := by
  have hBytes : bs = c.encode b ++ rest :=
    c.read_eq_some_iff.mp hRead
  have hNone : (c.encode a).drop bs.length = [] := by
    apply List.drop_eq_nil_of_le
    rw [c.length_encode, c.length_of_read hRead]
    omega
  constructor
  · rw [overwrite, hNone, List.append_nil, hBytes,
      List.take_left' (c.length_encode b), c.decode_encode]
  · rw [hBytes, List.drop_left' (c.length_encode b)]

end Codec

end ByteCodec
