/-
Payloads that unpack.

A payload is stored in blocks that hold its bytes as they are, so that unpacking is reading
off one block after the other: a byte that says whether the block is the last, the length
twice, and the bytes.  `readBlocks?_storedBlock` is the step for one block and
`readBlocks?_storedBlocks` the run over all of them.  In a manifest the payload is written
in base 64, where every three bytes are read from the four letters they became.
-/
import AnimatedGlyph.Bytes.Text
import AnimatedGlyph.Payload.Gzip

namespace AnimatedGlyph
namespace Bytes

/-! ## Base 64 -/

theorem base64Letter_ne_padding : ∀ n < 64, base64Letter n ≠ '=' := by
  decide

theorem base64Value?_letter {n : Nat} (h : n < 64) : base64Value? (base64Letter n) = some n :=
  base64Value?_base64Letter n h

section Letters

variable {p q r s : Char} {i j k l n : Nat}

theorem ofBase64Chars?_one (hp : base64Value? p = some i) (hq : base64Value? q = some j)
    (hn : i * 262144 + j * 4096 = n) (hpadding : n % 65536 = 0) :
    ofBase64Chars? [p, q, '=', '='] = some [UInt8.ofNat (n / 65536)] := by
  subst hn
  rw [ofBase64Chars?]
  exact Option.bind_eq_some_iff.mpr ⟨i, hp, Option.bind_eq_some_iff.mpr ⟨j, hq, if_pos hpadding⟩⟩

theorem ofBase64Chars?_two (hp : base64Value? p = some i) (hq : base64Value? q = some j)
    (hr : base64Value? r = some k) (hletter : r ≠ '=')
    (hn : i * 262144 + j * 4096 + k * 64 = n) (hpadding : n % 256 = 0) :
    ofBase64Chars? [p, q, r, '='] = some [UInt8.ofNat (n / 65536), UInt8.ofNat (n / 256)] := by
  subst hn
  rw [ofBase64Chars?]
  · exact Option.bind_eq_some_iff.mpr ⟨i, hp, Option.bind_eq_some_iff.mpr ⟨j, hq,
      Option.bind_eq_some_iff.mpr ⟨k, hr, if_pos hpadding⟩⟩⟩
  · exact hletter

theorem ofBase64Chars?_three (hp : base64Value? p = some i) (hq : base64Value? q = some j)
    (hr : base64Value? r = some k) (hs : base64Value? s = some l) (hletter : s ≠ '=')
    (hn : i * 262144 + j * 4096 + k * 64 + l = n) (rest : List Char) :
    ofBase64Chars? (p :: q :: r :: s :: rest) = (ofBase64Chars? rest).map fun bytes =>
      UInt8.ofNat (n / 65536) :: UInt8.ofNat (n / 256) :: UInt8.ofNat n :: bytes := by
  subst hn
  rw [ofBase64Chars?, hp, hq, hr, hs]
  · cases ofBase64Chars? rest <;> rfl
  · rintro - hpadding -
    exact hletter hpadding
  · rintro hpadding -
    exact hletter hpadding

end Letters

theorem ofNat_eq {n : Nat} {b : UInt8} (h : n % 256 = b.toNat) : UInt8.ofNat n = b := by
  rw [← UInt8.toNat_inj, ← h]
  rfl

theorem ofBase64Chars?_base64Chars (bs : List UInt8) :
    ofBase64Chars? (base64Chars bs) = some bs := by
  fun_induction base64Chars bs with
  | case1 => rfl
  | case2 a =>
    rename_i n
    have ha := a.toNat_lt
    have hn : n = a.toNat * 65536 := rfl
    clear_value n
    rw [ofBase64Chars?_one (base64Value?_letter (by omega)) (base64Value?_letter (by omega))
        (by omega : _ = n) (by omega), ofNat_eq (by omega : n / 65536 % 256 = a.toNat)]
  | case3 a b =>
    rename_i n
    have ha := a.toNat_lt
    have hb := b.toNat_lt
    have hn : n = a.toNat * 65536 + b.toNat * 256 := rfl
    clear_value n
    rw [ofBase64Chars?_two (base64Value?_letter (by omega)) (base64Value?_letter (by omega))
        (base64Value?_letter (by omega)) (base64Letter_ne_padding _ (by omega))
        (by omega : _ = n) (by omega), ofNat_eq (by omega : n / 65536 % 256 = a.toNat),
      ofNat_eq (by omega : n / 256 % 256 = b.toNat)]
  | case4 a b c rest n ih =>
    have ha := a.toNat_lt
    have hb := b.toNat_lt
    have hc := c.toNat_lt
    have hn : n = a.toNat * 65536 + b.toNat * 256 + c.toNat := rfl
    clear_value n
    rw [ofBase64Chars?_three (base64Value?_letter (by omega)) (base64Value?_letter (by omega))
        (base64Value?_letter (by omega)) (base64Value?_letter (by omega))
        (base64Letter_ne_padding _ (by omega)) (by omega : _ = n), ih,
      ofNat_eq (by omega : n / 65536 % 256 = a.toNat),
      ofNat_eq (by omega : n / 256 % 256 = b.toNat), ofNat_eq (by omega : n % 256 = c.toNat)]
    rfl

theorem ofBase64?_base64 (bs : List UInt8) : ofBase64? (base64 bs) = some bs := by
  rw [ofBase64?, base64, String.toList_ofList, ofBase64Chars?_base64Chars]

/-! ## Groups -/

theorem flatten_groups (size : Nat) (bs : List UInt8) : (groups size bs).flatten = bs := by
  fun_induction groups size bs with
  | case1 => rfl
  | case2 b rest ih =>
    rw [List.flatten_cons, ih, List.cons_append, List.take_append_drop]

theorem length_le_of_mem_groups {size : Nat} (hsize : 0 < size) (bs : List UInt8) :
    ∀ group ∈ groups size bs, group.length ≤ size := by
  fun_induction groups size bs with
  | case1 => nofun
  | case2 b rest ih =>
    refine List.forall_mem_cons.mpr ⟨?_, ih⟩
    rw [List.length_cons, List.length_take]
    omega

end Bytes

namespace Payload

open Bytes

/-! ## Stored blocks -/

theorem littleEndian_two {n : Nat} (h : n < 65536) :
    ∃ a b, littleEndian 2 n = [a, b] ∧ a.toNat + 256 * b.toNat = n := by
  refine ⟨UInt8.ofNat n, UInt8.ofNat (n / 256), rfl, ?_⟩
  rw [UInt8.toNat_ofNat', UInt8.toNat_ofNat']
  omega

/-- The first three bits of a stored block are read, and the rest of their byte goes unused. -/
theorem next?_storedBlock (last : Bool) (bytes : List UInt8) :
    ∃ source : BitSource, source.wholeBytes = bytes ∧ ∃ bits : BitSource,
      (BitSource.ofBytes (UInt8.ofNat last.toNat :: bytes)).next? = some (last, bits) ∧
        bits.number? 2 = some (0, source) := by
  cases last with
  | false =>
    exact ⟨⟨[false, false, false, false, false], bytes⟩, rfl, _, rfl, rfl⟩
  | true =>
    exact ⟨⟨[false, false, false, false, false], bytes⟩, rfl, _, rfl, rfl⟩

theorem readStored?_bytes {source : BitSource} {bytes rest : List UInt8} (out : Array UInt8)
    (hlength : bytes.length ≤ storedLimit)
    (hsource : source.wholeBytes =
      littleEndian 2 bytes.length ++ littleEndian 2 (65535 - bytes.length) ++ bytes ++ rest) :
    readStored? source out = some (.ofBytes rest, out ++ bytes.toArray) := by
  have hlimit : bytes.length ≤ 65535 := hlength
  obtain ⟨a, b, hab, hlow⟩ := littleEndian_two (n := bytes.length) (by omega)
  obtain ⟨c, d, hcd, hhigh⟩ := littleEndian_two (n := 65535 - bytes.length) (by omega)
  have hwhole : source.wholeBytes = a :: b :: c :: d :: (bytes ++ rest) := by
    rw [hsource, hab, hcd]
    simp
  rw [readStored?, hwhole]
  simp only [hlow, hhigh]
  rw [if_pos ⟨by omega, by rw [List.length_append]; omega⟩, List.drop_left, List.take_left]

theorem readBlocks?_storedBlock (rounds : Nat) (last : Bool) {bytes : List UInt8}
    (rest : List UInt8) (out : Array UInt8) (hlength : bytes.length ≤ storedLimit) :
    readBlocks? (rounds + 1) (.ofBytes (storedBlock last bytes ++ rest)) out =
      if last then some (.ofBytes rest, out ++ bytes.toArray)
      else readBlocks? rounds (.ofBytes rest) (out ++ bytes.toArray) := by
  obtain ⟨source, hsource, bits, hnext, htype⟩ := next?_storedBlock last
    (littleEndian 2 bytes.length ++ littleEndian 2 (65535 - bytes.length) ++ bytes ++ rest)
  have hblock := readStored?_bytes out hlength hsource
  have hbytes : storedBlock last bytes ++ rest = UInt8.ofNat last.toNat ::
      (littleEndian 2 bytes.length ++ littleEndian 2 (65535 - bytes.length) ++ bytes ++ rest) := rfl
  rw [readBlocks?, hbytes, hnext]
  simp only [Option.bind_eq_bind, Option.bind_some, htype, readBlock?, hblock]

/-- Each block takes a round, so that there is one round left for every block to come. -/
theorem readBlocks?_storedBlocks {blocks : List (List UInt8)}
    (hlength : ∀ bytes ∈ blocks, bytes.length ≤ storedLimit) (rest : List UInt8) {rounds : Nat}
    (out : Array UInt8) (hrounds : blocks.length < rounds) :
    readBlocks? rounds (.ofBytes (storedBlocks blocks ++ rest)) out =
      some (.ofBytes rest, out ++ blocks.flatten.toArray) := by
  fun_induction storedBlocks blocks generalizing rounds out with
  | case1 =>
    obtain ⟨rounds, rfl⟩ := Nat.exists_eq_succ_of_ne_zero (Nat.ne_of_gt hrounds)
    exact readBlocks?_storedBlock rounds true rest out (Nat.zero_le _)
  | case2 bytes =>
    obtain ⟨hbytes, -⟩ := List.forall_mem_cons.mp hlength
    obtain ⟨rounds, rfl⟩ := Nat.exists_eq_succ_of_ne_zero (Nat.ne_of_gt (Nat.zero_lt_of_lt hrounds))
    rw [readBlocks?_storedBlock rounds true rest out hbytes, if_pos rfl, List.flatten_singleton]
  | case3 bytes more hmore ih =>
    obtain ⟨hbytes, hothers⟩ := List.forall_mem_cons.mp hlength
    rw [List.length_cons] at hrounds
    have hflatten : (bytes ++ more.flatten).toArray = bytes.toArray ++ more.flatten.toArray :=
      Array.toArray_eq_append_iff.mpr rfl
    obtain ⟨rounds, rfl⟩ := Nat.exists_eq_succ_of_ne_zero (Nat.ne_of_gt (Nat.zero_lt_of_lt hrounds))
    rw [List.append_assoc, readBlocks?_storedBlock rounds false _ out hbytes,
      if_neg Bool.false_ne_true, ih hothers _ (by omega), List.flatten_cons, hflatten,
      Array.append_assoc]

theorem length_le_length_storedBlocks (blocks : List (List UInt8)) :
    blocks.length ≤ (storedBlocks blocks).length := by
  fun_induction storedBlocks blocks with
  | case1 => exact Nat.zero_le _
  | case2 bytes => exact Nat.succ_le_succ (Nat.zero_le _)
  | case3 bytes more hmore ih =>
    have hblock : 0 < (storedBlock false bytes).length := Nat.succ_pos _
    rw [List.length_cons, List.length_append]
    omega

theorem inflate?_storedBlocks {blocks : List (List UInt8)}
    (hlength : ∀ bytes ∈ blocks, bytes.length ≤ storedLimit) (rest : List UInt8) :
    inflate? (storedBlocks blocks ++ rest) = some (blocks.flatten, rest) := by
  have hrounds : blocks.length < (BitSource.ofBytes (storedBlocks blocks ++ rest)).size + 1 := by
    have hle := length_le_length_storedBlocks blocks
    simp only [BitSource.size, BitSource.ofBytes, List.length_append]
    omega
  rw [inflate?]
  simp only [readBlocks?_storedBlocks hlength rest #[] hrounds, Option.bind_eq_bind,
    Option.bind_some]
  simp [BitSource.wholeBytes, BitSource.ofBytes]

/-! ## Members -/

theorem length_trailer (bytes : List UInt8) : (trailer bytes).length = 8 := by
  rw [trailer, List.length_append, length_littleEndian, length_littleEndian]

/-- A member that was packed holds what was packed into it. -/
theorem gunzip?_gzip (bytes : List UInt8) : gunzip? (gzip bytes) = some bytes := by
  have hheader : skipHeader? (gzip bytes) =
      some (storedBlocks (groups storedLimit bytes) ++ trailer bytes) := rfl
  have hinflate := inflate?_storedBlocks (length_le_of_mem_groups (by decide) bytes) (trailer bytes)
  rw [flatten_groups] at hinflate
  have hlength := length_trailer bytes
  rw [gunzip?, hheader]
  simp only [Option.bind_eq_bind, Option.bind_some, hinflate]
  rw [if_pos ⟨Nat.le_of_eq hlength.symm, List.take_of_length_le (Nat.le_of_eq hlength)⟩]

end Payload
end AnimatedGlyph
