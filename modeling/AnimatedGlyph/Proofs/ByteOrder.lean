/-
The order of texts and of their bytes.

Names are ordered by their code points, and so are the bytes of their UTF-8 form.  The first
byte of a character grows with the number of its bytes, and the bytes of characters with equally
many are the digits of their code points to the base of 64, the greatest first.  So of two
different characters the bytes differ, in one place first, in the direction of the code points
(`Before`), and what stands behind the two does not matter.
-/
import AnimatedGlyph.Proofs.StringText

namespace AnimatedGlyph

/-! ## Numbers of bytes -/

/-- The bytes of a code point as numbers. -/
def unitsOf (v : Nat) : List Nat :=
  if v ≤ 127 then [v]
  else if v ≤ 2047 then [v / 64 % 32 + 192, v % 64 + 128]
  else if v ≤ 65535 then [v / 4096 % 16 + 224, v / 64 % 64 + 128, v % 64 + 128]
  else [v / 262144 % 8 + 240, v / 4096 % 64 + 128, v / 64 % 64 + 128, v % 64 + 128]

theorem utf8EncodeChar_eq (c : Char) :
    String.utf8EncodeChar c = (unitsOf c.val.toNat).map UInt8.ofNat := by
  rw [String.utf8EncodeChar, unitsOf]
  split
  · rfl
  · split
    · rfl
    · split <;> rfl

/-- The lists differ, and in the first place where they do the first list has the smaller
number. -/
def Before : List Nat → List Nat → Prop
  | m :: more, n :: others => m < n ∨ m = n ∧ Before more others
  | _, _ => False

/-- The code points with one, two, three and four bytes. -/
theorem lengths_of_units (v : Nat) :
    v ≤ 127 ∨ 127 < v ∧ v ≤ 2047 ∨ 2047 < v ∧ v ≤ 65535 ∨ 65535 < v := by
  omega

theorem unitsOf_lt (v : Nat) : ∀ n ∈ unitsOf v, n < 256 := by
  rcases lengths_of_units v with h | h | h | h <;>
    simp (disch := omega) only [unitsOf, if_pos, if_neg, List.mem_cons, List.not_mem_nil, or_false]
      <;> omega

theorem before_unitsOf {v w : Nat} (hw : w < 0x110000) (h : v < w) :
    Before (unitsOf v) (unitsOf w) := by
  have hdigits : ∀ x : Nat, x / 4096 = x / 64 / 64 ∧ x / 262144 = x / 64 / 64 / 64 := by
    intro x
    rw [Nat.div_div_eq_div_mul, Nat.div_div_eq_div_mul]
    exact ⟨rfl, rfl⟩
  rcases lengths_of_units v with hv | hv | hv | hv <;>
    rcases lengths_of_units w with hw' | hw' | hw' | hw' <;>
      simp (disch := omega) only [unitsOf, if_pos, if_neg, Before, hdigits] <;> omega

/-! ## Bytes -/

theorem Before.lt_append {ms ns : List Nat} (h : Before ms ns) (hms : ∀ m ∈ ms, m < 256)
    (hns : ∀ n ∈ ns, n < 256) (xs ys : List UInt8) :
    ms.map UInt8.ofNat ++ xs < ns.map UInt8.ofNat ++ ys := by
  induction ms generalizing ns with
  | nil => exact h.elim
  | cons m more ih =>
    cases ns with
    | nil => exact h.elim
    | cons n others =>
      rw [List.map_cons, List.map_cons, List.cons_append, List.cons_append, List.cons_lt_cons_iff]
      rcases h with hlt | ⟨rfl, hmore⟩
      · refine .inl (UInt8.lt_iff_toNat_lt.mpr ?_)
        rwa [UInt8.toNat_ofNat', UInt8.toNat_ofNat',
          Nat.mod_eq_of_lt (hms m List.mem_cons_self), Nat.mod_eq_of_lt (hns n List.mem_cons_self)]
      · exact .inr ⟨rfl, ih hmore (fun k hk => hms k (List.mem_cons_of_mem m hk))
          fun k hk => hns k (List.mem_cons_of_mem m hk)⟩

theorem utf8EncodeChar_append_lt {c d : Char} (h : c < d) (xs ys : List UInt8) :
    String.utf8EncodeChar c ++ xs < String.utf8EncodeChar d ++ ys := by
  have hlt : c.val.toNat < d.val.toNat := UInt32.lt_iff_toNat_lt.mp h
  have hrange : d.val.toNat < 0x110000 := by
    have hvalid : d.val.toNat < 0xd800 ∨ 0xdfff < d.val.toNat ∧ d.val.toNat < 0x110000 := d.valid
    omega
  rw [utf8EncodeChar_eq, utf8EncodeChar_eq]
  exact (before_unitsOf hrange hlt).lt_append (unitsOf_lt _) (unitsOf_lt _) xs ys

theorem flatMap_utf8EncodeChar_lt {cs ds : List Char} (h : cs < ds) :
    cs.flatMap String.utf8EncodeChar < ds.flatMap String.utf8EncodeChar := by
  induction List.lex_lt.mpr h with
  | @nil d rest =>
    obtain ⟨b, more, hbytes⟩ := List.exists_cons_of_ne_nil (String.utf8EncodeChar_ne_nil (c := d))
    rw [List.flatMap_nil, List.flatMap_cons, hbytes, List.cons_append]
    exact List.nil_lt_cons b _
  | rel hchar =>
    rw [List.flatMap_cons, List.flatMap_cons]
    exact utf8EncodeChar_append_lt hchar _ _
  | cons hrest ih =>
    rw [List.flatMap_cons, List.flatMap_cons]
    exact List.append_left_lt (ih (List.lex_lt.mp hrest))

/-- A smaller text has smaller bytes. -/
theorem textBytes_lt {s t : String} (h : s < t) : textBytes s < textBytes t := by
  rw [textBytes_eq, textBytes_eq]
  exact flatMap_utf8EncodeChar_lt h

end AnimatedGlyph
