/-
Strings that read back.

A string is written with an escape for each character that needs one and is then a run
of bytes.  Reading it goes the other way, and `readString_stringText` says that it ends
behind the closing mark with the string that was written, whatever follows.

The reader keeps its bytes in reverse, so the step lemma is about one character of the
string: its escape pushes the bytes of the character and nothing else.
-/
import AnimatedGlyph.Json.Reader
import AnimatedGlyph.Sticker.Request

namespace AnimatedGlyph

/-! ## Bytes of a text -/

theorem toList_byteArray_loop (bs : ByteArray) (i : Nat) (found : List UInt8) :
    ByteArray.toList.loop bs i found = found.reverse ++ bs.data.toList.drop i := by
  fun_induction ByteArray.toList.loop bs i found with
  | case1 i found hmore ih =>
    have hlength : i < bs.data.toList.length := by
      rw [Array.length_toList]
      exact hmore
    have hget : bs.get! i = bs.data.toList[i] := by
      rw [ByteArray.get!, getElem!_pos bs.data i hmore, Array.getElem_toList]
    rw [ih, List.drop_eq_getElem_cons hlength, hget, List.reverse_cons, List.append_assoc]
    rfl
  | case2 i found hdone =>
    have hdrop : bs.data.toList.drop i = [] := by
      rw [List.drop_eq_nil_iff, Array.length_toList]
      exact Nat.le_of_not_lt hdone
    rw [hdrop, List.append_nil]

theorem toList_byteArray (bs : ByteArray) : bs.toList = bs.data.toList :=
  toList_byteArray_loop bs 0 []

theorem textBytes_append (first second : String) :
    textBytes (first ++ second) = textBytes first ++ textBytes second := by
  simp only [textBytes, toList_byteArray, String.toUTF8_eq_toByteArray, String.toByteArray_append,
    ByteArray.data_append, Array.toList_append]

theorem textBytes_ofList (cs : List Char) :
    textBytes (String.ofList cs) = cs.flatMap String.utf8EncodeChar := by
  rw [textBytes, toList_byteArray]
  exact List.toList_data_toByteArray

theorem textBytes_eq (text : String) :
    textBytes text = text.toList.flatMap String.utf8EncodeChar := by
  rw [← textBytes_ofList, String.ofList_toList]

theorem fromUTF8?_textBytes (text : String) :
    String.fromUTF8? ⟨(textBytes text).toArray⟩ = some text := by
  have hbytes : (⟨(textBytes text).toArray⟩ : ByteArray) = text.toByteArray := by
    rw [textBytes, toList_byteArray]
    rfl
  rw [hbytes, String.fromUTF8?, dif_pos text.isValidUTF8]
  rfl

namespace Json

/-! ## Steps of the reader -/

/-- A byte that stands for itself in a string. -/
def isPlain (b : UInt8) : Bool :=
  b != 34 && b != 92 && 32 ≤ b

theorem readStringFrom_quote (s : StringSoFar) (rest : List UInt8) :
    readStringFrom s (34 :: rest) = (⟨s.close, none⟩, some rest) := by
  rw [readStringFrom.eq_def]
  rfl

theorem readStringFrom_plain (s : StringSoFar) {b : UInt8} (h : isPlain b = true)
    (rest : List UInt8) : readStringFrom s (b :: rest) = readStringFrom (s.push b) rest := by
  simp only [isPlain, Bool.and_eq_true, bne_iff_ne, ne_eq, decide_eq_true_eq] at h
  obtain ⟨⟨hquote, hslash⟩, hcontrol⟩ := h
  have hnot : ¬b < 32 := UInt8.not_lt.mpr hcontrol
  rw [readStringFrom.eq_def]
  simp only [if_neg hquote, if_neg hslash, if_neg hnot]

theorem readStringFrom_escaped (s : StringSoFar) {e b : UInt8} (hletter : e ≠ 117)
    (h : escapedByte? e = some b) (rest : List UInt8) :
    readStringFrom s (92 :: e :: rest) = readStringFrom (s.push b) rest := by
  have hslash : ¬(92 : UInt8) = 34 := by decide
  rw [readStringFrom.eq_def]
  simp only [if_neg hslash, if_true, if_neg hletter, h]

theorem readStringFrom_unit (s : StringSoFar) {w x y z : UInt8} {n : Nat}
    (h : hexUnit? w x y z = some n) (rest : List UInt8) :
    readStringFrom s (92 :: 117 :: w :: x :: y :: z :: rest) =
      readStringFrom (s.pushUnit n) rest := by
  have hslash : ¬(92 : UInt8) = 34 := by decide
  rw [readStringFrom.eq_def]
  simp only [if_neg hslash, if_true, h]

/-! ## Characters of a string -/

theorem readStringFrom_plainBytes {bs : List UInt8} (h : ∀ b ∈ bs, isPlain b = true)
    (found rest : List UInt8) :
    readStringFrom ⟨.ok found, none⟩ (bs ++ rest) =
      readStringFrom ⟨.ok (bs.reverse ++ found), none⟩ rest := by
  induction bs generalizing found with
  | nil => rfl
  | cons b more ih =>
    have hmore := ih (fun c hc => h c (List.mem_cons_of_mem b hc)) (b :: found)
    rw [List.cons_append, readStringFrom_plain _ (h b List.mem_cons_self), StringSoFar.push, hmore,
      List.reverse_cons, List.append_assoc]
    rfl

theorem isPlain_ofNat {n : Nat} (hlow : 32 ≤ n) (hhigh : n < 256) (hquote : n ≠ 34)
    (hslash : n ≠ 92) : isPlain (UInt8.ofNat n) = true := by
  have hn : (UInt8.ofNat n).toNat = n := by
    rw [UInt8.toNat_ofNat']
    exact Nat.mod_eq_of_lt hhigh
  have hne : ∀ b : UInt8, n ≠ b.toNat → UInt8.ofNat n ≠ b := by
    intro b hb h
    rw [h] at hn
    exact hb hn.symm
  have hle : (32 : UInt8) ≤ UInt8.ofNat n := by
    rw [UInt8.le_iff_toNat_le, hn]
    exact hlow
  simp only [isPlain, Bool.and_eq_true, bne_iff_ne, decide_eq_true_eq]
  exact ⟨⟨hne 34 hquote, hne 92 hslash⟩, hle⟩

/-- The bytes of a character that needs no escape stand for themselves. -/
theorem isPlain_utf8EncodeChar {c : Char} (hquote : c ≠ '"') (hslash : c ≠ '\\')
    (hcontrol : ¬c.toNat < 32) : ∀ b ∈ String.utf8EncodeChar c, isPlain b = true := by
  have hne : ∀ d : Char, c ≠ d → c.val.toNat ≠ d.val.toNat :=
    fun d hd h => hd (Char.ext (UInt32.toNat_inj.mp h))
  have hquote' : c.val.toNat ≠ 34 := hne '"' hquote
  have hslash' : c.val.toNat ≠ 92 := hne '\\' hslash
  have hcontrol' : ¬c.val.toNat < 32 := hcontrol
  intro b hb
  rw [String.utf8EncodeChar] at hb
  split at hb
  · rw [List.mem_singleton.mp hb]
    exact isPlain_ofNat (by omega) (by omega) hquote' hslash'
  · split at hb
    · simp only [List.mem_cons, List.not_mem_nil, or_false] at hb
      rcases hb with rfl | rfl <;> exact isPlain_ofNat (by omega) (by omega) (by omega) (by omega)
    · split at hb
      · simp only [List.mem_cons, List.not_mem_nil, or_false] at hb
        rcases hb with rfl | rfl | rfl <;>
          exact isPlain_ofNat (by omega) (by omega) (by omega) (by omega)
      · simp only [List.mem_cons, List.not_mem_nil, or_false] at hb
        rcases hb with rfl | rfl | rfl | rfl <;>
          exact isPlain_ofNat (by omega) (by omega) (by omega) (by omega)

/-- The characters with a letter for their escape, and the byte of the letter. -/
def letterEscapes : List (Char × UInt8) :=
  [('"', 34), ('\\', 92), ('\x08', 98), ('\x0c', 102), ('\n', 110), ('\r', 114), ('\t', 116)]

theorem letterEscapes_sound : ∀ escape ∈ letterEscapes,
    (escapeChar escape.1).flatMap String.utf8EncodeChar = [92, escape.2] ∧ escape.2 ≠ 117 ∧
      (escapedByte? escape.2).map (fun b => [b]) = some (String.utf8EncodeChar escape.1) := by
  decide

theorem unitEscapes_sound : ∀ n < 32,
    let digits := (Bytes.hexByte (UInt8.ofNat n)).flatMap String.utf8EncodeChar
    digits = [digits.getD 0 0, digits.getD 1 0] ∧
      hexUnit? 48 48 (digits.getD 0 0) (digits.getD 1 0) = some n := by
  decide

theorem escapeChar_of_not_letter {c : Char} (h : c ∉ letterEscapes.map Prod.fst) :
    escapeChar c =
      if c.toNat < 32 then ['\\', 'u', '0', '0'] ++ Bytes.hexByte (UInt8.ofNat c.toNat)
      else [c] := by
  simp only [letterEscapes, List.map_cons, List.map_nil, List.mem_cons, List.not_mem_nil,
    or_false, not_or] at h
  obtain ⟨hquote, hslash, hback, hfeed, hline, hreturn, htab⟩ := h
  rw [escapeChar, if_neg hquote, if_neg hslash, if_neg hback, if_neg hfeed, if_neg hline,
    if_neg hreturn, if_neg htab]

theorem readStringFrom_escapeChar (c : Char) (found rest : List UInt8) :
    readStringFrom ⟨.ok found, none⟩
        ((escapeChar c).flatMap String.utf8EncodeChar ++ rest) =
      readStringFrom ⟨.ok ((String.utf8EncodeChar c).reverse ++ found), none⟩ rest := by
  by_cases hletter : c ∈ letterEscapes.map Prod.fst
  · obtain ⟨⟨c, e⟩, hmem, rfl⟩ := List.mem_map.mp hletter
    obtain ⟨hescape, hne, hbyte⟩ := letterEscapes_sound (c, e) hmem
    obtain ⟨b, hb, hchar⟩ := Option.map_eq_some_iff.mp hbyte
    rw [hescape, ← hchar]
    exact readStringFrom_escaped _ hne hb rest
  · rw [escapeChar_of_not_letter hletter]
    by_cases hcontrol : c.toNat < 32
    · obtain ⟨hdigits, hunit⟩ := unitEscapes_sound c.toNat hcontrol
      have hpush : (⟨.ok found, none⟩ : StringSoFar).pushUnit c.toNat =
          ⟨.ok ((String.utf8EncodeChar c).reverse ++ found), none⟩ := by
        have hlow : ¬(0xdc00 ≤ c.toNat ∧ c.toNat ≤ 0xdfff) := by omega
        have hhigh : ¬(0xd800 ≤ c.toNat ∧ c.toNat ≤ 0xdbff) := by omega
        simp only [StringSoFar.pushUnit, if_neg hlow, if_neg hhigh, StringSoFar.pushCode,
          Char.ofNat_toNat]
      rw [if_pos hcontrol, List.flatMap_append, hdigits, ← hpush]
      exact readStringFrom_unit _ hunit rest
    · have hquote : c ≠ '"' := by
        rintro rfl
        exact hletter (by decide)
      have hslash : c ≠ '\\' := by
        rintro rfl
        exact hletter (by decide)
      rw [if_neg hcontrol, List.flatMap_singleton]
      exact readStringFrom_plainBytes (isPlain_utf8EncodeChar hquote hslash hcontrol) found rest

theorem readStringFrom_characters (cs : List Char) (found rest : List UInt8) :
    readStringFrom ⟨.ok found, none⟩
        ((cs.flatMap escapeChar).flatMap String.utf8EncodeChar ++ rest) =
      readStringFrom ⟨.ok ((cs.flatMap String.utf8EncodeChar).reverse ++ found), none⟩ rest := by
  induction cs generalizing found with
  | nil => rfl
  | cons c more ih =>
    rw [List.flatMap_cons, List.flatMap_append, List.append_assoc, readStringFrom_escapeChar, ih,
      List.flatMap_cons, List.reverse_append, List.append_assoc]

/-- The text of a string is its opening mark and what reads back as the string. -/
theorem readString_stringText (text : String) (rest : List UInt8) :
    ∃ bs, textBytes (stringText text) = 34 :: bs ∧
      readString (bs ++ rest) = (.sound text, some rest) := by
  refine ⟨(text.toList.flatMap escapeChar).flatMap String.utf8EncodeChar ++ [34], ?_, ?_⟩
  · rw [stringText, textBytes_ofList, List.flatMap_append, List.flatMap_cons]
    rfl
  · have hclose : (⟨.ok ((text.toList.flatMap String.utf8EncodeChar).reverse ++ []), none⟩ :
        StringSoFar).close = .ok text := by
      simp only [StringSoFar.close, List.append_nil, List.reverse_reverse, ← textBytes_eq,
        fromUTF8?_textBytes]
    rw [readString, List.append_assoc, StringSoFar.empty, readStringFrom_characters,
      List.singleton_append, readStringFrom_quote, hclose]
    rfl

end Json
end AnimatedGlyph
