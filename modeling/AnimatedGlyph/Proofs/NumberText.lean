/-
Numbers that read back.

The text of a double may read back as one of its neighbours, because the reader rounds
more than once.  `ReadsBack` says of a number that it does not: reading its text gives
the number and uses the whole text.  Integers always read back.

A number that reads back does so in the middle of a text too.  Nothing in a numeral
depends on what follows it, so long as what follows cannot belong to the numeral, and
after a value there can only be white space, a comma, a closing bracket or the end of the
text.
-/
import AnimatedGlyph.Proofs.Spans
import AnimatedGlyph.Proofs.StringText

namespace AnimatedGlyph

open Json

/-- Reading the text of the number gives the number. -/
def JsonNumber.ReadsBack (n : JsonNumber) : Prop :=
  readNumber (textBytes (numberText n)) = (.sound n, some [])

namespace Json

/-! ## What may follow a value -/

/-- The bytes that may stand after a value: a comma, the closing brackets, and white space. -/
def endBytes : List UInt8 := [44, 93, 125, 32, 9, 10, 13]

/-- The rest of a text after a value. -/
def Ends (rest : List UInt8) : Prop :=
  ∀ b ∈ rest.head?, b ∈ endBytes

theorem ends_nil : Ends [] :=
  nofun

theorem ends_cons {b : UInt8} (h : b ∈ endBytes) (rest : List UInt8) : Ends (b :: rest) := by
  intro c hc
  cases hc
  exact h

theorem Ends.stops {rest : List UInt8} (ends : Ends rest) {p : UInt8 → Bool}
    (h : endBytes.any p = false) : Stops p rest :=
  fun b hb => Bool.eq_false_iff.mpr (List.any_eq_false.mp h b (ends b hb))

theorem Ends.not_digit {rest : List UInt8} (ends : Ends rest) : Stops isDigit rest :=
  ends.stops (by decide)

/-! ## Numerals in the middle of a text -/

variable {bs left rest : List UInt8}

theorem scanDigits_append (ends : Ends rest) {digits : List UInt8}
    (h : scanDigits bs = .ok (digits, left)) :
    scanDigits (bs ++ rest) = .ok (digits, left ++ rest) := by
  obtain ⟨htake, hdrop⟩ := takeWhile_append_of_stop ends.not_digit bs
  rw [scanDigits] at h ⊢
  rw [htake, hdrop]
  split at h
  · cases h
  · cases h
    rw [if_neg (by assumption)]

theorem scanWhole_append (ends : Ends rest) {digits : List UInt8}
    (h : scanWhole bs = .ok (digits, left)) :
    scanWhole (bs ++ rest) = .ok (digits, left ++ rest) := by
  cases bs with
  | nil => cases h
  | cons b more =>
    obtain ⟨htake, hdrop⟩ := takeWhile_append_of_stop ends.not_digit more
    rw [List.cons_append]
    simp only [scanWhole, htake, hdrop] at h ⊢
    split at h
    · rename_i hzero
      rw [if_pos hzero]
      split at h
      · cases h
        rw [if_pos (by assumption)]
      · cases h
    · rename_i hzero
      rw [if_neg hzero]
      split at h
      · cases h
        rw [if_pos (by assumption)]
      · cases h

theorem scanFraction_append (ends : Ends rest) {fraction : Option (List UInt8)}
    (h : scanFraction bs = .ok (fraction, left)) :
    scanFraction (bs ++ rest) = .ok (fraction, left ++ rest) := by
  cases bs with
  | nil =>
    cases h
    cases rest with
    | nil => rfl
    | cons b more =>
      have hpoint : Stops (fun c => decide (c = 46)) (b :: more) := ends.stops (by decide)
      exact if_neg (of_decide_eq_false (hpoint b rfl))
  | cons b more =>
    rw [List.cons_append]
    simp only [scanFraction] at h ⊢
    split at h
    · rename_i hpoint
      rw [if_pos hpoint]
      cases hdigits : scanDigits more with
      | error fault =>
        rw [hdigits] at h
        cases h
      | ok found =>
        rw [hdigits] at h
        cases h
        rw [scanDigits_append ends hdigits]
        rfl
    · rename_i hpoint
      cases h
      rw [if_neg hpoint]
      rfl

theorem scanExponentSign_append (h : bs ≠ []) (rest : List UInt8) :
    scanExponentSign (bs ++ rest) =
      ((scanExponentSign bs).1, (scanExponentSign bs).2 ++ rest) := by
  cases bs with
  | nil => exact absurd rfl h
  | cons b more =>
    rw [List.cons_append]
    simp only [scanExponentSign]
    split
    · rfl
    · split <;> rfl

theorem scanExponent_append (ends : Ends rest) {exponent : Option (Bool × List UInt8)}
    (h : scanExponent bs = .ok (exponent, left)) :
    scanExponent (bs ++ rest) = .ok (exponent, left ++ rest) := by
  cases bs with
  | nil =>
    cases h
    cases rest with
    | nil => rfl
    | cons b more =>
      have hmark : Stops (fun c => decide (c = 101 ∨ c = 69)) (b :: more) :=
        ends.stops (by decide)
      exact if_neg (of_decide_eq_false (hmark b rfl))
  | cons b more =>
    rw [List.cons_append]
    simp only [scanExponent] at h ⊢
    split at h
    · rename_i hmark
      rw [if_pos hmark]
      -- A digit has to follow the mark, so the sign is not at the end.
      have hsign : more ≠ [] := by
        rintro rfl
        cases h
      rw [scanExponentSign_append hsign]
      cases hdigits : scanDigits (scanExponentSign more).2 with
      | error fault =>
        simp only [hdigits] at h
        cases h
      | ok found =>
        simp only [hdigits] at h
        cases h
        simp only [scanDigits_append ends hdigits]
        rfl
    · rename_i hmark
      cases h
      rw [if_neg hmark]
      rfl

theorem scanUnsigned_append (ends : Ends rest) {isNegative : Bool} {numeral : Numeral}
    (h : scanUnsigned isNegative bs = .ok (numeral, left)) :
    scanUnsigned isNegative (bs ++ rest) = .ok (numeral, left ++ rest) := by
  rw [scanUnsigned] at h ⊢
  cases hwhole : scanWhole bs with
  | error fault =>
    rw [hwhole] at h
    cases h
  | ok whole =>
    rw [hwhole] at h
    cases hfraction : scanFraction whole.2 with
    | error fault =>
      simp only [bind, Except.bind, hfraction] at h
      cases h
    | ok fraction =>
      cases hexponent : scanExponent fraction.2 with
      | error fault =>
        simp only [bind, Except.bind, hfraction, hexponent] at h
        cases h
      | ok exponent =>
        simp only [bind, Except.bind, hfraction, hexponent] at h
        cases h
        simp only [bind, Except.bind, scanWhole_append ends hwhole,
          scanFraction_append ends hfraction, scanExponent_append ends hexponent]
        rfl

theorem scanNumeral_append (ends : Ends rest) {numeral : Numeral}
    (h : scanNumeral bs = .ok (numeral, left)) :
    scanNumeral (bs ++ rest) = .ok (numeral, left ++ rest) := by
  cases bs with
  | nil => cases h
  | cons b more =>
    rw [List.cons_append]
    simp only [scanNumeral] at h ⊢
    split at h
    · rename_i hsign
      rw [if_pos hsign]
      exact scanUnsigned_append ends h
    · rename_i hsign
      rw [if_neg hsign]
      exact scanUnsigned_append ends h

/-- A numeral starts with its sign or with a digit. -/
theorem head_of_scanNumeral {numeral : Numeral} (h : scanNumeral bs = .ok (numeral, left)) :
    ∃ b more, bs = b :: more ∧ (b = 45 ∨ isDigit b = true) := by
  cases bs with
  | nil => cases h
  | cons b more =>
    refine ⟨b, more, rfl, ?_⟩
    by_cases hsign : b = 45
    · exact .inl hsign
    · refine .inr ?_
      by_cases hdigit : isDigit b = true
      · exact hdigit
      · have hzero : ¬b = 48 := by
          rintro rfl
          exact hdigit (by decide)
        have hfault : scanWhole (b :: more) = .error (.both .malformed) := by
          rw [scanWhole, if_neg hzero, if_neg hdigit]
        rw [scanNumeral, if_neg hsign, scanUnsigned, hfault] at h
        cases h

/-! ## Reading a number in the middle of a text -/

theorem readNumber_eq_sound {n : JsonNumber} (h : readNumber bs = (.sound n, some left)) :
    ∃ numeral, scanNumeral bs = .ok (numeral, left) ∧ numeral.number? = some n := by
  rw [readNumber] at h
  split at h
  · cases h
  · rename_i numeral rest hscan
    split at h
    · rename_i m hnumber
      cases h
      exact ⟨numeral, hscan, hnumber⟩
    · cases h

theorem readNumber_append (ends : Ends rest) {n : JsonNumber} (h : n.ReadsBack) :
    readNumber (textBytes (numberText n) ++ rest) = (.sound n, some rest) := by
  obtain ⟨numeral, hscan, hnumber⟩ := readNumber_eq_sound h
  simp only [readNumber, scanNumeral_append ends hscan, hnumber]
  rfl

theorem head_of_readsBack {n : JsonNumber} (h : n.ReadsBack) :
    ∃ b more, textBytes (numberText n) = b :: more ∧ (b = 45 ∨ isDigit b = true) := by
  obtain ⟨numeral, hscan, -⟩ := readNumber_eq_sound h
  exact head_of_scanNumeral hscan

/-! ## Integers -/

/-- The digits of a number as bytes. -/
def digitBytes (n : Nat) : List UInt8 :=
  (Nat.toDigits 10 n).flatMap String.utf8EncodeChar

theorem utf8EncodeChar_digitChar : ∀ d < 10,
    String.utf8EncodeChar d.digitChar = [UInt8.ofNat (48 + d)] ∧
      isDigit (UInt8.ofNat (48 + d)) = true ∧ (UInt8.ofNat (48 + d)).toNat - 48 = d ∧
        (UInt8.ofNat (48 + d) = 48 → d = 0) := by
  decide

theorem digitBytes_of_lt {n : Nat} (h : n < 10) : digitBytes n = [UInt8.ofNat (48 + n)] := by
  rw [digitBytes, Nat.toDigits_of_lt_base h, List.flatMap_singleton]
  exact (utf8EncodeChar_digitChar n h).1

theorem digitBytes_of_le {n : Nat} (h : 10 ≤ n) :
    digitBytes n = digitBytes (n / 10) ++ [UInt8.ofNat (48 + n % 10)] := by
  have hd := (utf8EncodeChar_digitChar (n % 10) (Nat.mod_lt n (by decide))).1
  rw [digitBytes, Nat.toDigits_of_base_le (by decide) h, List.flatMap_append,
    List.flatMap_singleton, hd]
  rfl

/-- What a reader of digits needs to know of those of a number: a first digit that is
zero stands alone. -/
theorem digitBytes_shape (n : Nat) :
    (∀ b ∈ digitBytes n, isDigit b = true) ∧
      ∃ b more, digitBytes n = b :: more ∧ (b = 48 → n = 0) := by
  induction n using Nat.strongRecOn with
  | ind n ih =>
    by_cases hn : n < 10
    · obtain ⟨-, hdigit, -, hzero⟩ := utf8EncodeChar_digitChar n hn
      rw [digitBytes_of_lt hn]
      refine ⟨?_, _, [], rfl, hzero⟩
      intro b hb
      rw [List.mem_singleton.mp hb]
      exact hdigit
    · have hten : 10 ≤ n := Nat.le_of_not_lt hn
      obtain ⟨hdigits, b, more, hfirst, hzero⟩ := ih (n / 10) (by omega)
      have hlast := (utf8EncodeChar_digitChar (n % 10) (Nat.mod_lt n (by decide))).2.1
      rw [digitBytes_of_le hten]
      refine ⟨?_, b, more ++ [UInt8.ofNat (48 + n % 10)], by rw [hfirst]; rfl, ?_⟩
      · intro c hc
        rcases List.mem_append.mp hc with hc | hc
        · exact hdigits c hc
        · rw [List.mem_singleton.mp hc]
          exact hlast
      · intro h
        have := hzero h
        omega

theorem takeDigits_append {n m : Nat} (first second : List UInt8)
    (h : takeDigits n first = (m, 0)) :
    takeDigits n (first ++ second) = takeDigits m second := by
  induction first generalizing n with
  | nil =>
    cases h
    rfl
  | cons d rest ih =>
    rw [takeDigits] at h
    rw [List.cons_append, takeDigits]
    split at h
    · rename_i hroom
      rw [if_pos hroom]
      exact ih h
    · cases h

theorem takeDigits_digitBytes (n : Nat) (h : n < UInt64.size) :
    takeDigits 0 (digitBytes n) = (n, 0) := by
  induction n using Nat.strongRecOn with
  | ind n ih =>
    by_cases hn : n < 10
    · have hd := (utf8EncodeChar_digitChar n hn).2.2.1
      rw [digitBytes_of_lt hn, takeDigits, hd, if_pos (by omega), takeDigits]
      simp
    · have hd := (utf8EncodeChar_digitChar (n % 10) (Nat.mod_lt n (by decide))).2.2.1
      have hvalue : 10 * (n / 10) + n % 10 = n := by omega
      have hwhole := ih (n / 10) (by omega) (by omega)
      rw [digitBytes_of_le (Nat.le_of_not_lt hn), takeDigits_append _ _ hwhole, takeDigits, hd,
        hvalue, if_pos h, takeDigits]

theorem scanUnsigned_digitBytes (isNegative : Bool) (n : Nat) :
    scanUnsigned isNegative (digitBytes n) = .ok (⟨isNegative, digitBytes n, none, none⟩, []) := by
  obtain ⟨hdigits, b, more, hfirst, hzero⟩ := digitBytes_shape n
  have hwhole : scanWhole (digitBytes n) = .ok (digitBytes n, []) := by
    by_cases hb : b = 48
    · rw [hzero hb]
      rfl
    · rw [hfirst] at hdigits ⊢
      have hmore : ∀ c ∈ more, isDigit c = true :=
        fun c hc => hdigits c (List.mem_cons_of_mem b hc)
      have htake := @List.takeWhile_append_of_pos _ isDigit more [] hmore
      have hdrop := @List.dropWhile_append_of_pos _ isDigit more [] hmore
      simp only [List.append_nil, List.takeWhile_nil, List.dropWhile_nil] at htake hdrop
      rw [scanWhole, if_neg hb, if_pos (hdigits b List.mem_cons_self), htake, hdrop]
  rw [scanUnsigned, hwhole]
  rfl

theorem integer?_digitBytes {n : Nat} (h : n < UInt64.size) :
    Numeral.integer? ⟨false, digitBytes n, none, none⟩ = some (.natural (UInt64.ofNat n)) := by
  simp only [Numeral.integer?, takeDigits_digitBytes n h]
  exact if_neg Bool.false_ne_true

theorem integer?_digitBytes_of_negative (n : Fin 0x8000000000000000) :
    Numeral.integer? ⟨true, digitBytes (n.val + 1), none, none⟩ = some (.negative n) := by
  have hroom : n.val + 1 < UInt64.size := by
    have hn := n.isLt
    have hsize : UInt64.size = 0x10000000000000000 := rfl
    omega
  have hrange : 0 < n.val + 1 ∧ n.val + 1 ≤ 0x8000000000000000 := by omega
  simp only [Numeral.integer?, takeDigits_digitBytes _ hroom]
  rw [if_pos trivial, dif_pos hrange]
  rfl

theorem readsBack_natural (n : UInt64) : (JsonNumber.natural n).ReadsBack := by
  have htext : textBytes (numberText (.natural n)) = digitBytes n.toNat := by
    rw [numberText, Nat.toString_eq_ofList_toDigits, textBytes_ofList, digitBytes]
  obtain ⟨hdigits, b, more, hfirst, -⟩ := digitBytes_shape n.toNat
  have hsign : ¬b = 45 := by
    rintro rfl
    rw [hfirst] at hdigits
    exact absurd (hdigits 45 List.mem_cons_self) (by decide)
  have hscan : scanNumeral (digitBytes n.toNat) =
      .ok (⟨false, digitBytes n.toNat, none, none⟩, []) := by
    rw [← scanUnsigned_digitBytes, hfirst]
    exact if_neg hsign
  have hnumber : Numeral.number? ⟨false, digitBytes n.toNat, none, none⟩ = some (.natural n) := by
    rw [Numeral.number?, integer?_digitBytes n.toNat_lt, UInt64.ofNat_toNat]
  rw [JsonNumber.ReadsBack, htext, readNumber, hscan]
  simp only [hnumber]

theorem readsBack_negative (n : Fin 0x8000000000000000) : (JsonNumber.negative n).ReadsBack := by
  have htext : textBytes (numberText (.negative n)) = 45 :: digitBytes (n.val + 1) := by
    have hminus : textBytes "-" = [45] := textBytes_ofList ['-']
    rw [numberText, textBytes_append, hminus, Nat.toString_eq_ofList_toDigits, textBytes_ofList]
    rfl
  have hscan : scanNumeral (45 :: digitBytes (n.val + 1)) =
      .ok (⟨true, digitBytes (n.val + 1), none, none⟩, []) := by
    rw [← scanUnsigned_digitBytes]
    rfl
  have hnumber : Numeral.number? ⟨true, digitBytes (n.val + 1), none, none⟩ =
      some (.negative n) := by
    rw [Numeral.number?, integer?_digitBytes_of_negative]
  rw [JsonNumber.ReadsBack, htext, readNumber, hscan]
  simp only [hnumber]

end Json
end AnimatedGlyph
