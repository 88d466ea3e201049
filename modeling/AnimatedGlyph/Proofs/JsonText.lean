/-
JSON texts that read back.

`Spells` says which bytes are a text of a value: its tokens in order, with any white space between
them.  Such a text reads back as the draft of the value, which has no faults.  The reader calls
itself with less and less fuel, one unit for each value and one for each item or member, so the
induction is on the fuel: with twice as much fuel as there are bytes every value, every run of
items and every run of members is read to its end.  `Spells.readText` is the statement for a whole
text.

The compact text of a value is one of its texts, provided that its numbers read back.
-/
import AnimatedGlyph.Proofs.NumberText

namespace AnimatedGlyph
namespace Json

/-! ## Induction -/

/-- A property of all values that those inside an array or an object pass on to it. -/
@[elab_as_elim]
theorem inductionOn {P : Json → Prop} (null : P .null) (bool : ∀ b, P (.bool b))
    (number : ∀ n, P (.number n)) (string : ∀ s, P (.string s))
    (array : ∀ items, (∀ item ∈ items, P item) → P (.array items))
    (object : ∀ members, (∀ member ∈ members, P member.2) → P (.object members))
    (value : Json) : P value :=
  @Json.rec P (fun items => ∀ item ∈ items, P item) (fun members => ∀ member ∈ members, P member.2)
    (fun member => P member.2) null bool number string array object nofun
    (fun _ _ hitem hrest => List.forall_mem_cons.mpr ⟨hitem, hrest⟩) nofun
    (fun _ _ hmember hrest => List.forall_mem_cons.mpr ⟨hmember, hrest⟩) (fun _ _ h => h) value

/-! ## Numbers of a value -/

mutual
/-- The numbers in a value. -/
def numbers : Json → List JsonNumber
  | .number n => [n]
  | .array items => numbersOfItems items
  | .object members => numbersOfMembers members
  | _ => []

def numbersOfItems : List Json → List JsonNumber
  | [] => []
  | item :: rest => numbers item ++ numbersOfItems rest

def numbersOfMember : String × Json → List JsonNumber
  | (_, value) => numbers value

def numbersOfMembers : List (String × Json) → List JsonNumber
  | [] => []
  | member :: rest => numbersOfMember member ++ numbersOfMembers rest
end

def NumbersReadBack (value : Json) : Prop :=
  ∀ n ∈ value.numbers, n.ReadsBack

theorem mem_numbers_array {items : List Json} {n : JsonNumber} :
    n ∈ (array items).numbers ↔ ∃ item ∈ items, n ∈ item.numbers := by
  show n ∈ numbersOfItems items ↔ _
  induction items with
  | nil => exact ⟨nofun, nofun⟩
  | cons item rest ih =>
    simp only [numbersOfItems, List.mem_append, ih, List.mem_cons, exists_eq_or_imp]

theorem mem_numbers_object {members : List (String × Json)} {n : JsonNumber} :
    n ∈ (object members).numbers ↔ ∃ member ∈ members, n ∈ member.2.numbers := by
  show n ∈ numbersOfMembers members ↔ _
  induction members with
  | nil => exact ⟨nofun, nofun⟩
  | cons member rest ih =>
    obtain ⟨name, value⟩ := member
    simp only [numbersOfMembers, numbersOfMember, List.mem_append, ih, List.mem_cons,
      exists_eq_or_imp]

theorem NumbersReadBack.of_item {items : List Json} {item : Json}
    (h : (array items).NumbersReadBack) (hitem : item ∈ items) : item.NumbersReadBack :=
  fun n hn => h n (mem_numbers_array.mpr ⟨item, hitem, hn⟩)

theorem NumbersReadBack.of_member {members : List (String × Json)} {member : String × Json}
    (h : (object members).NumbersReadBack) (hmember : member ∈ members) :
    member.2.NumbersReadBack :=
  fun n hn => h n (mem_numbers_object.mpr ⟨member, hmember, hn⟩)

/-! ## Bytes of the texts -/

/-- The bytes of the compact text of a value. -/
def bytes (value : Json) : List UInt8 :=
  textBytes (compact value)

/-- The bytes of the items after the first. -/
def bytesOfItems (items : List Json) : List UInt8 :=
  textBytes (compactItems items)

def bytesOfMember (member : String × Json) : List UInt8 :=
  textBytes (compactMember member)

/-- The bytes of the members after the first. -/
def bytesOfMembers (members : List (String × Json)) : List UInt8 :=
  textBytes (compactMembers members)

theorem bytes_null : bytes null = [110, 117, 108, 108] :=
  textBytes_ofList ['n', 'u', 'l', 'l']

theorem bytes_bool (b : Bool) : bytes (bool b) = textBytes (boolText b) :=
  rfl

theorem bytes_true : bytes (bool true) = [116, 114, 117, 101] :=
  textBytes_ofList ['t', 'r', 'u', 'e']

theorem bytes_false : bytes (bool false) = [102, 97, 108, 115, 101] :=
  textBytes_ofList ['f', 'a', 'l', 's', 'e']

theorem bytes_array_nil : bytes (array []) = [91, 93] :=
  textBytes_ofList ['[', ']']

theorem bytes_object_nil : bytes (object []) = [123, 125] :=
  textBytes_ofList ['\x7b', '\x7d']

theorem bytesOfItems_nil : bytesOfItems [] = [] :=
  textBytes_ofList []

theorem bytesOfMembers_nil : bytesOfMembers [] = [] :=
  textBytes_ofList []

theorem textBytes_comma : textBytes "," = [44] :=
  textBytes_ofList [',']

theorem bytes_array_cons (item : Json) (rest : List Json) :
    bytes (array (item :: rest)) = 91 :: (bytes item ++ (bytesOfItems rest ++ [93])) := by
  have hopen : textBytes "[" = [91] := textBytes_ofList ['[']
  have hclose : textBytes "]" = [93] := textBytes_ofList [']']
  rw [bytes, compact, textBytes_append, textBytes_append, textBytes_append, hopen, hclose,
    List.append_assoc, List.append_assoc]
  rfl

theorem bytesOfItems_cons (item : Json) (rest : List Json) :
    bytesOfItems (item :: rest) = 44 :: (bytes item ++ bytesOfItems rest) := by
  rw [bytesOfItems, compactItems, textBytes_append, textBytes_append, textBytes_comma,
    List.append_assoc]
  rfl

theorem bytes_object_cons (member : String × Json) (rest : List (String × Json)) :
    bytes (object (member :: rest)) =
      123 :: (bytesOfMember member ++ (bytesOfMembers rest ++ [125])) := by
  have hopen : textBytes "\x7b" = [123] := textBytes_ofList ['\x7b']
  have hclose : textBytes "\x7d" = [125] := textBytes_ofList ['\x7d']
  rw [bytes, compact, textBytes_append, textBytes_append, textBytes_append, hopen, hclose,
    List.append_assoc, List.append_assoc]
  rfl

theorem bytesOfMember_eq (name : String) (value : Json) :
    bytesOfMember (name, value) = textBytes (stringText name) ++ 58 :: bytes value := by
  have hcolon : textBytes ":" = [58] := textBytes_ofList [':']
  rw [bytesOfMember, compactMember, textBytes_append, textBytes_append, hcolon, List.append_assoc]
  rfl

theorem bytesOfMembers_cons (member : String × Json) (rest : List (String × Json)) :
    bytesOfMembers (member :: rest) = 44 :: (bytesOfMember member ++ bytesOfMembers rest) := by
  rw [bytesOfMembers, compactMembers, textBytes_append, textBytes_append, textBytes_comma,
    List.append_assoc]
  rfl

/-! ## Texts of values -/

/-- White space. -/
def Gap (gap : List UInt8) : Prop :=
  ∀ b ∈ gap, isSpace b = true

theorem gap_nil : Gap [] :=
  nofun

mutual
/-- The bytes are a text of the value. -/
inductive Spells : Json → List UInt8 → Prop
  | null : Spells null [110, 117, 108, 108]
  | bool (b : Bool) : Spells (bool b) (textBytes (boolText b))
  | number {n : JsonNumber} : n.ReadsBack → Spells (number n) (textBytes (numberText n))
  | string (s : String) : Spells (string s) (textBytes (stringText s))
  | emptyArray {gap : List UInt8} : Gap gap → Spells (array []) (91 :: (gap ++ [93]))
  | array {items : List Json} {gap bs : List UInt8} : Gap gap → SpellsItems items bs →
      Spells (array items) (91 :: (gap ++ bs))
  | emptyObject {gap : List UInt8} : Gap gap → Spells (object []) (123 :: (gap ++ [125]))
  | object {members : List (String × Json)} {gap bs : List UInt8} : Gap gap →
      SpellsMembers members bs → Spells (object members) (123 :: (gap ++ bs))

/-- The bytes are a text of items, of which there is one at least, and the closing bracket. -/
inductive SpellsItems : List Json → List UInt8 → Prop
  | last {item : Json} {bs gap : List UInt8} : Spells item bs → Gap gap →
      SpellsItems [item] (bs ++ (gap ++ [93]))
  | more {item next : Json} {rest : List Json} {bs gap after behind : List UInt8} :
      Spells item bs → Gap gap → Gap after → SpellsItems (next :: rest) behind →
      SpellsItems (item :: next :: rest) (bs ++ (gap ++ 44 :: (after ++ behind)))

/-- The bytes are a text of a member. -/
inductive SpellsMember : String × Json → List UInt8 → Prop
  | mk {name : String} {value : Json} {before after bs : List UInt8} : Gap before → Gap after →
      Spells value bs →
      SpellsMember (name, value) (textBytes (stringText name) ++ (before ++ 58 :: (after ++ bs)))

inductive SpellsMembers : List (String × Json) → List UInt8 → Prop
  | last {member : String × Json} {bs gap : List UInt8} : SpellsMember member bs → Gap gap →
      SpellsMembers [member] (bs ++ (gap ++ [125]))
  | more {member next : String × Json} {rest : List (String × Json)}
      {bs gap after behind : List UInt8} : SpellsMember member bs → Gap gap → Gap after →
      SpellsMembers (next :: rest) behind →
      SpellsMembers (member :: next :: rest) (bs ++ (gap ++ 44 :: (after ++ behind)))
end

/-! ## First bytes -/

theorem isSpace_of_digit {b : UInt8} (h : b = 45 ∨ isDigit b = true) :
    isSpace b = false ∧ b ≠ 93 ∧ b ≠ 110 ∧ b ≠ 116 ∧ b ≠ 102 ∧ b ≠ 34 := by
  have hdigit : 45 ≤ b.toNat ∧ b.toNat ≤ 57 := by
    rcases h with rfl | h
    · decide
    · simp only [isDigit, Bool.and_eq_true, decide_eq_true_eq, UInt8.le_iff_toNat_le] at h
      exact ⟨Nat.le_trans (by decide) h.1, h.2⟩
  have hne : ∀ c : UInt8, ¬(45 ≤ c.toNat ∧ c.toNat ≤ 57) → b ≠ c := by
    rintro c hc rfl
    exact hc hdigit
  refine ⟨?_, hne 93 (by decide), hne 110 (by decide), hne 116 (by decide), hne 102 (by decide),
    hne 34 (by decide)⟩
  simp only [isSpace, Bool.or_eq_false_iff, decide_eq_false_iff_not]
  exact ⟨⟨⟨hne 32 (by decide), hne 9 (by decide)⟩, hne 10 (by decide)⟩, hne 13 (by decide)⟩

theorem skipSpace_cons {b : UInt8} (h : isSpace b = false) (rest : List UInt8) :
    skipSpace (b :: rest) = b :: rest := by
  rw [skipSpace, List.dropWhile_cons_of_neg]
  rw [h]
  exact Bool.false_ne_true

theorem Gap.skipSpace_append {gap : List UInt8} (h : Gap gap) (rest : List UInt8) :
    skipSpace (gap ++ rest) = skipSpace rest := by
  induction gap with
  | nil => rfl
  | cons b more ih =>
    obtain ⟨hb, hmore⟩ := List.forall_mem_cons.mp h
    rw [List.cons_append, skipSpace, List.dropWhile_cons_of_pos hb]
    exact ih hmore

theorem mem_endBytes_of_isSpace {b : UInt8} (h : isSpace b = true) : b ∈ endBytes := by
  simp only [isSpace, Bool.or_eq_true, decide_eq_true_eq] at h
  rcases h with ((rfl | rfl) | rfl) | rfl <;> decide

/-- After white space a value may end as without it. -/
theorem Gap.ends_append {gap rest : List UInt8} (h : Gap gap) (ends : Ends rest) :
    Ends (gap ++ rest) := by
  cases gap with
  | nil => exact ends
  | cons b more => exact ends_cons (mem_endBytes_of_isSpace (h b List.mem_cons_self)) _

/-- No value starts with white space or with a closing bracket. -/
theorem Spells.head {value : Json} {bs : List UInt8} (h : Spells value bs) :
    ∃ b more, bs = b :: more ∧ isSpace b = false ∧ b ≠ 93 := by
  cases h with
  | null => exact ⟨_, _, rfl, by decide, by decide⟩
  | bool b =>
    cases b with
    | true => exact ⟨_, _, bytes_true, by decide, by decide⟩
    | false => exact ⟨_, _, bytes_false, by decide, by decide⟩
  | number hn =>
    obtain ⟨b, more, hbytes, hdigit⟩ := head_of_readsBack hn
    obtain ⟨hspace, hclose, -⟩ := isSpace_of_digit hdigit
    exact ⟨b, more, hbytes, hspace, hclose⟩
  | string s =>
    obtain ⟨more, hbytes, -⟩ := readString_stringText s []
    exact ⟨34, more, hbytes, by decide, by decide⟩
  | emptyArray gap => exact ⟨_, _, rfl, by decide, by decide⟩
  | array gap items => exact ⟨_, _, rfl, by decide, by decide⟩
  | emptyObject gap => exact ⟨_, _, rfl, by decide, by decide⟩
  | object gap members => exact ⟨_, _, rfl, by decide, by decide⟩

theorem SpellsItems.head {items : List Json} {bs : List UInt8} (h : SpellsItems items bs) :
    ∃ b more, bs = b :: more ∧ isSpace b = false ∧ b ≠ 93 := by
  cases h with
  | last item gap =>
    obtain ⟨b, more, rfl, hb⟩ := item.head
    exact ⟨b, _, rfl, hb⟩
  | more item gap after rest =>
    obtain ⟨b, more, rfl, hb⟩ := item.head
    exact ⟨b, _, rfl, hb⟩

theorem SpellsMember.head {member : String × Json} {bs : List UInt8} (h : SpellsMember member bs) :
    ∃ more, bs = 34 :: more := by
  cases h with
  | @mk name =>
    obtain ⟨letters, hletters, -⟩ := readString_stringText name []
    rw [hletters]
    exact ⟨_, rfl⟩

theorem SpellsMembers.head {members : List (String × Json)} {bs : List UInt8}
    (h : SpellsMembers members bs) : ∃ more, bs = 34 :: more := by
  cases h with
  | last member gap =>
    obtain ⟨more, rfl⟩ := member.head
    exact ⟨_, rfl⟩
  | more member gap after rest =>
    obtain ⟨more, rfl⟩ := member.head
    exact ⟨_, rfl⟩

/-! ## The reader -/

/-- With so much fuel the reader gets to the end of what it reads. -/
structure ReadsWith (fuel : Nat) : Prop where
  value : ∀ {value : Json} {bs rest : List UInt8}, Spells value bs → Ends rest →
    2 * bs.length ≤ fuel → readValue fuel (bs ++ rest) = (draft value, some rest)
  items : ∀ {items : List Json} {bs : List UInt8} (rest : List UInt8), SpellsItems items bs →
    2 * bs.length ≤ fuel + 1 →
      readItems fuel (bs ++ rest) = (draftItems items, none, some rest)
  members : ∀ {members : List (String × Json)} {bs : List UInt8} (rest : List UInt8),
    SpellsMembers members bs → 2 * bs.length ≤ fuel + 1 →
      readMembers fuel (bs ++ rest) = (draftMembers members, none, some rest)

/-- Nothing is read of white space in front of a value. -/
theorem Gap.readValue_append {gap : List UInt8} (h : Gap gap) (fuel : Nat) (bs : List UInt8) :
    readValue fuel (gap ++ bs) = readValue fuel bs := by
  cases fuel with
  | zero => rfl
  | succ fuel => rw [readValue, readValue, h.skipSpace_append]

theorem Gap.readItems_append {gap : List UInt8} (h : Gap gap) (fuel : Nat) (bs : List UInt8) :
    readItems fuel (gap ++ bs) = readItems fuel bs := by
  cases fuel with
  | zero => rfl
  | succ fuel => rw [readItems, readItems, h.readValue_append]

theorem Gap.readMembers_append {gap : List UInt8} (h : Gap gap) (fuel : Nat) (bs : List UInt8) :
    readMembers fuel (gap ++ bs) = readMembers fuel bs := by
  cases fuel with
  | zero => rfl
  | succ fuel => rw [readMembers, readMembers, h.skipSpace_append]

theorem readItems_step {fuel : Nat} (reads : ReadsWith fuel) {items : List Json}
    {bs rest : List UInt8} (h : SpellsItems items bs) (hfuel : 2 * bs.length ≤ fuel + 2) :
    readItems (fuel + 1) (bs ++ rest) = (draftItems items, none, some rest) := by
  cases h with
  | @last item bs gap hitem hgap =>
    simp only [List.length_append, List.length_cons] at hfuel
    have hends : Ends (gap ++ 93 :: rest) := hgap.ends_append (ends_cons (by decide) rest)
    have hfirst := reads.value hitem hends (by omega)
    simp only [List.append_assoc, List.singleton_append]
    rw [readItems, hfirst]
    simp only [hgap.skipSpace_append, skipSpace_cons (show isSpace 93 = false by decide)]
    rfl
  | @more item next tail bs gap after behind hitem hgap hafter hbehind =>
    simp only [List.length_append, List.length_cons] at hfuel
    have hends : Ends (gap ++ 44 :: (after ++ behind ++ rest)) :=
      hgap.ends_append (ends_cons (by decide) _)
    have hfirst := reads.value hitem hends (by omega)
    have htail := reads.items rest hbehind (by omega)
    simp only [List.append_assoc, List.cons_append] at hfirst ⊢
    rw [readItems, hfirst]
    simp only [hgap.skipSpace_append, skipSpace_cons (show isSpace 44 = false by decide), if_true,
      hafter.readItems_append, htail]
    rfl

/-- The first member is read, and then what stands behind it. -/
theorem readMembers_succ {fuel : Nat} (reads : ReadsWith fuel) {member : String × Json}
    {bs rest : List UInt8} (h : SpellsMember member bs) (ends : Ends rest)
    (hfuel : 2 * bs.length ≤ fuel + 2) :
    readMembers (fuel + 1) (bs ++ rest) =
      match skipSpace rest with
      | [] => ([draftMember member], some .truncated, none)
      | b :: rest =>
        if b = 44 then
          let (members, stop, rest) := readMembers fuel rest
          (draftMember member :: members, stop, rest)
        else if b = 125 then ([draftMember member], none, some rest)
        else ([draftMember member], some .malformed, none) := by
  cases h with
  | @mk name value before after bs hbefore hafter hvalue =>
    obtain ⟨letters, hletters, hname⟩ :=
      readString_stringText name (before ++ 58 :: (after ++ (bs ++ rest)))
    simp only [hletters, List.length_append, List.length_cons] at hfuel
    have hfirst := reads.value hvalue ends (by omega)
    simp only [hletters, List.append_assoc, List.cons_append]
    rw [readMembers]
    simp only [skipSpace_cons (show isSpace 34 = false by decide), if_true, hname,
      hbefore.skipSpace_append, skipSpace_cons (show isSpace 58 = false by decide),
      hafter.readValue_append, hfirst]
    rfl

theorem readMembers_step {fuel : Nat} (reads : ReadsWith fuel) {members : List (String × Json)}
    {bs rest : List UInt8} (h : SpellsMembers members bs) (hfuel : 2 * bs.length ≤ fuel + 2) :
    readMembers (fuel + 1) (bs ++ rest) = (draftMembers members, none, some rest) := by
  cases h with
  | @last member bs gap hmember hgap =>
    simp only [List.length_append, List.length_cons] at hfuel
    have hends : Ends (gap ++ 125 :: rest) := hgap.ends_append (ends_cons (by decide) rest)
    simp only [List.append_assoc, List.singleton_append]
    rw [readMembers_succ reads hmember hends (by omega), hgap.skipSpace_append,
      skipSpace_cons (by decide)]
    rfl
  | @more member next tail bs gap after behind hmember hgap hafter hbehind =>
    simp only [List.length_append, List.length_cons] at hfuel
    have hends : Ends (gap ++ 44 :: (after ++ (behind ++ rest))) :=
      hgap.ends_append (ends_cons (by decide) _)
    have htail := reads.members rest hbehind (by omega)
    simp only [List.append_assoc, List.cons_append]
    rw [readMembers_succ reads hmember hends (by omega), hgap.skipSpace_append,
      skipSpace_cons (by decide)]
    simp only [if_true, hafter.readMembers_append, htail]
    rfl

theorem readValue_number {n : JsonNumber} {rest : List UInt8} (hn : n.ReadsBack)
    (ends : Ends rest) (fuel : Nat) :
    readValue (fuel + 1) (textBytes (numberText n) ++ rest) = (draft (number n), some rest) := by
  obtain ⟨b, more, hbytes, hdigit⟩ := head_of_readsBack hn
  obtain ⟨hspace, -, hnull, htrue, hfalse, hquote⟩ := isSpace_of_digit hdigit
  have hread := readNumber_append ends hn
  have hstart : (decide (b = 45) || isDigit b) = true := by
    rw [Bool.or_eq_true, decide_eq_true_eq]
    exact hdigit
  rw [hbytes] at hread
  rw [hbytes, List.cons_append, readValue]
  simp only [skipSpace_cons hspace, if_neg hnull, if_neg htrue, if_neg hfalse, if_neg hquote,
    if_pos hstart]
  rw [← List.cons_append, hread]
  rfl

theorem readValue_string (s : String) (rest : List UInt8) (fuel : Nat) :
    readValue (fuel + 1) (textBytes (stringText s) ++ rest) = (draft (string s), some rest) := by
  obtain ⟨more, hbytes, hread⟩ := readString_stringText s rest
  rw [hbytes, List.cons_append, readValue]
  simp only [skipSpace_cons (show isSpace 34 = false by decide), hread]
  rfl

theorem readValue_array {fuel : Nat} (reads : ReadsWith fuel) {items : List Json}
    {gap bs rest : List UInt8} (hgap : Gap gap) (h : SpellsItems items bs)
    (hfuel : 2 * bs.length ≤ fuel + 1) :
    readValue (fuel + 1) (91 :: (gap ++ (bs ++ rest))) = (draft (array items), some rest) := by
  have hitems := reads.items rest h hfuel
  obtain ⟨b, more, rfl, hspace, hclose⟩ := h.head
  rw [List.cons_append] at hitems ⊢
  rw [readValue]
  simp only [skipSpace_cons (show isSpace 91 = false by decide), hgap.skipSpace_append,
    skipSpace_cons hspace, if_neg hclose, hitems]
  rfl

theorem readValue_object {fuel : Nat} (reads : ReadsWith fuel) {members : List (String × Json)}
    {gap bs rest : List UInt8} (hgap : Gap gap) (h : SpellsMembers members bs)
    (hfuel : 2 * bs.length ≤ fuel + 1) :
    readValue (fuel + 1) (123 :: (gap ++ (bs ++ rest))) = (draft (object members), some rest) := by
  have hmembers := reads.members rest h hfuel
  obtain ⟨more, rfl⟩ := h.head
  rw [List.cons_append] at hmembers ⊢
  rw [readValue]
  simp only [skipSpace_cons (show isSpace 123 = false by decide), hgap.skipSpace_append,
    skipSpace_cons (show isSpace 34 = false by decide), hmembers]
  rfl

theorem readValue_step {fuel : Nat} (reads : ReadsWith fuel) {value : Json} {bs rest : List UInt8}
    (h : Spells value bs) (ends : Ends rest) (hfuel : 2 * bs.length ≤ fuel + 1) :
    readValue (fuel + 1) (bs ++ rest) = (draft value, some rest) := by
  cases h with
  | null => rfl
  | bool b =>
    cases b with
    | true =>
      rw [← bytes_bool, bytes_true]
      rfl
    | false =>
      rw [← bytes_bool, bytes_false]
      rfl
  | number hn => exact readValue_number hn ends fuel
  | string s => exact readValue_string s rest fuel
  | emptyArray hgap =>
    rw [List.cons_append, List.append_assoc, readValue]
    simp only [skipSpace_cons (show isSpace 91 = false by decide), hgap.skipSpace_append]
    rfl
  | array hgap hitems =>
    simp only [List.length_cons, List.length_append] at hfuel
    rw [List.cons_append, List.append_assoc]
    exact readValue_array reads hgap hitems (by omega)
  | emptyObject hgap =>
    rw [List.cons_append, List.append_assoc, readValue]
    simp only [skipSpace_cons (show isSpace 123 = false by decide), hgap.skipSpace_append]
    rfl
  | object hgap hmembers =>
    simp only [List.length_cons, List.length_append] at hfuel
    rw [List.cons_append, List.append_assoc]
    exact readValue_object reads hgap hmembers (by omega)

theorem readsWith (fuel : Nat) : ReadsWith fuel := by
  induction fuel with
  | zero =>
    refine ⟨fun h _ hfuel => ?_, fun _ h hfuel => ?_, fun _ h hfuel => ?_⟩
    · obtain ⟨b, more, rfl, -⟩ := h.head
      exact absurd hfuel (by rw [List.length_cons]; omega)
    · obtain ⟨b, more, rfl, -⟩ := h.head
      exact absurd hfuel (by rw [List.length_cons]; omega)
    · obtain ⟨more, rfl⟩ := h.head
      exact absurd hfuel (by rw [List.length_cons]; omega)
  | succ fuel ih =>
    exact ⟨readValue_step ih, fun _ => readItems_step ih, fun _ => readMembers_step ih⟩

/-- A text of a value, with white space behind it, reads back as the value without a fault. -/
theorem Spells.readText {value : Json} {bs gap : List UInt8} (h : Spells value bs)
    (hgap : Gap gap) : readText (bs ++ gap) = (draft value, none) := by
  have hends := hgap.ends_append ends_nil
  have hskip := hgap.skipSpace_append []
  rw [List.append_nil] at hends hskip
  have hread := (readsWith (2 * (bs ++ gap).length + 2)).value h hends
    (by rw [List.length_append]; omega)
  rw [Json.readText, hread]
  simp only [hskip]
  rfl

/-! ## Items and members with commas between them -/

section Lists
variable {after close : List UInt8}

/-- Items are spelled by what spells each of them, with commas and white space between them. -/
theorem spellsItems_of_forall {write : Json → List UInt8} {item : Json} {rest : List Json}
    (hafter : Gap after) (hclose : Gap close)
    (h : ∀ each ∈ item :: rest, Spells each (write each)) :
    SpellsItems (item :: rest)
      (write item ++
        (rest.flatMap (fun each => 44 :: (after ++ write each)) ++ (close ++ [93]))) := by
  induction rest generalizing item with
  | nil => exact .last (h item List.mem_cons_self) hclose
  | cons next tail ih =>
    obtain ⟨hitem, htail⟩ := List.forall_mem_cons.mp h
    have hmore := SpellsItems.more hitem gap_nil hafter (ih htail)
    simpa only [List.flatMap_cons, List.cons_append, List.append_assoc, List.nil_append] using hmore

theorem spellsMembers_of_forall {write : String × Json → List UInt8} {member : String × Json}
    {rest : List (String × Json)} (hafter : Gap after) (hclose : Gap close)
    (h : ∀ each ∈ member :: rest, SpellsMember each (write each)) :
    SpellsMembers (member :: rest)
      (write member ++
        (rest.flatMap (fun each => 44 :: (after ++ write each)) ++ (close ++ [125]))) := by
  induction rest generalizing member with
  | nil => exact .last (h member List.mem_cons_self) hclose
  | cons next tail ih =>
    obtain ⟨hmember, htail⟩ := List.forall_mem_cons.mp h
    have hmore := SpellsMembers.more hmember gap_nil hafter (ih htail)
    simpa only [List.flatMap_cons, List.cons_append, List.append_assoc, List.nil_append] using hmore

end Lists

/-! ## Compact texts -/

theorem bytesOfItems_eq (items : List Json) :
    bytesOfItems items = items.flatMap fun item => 44 :: bytes item := by
  induction items with
  | nil => exact bytesOfItems_nil
  | cons item rest ih =>
    rw [bytesOfItems_cons, ih]
    rfl

theorem bytesOfMembers_eq (members : List (String × Json)) :
    bytesOfMembers members = members.flatMap fun member => 44 :: bytesOfMember member := by
  induction members with
  | nil => exact bytesOfMembers_nil
  | cons member rest ih =>
    rw [bytesOfMembers_cons, ih]
    rfl

theorem spellsMember_bytes {member : String × Json} (h : Spells member.2 member.2.bytes) :
    SpellsMember member (bytesOfMember member) := by
  obtain ⟨name, value⟩ := member
  rw [bytesOfMember_eq]
  exact .mk gap_nil gap_nil h

theorem spells_bytes {value : Json} (h : value.NumbersReadBack) : Spells value value.bytes := by
  induction value using inductionOn with
  | null =>
    rw [bytes_null]
    exact .null
  | bool b => exact .bool b
  | number n => exact .number (h n (List.mem_singleton_self n))
  | string s => exact .string s
  | array items ih =>
    cases items with
    | nil =>
      rw [bytes_array_nil]
      exact .emptyArray gap_nil
    | cons item rest =>
      rw [bytes_array_cons, bytesOfItems_eq]
      have hitems := spellsItems_of_forall gap_nil gap_nil fun each heach =>
        ih each heach (h.of_item heach)
      exact @Spells.array _ [] _ gap_nil hitems
  | object members ih =>
    cases members with
    | nil =>
      rw [bytes_object_nil]
      exact .emptyObject gap_nil
    | cons member rest =>
      rw [bytes_object_cons, bytesOfMembers_eq]
      have hmembers := spellsMembers_of_forall gap_nil gap_nil fun each heach =>
        spellsMember_bytes (ih each heach (h.of_member heach))
      exact @Spells.object _ [] _ gap_nil hmembers

/-- The compact text of a value reads back as the value without a fault. -/
theorem readText_compact {value : Json} (h : value.NumbersReadBack) :
    readText (textBytes value.compact) = (draft value, none) := by
  have hread := (spells_bytes h).readText gap_nil
  rwa [List.append_nil] at hread

end Json
end AnimatedGlyph
