/-
How a line shares the timeline among its words.

Word `i` starts at the frame `i * total / words`.  With at least as many frames as words it stops
where the next word starts, so that the timeline is divided; with fewer frames than words it stops
one frame after its start, so that words share frames.  `schedule_shares` says that either is
done as evenly as whole numbers allow, and that the machine words of the windows hold all of it.

What is counted, words at a frame or long windows, comes down to where words start:
`wordStart_lt_iff` names the first word that starts at a frame or later.
-/
import Mathlib.Algebra.Order.Floor.Div
import Mathlib.Data.List.Basic
import AnimatedGlyph.Proofs.Overflow

namespace AnimatedGlyph

/-! ## Quotients -/

theorem ceilDiv_bounds {c : Nat} (hc : 0 < c) (b : Nat) :
    b / c ≤ b ⌈/⌉ c ∧ b ⌈/⌉ c ≤ b / c + 1 := by
  refine ⟨Nat.div_le_div_right (by omega), (ceilDiv_le_iff_le_mul hc).mpr ?_⟩
  exact Nat.le_of_lt (Nat.lt_mul_div_succ b hc)

/-- A quotient grows by the quotient of what is added, rounded down or up. -/
theorem add_div_cases {c : Nat} (hc : 0 < c) (a b : Nat) :
    (a + b) / c = a / c + b / c ∨ (a + b) / c = a / c + b ⌈/⌉ c := by
  have hfloor : a / c + b / c ≤ (a + b) / c := Nat.div_add_div_le_add_div
  have hceil : (a + b) / c ≤ a / c + b ⌈/⌉ c := by
    calc (a + b) / c ≤ (a + c * (b ⌈/⌉ c)) / c :=
          Nat.div_le_div_right (Nat.add_le_add_left (le_smul_ceilDiv hc) a)
      _ = a / c + b ⌈/⌉ c := Nat.add_mul_div_left _ _ hc
  have hbounds := ceilDiv_bounds hc b
  omega

theorem countP_range_between (a b : Nat) : ∀ n : Nat,
    (List.range n).countP (fun i => a ≤ i && i < b) = min n b - a := by
  intro n
  induction n with
  | zero => rw [Nat.zero_min, Nat.zero_sub]; rfl
  | succ n ih =>
    rw [List.range_succ, List.countP_append, ih, List.countP_singleton]
    by_cases hin : a ≤ n ∧ n < b
    · rw [if_pos (by simpa using hin)]
      omega
    · rw [if_neg (by simpa using hin)]
      omega

/-! ## Starts -/

/-- The first word that starts at the frame or later. -/
def firstWordFrom (words total frame : Nat) : Nat :=
  (frame * words) ⌈/⌉ total

section
variable {words total : Nat}

theorem wordStart_lt_iff (hwords : 0 < words) (htotal : 0 < total) (i frame : Nat) :
    wordStart words total i < frame ↔ i < firstWordFrom words total frame := by
  rw [wordStart, Nat.div_lt_iff_lt_mul hwords, firstWordFrom, ← Nat.not_le, ← Nat.not_le,
    ceilDiv_le_iff_le_mul htotal, Nat.mul_comm total i]

theorem wordStart_mono {i j : Nat} (h : i ≤ j) :
    wordStart words total i ≤ wordStart words total j :=
  Nat.div_le_div_right (Nat.mul_le_mul_right total h)

theorem wordStart_words (hwords : 0 < words) : wordStart words total words = total :=
  mul_div_words hwords

theorem firstWordFrom_total (htotal : 0 < total) : firstWordFrom words total total = words :=
  smul_ceilDiv htotal words

theorem firstWordFrom_mono (words total : Nat) {frame later : Nat} (h : frame ≤ later) :
    firstWordFrom words total frame ≤ firstWordFrom words total later := by
  refine Nat.div_le_div_right ?_
  have := Nat.mul_le_mul_right words h
  omega

theorem firstWordFrom_le (htotal : 0 < total) {frame : Nat} (h : frame ≤ total) :
    firstWordFrom words total frame ≤ words := by
  have := firstWordFrom_mono words total h
  rwa [firstWordFrom_total htotal] at this

/-- A word starts after the one before it by the number of frames for each word, rounded down or
up. -/
theorem wordStart_succ_cases (hwords : 0 < words) (total i : Nat) :
    wordStart words total (i + 1) = wordStart words total i + total / words ∨
      wordStart words total (i + 1) = wordStart words total i + total ⌈/⌉ words := by
  rw [wordStart, wordStart, Nat.succ_mul]
  exact add_div_cases hwords (i * total) total

/-- Between two frames as many words start as there are for each frame, rounded down or up. -/
theorem firstWordFrom_succ_cases (htotal : 0 < total) (words frame : Nat) :
    firstWordFrom words total (frame + 1) =
        firstWordFrom words total frame + words / total ∨
      firstWordFrom words total (frame + 1) =
        firstWordFrom words total frame + words ⌈/⌉ total := by
  have hnext : (frame + 1) * words + total - 1 = (frame * words + total - 1) + words := by
    rw [Nat.succ_mul]
    omega
  rw [firstWordFrom, firstWordFrom, Nat.ceilDiv_eq_add_pred_div, Nat.ceilDiv_eq_add_pred_div, hnext]
  exact add_div_cases htotal (frame * words + total - 1) words

/-- With a frame for every word a word stops where the next one starts. -/
theorem wordStop_of_le (hroom : words ≤ total) {i : Nat} (hi : i < words) :
    wordStop words total i = wordStart words total (i + 1) := by
  have hwords : 0 < words := by omega
  have hone : 1 ≤ total / words := (Nat.one_le_div_iff hwords).mpr hroom
  have hnext : wordStart words total i + 1 ≤ wordStart words total (i + 1) := by
    have hceil := (ceilDiv_bounds hwords total).1
    rcases wordStart_succ_cases hwords total i with h | h <;> omega
  have hend : wordStart words total (i + 1) ≤ total := by
    calc wordStart words total (i + 1) ≤ wordStart words total words := wordStart_mono hi
      _ = total := wordStart_words hwords
  rw [wordStop, ← wordStart, Nat.max_eq_left hnext, Nat.min_eq_left hend]

/-- Without a frame for every word a word stops one frame after its start. -/
theorem wordStop_of_lt (htotal : 0 < total) (hcrowd : total < words) {i : Nat} (hi : i < words) :
    wordStop words total i = wordStart words total i + 1 := by
  have hwords : 0 < words := by omega
  have hzero : total / words = 0 := Nat.div_eq_of_lt hcrowd
  have hceil : total ⌈/⌉ words ≤ 1 := (ceilDiv_le_iff_le_mul hwords).mpr (by omega)
  have hnext : wordStart words total (i + 1) ≤ wordStart words total i + 1 := by
    rcases wordStart_succ_cases hwords total i with h | h <;> omega
  rw [wordStop, ← wordStart, Nat.max_eq_right hnext]
  exact Nat.min_eq_left (wordStart_lt htotal hi)

theorem wordStop_mono {i j : Nat} (h : i ≤ j) :
    wordStop words total i ≤ wordStop words total j := by
  have hstart : wordStart words total i ≤ wordStart words total j := wordStart_mono h
  have hnext : wordStart words total (i + 1) ≤ wordStart words total (j + 1) :=
    wordStart_mono (Nat.succ_le_succ h)
  rw [wordStop, wordStop, ← wordStart, ← wordStart]
  exact min_le_min_right total (max_le_max hnext (Nat.succ_le_succ hstart))

/-- Of the words so far that take more frames than the quotient, each adds one frame to what the
words have by it. -/
theorem wordStart_eq_add_countP (hwords : 0 < words) (total : Nat) : ∀ k : Nat,
    wordStart words total k = k * (total / words) +
      (List.range k).countP (fun i =>
        total / words < wordStart words total (i + 1) - wordStart words total i) := by
  intro k
  induction k with
  | zero => rw [wordStart, Nat.zero_mul, Nat.zero_div, Nat.zero_mul]; rfl
  | succ k ih =>
    rw [List.range_succ, List.countP_append, List.countP_singleton, Nat.succ_mul]
    have hceil := ceilDiv_bounds hwords total
    rcases wordStart_succ_cases hwords total k with h | h
    · rw [if_neg (by simpa using by omega)]
      omega
    · by_cases hlong : total / words < wordStart words total (k + 1) - wordStart words total k
      · rw [if_pos (by simpa using hlong)]
        omega
      · rw [if_neg (by simpa using hlong)]
        omega

theorem countP_long (hwords : 0 < words) :
    (List.range words).countP (fun i =>
      total / words < wordStart words total (i + 1) - wordStart words total i) =
        total % words := by
  have hsum := wordStart_eq_add_countP hwords total words
  have hdivision := Nat.div_add_mod total words
  rw [wordStart_words hwords] at hsum
  omega

end

/-! ## Windows -/

namespace FrameWindow

/-- Whether the frame lies in the window. -/
def shows (window : FrameWindow) (frame : Nat) : Bool :=
  window.start.toNat ≤ frame && frame < window.stop.toNat

theorem toNat_duration (window : FrameWindow) :
    window.duration.toNat = window.stop.toNat - window.start.toNat := by
  rw [duration]
  by_cases h : window.start ≤ window.stop
  · rw [if_pos h, UInt32.toNat_sub_of_le _ _ h]
  · have hlt := UInt32.le_iff_toNat_le.not.mp h
    rw [if_neg h, Nat.sub_eq_zero_of_le (by omega)]
    rfl

end FrameWindow

def wordWindow (words : Nat) (total : UInt32) (i : Nat) : FrameWindow :=
  ⟨UInt32.ofNat (wordStart words total.toNat i), UInt32.ofNat (wordStop words total.toNat i)⟩

theorem schedule_eq (words : Nat) (total : UInt32) :
    schedule words total = (List.range words).map (wordWindow words total) := rfl

theorem countP_schedule {words : Nat} {total : UInt32} {p : FrameWindow → Bool} {q : Nat → Bool}
    (h : ∀ i, i < words → p (wordWindow words total i) = q i) :
    (schedule words total).countP p = (List.range words).countP q := by
  rw [schedule_eq, List.countP_map]
  refine List.countP_congr fun i hi => ?_
  rw [Function.comp_apply, h i (List.mem_range.mp hi)]

section
variable {words : Nat} {total : UInt32}

theorem shows_wordWindow {i : Nat} (hi : i < words) (frame : Nat) :
    (wordWindow words total i).shows frame =
      (wordStart words total.toNat i ≤ frame && frame < wordStop words total.toNat i) := by
  rw [FrameWindow.shows, wordWindow, toNat_wordStart hi, toNat_wordStop]

theorem toNat_duration_wordWindow {i : Nat} (hi : i < words) :
    (wordWindow words total i).duration.toNat =
      wordStop words total.toNat i - wordStart words total.toNat i := by
  rw [FrameWindow.toNat_duration, wordWindow, toNat_wordStart hi, toNat_wordStop]

/-- With a frame for every word each frame lies in the window of one word. -/
theorem countP_shows_of_le (hroom : words ≤ total.toNat) (hwords : 0 < words) {frame : Nat}
    (hframe : frame < total.toNat) :
    (schedule words total).countP (·.shows frame) = 1 := by
  -- The word is the last one that starts before the next frame.
  have htotal : 0 < total.toNat := by omega
  have hfirst : 0 < firstWordFrom words total.toNat (frame + 1) := by
    refine (wordStart_lt_iff hwords htotal 0 (frame + 1)).mp ?_
    rw [wordStart, Nat.zero_mul, Nat.zero_div]
    omega
  have hlast : firstWordFrom words total.toNat (frame + 1) ≤ words := firstWordFrom_le htotal hframe
  rw [countP_schedule (q := fun i => firstWordFrom words total.toNat (frame + 1) - 1 ≤ i &&
    i < firstWordFrom words total.toNat (frame + 1)), countP_range_between]
  · omega
  · intro i hi
    rw [shows_wordWindow hi, wordStop_of_le hroom hi, Bool.and_comm]
    have hstart := wordStart_lt_iff hwords htotal i (frame + 1)
    have hnext := wordStart_lt_iff hwords htotal (i + 1) (frame + 1)
    rw [Bool.eq_iff_iff]
    simp only [Bool.and_eq_true, decide_eq_true_eq]
    omega

/-- Without a frame for every word each frame lies in the windows of the words that start at
it. -/
theorem countP_shows_of_lt (hcrowd : total.toNat < words) (htotal : 0 < total.toNat) {frame : Nat}
    (hframe : frame < total.toNat) :
    (schedule words total).countP (·.shows frame) =
      firstWordFrom words total.toNat (frame + 1) - firstWordFrom words total.toNat frame := by
  have hwords : 0 < words := by omega
  have hlast : firstWordFrom words total.toNat (frame + 1) ≤ words := firstWordFrom_le htotal hframe
  rw [countP_schedule (q := fun i => firstWordFrom words total.toNat frame ≤ i &&
    i < firstWordFrom words total.toNat (frame + 1)), countP_range_between, Nat.min_eq_right hlast]
  intro i hi
  rw [shows_wordWindow hi, wordStop_of_lt htotal hcrowd hi]
  have hbefore := wordStart_lt_iff hwords htotal i frame
  have hstart := wordStart_lt_iff hwords htotal i (frame + 1)
  rw [Bool.eq_iff_iff]
  simp only [Bool.and_eq_true, decide_eq_true_eq]
  omega

end

/-! ## Timelines -/

namespace Timeline

/-- The windows show the timeline from its start to its end, in order, and none is empty. -/
structure Covered (total : UInt32) (windows : List FrameWindow) : Prop where
  inside : ∀ window ∈ windows, window.start < window.stop ∧ window.stop ≤ total
  starts : windows.Pairwise fun window later => window.start ≤ later.start
  stops : windows.Pairwise fun window later => window.stop ≤ later.stop
  first : windows.head?.map FrameWindow.start = some 0
  last : windows.getLast?.map FrameWindow.stop = some total
  shown : ∀ frame < total.toNat, ∃ window ∈ windows, window.shows frame = true

/-- The windows part the timeline, and their lengths differ by one frame at most: the quotient,
rounded down or up, and up as often as the remainder says. -/
structure Parted (total : UInt32) (windows : List FrameWindow) : Prop where
  adjoining : windows.IsChain fun window next => window.stop = next.start
  once : ∀ frame < total.toNat, windows.countP (·.shows frame) = 1
  even : ∀ window ∈ windows, window.duration.toNat = total.toNat / windows.length ∨
    window.duration.toNat = total.toNat ⌈/⌉ windows.length
  longer : windows.countP (fun window =>
    total.toNat / windows.length < window.duration.toNat) = total.toNat % windows.length

/-- The windows have one frame each, and each frame is in as many of them as the quotient says,
rounded down or up. -/
structure Crowded (total : UInt32) (windows : List FrameWindow) : Prop where
  single : ∀ window ∈ windows, window.duration = 1
  even : ∀ frame < total.toNat,
    windows.countP (·.shows frame) = windows.length / total.toNat ∨
      windows.countP (·.shows frame) = windows.length ⌈/⌉ total.toNat

end Timeline

section
variable {words : Nat} {total : UInt32}

theorem forall_schedule {p : FrameWindow → Prop} :
    (∀ window ∈ schedule words total, p window) ↔
      ∀ i, i < words → p (wordWindow words total i) := by
  rw [schedule_eq, List.forall_mem_map]
  simp only [List.mem_range]

theorem pairwise_schedule {r : FrameWindow → FrameWindow → Prop}
    (h : ∀ i j, i < j → j < words → r (wordWindow words total i) (wordWindow words total j)) :
    (schedule words total).Pairwise r := by
  rw [schedule_eq, List.pairwise_map]
  refine List.Pairwise.imp_of_mem (fun {i j} _ hj hlt => h i j hlt (List.mem_range.mp hj)) ?_
  exact List.pairwise_lt_range

theorem parted_schedule (hwords : 0 < words) (hroom : words ≤ total.toNat) :
    Timeline.Parted total (schedule words total) where
  adjoining := by
    rw [List.isChain_iff_getElem]
    intro i hi
    rw [length_schedule] at hi
    rw [getElem_schedule, getElem_schedule, wordStop_of_le hroom (by omega)]
  once frame hframe := countP_shows_of_le hroom hwords hframe
  even := by
    rw [length_schedule, forall_schedule]
    intro i hi
    rw [toNat_duration_wordWindow hi, wordStop_of_le hroom hi]
    rcases wordStart_succ_cases hwords total.toNat i with h | h <;> rw [h]
    · exact .inl (Nat.add_sub_cancel_left _ _)
    · exact .inr (Nat.add_sub_cancel_left _ _)
  longer := by
    rw [length_schedule, ← countP_long hwords]
    refine countP_schedule fun i hi => ?_
    rw [toNat_duration_wordWindow hi, wordStop_of_le hroom hi]

theorem crowded_schedule (htotal : 0 < total.toNat) (hcrowd : total.toNat < words) :
    Timeline.Crowded total (schedule words total) where
  single := by
    rw [forall_schedule]
    intro i hi
    rw [← UInt32.toNat_inj, toNat_duration_wordWindow hi, wordStop_of_lt htotal hcrowd hi,
      Nat.add_sub_cancel_left]
    rfl
  even frame hframe := by
    rw [length_schedule, countP_shows_of_lt hcrowd htotal hframe]
    rcases firstWordFrom_succ_cases htotal words frame with h | h <;> rw [h]
    · exact .inl (Nat.add_sub_cancel_left _ _)
    · exact .inr (Nat.add_sub_cancel_left _ _)

theorem countP_shows_pos (hwords : 0 < words) (htotal : 0 < total.toNat) {frame : Nat}
    (hframe : frame < total.toNat) : 0 < (schedule words total).countP (·.shows frame) := by
  by_cases hroom : words ≤ total.toNat
  · rw [countP_shows_of_le hroom hwords hframe]
    exact Nat.one_pos
  · have hcrowd : total.toNat < words := by omega
    have hquotient : 0 < words / total.toNat := Nat.div_pos (by omega) htotal
    have hceil := ceilDiv_bounds htotal words
    rcases (crowded_schedule htotal hcrowd).even frame hframe with h | h <;>
      rw [length_schedule] at h <;> omega

theorem covered_schedule (hwords : 0 < words) (htotal : 0 < total.toNat) :
    Timeline.Covered total (schedule words total) where
  inside := by
    rw [forall_schedule]
    intro i hi
    rw [UInt32.lt_iff_toNat_lt, UInt32.le_iff_toNat_le, wordWindow, toNat_wordStart hi,
      toNat_wordStop]
    exact ⟨wordStart_lt_wordStop htotal hi, wordStop_le words total.toNat i⟩
  starts := by
    refine pairwise_schedule fun i j hij hj => ?_
    rw [UInt32.le_iff_toNat_le, wordWindow, wordWindow, toNat_wordStart (by omega),
      toNat_wordStart hj]
    exact wordStart_mono (Nat.le_of_lt hij)
  stops := by
    refine pairwise_schedule fun i j hij hj => ?_
    rw [UInt32.le_iff_toNat_le, wordWindow, wordWindow, toNat_wordStop, toNat_wordStop]
    exact wordStop_mono (Nat.le_of_lt hij)
  first := by
    obtain ⟨more, rfl⟩ := Nat.exists_eq_add_one.mpr hwords
    rw [schedule_eq, List.range_succ_eq_map, List.map_cons, List.head?_cons, Option.map_some,
      wordWindow, wordStart, Nat.zero_mul, Nat.zero_div]
    rfl
  last := by
    obtain ⟨more, rfl⟩ := Nat.exists_eq_add_one.mpr hwords
    rw [schedule_eq, List.range_succ, List.map_append, List.map_singleton, List.getLast?_concat,
      Option.map_some, wordWindow, wordStop_last rfl]
    exact congrArg some total.ofNat_toNat
  shown frame hframe := by
    simpa using List.countP_pos_iff.mp (countP_shows_pos hwords htotal hframe)

end

/-- The words of a line share the timeline evenly.  Their windows are not empty and show every
frame; with a frame for every word they part the timeline, and without they have one frame each.
Nothing that is computed on the way is lost in the machine words it is kept in. -/
theorem schedule_shares {words : Nat} {total : UInt32} (hwords : 1 ≤ words) (htotal : 1 ≤ total)
    (hroom : words * total.toNat < 2 ^ 64) :
    Checked.schedule? words total = some (schedule words total) ∧
      (schedule words total).length = words ∧
      Timeline.Covered total (schedule words total) ∧
      (words ≤ total.toNat → Timeline.Parted total (schedule words total)) ∧
      (total.toNat < words → Timeline.Crowded total (schedule words total)) := by
  have hframes : 0 < total.toNat := UInt32.le_iff_toNat_le.mp htotal
  have hfew : words < 2 ^ 64 := Nat.lt_of_le_of_lt (Nat.le_mul_of_pos_right words hframes) hroom
  exact ⟨Checked.schedule?_eq hfew hroom, length_schedule words total,
    covered_schedule hwords hframes, parted_schedule hwords, crowded_schedule hframes⟩

/-- Seven words of a hundred and eighty frames: the remainder is five frames. -/
theorem schedule_shares_of_seven_words :
    let windows := schedule 7 180
    (1 ≤ 7 ∧ (1 : UInt32) ≤ 180 ∧ 7 * (180 : UInt32).toNat < 2 ^ 64) ∧
      Checked.schedule? 7 180 = some windows ∧ Timeline.Covered 180 windows ∧
      windows.countP (fun window => 25 < window.duration.toNat) = 5 := by
  intro windows
  have hroom : 7 * (180 : UInt32).toNat < 2 ^ 64 := by decide
  obtain ⟨hchecked, -, hcovered, hparted, -⟩ := schedule_shares (by decide) (by decide) hroom
  exact ⟨⟨by decide, by decide, hroom⟩, hchecked, hcovered, (hparted (by decide)).longer⟩

end AnimatedGlyph
