/-
Cutting a text that is put together from parts.

A cut falls at a separator and nowhere else, so the pieces of a text are those of its
parts wherever a separator, or an end of the text, stands between them.  `runs_append`
says so of the pieces that are not empty, which are all that tokens are made of, and
`runs_between` of a part that has no separators and separators on both sides: whatever it
is, the runs before it and those after it stay the same.

A part may also lie within a piece.  `exists_pieces` gives the pieces of a text with such a
part in it: one of them holds it, and neither the others nor what stands around it in this
one depend on what the part is.
-/
import AnimatedGlyph.Text.Pieces

namespace AnimatedGlyph
namespace Text

variable {cut : Char → Bool}

/-! ## Pieces -/

theorem growFirst_append (c : Char) {front : List (List Char)} (h : front ≠ [])
    (rest : List (List Char)) : growFirst c (front ++ rest) = growFirst c front ++ rest := by
  cases front with
  | nil => exact absurd rfl h
  | cons piece more => rfl

theorem pieces_append_cons {c : Char} (h : cut c = true) (before after : List Char) :
    pieces cut (before ++ c :: after) = pieces cut before ++ pieces cut after := by
  induction before with
  | nil =>
    show pieces cut (c :: after) = [] :: pieces cut after
    rw [pieces, if_pos h]
  | cons x rest ih =>
    rw [List.cons_append, pieces, pieces, ih]
    by_cases hx : cut x = true
    · rw [if_pos hx, if_pos hx, List.cons_append]
    · rw [if_neg hx, if_neg hx, growFirst_append x (pieces_ne_nil cut rest)]

theorem pieces_of_forall_not {cs : List Char} (h : ∀ c ∈ cs, cut c = false) :
    pieces cut cs = [cs] := by
  induction cs with
  | nil => rfl
  | cons c rest ih =>
    obtain ⟨hc, hrest⟩ := List.forall_mem_cons.mp h
    rw [pieces, hc, if_neg Bool.false_ne_true, ih hrest]
    rfl

theorem pieces_map {f : Char → Char} (h : ∀ c, cut (f c) = cut c) (cs : List Char) :
    pieces cut (cs.map f) = (pieces cut cs).map (List.map f) := by
  induction cs with
  | nil => rfl
  | cons c rest ih =>
    rw [List.map_cons, pieces, pieces, h, ih]
    by_cases hc : cut c = true
    · rw [if_pos hc, if_pos hc, List.map_cons, List.map_nil]
    · rw [if_neg hc, if_neg hc]
      cases pieces cut rest <;> rfl

theorem pieces_filter {keep : Char → Bool} (h : ∀ c, cut c = true → keep c = true)
    (cs : List Char) : pieces cut (cs.filter keep) = (pieces cut cs).map (List.filter keep) := by
  induction cs with
  | nil => rfl
  | cons c rest ih =>
    by_cases hc : cut c = true
    · rw [List.filter_cons_of_pos (h c hc), pieces, if_pos hc, ih, pieces, if_pos hc,
        List.map_cons, List.filter_nil]
    · rw [pieces, if_neg hc]
      by_cases hk : keep c = true
      · rw [List.filter_cons_of_pos hk, pieces, if_neg hc, ih]
        cases pieces cut rest with
        | nil => rw [growFirst, List.map_nil, List.map_singleton, List.filter_cons_of_pos hk]; rfl
        | cons piece more =>
          rw [growFirst, List.map_cons, List.map_cons, List.filter_cons_of_pos hk]
          rfl
      · rw [List.filter_cons_of_neg hk, ih]
        cases hpieces : pieces cut rest with
        | nil => exact absurd hpieces (pieces_ne_nil cut rest)
        | cons piece more =>
          rw [growFirst, List.map_cons, List.map_cons, List.filter_cons_of_neg hk]

/-! ## Parts that are apart -/

/-- No run goes over from the first part into the second: the first ends with a separator
or the second starts with one, unless one of them is empty. -/
def Apart (cut : Char → Bool) (first second : List Char) : Prop :=
  (∀ c ∈ first.getLast?, cut c = true) ∨ ∀ c ∈ second.head?, cut c = true

namespace Apart

theorem append {first second : List Char} (h : Apart cut first second) (hne : second ≠ [])
    (third : List Char) : Apart cut first (second ++ third) := by
  cases second with
  | nil => exact absurd rfl hne
  | cons c rest => exact h

theorem of_forall_first {first : List Char} (h : ∀ c ∈ first, cut c = true)
    (second : List Char) : Apart cut first second :=
  .inl fun c hc => h c (List.mem_of_getLast? hc)

theorem of_forall_second {second : List Char} (h : ∀ c ∈ second, cut c = true)
    (first : List Char) : Apart cut first second :=
  .inr fun c hc => h c (List.mem_of_head? hc)

end Apart

/-! ## Runs -/

theorem runs_append_cons {c : Char} (h : cut c = true) (before after : List Char) :
    runs cut (before ++ c :: after) = runs cut before ++ runs cut after := by
  rw [runs, pieces_append_cons h, List.filter_append]
  rfl

theorem runs_nil : runs cut [] = [] := rfl

/-- The runs of a text are those of its parts, where the parts are apart. -/
theorem runs_append {first second : List Char} (h : Apart cut first second) :
    runs cut (first ++ second) = runs cut first ++ runs cut second := by
  rcases h with h | h
  · rcases List.eq_nil_or_concat first with rfl | ⟨front, c, rfl⟩
    · rfl
    · rw [List.concat_eq_append] at h ⊢
      have hc : cut c = true := h c (by simp)
      have hfirst := runs_append_cons hc front []
      have hwhole := runs_append_cons hc front second
      rw [runs_nil, List.append_nil] at hfirst
      rw [List.append_assoc, List.singleton_append, hwhole, hfirst]
  · cases second with
    | nil => rw [List.append_nil, runs_nil, List.append_nil]
    | cons c rest =>
      have hc : cut c = true := h c rfl
      have hsecond := runs_append_cons hc [] rest
      rw [runs_nil, List.nil_append, List.nil_append] at hsecond
      rw [runs_append_cons hc, hsecond]

theorem runs_of_forall {cs : List Char} (h : ∀ c ∈ cs, cut c = true) : runs cut cs = [] := by
  induction cs with
  | nil => rfl
  | cons c rest ih =>
    obtain ⟨hc, hrest⟩ := List.forall_mem_cons.mp h
    exact (runs_append_cons hc [] rest).trans (ih hrest)

theorem runs_of_forall_not {cs : List Char} (hne : cs ≠ []) (h : ∀ c ∈ cs, cut c = false) :
    runs cut cs = [cs] := by
  rw [runs, pieces_of_forall_not h]
  cases cs with
  | nil => exact absurd rfl hne
  | cons c rest => rfl

/-- Separators at the end of a part make no run. -/
theorem runs_append_separators {separators : List Char} (h : ∀ c ∈ separators, cut c = true)
    (first : List Char) : runs cut (first ++ separators) = runs cut first := by
  rw [runs_append (.of_forall_second h first), runs_of_forall h, List.append_nil]

theorem runs_separators_append {separators : List Char} (h : ∀ c ∈ separators, cut c = true)
    (second : List Char) : runs cut (separators ++ second) = runs cut second := by
  rw [runs_append (.of_forall_first h second), runs_of_forall h, List.nil_append]

/-- Separators between two parts keep these apart, however many they are. -/
theorem runs_append_separators_append {separators : List Char}
    (h : ∀ c ∈ separators, cut c = true) (hne : separators ≠ []) (first second : List Char) :
    runs cut (first ++ separators ++ second) = runs cut first ++ runs cut second := by
  have hapart : Apart cut first (separators ++ second) :=
    (Apart.of_forall_second h first).append hne second
  rw [List.append_assoc, runs_append hapart, runs_separators_append h]

/-- A part without separators that is apart from both of its sides is one run. -/
theorem runs_between {first run second : List Char} (hne : run ≠ [])
    (hrun : ∀ c ∈ run, cut c = false) (hfirst : Apart cut first run)
    (hsecond : Apart cut run second) :
    runs cut (first ++ (run ++ second)) = runs cut first ++ run :: runs cut second := by
  rw [runs_append (hfirst.append hne second), runs_append hsecond, runs_of_forall_not hne hrun,
    List.singleton_append]

/-! ## The pieces at a place -/

theorem exists_last_separator (cut : Char → Bool) (cs : List Char) :
    (∀ c ∈ cs, cut c = false) ∨ ∃ before c after,
      cs = before ++ c :: after ∧ cut c = true ∧ ∀ d ∈ after, cut d = false := by
  induction cs with
  | nil => exact .inl nofun
  | cons x rest ih =>
    rcases ih with hnone | ⟨before, c, after, rfl, hc, hafter⟩
    · cases hx : cut x with
      | true => exact .inr ⟨[], x, rest, rfl, hx, hnone⟩
      | false => exact .inl (List.forall_mem_cons.mpr ⟨hx, hnone⟩)
    · exact .inr ⟨x :: before, c, after, rfl, hc, hafter⟩

/-- The last piece of a text, which goes on in what comes after it. -/
theorem exists_lastPiece (cut : Char → Bool) (before : List Char) :
    ∃ front last, (∀ c ∈ last, cut c = false) ∧ (∀ c ∈ last.getLast?, c ∈ before.getLast?) ∧
      pieces cut before = front ++ [last] ∧
        ∀ after, pieces cut (before ++ after) = front ++ pieces cut (last ++ after) := by
  rcases exists_last_separator cut before with hnone | ⟨head, c, last, rfl, hc, hlast⟩
  · exact ⟨[], before, hnone, fun _ hc => hc, pieces_of_forall_not hnone, fun _ => rfl⟩
  · refine ⟨pieces cut head, last, hlast, fun d hd => ?_, ?_, fun after => ?_⟩
    · rw [List.getLast?_append, List.getLast?_cons, Option.mem_def.mp hd]
      rfl
    · rw [pieces_append_cons hc, pieces_of_forall_not hlast]
    · rw [List.append_assoc, List.cons_append, pieces_append_cons hc]

/-- The first piece of a text, which goes on from what comes before it. -/
theorem exists_firstPiece (cut : Char → Bool) (after : List Char) :
    ∃ first rest, (∀ c ∈ first.head?, c ∈ after.head?) ∧
      ∀ before, (∀ c ∈ before, cut c = false) →
        pieces cut (before ++ after) = (before ++ first) :: rest := by
  induction after with
  | nil =>
    refine ⟨[], [], nofun, fun before hbefore => ?_⟩
    rw [List.append_nil, pieces_of_forall_not hbefore]
  | cons x more ih =>
    by_cases hx : cut x = true
    · refine ⟨[], pieces cut more, nofun, fun before hbefore => ?_⟩
      rw [pieces_append_cons hx, pieces_of_forall_not hbefore, List.append_nil]
      rfl
    · obtain ⟨first, rest, -, hpieces⟩ := ih
      refine ⟨x :: first, rest, fun c hc => hc, fun before hbefore => ?_⟩
      have hgrown : ∀ c ∈ before ++ [x], cut c = false := by
        rw [List.forall_mem_append, List.forall_mem_singleton]
        exact ⟨hbefore, by simpa using hx⟩
      have hmore := hpieces (before ++ [x]) hgrown
      rwa [List.append_assoc, List.append_assoc] at hmore

/-- The pieces around a place of a text: those on either side of the one that goes on at the
place, and what lies before and after the place in this one. -/
theorem exists_pieces (cut : Char → Bool) (before after : List Char) :
    ∃ front last first rest,
      (∀ c ∈ last.getLast?, c ∈ before.getLast?) ∧ (∀ c ∈ first.head?, c ∈ after.head?) ∧
        pieces cut before = front ++ [last] ∧
        ∀ between, (∀ c ∈ between, cut c = false) →
          pieces cut (before ++ (between ++ after)) =
            front ++ (last ++ (between ++ first)) :: rest := by
  obtain ⟨front, last, hlast, hend, hpieces, hbefore⟩ := exists_lastPiece cut before
  obtain ⟨first, rest, hstart, hafter⟩ := exists_firstPiece cut after
  refine ⟨front, last, first, rest, hend, hstart, hpieces, fun between hbetween => ?_⟩
  have hgrown : ∀ c ∈ last ++ between, cut c = false :=
    List.forall_mem_append.mpr ⟨hlast, hbetween⟩
  rw [hbefore, ← List.append_assoc last, hafter _ hgrown, List.append_assoc]

end Text
end AnimatedGlyph
