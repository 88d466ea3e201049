/-
Typing the names of a dictionary.

A merged dictionary gives its names codes, and a text can use a name only as one of its tokens.
The two do not agree on what a token may hold: merging looks for blanks and commas, while a text
is cut at backspaces as well and its tokens lose what is not ASCII.  `GlyphTable.typed_name_iff`
says which names come through: those that are ASCII and have no backspace.  A name that does not
come through is the name of nothing in any text.
-/
import AnimatedGlyph.Proofs.Merging
import AnimatedGlyph.Proofs.WordPlace
import AnimatedGlyph.Proofs.Wording

namespace AnimatedGlyph

namespace Text

/-- The characters are ASCII, and none of them is a backspace. -/
def IsTypeable (s : String) : Prop :=
  ∀ c ∈ s.toList, c.toNat < 128 ∧ c ≠ '\x08'

instance (s : String) : Decidable (IsTypeable s) :=
  decidable_of_iff (s.toList.all fun c => c.toNat < 128 && c != '\x08') <| by
    simp only [IsTypeable, List.all_eq_true, Bool.and_eq_true, decide_eq_true_eq, bne_iff_ne]

/-! ## Texts of one token -/

theorem trimChars_of_forall_not {cs : List Char} (h : ∀ c ∈ cs, isBlank c = false) :
    trimChars cs = cs := by
  have hkeep : ∀ ds : List Char, (∀ c ∈ ds, isBlank c = false) → ds.dropWhile isBlank = ds := by
    intro ds hds
    cases ds with
    | nil => rfl
    | cons c rest =>
      exact List.dropWhile_cons_of_neg (Bool.eq_false_iff.mp (hds c List.mem_cons_self))
  rw [trimChars, trimEnd, trimStart, hkeep cs h,
    hkeep cs.reverse fun c hc => h c (List.mem_reverse.mp hc), List.reverse_reverse]

section
variable {token : String} (hne : token ≠ "") (h : ∀ c ∈ token.toList, isSeparator c = false)
include hne h

theorem lines_of_token : lines token = [token] := by
  have hblank : ∀ c ∈ token.toList, isBlank c = false := by
    intro c hc
    refine Bool.eq_false_iff.mpr fun hblank => ?_
    exact Bool.false_ne_true ((h c hc).symm.trans (isSeparator_of_isBlank hblank))
  have hkept : [token.toList].filter (fun line => !line.isEmpty) = [token.toList] := by
    refine List.filter_eq_self.mpr fun line hline => ?_
    rw [List.mem_singleton.mp hline, Bool.not_eq_true', List.isEmpty_eq_false_iff]
    exact mt String.toList_eq_nil_iff.mp hne
  rw [lines, pieces_of_forall_not fun c hc => isNewline_of_not_isSeparator (h c hc),
    List.map_singleton, trimChars_of_forall_not hblank, hkept, List.map_singleton,
    String.ofList_toList]

theorem tokens_of_token : tokens token = [token] := by
  rw [tokens, runs_of_forall_not (mt String.toList_eq_nil_iff.mp hne) h, List.map_singleton,
    String.ofList_toList]

end

theorem isSeparator_of_mem_tokens {line token : String} (h : token ∈ tokens line) :
    ∀ c ∈ token.toList, isSeparator c = false := by
  intro c hc
  obtain ⟨run, hrun, rfl⟩ := List.mem_map.mp h
  rw [String.toList_ofList] at hc
  have hkept := List.mem_flatten_of_mem (List.mem_filter.mp hrun).1 hc
  rw [flatten_pieces, List.mem_filter, Bool.not_eq_true'] at hkept
  exact hkept.2

/-- What is looked up for a token can be typed. -/
theorem isTypeable_lowercase {token : String} (h : ∀ c ∈ token.toList, isSeparator c = false) :
    IsTypeable (lowercase (asciiPart token)) := by
  have hkept : ∀ c ∈ (asciiPart token).toList, c.toNat < 128 ∧ isSeparator c = false := by
    intro c hc
    rw [asciiPart, String.toList_ofList, List.mem_filter, decide_eq_true_eq] at hc
    exact ⟨hc.2, h c hc.1⟩
  intro d hd
  rw [lowercase_of_ascii fun c hc => (hkept c hc).1, String.toList_ofList] at hd
  obtain ⟨c, hc, rfl⟩ := List.mem_map.mp hd
  obtain ⟨hascii, hseparator⟩ := hkept c hc
  refine ⟨of_decide_eq_true ((isAscii_lowerAscii c).trans (decide_eq_true hascii)), ?_⟩
  intro hbackspace
  have hback := isSeparator_lowerAscii c
  rw [hseparator, hbackspace] at hback
  cases hback

end Text

/-! ## Named glyphs -/

theorem token_of_resolveToken {table : GlyphTable} {token : String} {glyph : ResolvedGlyph}
    (h : resolveToken table token = .ok glyph) (hnamed : glyph.source = .named) :
    glyph.token = Text.lowercase (Text.asciiPart token) := by
  rw [resolveToken] at h
  split at h
  · cases h
  · rw [resolveName] at h
    split at h
    · rename_i found hname
      split at hname
      · obtain rfl := Except.ok.inj hname
        obtain rfl := Except.ok.inj h
        rfl
      · cases hname
    · rw [resolveCode] at h
      split at h
      · cases h
        cases hnamed
      · cases h

/-- The names that are found in a text can be typed. -/
theorem isTypeable_of_named {table : GlyphTable} {text : String} {line : LineReport}
    {glyph : ResolvedGlyph} (hline : line ∈ (report table text).lines)
    (hglyph : glyph ∈ line.glyphs) (hnamed : glyph.source = .named) :
    Text.IsTypeable glyph.token := by
  obtain ⟨index, hindex, rfl⟩ := List.mem_mapIdx.mp hline
  rw [glyphs_reportLine] at hglyph
  obtain ⟨token, htoken, hfound⟩ := List.mem_filterMap.mp hglyph
  have hresolved : resolveToken table token = .ok glyph := by
    rw [GlyphTable.glyphOf?] at hfound
    cases hresolve : resolveToken table token with
    | ok found =>
      rw [hresolve] at hfound
      cases hfound
      rfl
    | error violation =>
      rw [hresolve] at hfound
      cases hfound
  rw [token_of_resolveToken hresolved hnamed]
  exact Text.isTypeable_lowercase (Text.isSeparator_of_mem_tokens htoken)

/-- A token that is a name in lower case stands for the glyph of that name. -/
theorem resolveToken_of_name {table : GlyphTable} {name : String} {code : GlyphCode}
    (hne : name ≠ "") (hascii : ∀ c ∈ name.toList, c.toNat < 128)
    (hlower : Text.lowercase name = name) (hcode : table.get? name = some code) :
    resolveToken table name = .ok ⟨name, code, .named⟩ := by
  have hpart : Text.asciiPart name = name := by
    rw [Text.asciiPart, List.filter_eq_self.mpr fun c hc => decide_eq_true (hascii c hc),
      String.ofList_toList]
  have hkept : ¬name.isEmpty = true := mt String.isEmpty_iff.mp hne
  simp only [resolveToken, resolveName, hpart, if_neg hkept, hlower, hcode]

theorem report_of_token {table : GlyphTable} {token : String} {glyph : ResolvedGlyph}
    (hne : token ≠ "") (h : ∀ c ∈ token.toList, Text.isSeparator c = false)
    (hresolved : resolveToken table token = .ok glyph) :
    report table token = ⟨true, [⟨0, [glyph], []⟩], []⟩ := by
  have hline : reportLine table 0 token = ⟨0, [glyph], []⟩ := by
    rw [reportLine_eq, Text.tokens_of_token hne h]
    simp [GlyphTable.glyphOf?, Finding.glyph?, Finding.violation?, hresolved]
  rw [report, Text.lines_of_token hne h, List.mapIdx_cons, List.mapIdx_nil, hline]
  rfl

/-! ## Names of a merged dictionary -/

namespace GlyphTable

variable {table merged : GlyphTable} {dictionary : GlyphDictionary} {count : Nat}

theorem sound_of_merge (h : table.merge dictionary = (.ok count, merged)) :
    dictionary.Sound ∧ merged = table.insertAll dictionary.writes := by
  rcases merge_cases dictionary table with ⟨sound, hmerge⟩ | ⟨cause, -, hmerge⟩
  · exact ⟨sound, congrArg Prod.snd (h.symm.trans hmerge)⟩
  · exact nomatch congrArg Prod.fst (h.symm.trans hmerge)

theorem exists_code_of_merge (h : table.merge dictionary = (.ok count, merged)) {name : String}
    (hname : name ∈ dictionary.tableNames) : ∃ code, merged.get? name = some code := by
  obtain ⟨sound, rfl⟩ := sound_of_merge h
  rw [← sound.map_fst_writes, ← List.mem_reverse, ← List.map_reverse] at hname
  obtain ⟨code, hcode⟩ := exists_lookup hname
  refine ⟨code, ?_⟩
  rw [get?_insertAll, hcode]
  rfl

/-- A name of a merged dictionary has a code in the table, and a text that is the name and nothing
else shows the glyph of that code exactly if the name is ASCII without backspaces.  Any other name
is accepted all the same, and then no text at all finds a glyph by that name. -/
theorem typed_name_iff (h : table.merge dictionary = (.ok count, merged)) {name : String}
    (hname : name ∈ dictionary.tableNames) :
    ∃ code, merged.get? name = some code ∧
      ((∃ line, (report merged name).lines = [line] ∧ line.glyphs = [⟨name, code, .named⟩] ∧
          line.violations = [] ∧ (report merged name).violations = []) ↔
        Text.IsTypeable name) ∧
      (¬Text.IsTypeable name → ∀ text, ∀ line ∈ (report merged text).lines,
        ∀ glyph ∈ line.glyphs, glyph.source = .named → glyph.token ≠ name) := by
  obtain ⟨code, hcode⟩ := exists_code_of_merge h hname
  refine ⟨code, hcode, ⟨?_, ?_⟩, ?_⟩
  · rintro ⟨line, hlines, hglyphs, -, -⟩
    have hline : line ∈ (report merged name).lines := by
      rw [hlines]
      exact List.mem_singleton_self line
    exact isTypeable_of_named hline (by rw [hglyphs]; exact List.mem_singleton_self _) rfl
  · intro htypeable
    obtain ⟨entry, hentry, rfl⟩ := List.mem_map.mp hname
    -- Merging has seen to blanks and commas, so that the name is one token without backspaces.
    have hnameable : ¬GlyphDictionary.Unnameable (GlyphDictionary.tableName entry.1) :=
      fun bad => (sound_of_merge h).1 _ (.name hentry bad)
    obtain ⟨hne, hchars⟩ := not_or.mp hnameable
    have hseparator : ∀ c ∈ (GlyphDictionary.tableName entry.1).toList,
        Text.isSeparator c = false := by
      intro c hc
      have hdivides := not_or.mp fun bad => hchars ⟨c, hc, bad⟩
      rw [Text.isSeparator, Bool.eq_false_iff.mpr hdivides.1,
        beq_eq_false_iff_ne.mpr hdivides.2, beq_eq_false_iff_ne.mpr (htypeable c hc).2]
      rfl
    have hascii := fun c hc => (htypeable c hc).1
    have hresolved := resolveToken_of_name hne hascii
      (Text.lowercase_lowercase_of_ascii hascii) hcode
    rw [report_of_token hne hseparator hresolved]
    exact ⟨_, rfl, rfl, rfl, rfl⟩
  · rintro hnot text line hline glyph hglyph hnamed rfl
    exact hnot (isTypeable_of_named hline hglyph hnamed)

/-- A name with capitals and blanks around it. -/
theorem typed_name_iff_of_wave :
    let dictionary : GlyphDictionary := ⟨"1.0.0", "1.0.0", [(" Wave ", "01A")], by decide⟩
    let merged := (empty.merge dictionary).2
    empty.merge dictionary = (.ok 1, merged) ∧ "wave" ∈ dictionary.tableNames ∧
      ∃ code line, merged.get? "wave" = some code ∧ (report merged "wave").lines = [line] ∧
        line.glyphs = [⟨"wave", code, .named⟩] ∧ line.violations = [] := by
  intro dictionary merged
  have hmerge : empty.merge dictionary = (.ok 1, merged) :=
    Prod.ext (by decide +kernel) rfl
  have hname : "wave" ∈ dictionary.tableNames := by decide +kernel
  have htypeable : Text.IsTypeable "wave" := by decide +kernel
  obtain ⟨code, hcode, hreport, -⟩ := typed_name_iff hmerge hname
  obtain ⟨line, hlines, hglyphs, hviolations, -⟩ := hreport.mpr htypeable
  exact ⟨hmerge, hname, code, line, hcode, hlines, hglyphs, hviolations⟩

/-- A name with a backspace in it is accepted, but typing it does not show its glyph. -/
theorem name_with_backspace_is_lost :
    let name := "left\x08turn"
    let dictionary : GlyphDictionary := ⟨"1.0.0", "1.0.0", [(name, "049")], by decide⟩
    let merged := (builtin.merge dictionary).2
    builtin.merge dictionary = (.ok 1, merged) ∧ name ∈ dictionary.tableNames ∧
      ¬∃ code line, (report merged name).lines = [line] ∧
        line.glyphs = [⟨name, code, .named⟩] := by
  intro name dictionary merged
  have hmerge : builtin.merge dictionary = (.ok 1, merged) :=
    Prod.ext (by decide +kernel) rfl
  have hname : name ∈ dictionary.tableNames := by decide +kernel
  refine ⟨hmerge, hname, ?_⟩
  rintro ⟨code, line, hlines, hglyphs⟩
  have hline : line ∈ (report merged name).lines := by
    rw [hlines]
    exact List.mem_singleton_self line
  have htypeable : Text.IsTypeable name :=
    isTypeable_of_named hline (by rw [hglyphs]; exact List.mem_singleton_self _) rfl
  exact (htypeable '\x08' (by decide)).2 rfl

end GlyphTable
end AnimatedGlyph
