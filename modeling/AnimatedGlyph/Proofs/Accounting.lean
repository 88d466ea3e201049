/-
What a report makes of the characters of a text.

`report_accounts` says what a report consists of.  It has a line for each line of the text
that is not blank, and in it a finding for each token, in the order of the text; the tokens
together are the text without its separators.  What is found of a token is its `Verdict`, and
the report on the whole follows from the lines (`Report.Concludes`).

A table has an empty name if one is registered.  No token is a glyph by it, since a token without
an ASCII character is refused before names are looked up; `empty_name_is_passed_over` is such a
table.
-/
import AnimatedGlyph.Proofs.CodeGrammar
import AnimatedGlyph.Proofs.EntryPoints
import AnimatedGlyph.Proofs.Merging
import AnimatedGlyph.Proofs.SourceLines
import AnimatedGlyph.Proofs.TableHistory

namespace AnimatedGlyph

open Text (asciiPart lowercase isNewline isSeparator Stretch stretches)

/-! ## Verdicts on tokens -/

/-- What the rules say of a token: its ASCII characters are the name of a glyph, or else the
code of one, or there are none, or they are no code. -/
inductive Verdict (table : GlyphTable) (token : String) : Finding → Prop
  | named {code : GlyphCode} (some_ascii : asciiPart token ≠ "")
    (key : table.get? (lowercase (asciiPart token)) = some code) :
    Verdict table token (.ok ⟨lowercase (asciiPart token), code, .named⟩)
  | raw {code : GlyphCode} (no_key : table.get? (lowercase (asciiPart token)) = none)
    (parses : GlyphCode.parse (asciiPart token) = .ok code) :
    Verdict table token (.ok ⟨asciiPart token, code, .raw⟩)
  | notAscii (no_ascii : asciiPart token = "") : Verdict table token (.error ⟨token, .notAscii⟩)
  | badCode {cause : CodeError} (some_ascii : asciiPart token ≠ "")
    (no_key : table.get? (lowercase (asciiPart token)) = none)
    (refused : GlyphCode.parse (asciiPart token) = .error cause) :
    Verdict table token (.error ⟨asciiPart token, .badCode cause⟩)

theorem GlyphCode.parse_empty_ne_ok (code : GlyphCode) : parse "" ≠ .ok code := by
  intro h
  have hnone : code.text.toList = [] := toList_text_of_parse h
  rw [toList_text, List.map_eq_nil_iff] at hnone
  have hlong := code.two_le_length
  rw [hnone] at hlong
  exact absurd hlong (by decide)

theorem verdict_resolveToken (table : GlyphTable) (token : String) :
    Verdict table token (resolveToken table token) := by
  rw [resolveToken]
  by_cases hempty : asciiPart token = ""
  · rw [if_pos (String.isEmpty_iff.mpr hempty)]
    exact .notAscii hempty
  · rw [if_neg fun h => hempty (String.isEmpty_iff.mp h), resolveName]
    cases hkey : table.get? (lowercase (asciiPart token)) with
    | some code => exact .named hempty hkey
    | none =>
      show Verdict table token (resolveCode (asciiPart token))
      rw [resolveCode]
      cases hparse : GlyphCode.parse (asciiPart token) with
      | ok code => exact .raw hkey hparse
      | error cause => exact .badCode hempty hkey hparse

theorem Verdict.unique {table : GlyphTable} {token : String} {finding other : Finding}
    (h : Verdict table token finding) (hother : Verdict table token other) : finding = other := by
  cases h with
  | named hascii hkey =>
    cases hother with
    | named _ hkey' => rw [Option.some.inj (hkey.symm.trans hkey')]
    | raw hnone => cases hkey.symm.trans hnone
    | notAscii hempty => exact absurd hempty hascii
    | badCode _ hnone => cases hkey.symm.trans hnone
  | raw hnone hparse =>
    cases hother with
    | named _ hkey => cases hkey.symm.trans hnone
    | raw _ hparse' => rw [Except.ok.inj (hparse.symm.trans hparse')]
    | notAscii hempty => exact absurd (hempty ▸ hparse) (GlyphCode.parse_empty_ne_ok _)
    | badCode _ _ hrefused => cases hparse.symm.trans hrefused
  | notAscii hempty =>
    cases hother with
    | named hascii => exact absurd hempty hascii
    | raw _ hparse => exact absurd (hempty ▸ hparse) (GlyphCode.parse_empty_ne_ok _)
    | notAscii => rfl
    | badCode hascii => exact absurd hempty hascii
  | badCode hascii hnone hrefused =>
    cases hother with
    | named _ hkey => cases hkey.symm.trans hnone
    | raw _ hparse => cases hparse.symm.trans hrefused
    | notAscii hempty => exact absurd hempty hascii
    | badCode _ _ hrefused' => rw [Except.error.inj (hrefused.symm.trans hrefused')]

theorem resolveToken_eq_iff {table : GlyphTable} {token : String} {finding : Finding} :
    resolveToken table token = finding ↔ Verdict table token finding :=
  ⟨fun h => h ▸ verdict_resolveToken table token, (verdict_resolveToken table token).unique⟩

theorem Verdict.rule {table : GlyphTable} {token : String} {violation : Violation}
    (h : Verdict table token (.error violation)) :
    violation.rule = if asciiPart token = "" then "ascii" else "node_code" := by
  cases h with
  | notAscii hempty => rw [if_pos hempty, Violation.rule]
  | badCode hascii => rw [if_neg hascii, Violation.rule]

/-- The finding is a variable here, so that the constructors need not be told apart by the texts
in them. -/
theorem Verdict.source_of_ok {table : GlyphTable} {token : String} {finding : Finding}
    (h : Verdict table token finding) {glyph : ResolvedGlyph} (hok : finding = .ok glyph) :
    (∃ code, table.get? (lowercase (asciiPart token)) = some code) ∨
      ∃ code, GlyphCode.parse (asciiPart token) = .ok code := by
  cases h with
  | named _ hkey => exact .inl ⟨_, hkey⟩
  | raw _ hparse => exact .inr ⟨_, hparse⟩
  | notAscii => cases hok
  | badCode => cases hok

/-- A token is a glyph if its ASCII characters are the name of one and not none at all, or if they
are the code of one. -/
theorem exists_verdict_ok_iff {table : GlyphTable} {token : String} :
    (∃ glyph, Verdict table token (.ok glyph)) ↔
      asciiPart token ≠ "" ∧ (∃ code, table.get? (lowercase (asciiPart token)) = some code) ∨
        ∃ code, GlyphCode.parse (asciiPart token) = .ok code := by
  constructor
  · rintro ⟨glyph, h⟩
    rcases h.source_of_ok rfl with hkey | hparse
    · by_cases hempty : asciiPart token = ""
      · have hglyph := (Verdict.notAscii hempty).unique h
        cases hglyph
      · exact .inl ⟨hempty, hkey⟩
    · exact .inr hparse
  · rintro (⟨hascii, code, hkey⟩ | ⟨code, hparse⟩)
    · exact ⟨_, .named hascii hkey⟩
    · cases hkey : table.get? (lowercase (asciiPart token)) with
      | some other =>
        refine ⟨_, .named (fun hempty => ?_) hkey⟩
        rw [hempty] at hparse
        exact GlyphCode.parse_empty_ne_ok code hparse
      | none => exact ⟨_, .raw hkey hparse⟩

/-- No dictionary has an empty name. -/
theorem GlyphTable.get?_empty_merge (table : GlyphTable) (dictionary : GlyphDictionary) :
    (table.merge dictionary).2.get? "" = table.get? "" := by
  rcases merge_cases dictionary table with ⟨sound, hmerge⟩ | ⟨cause, -, hmerge⟩
  · rw [hmerge, get?_insertAll_of_absent]
    rw [sound.map_fst_writes]
    intro hmem
    obtain ⟨entry, hentry, hempty⟩ := List.mem_map.mp hmem
    exact sound _ (.name hentry (.inl hempty))
  · rw [hmerge]

/-- No built-in glyph has one either. -/
theorem GlyphTable.get?_empty_builtin : GlyphTable.builtin.get? "" = none := by
  have hnames : ∀ entry ∈ builtinGlyphs,
      entry.1.toList ≠ [] ∧ entry.1.toList.all (fun c => decide (c.toNat < 128)) = true := by
    decide +kernel
  rw [builtin_eq, get?_insertAll_of_absent]
  · rfl
  · intro hmem
    obtain ⟨write, hwrite, hempty⟩ := List.mem_map.mp hmem
    obtain ⟨entry, hentry, hcode⟩ := List.mem_filterMap.mp hwrite
    obtain ⟨code, -, rfl⟩ := Option.map_eq_some_iff.mp hcode
    obtain ⟨hname, hascii⟩ := hnames entry hentry
    have hlower : lowercase entry.1 = "" := hempty
    rw [Text.lowercase_of_ascii fun c hc => of_decide_eq_true (List.all_eq_true.mp hascii c hc)]
      at hlower
    have hnone := congrArg String.toList hlower
    rw [String.toList_ofList] at hnone
    exact hname (List.map_eq_nil_iff.mp hnone)

/-! ## Lines of a report -/

/-- What is found of the tokens of a line, in order. -/
def SourceLine.findings (table : GlyphTable) (line : SourceLine) : List Finding :=
  line.tokens.map fun x => resolveToken table (String.ofList x.chars)

theorem lines_report (table : GlyphTable) (text : String) :
    (report table text).lines = (sourceLines text.toList).mapIdx fun index line =>
      ⟨index, (line.findings table).filterMap Finding.glyph?,
        (line.findings table).filterMap Finding.violation?⟩ := by
  have hlines : Text.lines text =
      (sourceLines text.toList).map fun line =>
        String.ofList (Text.trimChars line.place.chars) := by
    rw [Text.lines, ← Text.map_chars_stretches text.toList 0, sourceLines, List.map_map,
      List.map_map, List.filter_map, List.map_map]
    simp only [Function.comp_def, Text.isEmpty_trimChars]
  have htokens : ∀ line ∈ sourceLines text.toList,
      Text.tokens (String.ofList (Text.trimChars line.place.chars)) =
        line.tokens.map fun x => String.ofList x.chars := by
    intro line hmem
    rw [Text.tokens, String.toList_ofList, Text.runs_trimChars, ← map_chars_lineTokens,
      (mem_sourceLines hmem).1, List.map_map]
    rfl
  have hline : ∀ line ∈ sourceLines text.toList, ∀ index,
      reportLine table index (String.ofList (Text.trimChars line.place.chars)) =
        ⟨index, (line.findings table).filterMap Finding.glyph?,
          (line.findings table).filterMap Finding.violation?⟩ := by
    intro line hmem index
    rw [reportLine_eq, htokens line hmem, SourceLine.findings, List.filterMap_map,
      List.filterMap_map, List.filterMap_map, List.filterMap_map]
    rfl
  refine List.ext_getElem? fun index => ?_
  rw [report, hlines, List.getElem?_mapIdx, List.getElem?_map, List.getElem?_mapIdx,
    Option.map_map]
  cases hmem : (sourceLines text.toList)[index]? with
  | none => rfl
  | some line => exact congrArg some (hline line (List.mem_of_getElem? hmem) index)

/-- Each finding counts once, as a glyph or as a violation. -/
theorem length_filterMap_findings (findings : List Finding) :
    (findings.filterMap Finding.glyph?).length + (findings.filterMap Finding.violation?).length =
      findings.length := by
  induction findings with
  | nil => rfl
  | cons finding rest ih =>
    cases finding with
    | ok glyph =>
      show ((rest.filterMap Finding.glyph?).length + 1) + _ = rest.length + 1
      rw [← ih, Nat.add_right_comm]
      rfl
    | error violation =>
      show _ + ((rest.filterMap Finding.violation?).length + 1) = rest.length + 1
      rw [← ih, ← Nat.add_assoc]
      rfl

/-! ## Reports on the whole text -/

/-- A report on a text in terms of its lines.  Violations of tokens are warnings, and the one
violation that is an error stands at the end if no line has a glyph. -/
structure Report.Concludes (report : Report) (text : String) : Prop where
  violations : report.violations = report.lines.flatMap LineReport.violations ++
    if ∃ line ∈ report.lines, line.glyphs ≠ [] then [] else [⟨Text.trim text, .noUsableGlyph⟩]
  last_is_error : (⟨Text.trim text, .noUsableGlyph⟩ : Violation).severity = .error
  others_are_warnings : ∀ line ∈ report.lines, ∀ violation ∈ line.violations,
    violation.severity = .warning
  valid_iff : report.isValid = true ↔ ∃ line ∈ report.lines, line.glyphs ≠ []
  valid_iff_no_errors : report.isValid = true ↔ report.hasErrors = false
  valid_iff_count : report.isValid = true ↔ 0 < report.glyphCount

theorem isValid_report_iff (table : GlyphTable) (text : String) :
    (report table text).isValid = true ↔
      ∃ line ∈ (report table text).lines, line.glyphs ≠ [] := by
  show (report table text).lines.any LineReport.isUsable = true ↔ _
  rw [List.any_eq_true]
  simp only [LineReport.isUsable, Bool.not_eq_true', List.isEmpty_eq_false_iff]

theorem Report.glyphCount_pos_iff (report : Report) :
    0 < report.glyphCount ↔ ∃ line ∈ report.lines, line.glyphs ≠ [] := by
  rw [glyphCount, List.length_pos_iff, ne_eq, List.flatMap_eq_nil_iff]
  simp only [Classical.not_forall, exists_prop, ne_eq]

theorem concludes_report (table : GlyphTable) (text : String) :
    (report table text).Concludes text where
  violations := by
    rw [violations_report, ← if_congr (isValid_report_iff table text) rfl rfl]
    cases (report table text).isValid with
    | true => exact (List.append_nil _).symm
    | false => rfl
  last_is_error := rfl
  others_are_warnings _ hline _ h := severity_of_mem_violations hline h
  valid_iff := isValid_report_iff table text
  valid_iff_no_errors := by
    rw [hasErrors_report, Bool.not_eq_false']
  valid_iff_count := (isValid_report_iff table text).trans (Report.glyphCount_pos_iff _).symm

/-- A report accounts for every character of its text.  Its lines are the lines of the text that
are not blank, counted from zero, and the findings of a line are the verdicts on its tokens, each
of which it has among its glyphs or its violations.  A token without an ASCII character is refused
whatever the names of the table are.  The violations, and whether the text is valid, follow from
the lines. -/
theorem report_accounts (table : GlyphTable) (text : String) :
    let lines := sourceLines text.toList
    let validation := report table text
    Accounts text.toList lines ∧
      (lines.flatMap SourceLine.tokens).flatMap Stretch.chars =
        text.toList.filter (fun c => !isSeparator c) ∧
      validation.lines = lines.mapIdx (fun index line =>
        ⟨index, (line.findings table).filterMap Finding.glyph?,
          (line.findings table).filterMap Finding.violation?⟩) ∧
      (∀ (index : Nat) source line, lines[index]? = some source →
        validation.lines[index]? = some line →
          line.glyphs.length + line.violations.length = source.tokens.length) ∧
      (∀ token finding, resolveToken table token = finding ↔ Verdict table token finding) ∧
      (∀ token violation, Verdict table token (.error violation) →
        violation.rule = if asciiPart token = "" then "ascii" else "node_code") ∧
      (∀ token, (∃ glyph, Verdict table token (.ok glyph)) ↔
        asciiPart token ≠ "" ∧ (∃ code, table.get? (lowercase (asciiPart token)) = some code) ∨
          ∃ code, GlyphCode.parse (asciiPart token) = .ok code) ∧
      (GlyphTable.empty.get? "" = none ∧ GlyphTable.builtin.get? "" = none ∧
        ∀ dictionary, (table.merge dictionary).2.get? "" = table.get? "") ∧
      validation.Concludes text := by
  intro lines validation
  refine ⟨accounts_sourceLines _, flatMap_chars_tokens _, lines_report table text, ?_,
    fun _ _ => resolveToken_eq_iff, fun _ _ => Verdict.rule, fun _ => exists_verdict_ok_iff,
    ⟨rfl, GlyphTable.get?_empty_builtin, table.get?_empty_merge⟩, concludes_report table text⟩
  intro index source line hsource hline
  have hmapped : validation.lines = _ := lines_report table text
  rw [hmapped, List.getElem?_mapIdx, hsource] at hline
  cases hline
  rw [length_filterMap_findings, SourceLine.findings, List.length_map]

/-- The ASCII characters of a token are a key of the table, the empty one, and the token is refused
all the same. -/
theorem empty_name_is_passed_over :
    let code : GlyphCode := ⟨[0, 1], by decide, by decide, trivial⟩
    let table := GlyphTable.empty.register "" code
    table.get? (lowercase (asciiPart "é")) = some code ∧
      (report table "é").lines = [⟨0, [], [⟨"é", .notAscii⟩]⟩] := by
  decide +kernel

end AnimatedGlyph
