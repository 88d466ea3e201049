/-
Blanks around a text.

No blank at an end of a text matters, to the report no more than to the key.
`surrounding_blanks` says so of one text and every way to use it, and of every session:
whoever trims the texts of all calls gets the same answers, and leaves the sources and the
counts where they were.

Everything follows from the report, since compiling sees a text through its report only,
and the report from the lines of the text (`Text.lines_trim`) and from `Text.trim_trim`, as
the report on a text without a glyph carries the trimmed text.
-/
import AnimatedGlyph.Proofs.EntryPoints
import AnimatedGlyph.Proofs.Trimming
import AnimatedGlyph.Proofs.Wording
import AnimatedGlyph.Sticker.Session

namespace AnimatedGlyph

/-! ## Trimming -/

namespace Text

theorem trimChars_blanks_append {front : List Char} (h : ∀ c ∈ front, isBlank c = true)
    (cs : List Char) : trimChars (front ++ cs) = trimChars cs := by
  induction front with
  | nil => rfl
  | cons c rest ih =>
    obtain ⟨hc, hrest⟩ := List.forall_mem_cons.mp h
    rw [List.cons_append, trimChars_cons_blank hc, ih hrest]

theorem trimChars_append_blanks {back : List Char} (h : ∀ c ∈ back, isBlank c = true)
    (cs : List Char) : trimChars (cs ++ back) = trimChars cs := by
  induction back generalizing cs with
  | nil => rw [List.append_nil]
  | cons c rest ih =>
    obtain ⟨hc, hrest⟩ := List.forall_mem_cons.mp h
    rw [List.append_cons, ih hrest, trimChars_concat_blank hc]

theorem trimChars_trimChars (cs : List Char) : trimChars (trimChars cs) = trimChars cs := by
  obtain ⟨front, back, hcs, hfront, hback⟩ := exists_trimChars cs
  have hagain := trimChars_blanks_append hfront (trimChars cs ++ back)
  rw [← hcs, trimChars_append_blanks hback] at hagain
  exact hagain.symm

theorem trim_trim (s : String) : trim (trim s) = trim s := by
  rw [trim, trim, String.toList_ofList, trimChars_trimChars]

theorem trim_surrounded {front back : List Char} (hfront : ∀ c ∈ front, isBlank c = true)
    (hback : ∀ c ∈ back, isBlank c = true) (s : String) :
    trim (String.ofList (front ++ (s.toList ++ back))) = trim s := by
  rw [trim, String.toList_ofList, trimChars_blanks_append hfront, trimChars_append_blanks hback,
    trim]

end Text

/-! ## Texts that are the same but for blanks around them -/

theorem report_trim (table : GlyphTable) (text : String) :
    report table (Text.trim text) = report table text := by
  rw [report, Text.trim_trim, Text.lines_trim, report]

theorem report_congr (table : GlyphTable) {text other : String}
    (h : Text.trim text = Text.trim other) : report table text = report table other := by
  rw [← report_trim table text, h, report_trim]

theorem stickerKey_congr {text other : String} (h : Text.trim text = Text.trim other)
    (options : CompileOptions) (engine : String) :
    stickerKey text options engine = stickerKey other options engine := by
  rw [stickerKey, stickerKey, keyText, keyText, h]

/-- A sticker has the key of its text besides the report and the document. -/
theorem Sticker.ofChecked_congr {text other : String} (h : Text.trim text = Text.trim other)
    (stamp : Stamp) (options : CompileOptions) (seed : Option UInt64) :
    ofChecked stamp ⟨text, options, seed⟩ = ofChecked stamp ⟨other, options, seed⟩ := by
  funext checked
  cases checked with
  | none => rfl
  | some made =>
    rw [ofChecked, ofDocument, stickerKey_congr h]
    rfl

/-- Nothing that a compiler does tells two texts apart, nor does their key. -/
structure GlyphCompiler.Interchangeable (compiler : GlyphCompiler) (text other : String) :
    Prop where
  report : compiler.report text = compiler.report other
  compile : ∀ options source,
    compiler.compile options text source = compiler.compile options other source
  request : ∀ chance options seed,
    compiler.compileRequest chance ⟨text, options, seed⟩ =
      compiler.compileRequest chance ⟨other, options, seed⟩
  sticker : ∀ stamp chance options seed,
    compiler.compileSticker stamp chance ⟨text, options, seed⟩ =
      compiler.compileSticker stamp chance ⟨other, options, seed⟩
  key : ∀ options engine, stickerKey text options engine = stickerKey other options engine

theorem GlyphCompiler.interchangeable_of_trim_eq (compiler : GlyphCompiler) {text other : String}
    (h : Text.trim text = Text.trim other) : compiler.Interchangeable text other := by
  have hreport : compiler.report text = compiler.report other := report_congr compiler.table h
  have hcompile : ∀ options source,
      compiler.compile options text source = compiler.compile options other source := by
    intro options source
    rw [compile, hreport, compile]
  have hrequest : ∀ chance options seed,
      compiler.compileRequest chance ⟨text, options, seed⟩ =
        compiler.compileRequest chance ⟨other, options, seed⟩ := by
    intro chance options seed
    rw [compileRequest_eq, compileRequest_eq]
    exact congrArg Prod.fst (hcompile options _)
  refine ⟨hreport, hcompile, hrequest, fun stamp chance options seed => ?_, stickerKey_congr h⟩
  rw [compileSticker, compileSticker, compileChecked_eq, compileChecked_eq, hrequest, hreport,
    Sticker.ofChecked_congr h]

/-! ## Sessions -/

/-- The call with a trimmed text. -/
def Call.trimmed : Call → Call
  | .compile text options => .compile (Text.trim text) options
  | .request asked => .request { asked with text := Text.trim asked.text }
  | .sticker stamp asked => .sticker stamp { asked with text := Text.trim asked.text }
  | .validate text => .validate (Text.trim text)
  | .settings => .settings
  | .glyph name => .glyph name

namespace Session

theorem validate_trim (session : Session) (text : String) :
    session.validate (Text.trim text) = session.validate text := by
  rw [validate, GlyphCompiler.report, report_trim]
  rfl

theorem compileChecked_trim (session : Session) (request : CompileRequest) :
    session.compileChecked { request with text := Text.trim request.text } =
      session.compileChecked request := by
  rw [compileChecked, validate_trim]
  rfl

theorem call_trimmed (session : Session) (call : Call) :
    session.call call.trimmed = session.call call := by
  cases call with
  | compile text options =>
    rw [Call.trimmed, Session.call, compile, validate_trim]
    rfl
  | request asked =>
    rw [Call.trimmed, Session.call, compileChecked_trim]
    rfl
  | sticker stamp asked =>
    have hsticker := Sticker.ofChecked_congr (Text.trim_trim asked.text) stamp asked.options
      asked.seed
    rw [Call.trimmed, Session.call, compileChecked_trim, hsticker]
    rfl
  | validate text =>
    rw [Call.trimmed, Session.call, validate_trim]
    rfl
  | settings => rfl
  | glyph name => rfl

theorem run_trimmed (calls : List Call) : ∀ session : Session,
    session.run (calls.map Call.trimmed) = session.run calls := by
  induction calls with
  | nil => exact fun _ => rfl
  | cons call rest ih =>
    intro session
    rw [List.map_cons, run, call_trimmed, run]
    simp only [ih]

end Session

/-- Blanks around a text never matter: the text without them, or with any others, has the same
report in all its fields, the same document for the same draws, the same sticker and the same
key, and a session goes on in the same way. -/
theorem GlyphCompiler.surrounding_blanks (compiler : GlyphCompiler) (text : String) :
    compiler.Interchangeable text (Text.trim text) ∧
      (∀ front back : List Char, (∀ c ∈ front, Text.isBlank c = true) →
        (∀ c ∈ back, Text.isBlank c = true) →
          compiler.Interchangeable (String.ofList (front ++ (text.toList ++ back))) text) ∧
      ∀ (source chance : RandomSource) (calls : List Call),
        (Session.begin compiler source chance).run (calls.map Call.trimmed) =
          (Session.begin compiler source chance).run calls := by
  refine ⟨?_, ?_, fun source chance calls => Session.run_trimmed calls _⟩
  · exact compiler.interchangeable_of_trim_eq (Text.trim_trim text).symm
  · intro front back hfront hback
    exact compiler.interchangeable_of_trim_eq (Text.trim_surrounded hfront hback text)

/-- A wide space in front and a line that ends in a carriage return. -/
theorem GlyphCompiler.surrounding_blanks_of_wide_space :
    (∀ c ∈ ['\u3000'], Text.isBlank c = true) ∧ (∀ c ∈ ['\r', '\n'], Text.isBlank c = true) ∧
      GlyphCompiler.standard.Interchangeable "\u3000wave,\x08?\r\n" "wave,\x08?" := by
  have hfront : ∀ c ∈ ['\u3000'], Text.isBlank c = true :=
    List.forall_mem_singleton.mpr (by decide)
  have hback : ∀ c ∈ ['\r', '\n'], Text.isBlank c = true :=
    List.forall_mem_cons.mpr ⟨by decide, List.forall_mem_singleton.mpr (by decide)⟩
  exact ⟨hfront, hback,
    (GlyphCompiler.standard.surrounding_blanks "wave,\x08?").2.1 _ _ hfront hback⟩

end AnimatedGlyph
