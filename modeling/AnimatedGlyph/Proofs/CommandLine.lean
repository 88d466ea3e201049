/-
What a command line comes to.

`Outcome` lists the ways in which carrying out an invocation can end, with what is printed, the
status and the files afterwards.  `Invocation.run_agrees` says that there are no others, and that
commands which load the same files agree on whether a text can be used: reporting on it and
compiling it, on standard output or into a file, fail together with the status for such texts.  A
text that can be used is delivered, unless its opacity runs past the last frame that a word counts.

What becomes of a file that is written is said by `Directory.Wrote`.
-/
import AnimatedGlyph.Proofs.EntryPoints
import AnimatedGlyph.Proofs.GivenOptions
import AnimatedGlyph.Proofs.Printing
import AnimatedGlyph.Proofs.WrittenFiles

namespace AnimatedGlyph
namespace Command

/-! ## Outcomes -/

/-- The text that a task is about. -/
def Task.text? : Task → Option String
  | .glyphs => none
  | .validate text => some text
  | .compile request _ => some request.text

namespace Invocation
variable {invocation : Invocation} {directory : Directory} {stamp : Stamp} {chance : RandomSource}

/-- The files of an invocation load, and make a compiler. -/
structure Loads (invocation : Invocation) (directory : Directory) (compiler : GlyphCompiler) :
    Prop where
  table : loadTable directory.view invocation.dictionary = .ok compiler.table
  settings : loadSettings directory.view invocation.settings = .ok compiler.settings

/-- A file of an invocation does not load.  The dictionary comes first. -/
inductive Fails (invocation : Invocation) (directory : Directory) (message : String) : Prop
  | dictionary (failed : loadTable directory.view invocation.dictionary = .error message)
  | settings {table : GlyphTable}
    (loaded : loadTable directory.view invocation.dictionary = .ok table)
    (failed : loadSettings directory.view invocation.settings = .error message)

/-- A text that can be used is to be compiled, in motion, with all the frames that a word counts. -/
def Overflows (invocation : Invocation) (directory : Directory) : Prop :=
  ∃ compiler request target, invocation.Loads directory compiler ∧
    invocation.task = .compile request target ∧
      (compiler.report request.text).isValid = true ∧ request.options.animated = true ∧
        compiler.settings.totalFrames.toNat + 1 = 2 ^ 32

/-- A document as the content of a file: packed if the path has the extension of payloads, and as
it is otherwise. -/
def Delivers (path : String) (document : AnimationDocument) (content : List UInt8) : Prop :=
  ∃ value, document.toJson = some value ∧
    if Path.extension? path = some "tgs" then
      Payload.gunzip? content = some (textBytes value.compact)
    else content = textBytes value.compact

/-- How carrying out an invocation ends: what is printed, the status, and the files. -/
inductive Outcome (invocation : Invocation) (directory : Directory) (stamp : Stamp)
    (chance : RandomSource) : Output × Directory → Prop
  | notLoaded {message : String} {output : Output} (fails : invocation.Fails directory message)
    (prints : output.Prints (.object [("error", .string message)])) (status : output.status = 1) :
    Outcome invocation directory stamp chance (output, directory)
  | listed {compiler : GlyphCompiler} {output : Output}
    (loads : invocation.Loads directory compiler) (task : invocation.task = .glyphs)
    (prints : output.Prints (.ofList glyphEntry compiler.table.toList))
    (status : output.status = 0) :
    Outcome invocation directory stamp chance (output, directory)
  | reported {compiler : GlyphCompiler} {text : String} {output : Output}
    (loads : invocation.Loads directory compiler) (task : invocation.task = .validate text)
    (prints : output.Prints (.object [("valid", .bool (compiler.report text).isValid),
      ("lines", .ofList LineReport.toJson (compiler.report text).lines),
      ("violations", .ofList Violation.toJson (compiler.report text).violations)]))
    (status : output.status = if (compiler.report text).isValid then 0 else 2) :
    Outcome invocation directory stamp chance (output, directory)
  | unusable {compiler : GlyphCompiler} {request : CompileRequest} {target : Option String}
    {output : Output} (loads : invocation.Loads directory compiler)
    (task : invocation.task = .compile request target)
    (invalid : (compiler.report request.text).isValid = false)
    (prints : output.Prints (.object [("success", .bool false),
      ("error", .string "No glyphs found")]))
    (status : output.status = 2) : Outcome invocation directory stamp chance (output, directory)
  | printed {compiler : GlyphCompiler} {request : CompileRequest} {document : AnimationDocument}
    {sticker : Sticker} {manifest : Json} {output : Output}
    (loads : invocation.Loads directory compiler)
    (task : invocation.task = .compile request none)
    (valid : (compiler.report request.text).isValid = true)
    (compiled : compiler.compileRequest chance request = some document)
    (describes : sticker.Describes request (compiler.report request.text) document)
    (stamped : sticker.stamp = stamp) (holds : sticker.Manifest manifest)
    (prints : output.Prints (.object [("success", .bool true), ("sticker", manifest)]))
    (status : output.status = 0) : Outcome invocation directory stamp chance (output, directory)
  | written {compiler : GlyphCompiler} {request : CompileRequest} {path : String}
    {document : AnimationDocument} {content : List UInt8} {changed : Directory} {output : Output}
    (loads : invocation.Loads directory compiler)
    (task : invocation.task = .compile request (some path))
    (valid : (compiler.report request.text).isValid = true)
    (compiled : compiler.compileRequest chance request = some document)
    (delivers : Delivers path document content)
    (write : directory.write path content = .ok changed)
    (wrote : directory.Wrote path content changed)
    (prints : output.Prints (.object [("success", .bool true), ("path", .string path),
      ("sizeBytes", .ofCount content.length)]))
    (status : output.status = 0) : Outcome invocation directory stamp chance (output, changed)
  | notWritten {compiler : GlyphCompiler} {request : CompileRequest} {path : String}
    {document : AnimationDocument} {content : List UInt8} {fault : FileFault} {output : Output}
    (loads : invocation.Loads directory compiler)
    (task : invocation.task = .compile request (some path))
    (valid : (compiler.report request.text).isValid = true)
    (compiled : compiler.compileRequest chance request = some document)
    (delivers : Delivers path document content)
    (write : directory.write path content = .error fault)
    (prints : output.Prints (.object [("success", .bool false), ("error", .string fault.report)]))
    (status : output.status = 1) : Outcome invocation directory stamp chance (output, directory)
  | stopped {compiler : GlyphCompiler} {request : CompileRequest} {target : Option String}
    {document : AnimationDocument} {output : Output} (loads : invocation.Loads directory compiler)
    (task : invocation.task = .compile request target)
    (valid : (compiler.report request.text).isValid = true)
    (compiled : compiler.compileRequest chance request = some document)
    (lost : document.toLottie = none) (silent : output.text = "") (status : output.status = 101) :
    Outcome invocation directory stamp chance (output, directory)

theorem delivers_of_fileContent {path : String} {document : AnimationDocument}
    {content : List UInt8} (h : fileContent path document = some content) :
    Delivers path document content := by
  rw [fileContent, AnimationDocument.payload, AnimationDocument.text] at h
  cases hvalue : document.toJson with
  | none =>
    rw [hvalue] at h
    split at h <;> cases h
  | some value =>
    rw [hvalue] at h
    refine ⟨value, hvalue, ?_⟩
    show (if Path.extension? path = some payloadExtension then _ else _)
    split at h
    · rename_i hpath
      cases h
      rw [if_pos hpath]
      exact Payload.gunzip?_gzip _
    · rename_i hpath
      cases h
      rw [if_neg hpath]

theorem fileContent_eq_none_iff {path : String} {document : AnimationDocument} :
    fileContent path document = none ↔ document.toLottie = none := by
  rw [fileContent]
  split
  · simp only [AnimationDocument.payload, AnimationDocument.text, AnimationDocument.toJson,
      Option.map_eq_none_iff]
  · simp only [AnimationDocument.text, AnimationDocument.toJson, Option.map_eq_none_iff]

theorem Delivers.toLottie_ne_none {path : String} {document : AnimationDocument}
    {content : List UInt8} (h : Delivers path document content) : document.toLottie ≠ none := by
  obtain ⟨value, hvalue, -⟩ := h
  exact AnimationDocument.toLottie_ne_none hvalue

/-- The document of a request has no Lottie form exactly if it moves on a timeline of all the
frames that a word counts. -/
theorem toLottie_eq_none_iff_of_compileRequest {compiler : GlyphCompiler}
    {request : CompileRequest} {document : AnimationDocument}
    (hcompiled : compiler.compileRequest chance request = some document) :
    document.toLottie = none ↔
      request.options.animated = true ∧ compiler.settings.totalFrames.toNat + 1 = 2 ^ 32 := by
  rw [compiler.compileRequest_eq chance request] at hcompiled
  have hoverflow := @GlyphCompiler.exists_toLottie_eq_none_iff compiler request.options
    request.text (GlyphCompiler.sourceOf chance request)
  rw [hcompiled] at hoverflow
  simpa only [Option.some.injEq, exists_eq_left', Option.isSome_some, and_true] using hoverflow

theorem loadCompiler_cases (invocation : Invocation) (directory : Directory) :
    (∃ message, invocation.Fails directory message ∧
        invocation.loadCompiler directory.view = .error message) ∨
      ∃ compiler, invocation.Loads directory compiler ∧
        invocation.loadCompiler directory.view = .ok compiler := by
  rw [loadCompiler]
  cases htable : loadTable directory.view invocation.dictionary with
  | error message => exact .inl ⟨message, .dictionary htable, rfl⟩
  | ok table =>
    cases hsettings : loadSettings directory.view invocation.settings with
    | error message => exact .inl ⟨message, .settings htable hsettings, rfl⟩
    | ok settings => exact .inr ⟨⟨table, settings⟩, ⟨htable, hsettings⟩, rfl⟩

theorem run_of_finish {output : Output}
    (h : invocation.action ⟨directory.view, stamp, chance⟩ = .finish output) :
    invocation.run directory stamp chance = (output, directory) := by
  rw [run, h]

theorem run_of_written {path : String} {content : List UInt8} {changed : Directory}
    (h : invocation.action ⟨directory.view, stamp, chance⟩ = .save path content)
    (hwrite : directory.write path content = .ok changed) :
    invocation.run directory stamp chance = (.ofSaving path content.length none, changed) := by
  simp only [run, h, hwrite]

theorem run_of_notWritten {path : String} {content : List UInt8} {fault : FileFault}
    (h : invocation.action ⟨directory.view, stamp, chance⟩ = .save path content)
    (hwrite : directory.write path content = .error fault) :
    invocation.run directory stamp chance =
      (.ofSaving path content.length (some fault), directory) := by
  simp only [run, h, hwrite]

theorem run_of_stop (h : invocation.action ⟨directory.view, stamp, chance⟩ = .stop) :
    invocation.run directory stamp chance = (.ofOverflow, directory) := by
  rw [run, h]

/-- Nothing is compiled of a text that cannot be used. -/
theorem outcome_run_noGlyphs {compiler : GlyphCompiler} {request : CompileRequest}
    {target : Option String} (loads : invocation.Loads directory compiler)
    (htask : invocation.task = .compile request target)
    (haction : invocation.action ⟨directory.view, stamp, chance⟩ = .finish .noGlyphs)
    (hcompiled : compiler.compileRequest chance request = none) :
    invocation.Outcome directory stamp chance (invocation.run directory stamp chance) := by
  have hvalid := compiler.isSome_compileRequest chance request
  rw [hcompiled] at hvalid
  rw [run_of_finish haction]
  exact .unusable loads htask hvalid.symm (Output.prints_noSticker _ _) rfl

theorem outcome_run_overflow {compiler : GlyphCompiler} {request : CompileRequest}
    {target : Option String} {document : AnimationDocument}
    (loads : invocation.Loads directory compiler)
    (htask : invocation.task = .compile request target)
    (haction : invocation.action ⟨directory.view, stamp, chance⟩ = .stop)
    (hcompiled : compiler.compileRequest chance request = some document)
    (h : document.toLottie = none) :
    invocation.Outcome directory stamp chance (invocation.run directory stamp chance) := by
  rw [run_of_stop haction]
  exact .stopped loads htask (GlyphCompiler.isValid_of_compileRequest hcompiled) hcompiled h rfl rfl

theorem outcome_run_printed {compiler : GlyphCompiler} {request : CompileRequest}
    (loads : invocation.Loads directory compiler)
    (htask : invocation.task = .compile request none)
    (haction : invocation.action ⟨directory.view, stamp, chance⟩ =
      (Task.compile request none).perform compiler ⟨directory.view, stamp, chance⟩) :
    invocation.Outcome directory stamp chance (invocation.run directory stamp chance) := by
  rw [Task.perform] at haction
  cases hsticker : compiler.compileSticker stamp chance request with
  | none =>
    rw [hsticker] at haction
    obtain ⟨document, hcompiled, hnone⟩ := GlyphCompiler.compileSticker_eq_none_iff.mp hsticker
    exact outcome_run_overflow loads htask haction hcompiled hnone
  | some made =>
    rw [hsticker] at haction
    cases made with
    | none =>
      exact outcome_run_noGlyphs loads htask haction
        (GlyphCompiler.compileSticker_eq_some_none_iff.mp hsticker)
    | some sticker =>
      obtain ⟨document, hcompiled, hmade⟩ :=
        GlyphCompiler.compileSticker_eq_some_some_iff.mp hsticker
      have hvalid := GlyphCompiler.isValid_of_compileRequest hcompiled
      rw [run_of_finish haction]
      exact .printed loads htask hvalid hcompiled (Sticker.describes_of_ofDocument hmade)
        (Sticker.stamp_of_ofDocument hmade) sticker.manifest_toJson
        (Output.prints_sticker sticker) rfl

theorem outcome_run_saved {compiler : GlyphCompiler} {request : CompileRequest} {path : String}
    (loads : invocation.Loads directory compiler)
    (htask : invocation.task = .compile request (some path))
    (haction : invocation.action ⟨directory.view, stamp, chance⟩ =
      (Task.compile request (some path)).perform compiler ⟨directory.view, stamp, chance⟩) :
    invocation.Outcome directory stamp chance (invocation.run directory stamp chance) := by
  rw [Task.perform] at haction
  cases hcompiled : compiler.compileRequest chance request with
  | none =>
    rw [hcompiled] at haction
    exact outcome_run_noGlyphs loads htask haction hcompiled
  | some document =>
    rw [hcompiled] at haction
    cases hcontent : fileContent path document with
    | none =>
      simp only [hcontent] at haction
      exact outcome_run_overflow loads htask haction hcompiled
        (fileContent_eq_none_iff.mp hcontent)
    | some content =>
      simp only [hcontent] at haction
      have hvalid := GlyphCompiler.isValid_of_compileRequest hcompiled
      have hdelivers := delivers_of_fileContent hcontent
      cases hwrite : directory.write path content with
      | ok changed =>
        rw [run_of_written haction hwrite]
        exact .written loads htask hvalid hcompiled hdelivers hwrite
          (Directory.wrote_of_write hwrite) (Output.prints_saved path _) rfl
      | error fault =>
        rw [run_of_notWritten haction hwrite]
        exact .notWritten loads htask hvalid hcompiled hdelivers hwrite
          (Output.prints_noSticker _ _) rfl

theorem outcome_run (invocation : Invocation) (directory : Directory) (stamp : Stamp)
    (chance : RandomSource) :
    invocation.Outcome directory stamp chance (invocation.run directory stamp chance) := by
  rcases loadCompiler_cases invocation directory with
    ⟨message, fails, hload⟩ | ⟨compiler, loads, hload⟩
  · have haction : invocation.action ⟨directory.view, stamp, chance⟩ =
        .finish (.loadFailure message) := by
      rw [action, hload]
    rw [run_of_finish haction]
    exact .notLoaded fails (Output.prints_loadFailure message) rfl
  · have haction : invocation.action ⟨directory.view, stamp, chance⟩ =
        invocation.task.perform compiler ⟨directory.view, stamp, chance⟩ := by
      rw [action, hload]
    cases htask : invocation.task with
    | glyphs =>
      rw [htask] at haction
      rw [run_of_finish haction]
      exact .listed loads htask (Output.prints_glyphs compiler.table) rfl
    | validate text =>
      rw [htask] at haction
      rw [run_of_finish haction]
      exact .reported loads htask (Output.prints_report _ _ _) rfl
    | compile request target =>
      rw [htask] at haction
      cases target with
      | none => exact outcome_run_printed loads htask haction
      | some path => exact outcome_run_saved loads htask haction

/-! ## Agreement -/

theorem Loads.unique {compiler other : GlyphCompiler} (loads : invocation.Loads directory compiler)
    (others : invocation.Loads directory other) : compiler = other := by
  obtain ⟨table, settings⟩ := compiler
  obtain rfl := Except.ok.inj (loads.table.symm.trans others.table)
  obtain rfl := Except.ok.inj (loads.settings.symm.trans others.settings)
  rfl

theorem Fails.not_loads {message : String} {compiler : GlyphCompiler}
    (fails : invocation.Fails directory message) : ¬invocation.Loads directory compiler := by
  intro loads
  cases fails with
  | dictionary failed => cases failed.symm.trans loads.table
  | settings loaded failed => cases failed.symm.trans loads.settings

/-- The status for unusable texts depends on the files that are loaded and on the text alone. -/
theorem Outcome.status_eq_two_iff {result : Output × Directory}
    (outcome : invocation.Outcome directory stamp chance result) :
    result.1.status = 2 ↔ ∃ compiler text, invocation.Loads directory compiler ∧
      invocation.task.text? = some text ∧ (compiler.report text).isValid = false := by
  -- A text that can be used is none that cannot, since files load in one way only.
  have hvalid : ∀ {compiler text}, invocation.Loads directory compiler →
      invocation.task.text? = some text → (compiler.report text).isValid = true →
      ¬∃ compiler text, invocation.Loads directory compiler ∧
        invocation.task.text? = some text ∧ (compiler.report text).isValid = false := by
    rintro compiler text loads htext hvalid ⟨other, more, others, hmore, hinvalid⟩
    obtain rfl := loads.unique others
    obtain rfl := Option.some.inj (htext.symm.trans hmore)
    cases hvalid.symm.trans hinvalid
  cases outcome with
  | notLoaded fails prints status =>
    rw [status]
    refine ⟨nofun, ?_⟩
    rintro ⟨compiler, text, loads, -⟩
    exact absurd loads fails.not_loads
  | listed loads task prints status =>
    rw [status, task]
    refine ⟨nofun, ?_⟩
    rintro ⟨compiler, text, -, htext, -⟩
    cases htext
  | @reported compiler text output loads task prints status =>
    have htext : invocation.task.text? = some text := by rw [task]; rfl
    rw [status]
    cases hreport : (compiler.report text).isValid with
    | true => exact ⟨nofun, fun h => absurd h (hvalid loads htext hreport)⟩
    | false => exact ⟨fun _ => ⟨compiler, text, loads, htext, hreport⟩, fun _ => rfl⟩
  | unusable loads task invalid prints status =>
    exact ⟨fun _ => ⟨_, _, loads, by rw [task]; rfl, invalid⟩, fun _ => status⟩
  | printed loads task valid compiled describes stamped holds prints status =>
    rw [status]
    exact ⟨nofun, fun h => absurd h (hvalid loads (by rw [task]; rfl) valid)⟩
  | written loads task valid compiled delivers write wrote prints status =>
    rw [status]
    exact ⟨nofun, fun h => absurd h (hvalid loads (by rw [task]; rfl) valid)⟩
  | notWritten loads task valid compiled delivers write prints status =>
    rw [status]
    exact ⟨nofun, fun h => absurd h (hvalid loads (by rw [task]; rfl) valid)⟩
  | stopped loads task valid compiled lost silent status =>
    rw [status]
    exact ⟨nofun, fun h => absurd h (hvalid loads (by rw [task]; rfl) valid)⟩

/-- What is delivered does not overflow. -/
theorem not_overflows {compiler : GlyphCompiler} {request : CompileRequest}
    {target : Option String} {document : AnimationDocument}
    (loads : invocation.Loads directory compiler)
    (task : invocation.task = .compile request target)
    (compiled : compiler.compileRequest chance request = some document)
    (h : document.toLottie ≠ none) : ¬invocation.Overflows directory := by
  rintro ⟨other, more, place, others, htask, -, moves, longest⟩
  obtain rfl := loads.unique others
  cases task.symm.trans htask
  exact h ((toLottie_eq_none_iff_of_compileRequest compiled).mpr ⟨moves, longest⟩)

theorem not_overflows_of_task (h : ∀ request target, invocation.task ≠ .compile request target) :
    ¬invocation.Overflows directory := by
  rintro ⟨compiler, request, target, -, htask, -⟩
  exact h request target htask

/-- The status for overflows depends on the files, the text, and whether it moves. -/
theorem Outcome.status_eq_overflowed_iff {result : Output × Directory}
    (outcome : invocation.Outcome directory stamp chance result) :
    result.1.status = 101 ↔ invocation.Overflows directory := by
  cases outcome with
  | notLoaded fails prints status =>
    rw [status]
    refine ⟨nofun, ?_⟩
    rintro ⟨compiler, request, target, loads, -⟩
    exact absurd loads fails.not_loads
  | listed loads task prints status =>
    rw [status]
    exact ⟨nofun, fun h => absurd h (not_overflows_of_task (by rw [task]; exact nofun))⟩
  | @reported compiler text output loads task prints status =>
    rw [status]
    refine ⟨fun h => ?_, fun h => absurd h (not_overflows_of_task (by rw [task]; exact nofun))⟩
    split at h <;> cases h
  | unusable loads task invalid prints status =>
    rw [status]
    refine ⟨nofun, ?_⟩
    rintro ⟨other, more, place, others, htask, valid, -⟩
    obtain rfl := loads.unique others
    cases task.symm.trans htask
    cases valid.symm.trans invalid
  | printed loads task valid compiled describes stamped holds prints status =>
    rw [status]
    exact ⟨nofun, fun h => absurd h (not_overflows loads task compiled describes.toLottie_ne_none)⟩
  | written loads task valid compiled delivers write wrote prints status =>
    rw [status]
    exact ⟨nofun, fun h => absurd h (not_overflows loads task compiled delivers.toLottie_ne_none)⟩
  | notWritten loads task valid compiled delivers write prints status =>
    rw [status]
    exact ⟨nofun, fun h => absurd h (not_overflows loads task compiled delivers.toLottie_ne_none)⟩
  | stopped loads task valid compiled lost silent status =>
    obtain ⟨moves, longest⟩ := (toLottie_eq_none_iff_of_compileRequest compiled).mp lost
    exact ⟨fun _ => ⟨_, _, _, loads, task, valid, moves, longest⟩, fun _ => status⟩

/-- Arguments that are understood are carried out as they say, with one of the outcomes, and
nothing is said exactly if the opacity of a text runs past the last frame that a word counts.  All
invocations that load the same files agree on the texts that cannot be used, whatever they do with
a text and whatever flags and seeds they have. -/
theorem run_agrees {args : List String} {invocation : Invocation}
    (parsed : Invocation.parse args = .ok invocation) (directory : Directory) (stamp : Stamp)
    (chance : RandomSource) :
    AsksFor args invocation ∧
      invocation.Outcome directory stamp chance (invocation.run directory stamp chance) ∧
      ((invocation.run directory stamp chance).1.status = 101 ↔ invocation.Overflows directory) ∧
      ∀ other : Invocation, other.dictionary = invocation.dictionary →
        other.settings = invocation.settings → other.task.text? = invocation.task.text? →
        ∀ otherStamp otherChance,
          ((other.run directory otherStamp otherChance).1.status = 2 ↔
            (invocation.run directory stamp chance).1.status = 2) := by
  have houtcome := outcome_run invocation directory stamp chance
  refine ⟨asksFor_of_parse parsed, houtcome, houtcome.status_eq_overflowed_iff, ?_⟩
  intro other hdictionary hsettings htext otherStamp otherChance
  have hloads : ∀ compiler,
      other.Loads directory compiler ↔ invocation.Loads directory compiler := by
    intro compiler
    constructor
    · rintro ⟨htable, hload⟩
      exact ⟨hdictionary ▸ htable, hsettings ▸ hload⟩
    · rintro ⟨htable, hload⟩
      exact ⟨hdictionary ▸ htable, hsettings ▸ hload⟩
  rw [(outcome_run other directory otherStamp otherChance).status_eq_two_iff,
    houtcome.status_eq_two_iff, htext]
  simp only [hloads]

theorem isValid_01 (table : GlyphTable) : (report table "01").isValid = true :=
  isValid_of_code table (by decide +kernel : "01" ∈ Text.lines "01")
    (by decide +kernel : "01" ∈ Text.tokens "01") (by decide +kernel) (by decide +kernel)

theorem run_agrees_on_seeded_file :
    let args := ["-v", "compile", "-i01", "--seed", "7", "-o", "wave.tgs", "--static"]
    let request : CompileRequest := ⟨"01", ⟨false, true⟩, some 7⟩
    let invocation : Invocation := ⟨none, none, true, .compile request (some "wave.tgs")⟩
    let result := invocation.run ⟨[]⟩ ⟨"", ""⟩ (.ofSeed 0)
    Invocation.parse args = .ok invocation ∧ AsksFor args invocation ∧
      ∃ document value content,
        GlyphCompiler.compileRequest ⟨.builtin, .standard⟩ (.ofSeed 0) request = some document ∧
          document.toJson = some value ∧ result.2.view "wave.tgs" = .ok content ∧
            Payload.gunzip? content = some (textBytes value.compact) ∧ result.1.status = 0 ∧
              result.1.Prints (.object [("success", .bool true), ("path", .string "wave.tgs"),
                ("sizeBytes", .ofCount content.length)]) := by
  intro args request invocation result
  have parsed : Invocation.parse args = .ok invocation := by decide +kernel
  have loads : invocation.Loads ⟨[]⟩ ⟨.builtin, .standard⟩ := ⟨rfl, rfl⟩
  have usable : (report .builtin request.text).isValid = true := isValid_01 .builtin
  have writable : ∀ content, Directory.write ⟨[]⟩ "wave.tgs" content =
      .ok (Directory.put ⟨[]⟩ "wave.tgs" content) := fun _ => rfl
  obtain ⟨hasked, houtcome, -⟩ := run_agrees parsed ⟨[]⟩ ⟨"", ""⟩ (.ofSeed 0)
  refine ⟨parsed, hasked, ?_⟩
  -- The files load and the text can be used, so there is a document, and it is written.
  generalize hresult : invocation.run ⟨[]⟩ ⟨"", ""⟩ (.ofSeed 0) = ended at houtcome
  have hended : result = ended := hresult
  rw [hended]
  cases houtcome with
  | notLoaded fails prints status => exact absurd loads fails.not_loads
  | listed others task prints status => cases task
  | reported others task prints status => cases task
  | unusable others task invalid prints status =>
    cases task
    obtain rfl := loads.unique others
    cases usable.symm.trans invalid
  | printed others task valid compiled describes stamped holds prints status => cases task
  | written others task valid compiled delivers write wrote prints status =>
    cases task
    obtain rfl := loads.unique others
    obtain ⟨value, hvalue, hcontent⟩ := delivers
    exact ⟨_, value, _, compiled, hvalue, wrote.found, hcontent, status, prints⟩
  | notWritten others task valid compiled delivers write prints status =>
    cases task
    cases (writable _).symm.trans write
  | stopped others task valid compiled lost silent status =>
    cases task
    obtain ⟨moves, -⟩ := (toLottie_eq_none_iff_of_compileRequest compiled).mp lost
    cases moves

/-- With settings of all the frames that a word counts nothing is said of a text that can be used,
and no file is written for it. -/
theorem run_stops_on_longest_timeline :
    let args := ["-c", "far.json", "compile", "-i01", "--seed", "1", "-o", "01.json"]
    let request : CompileRequest := ⟨"01", .standard, some 1⟩
    let invocation : Invocation := ⟨none, some "far.json", false, .compile request (some "01.json")⟩
    let directory : Directory := ⟨[("far.json", textBytes "\x7b\"totalFrames\":4294967295\x7d")]⟩
    Invocation.parse args = .ok invocation ∧ (report .builtin request.text).isValid = true ∧
      ∀ stamp chance, ∃ output, invocation.run directory stamp chance = (output, directory) ∧
        output.text = "" ∧ output.status = 101 := by
  intro args request invocation directory
  have parsed : Invocation.parse args = .ok invocation := by decide +kernel
  have usable : (report .builtin request.text).isValid = true := isValid_01 .builtin
  have hfar : (loadSettings directory.view (some "far.json")).toOption.any
      (fun settings => settings.totalFrames = 4294967295) = true := by
    decide +kernel
  refine ⟨parsed, usable, fun stamp chance => ?_⟩
  cases hsettings : loadSettings directory.view (some "far.json") with
  | error message =>
    rw [hsettings] at hfar
    cases hfar
  | ok settings =>
    rw [hsettings] at hfar
    have hlongest : settings.totalFrames.toNat + 1 = 2 ^ 32 := by
      rw [of_decide_eq_true hfar]
      rfl
    have loads : invocation.Loads directory ⟨.builtin, settings⟩ := ⟨rfl, hsettings⟩
    have houtcome := outcome_run invocation directory stamp chance
    have hstatus := houtcome.status_eq_overflowed_iff.mpr
      ⟨_, _, _, loads, rfl, usable, rfl, hlongest⟩
    generalize invocation.run directory stamp chance = ended at houtcome hstatus ⊢
    cases houtcome with
    | notLoaded fails prints status => cases status.symm.trans hstatus
    | listed others task prints status => cases status.symm.trans hstatus
    | reported others task prints status => cases task
    | unusable others task invalid prints status => cases status.symm.trans hstatus
    | printed others task valid compiled describes stamped holds prints status =>
      cases status.symm.trans hstatus
    | written others task valid compiled delivers write wrote prints status =>
      cases status.symm.trans hstatus
    | notWritten others task valid compiled delivers write prints status =>
      cases status.symm.trans hstatus
    | stopped others task valid compiled lost silent status => exact ⟨_, rfl, silent, status⟩

end Invocation
end Command
end AnimatedGlyph
