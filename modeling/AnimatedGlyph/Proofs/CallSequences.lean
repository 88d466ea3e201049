/-
Calls that do not disturb each other.

A session makes any number of calls on one compiler.  What one call leaves behind for the next
is the place in the shared source and two counters, and only bare compilations look at the
source.  `Session.call_eq` says so of one call, and by induction the answers of a session are
those that its calls give by themselves, from the source that the compilations before have left.

`run_undisturbed` collects what follows of whole sessions: the counters are numbers of calls,
and a call that takes nothing from the shared source can be put anywhere, or taken away, without
a change to any other answer.
-/
import AnimatedGlyph.Proofs.Draws
import AnimatedGlyph.Proofs.EntryPoints
import AnimatedGlyph.Sticker.Session

namespace AnimatedGlyph

/-! ## Calls by themselves -/

namespace Call

/-- Whether the call compiles with the shared source. -/
def isBare : Call → Bool
  | .compile _ _ => true
  | _ => false

/-- Whether the call leaves nothing to chance: requests have a seed. -/
def isSeeded : Call → Bool
  | .request asked => asked.seed.isSome
  | .sticker _ asked => asked.seed.isSome
  | _ => true

/-- The text that the call is about, if it is about one. -/
def text? : Call → Option String
  | .compile text _ => some text
  | .request asked => some asked.text
  | .sticker _ asked => some asked.text
  | .validate text => some text
  | .settings => none
  | .glyph _ => none

/-- The number of words that the call takes from the shared source. -/
def draws (compiler : GlyphCompiler) : Call → Nat
  | .compile text _ => 2 * compiler.revisitCount text
  | _ => 0

/-- The number of words that calls take from the shared source. -/
def drawn (compiler : GlyphCompiler) : List Call → Nat
  | [] => 0
  | call :: rest => call.draws compiler + drawn compiler rest

theorem drawn_cons (compiler : GlyphCompiler) (call : Call) (rest : List Call) :
    drawn compiler (call :: rest) = call.draws compiler + drawn compiler rest := rfl

/-- Only a text that is compiled, and that comes back to one of its points, takes words from
the shared source. -/
theorem draws_eq_zero {compiler : GlyphCompiler} {call : Call}
    (h : ∀ text options, call = .compile text options → (compiler.report text).isValid = true →
      compiler.revisitCount text = 0) : call.draws compiler = 0 := by
  cases call with
  | compile text options =>
    have hcount : compiler.revisitCount text = 0 := by
      cases hvalid : (compiler.report text).isValid with
      | true => exact h text options rfl hvalid
      | false =>
        rw [GlyphCompiler.report, isValid_report, Bool.not_eq_false'] at hvalid
        exact GlyphCompiler.revisitCount_of_none hvalid
    rw [draws, hcount]
  | _ => rfl

end Call

namespace Answer

/-- Whether a document was made for the answer, be it one that has no Lottie form. -/
def isMade : Answer → Bool
  | .document found => found.isSome
  | .sticker none => true
  | .sticker (some found) => found.isSome
  | _ => false

/-- The answer is the document or a sticker of it, which there is if it has a Lottie form. -/
def Shows (answer : Answer) (shown : AnimationDocument) : Prop :=
  match answer with
  | .document found => found = some shown
  | .sticker none => shown.toLottie = none
  | .sticker (some found) => ∃ made, found = some made ∧ shown.payload = some made.payload ∧
      shown.hash = some made.documentHash
  | _ => False

end Answer

namespace GlyphCompiler

/-- The answer to a call by itself. -/
def answer (compiler : GlyphCompiler) (chance source : RandomSource) : Call → Answer
  | .compile text options => .document (compiler.compile options text source).1
  | .request asked => .document (compiler.compileRequest chance asked)
  | .sticker stamp asked => .sticker (compiler.compileSticker stamp chance asked)
  | .validate text => .report (compiler.report text)
  | .settings => .settings compiler.settings
  | .glyph name => .glyph (compiler.table.get? name)

/-- The answers to calls, each from the source that those before it have left. -/
def answers (compiler : GlyphCompiler) (chance : RandomSource) : RandomSource → List Call →
    List Answer
  | _, [] => []
  | source, call :: rest =>
    compiler.answer chance source call ::
      compiler.answers chance (source.skip (call.draws compiler)) rest

theorem answer_of_not_isBare {compiler : GlyphCompiler} {call : Call} (h : call.isBare = false)
    (chance source elsewhere : RandomSource) :
    compiler.answer chance source call = compiler.answer chance elsewhere call := by
  cases call with
  | compile text options => cases h
  | _ => rfl

theorem answer_of_isSeeded {compiler : GlyphCompiler} {call : Call} (h : call.isSeeded = true)
    (chance other source : RandomSource) :
    compiler.answer chance source call = compiler.answer other source call := by
  have hrequest : ∀ request : CompileRequest, request.seed.isSome = true →
      compiler.compileRequest chance request = compiler.compileRequest other request := by
    intro request hseed
    obtain ⟨seed, hseed⟩ := Option.isSome_iff_exists.mp hseed
    rw [compileRequest_eq, compileRequest_eq, sourceOf, sourceOf, hseed]
  cases call with
  | request asked => exact congrArg Answer.document (hrequest asked h)
  | sticker stamp asked =>
    rw [answer, answer, compileSticker, compileSticker, compileChecked_eq, compileChecked_eq,
      hrequest asked h]
  | _ => rfl

theorem shows_sticker {compiler : GlyphCompiler} {stamp : Stamp} {chance : RandomSource}
    {request : CompileRequest} {document : AnimationDocument}
    (hdocument : compiler.compileRequest chance request = some document) :
    (Answer.sticker (compiler.compileSticker stamp chance request)).Shows document := by
  rw [compileSticker_of_some stamp hdocument]
  cases hsticker : Sticker.ofDocument stamp request (compiler.report request.text) document with
  | none => exact Sticker.ofDocument_eq_none_iff.mp hsticker
  | some sticker =>
    obtain ⟨animation, hanimation, rfl⟩ := Sticker.ofDocument_eq_some_iff.mp hsticker
    refine ⟨_, rfl, ?_, ?_⟩
    · rw [AnimationDocument.payload, AnimationDocument.text, AnimationDocument.toJson, hanimation]
      rfl
    · rw [AnimationDocument.hash, AnimationDocument.toJson, hanimation]
      rfl

theorem isMade_sticker (compiler : GlyphCompiler) (stamp : Stamp) (chance : RandomSource)
    (request : CompileRequest) :
    (Answer.sticker (compiler.compileSticker stamp chance request)).isMade =
      (compiler.compileRequest chance request).isSome := by
  cases hrequest : compiler.compileRequest chance request with
  | none =>
    rw [compileSticker_of_none stamp hrequest]
    rfl
  | some document =>
    rw [compileSticker_of_some stamp hrequest]
    cases Sticker.ofDocument stamp request (compiler.report request.text) document <;> rfl

/-- The grid of a document lies where the number of its own lines puts it. -/
theorem grid_mem_compile {compiler : GlyphCompiler} {options : CompileOptions} {text : String}
    {source : RandomSource} {document : AnimationDocument}
    (h : (compiler.compile options text source).1 = some document) :
    .grid (project (compiler.settings.canvas.forLineCount (Text.lines text).length))
      compiler.settings.totalFrames ∈ document.layers := by
  obtain ⟨-, rfl⟩ := compile_eq_some_iff.mp h
  rw [← compiler.table.length_glyphLines]
  exact List.mem_append_right _ List.mem_cons_self

theorem shows_answer {compiler : GlyphCompiler} {chance source : RandomSource} {call : Call}
    {text : String} (htext : call.text? = some text)
    (hmade : (compiler.answer chance source call).isMade = true) :
    ∃ document, (compiler.answer chance source call).Shows document ∧
      .grid (project (compiler.settings.canvas.forLineCount (Text.lines text).length))
        compiler.settings.totalFrames ∈ document.layers := by
  have hrequest : ∀ request document, compiler.compileRequest chance request = some document →
      .grid (project (compiler.settings.canvas.forLineCount (Text.lines request.text).length))
        compiler.settings.totalFrames ∈ document.layers := by
    intro request document hdocument
    rw [compileRequest_eq] at hdocument
    exact grid_mem_compile hdocument
  cases call with
  | compile _ options =>
    cases htext
    obtain ⟨document, hdocument⟩ := Option.isSome_iff_exists.mp hmade
    exact ⟨document, hdocument, grid_mem_compile hdocument⟩
  | request asked =>
    cases htext
    obtain ⟨document, hdocument⟩ := Option.isSome_iff_exists.mp hmade
    exact ⟨document, hdocument, hrequest asked document hdocument⟩
  | sticker stamp asked =>
    cases htext
    obtain ⟨document, hdocument⟩ :=
      Option.isSome_iff_exists.mp ((isMade_sticker compiler stamp chance asked).symm.trans hmade)
    exact ⟨document, shows_sticker hdocument, hrequest asked document hdocument⟩
  | validate _ => cases hmade
  | settings => cases htext
  | glyph _ => cases htext

/-! ## Answers to calls in a row -/

theorem length_answers (compiler : GlyphCompiler) (chance : RandomSource) (calls : List Call) :
    ∀ source, (compiler.answers chance source calls).length = calls.length := by
  induction calls with
  | nil => intro source; rfl
  | cons call rest ih =>
    intro source
    rw [answers, List.length_cons, ih, List.length_cons]

theorem getElem?_answers (compiler : GlyphCompiler) (chance : RandomSource) (calls : List Call) :
    ∀ (source : RandomSource) (i : Nat),
      (compiler.answers chance source calls)[i]? = calls[i]?.map
        (compiler.answer chance (source.skip (Call.drawn compiler (calls.take i)))) := by
  induction calls with
  | nil => intro source i; rfl
  | cons call rest ih =>
    intro source i
    cases i with
    | zero => rfl
    | succ i =>
      rw [answers, List.getElem?_cons_succ, ih, RandomSource.skip_skip, List.getElem?_cons_succ,
        List.take_succ_cons, Call.drawn_cons]

theorem take_answers (compiler : GlyphCompiler) (chance : RandomSource) (calls : List Call) :
    ∀ (source : RandomSource) (i : Nat),
      (compiler.answers chance source calls).take i =
        compiler.answers chance source (calls.take i) := by
  induction calls with
  | nil =>
    intro source i
    rw [answers, List.take_nil, List.take_nil, answers]
  | cons call rest ih =>
    intro source i
    cases i with
    | zero => rfl
    | succ i => rw [answers, List.take_succ_cons, ih, List.take_succ_cons, answers]

/-- A call that takes nothing from the shared source has an answer of its own and changes no
other, wherever it is put. -/
theorem answers_insertIdx {compiler : GlyphCompiler} {call : Call}
    (h : call.draws compiler = 0) (chance : RandomSource) (calls : List Call) :
    ∀ (source : RandomSource) (i : Nat),
      compiler.answers chance source (calls.insertIdx i call) =
        (compiler.answers chance source calls).insertIdx i
          (compiler.answer chance (source.skip (Call.drawn compiler (calls.take i))) call) := by
  induction calls with
  | nil =>
    intro source i
    cases i <;> rfl
  | cons first rest ih =>
    intro source i
    cases i with
    | zero =>
      -- The next call finds the source where the new one found it.
      rw [List.insertIdx_zero, List.insertIdx_zero, answers, h]
      rfl
    | succ i =>
      rw [List.insertIdx_succ_cons, answers, answers, ih, RandomSource.skip_skip,
        List.insertIdx_succ_cons, List.take_succ_cons, Call.drawn_cons]

end GlyphCompiler

/-! ## Sessions -/

namespace Session

theorem compile_eq (session : Session) (options : CompileOptions) (text : String) :
    session.compile options text =
      let answer := session.compiler.compile options text session.source
      (answer.1, { session with
        source := answer.2
        validations := session.validations + 1
        projections := session.projections + if answer.1.isSome then 1 else 0 }) := by
  rw [compile, GlyphCompiler.compile, validate]
  dsimp only
  -- The layout in which the document has its nodes is new and counts one projection.
  cases (session.compiler.report text).isValid with
  | true => rfl
  | false => simp

theorem compileChecked_eq (session : Session) (request : CompileRequest) :
    session.compileChecked request =
      let checked := session.compiler.compileChecked session.chance request
      (checked, { session with
        validations := session.validations + 1
        projections := session.projections + if checked.isSome then 1 else 0 }) := by
  rw [compileChecked, GlyphCompiler.compileChecked, validate]
  dsimp only
  cases (session.compiler.report request.text).isValid with
  | true => rfl
  | false => simp

/-- What a call leaves behind. -/
theorem call_eq (session : Session) (call : Call) :
    session.call call =
      let answer := session.compiler.answer session.chance session.source call
      (answer, { session with
        source := session.source.skip (call.draws session.compiler)
        validations := session.validations + if call.text?.isSome then 1 else 0
        projections := session.projections + if answer.isMade then 1 else 0 }) := by
  cases call with
  | compile text options =>
    simp only [Session.call, compile_eq, GlyphCompiler.source_compile]
    rfl
  | request asked =>
    -- The session counts what `compileChecked` makes, and the answer is a part of that.
    have hmade : (session.compiler.answer session.chance session.source (.request asked)).isMade =
        (session.compiler.compileChecked session.chance asked).isSome := Option.isSome_map
    simp only [Session.call, compileChecked_eq, hmade]
    rfl
  | sticker stamp asked =>
    have hmade : (session.compiler.answer session.chance session.source
        (.sticker stamp asked)).isMade =
        (session.compiler.compileChecked session.chance asked).isSome :=
      (GlyphCompiler.isMade_sticker _ stamp _ asked).trans Option.isSome_map
    simp only [Session.call, compileChecked_eq, hmade]
    rfl
  | validate text =>
    simp [Session.call, validate, GlyphCompiler.answer, Answer.isMade, Call.text?, Call.draws,
      RandomSource.skip_zero]
  | settings =>
    simp [Session.call, GlyphCompiler.answer, Answer.isMade, Call.text?, Call.draws,
      RandomSource.skip_zero]
  | glyph name =>
    simp [Session.call, GlyphCompiler.answer, Answer.isMade, Call.text?, Call.draws,
      RandomSource.skip_zero]

/-- A counter that goes on one by one goes on by their number. -/
theorem add_one_if (counter : UInt32) (counts : Bool) (n : Nat) :
    counter + (if counts then 1 else 0) + .ofNat n =
      counter + .ofNat (n + if counts then 1 else 0) := by
  rw [UInt32.ofNat_add, UInt32.add_assoc, UInt32.add_comm (.ofNat n)]
  cases counts <;> rfl

theorem run_eq (calls : List Call) :
    ∀ session : Session,
      let answers := session.compiler.answers session.chance session.source calls
      session.run calls = (answers, { session with
        source := session.source.skip (Call.drawn session.compiler calls)
        validations := session.validations + .ofNat (calls.countP fun call => call.text?.isSome)
        projections := session.projections + .ofNat (answers.countP Answer.isMade) }) := by
  induction calls with
  | nil =>
    intro session
    simp [run, GlyphCompiler.answers, Call.drawn, RandomSource.skip_zero]
  | cons call rest ih =>
    intro session
    rw [run, call_eq]
    simp only [ih, GlyphCompiler.answers, Call.drawn_cons, RandomSource.skip_skip,
      List.countP_cons, add_one_if]

/-- The answers of a session are those of its calls by themselves.  A bare compilation depends
on how many words those before it have taken from the shared source, and no other call depends
on anything but itself: all grids lie where the settings put them.  At every point the counters
are the number of calls so far that have a text and the number of those that a document was made
for, as far as 32 bits hold them.  A call other than the compilation of a valid text with revisits
can be put between any two calls, or taken away from there, and all other answers stay the same. -/
theorem run_undisturbed (compiler : GlyphCompiler) (source chance : RandomSource)
    {calls : List Call} (seeded : ∀ call ∈ calls, call.isSeeded = true) :
    let start := Session.begin compiler source chance
    let answers := (start.run calls).1
    answers.length = calls.length ∧
      (∀ (i : Nat) call, calls[i]? = some call → ∀ other, answers[i]? = some
        (compiler.answer other (source.skip (Call.drawn compiler (calls.take i))) call)) ∧
      (∀ (i : Nat) call, calls[i]? = some call → call.isBare = false → ∀ other elsewhere,
        answers[i]? = some (compiler.answer other elsewhere call)) ∧
      (∀ (i : Nat) text answer, calls[i]?.bind Call.text? = some text →
        answers[i]? = some answer → answer.isMade = true →
          ∃ document, answer.Shows document ∧
            Layer.grid (project (compiler.settings.canvas.forLineCount (Text.lines text).length))
              compiler.settings.totalFrames ∈ document.layers) ∧
      (∀ i, let session := (start.run (calls.take i)).2
        session.compiler = compiler ∧
          session.source = source.skip (Call.drawn compiler (calls.take i)) ∧
          session.validations.toNat =
            (calls.take i).countP (fun call => call.text?.isSome) % 2 ^ 32 ∧
          session.projections.toNat = (answers.take i).countP Answer.isMade % 2 ^ 32) ∧
      ∀ i call, call.isSeeded = true →
        (∀ text options, call = .compile text options → (compiler.report text).isValid = true →
          compiler.revisitCount text = 0) →
        ∀ other, (start.run (calls.insertIdx i call)).1 = answers.insertIdx i
          (compiler.answer other (source.skip (Call.drawn compiler (calls.take i))) call) := by
  intro start answers
  have hanswers : answers = compiler.answers chance source calls :=
    congrArg Prod.fst (run_eq calls start)
  have hcalls : ∀ (i : Nat) call, calls[i]? = some call → ∀ other, answers[i]? = some
      (compiler.answer other (source.skip (Call.drawn compiler (calls.take i))) call) := by
    intro i call hcall other
    have hseeded := seeded call (List.mem_of_getElem? hcall)
    rw [hanswers, GlyphCompiler.getElem?_answers, hcall, Option.map_some,
      GlyphCompiler.answer_of_isSeeded hseeded chance other]
  refine ⟨?_, hcalls, ?_, ?_, ?_, ?_⟩
  · rw [hanswers, GlyphCompiler.length_answers]
  · intro i call hcall hbare other elsewhere
    rw [hcalls i call hcall other, GlyphCompiler.answer_of_not_isBare hbare other _ elsewhere]
  · intro i text answer htext hanswer hmade
    obtain ⟨call, hcall, htext⟩ := Option.bind_eq_some_iff.mp htext
    rw [hcalls i call hcall chance] at hanswer
    cases hanswer
    exact GlyphCompiler.shows_answer htext hmade
  · intro i session
    have hsession : session = _ := congrArg Prod.snd (run_eq (calls.take i) start)
    rw [hanswers, GlyphCompiler.take_answers, hsession]
    refine ⟨rfl, rfl, ?_, ?_⟩
    · show (0 + UInt32.ofNat _).toNat = _
      rw [UInt32.zero_add, UInt32.toNat_ofNat']
    · show (0 + UInt32.ofNat _).toNat = _
      rw [UInt32.zero_add, UInt32.toNat_ofNat']
      rfl
  · intro i call hseeded hquiet other
    have hinserted := congrArg Prod.fst (run_eq (calls.insertIdx i call) start)
    have hdraws := Call.draws_eq_zero hquiet
    rw [hinserted, hanswers, ← GlyphCompiler.answer_of_isSeeded hseeded chance other]
    exact GlyphCompiler.answers_insertIdx hdraws chance calls source i

/-- A compilation that draws, one that is refused and a request, with and without a compilation
that does not draw in front of them. -/
theorem run_undisturbed_by_straight_word :
    let compiler : GlyphCompiler := ⟨.empty, .standard⟩
    let calls : List Call := [.compile "010" .standard, .compile "zz" .standard,
      .request ⟨"0101", .standard, some 7⟩, .validate "01", .settings]
    let start := Session.begin compiler (.ofSeed 1) (.ofSeed 0)
    let last := (start.run (calls.take 5)).2
    (∀ call ∈ calls, call.isSeeded = true) ∧
      last.source = (RandomSource.ofSeed 1).skip 2 ∧ last.validations.toNat = 4 ∧
      (start.run calls).1[2]? =
        some (compiler.answer (.ofSeed 2) (.ofSeed 3) (.request ⟨"0101", .standard, some 7⟩)) ∧
      (start.run (calls.insertIdx 0 (.compile "01" .standard))).1.tail = (start.run calls).1 := by
  intro compiler calls start last
  have seeded : ∀ call ∈ calls, call.isSeeded = true := by decide
  have hdrawn : Call.drawn compiler (calls.take 5) = 2 := by decide +kernel
  have hstraight : compiler.revisitCount "01" = 0 := by decide +kernel
  obtain ⟨-, -, hrequest, -, hcounts, hinsert⟩ :=
    run_undisturbed compiler (.ofSeed 1) (.ofSeed 0) seeded
  obtain ⟨-, hsource, hvalidations, -⟩ := hcounts 5
  refine ⟨seeded, ?_, hvalidations, hrequest 2 _ rfl rfl _ _, ?_⟩
  · rw [hsource, hdrawn]
  · rw [hinsert 0 (.compile "01" .standard) rfl ?_ (.ofSeed 0)]
    · rfl
    · rintro text options ⟨⟩ -
      exact hstraight

end Session
end AnimatedGlyph
