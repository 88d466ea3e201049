/-
What the arguments of a command line give.

`Gives` says how options stand in arguments, without a word on how they are read.  Reading follows
it: `gives_of_readOptions` says of arguments that are understood which options they give, each
of them once, and where the options end.  What is asked for is made of these options, and
`asksFor_of_parse` says how.
-/
import Mathlib.Data.List.Nodup
import AnimatedGlyph.Command.Invocation
import AnimatedGlyph.Proofs.Lookup

namespace AnimatedGlyph
namespace Command

/-! ## Options in arguments -/

def OptionSpec.Takes (spec : OptionSpec) (value : String) : Prop :=
  ∃ accepts, spec.accepts = some accepts ∧ accepts value = true

/-- An option takes no value and does not ask for help. -/
def OptionSpec.IsFlag (spec : OptionSpec) : Prop :=
  spec.accepts = none ∧ spec.name ≠ OptionSpec.help.name

/-- A value that can be given with an option, an empty one if the option takes none. -/
def OptionSpec.Allows (spec : OptionSpec) (value : String) : Prop :=
  spec.accepts = none ∧ value = "" ∨ spec.Takes value

/-- Letters after one hyphen: the options they give, and the one that waits for its value. -/
inductive Letters (specs : List OptionSpec) : List Char → Given → Option OptionSpec → Prop
  | nil : Letters specs [] [] none
  | flag {spec : OptionSpec} {c : Char} {cs : List Char} {given : Given}
    {waiting : Option OptionSpec} (mem : spec ∈ specs) (letter : spec.letter = some c)
    (flag : spec.IsFlag) (rest : Letters specs cs given waiting) :
    Letters specs (c :: cs) ((spec.name, "") :: given) waiting
  | waiting {spec : OptionSpec} {c : Char} (mem : spec ∈ specs) (letter : spec.letter = some c)
    (valued : spec.accepts ≠ none) : Letters specs [c] [] (some spec)
  | equals {spec : OptionSpec} {c : Char} {value : String} (mem : spec ∈ specs)
    (letter : spec.letter = some c) (takes : spec.Takes value) :
    Letters specs (c :: '=' :: value.toList) [(spec.name, value)] none
  | joined {spec : OptionSpec} {c : Char} {value : String} (mem : spec ∈ specs)
    (letter : spec.letter = some c) (takes : spec.Takes value) (nonempty : value ≠ "")
    (plain : value.toList.head? ≠ some '=') :
    Letters specs (c :: value.toList) [(spec.name, value)] none

/-- An argument with hyphens in front: the options it gives, and the one that waits for its
value. -/
inductive Word (specs : List OptionSpec) : List Char → Given → Option OptionSpec → Prop
  | flag {spec : OptionSpec} (mem : spec ∈ specs) (flag : spec.IsFlag) :
    Word specs ('-' :: '-' :: spec.name.toList) [(spec.name, "")] none
  | waiting {spec : OptionSpec} (mem : spec ∈ specs) (valued : spec.accepts ≠ none) :
    Word specs ('-' :: '-' :: spec.name.toList) [] (some spec)
  | equals {spec : OptionSpec} {value : String} (mem : spec ∈ specs) (takes : spec.Takes value) :
    Word specs ('-' :: '-' :: (spec.name.toList ++ '=' :: value.toList)) [(spec.name, value)] none
  | letters {c : Char} {cs : List Char} {given : Given} {waiting : Option OptionSpec}
    (letters : Letters specs (c :: cs) given waiting) : Word specs ('-' :: c :: cs) given waiting

/-- Arguments give options, in this order.  A value in an argument of its own starts with no
hyphen, unless it is nothing else. -/
inductive Gives (specs : List OptionSpec) : List String → Given → Prop
  | nil : Gives specs [] []
  | word {arg : String} {args : List String} {given more : Given}
    (word : Word specs arg.toList given none) (rest : Gives specs args more) :
    Gives specs (arg :: args) (given ++ more)
  | wordAndValue {arg value : String} {args : List String} {given more : Given}
    {spec : OptionSpec} (word : Word specs arg.toList given (some spec))
    (apart : startsOption value = false) (takes : spec.Takes value)
    (rest : Gives specs args more) :
    Gives specs (arg :: value :: args) (given ++ (spec.name, value) :: more)

/-- The options end with the arguments, at two hyphens on their own, or at a command. -/
inductive Closes (commands : List String) :
    List String → Option (String × List String) → Prop
  | arguments : Closes commands [] none
  | hyphens : Closes commands ["--"] none
  | command {name : String} {args : List String} (mem : name ∈ commands) :
    Closes commands (name :: args) (some (name, args))

/-! ## Adding options -/

/-- Options are added to others in their order, none of them twice. -/
structure Adds (before more after : Given) : Prop where
  eq : after = more.reverse ++ before
  distinct : (before.map Prod.fst).Nodup → (after.map Prod.fst).Nodup

theorem Adds.nil (given : Given) : Adds given [] given :=
  ⟨rfl, id⟩

theorem Adds.trans {first second third more other : Given} (h : Adds first more second)
    (h' : Adds second other third) : Adds first (more ++ other) third where
  eq := by rw [h'.eq, h.eq, List.reverse_append, List.append_assoc]
  distinct hfirst := h'.distinct (h.distinct hfirst)

theorem Adds.cons {given : Given} {entry : String × String}
    (h : ¬Given.has given entry.1 = true) : Adds given [entry] (entry :: given) where
  eq := rfl
  distinct hgiven := by
    refine List.nodup_cons.mpr ⟨fun hmem => h ?_, hgiven⟩
    obtain ⟨value, hvalue⟩ := exists_lookup hmem
    rw [Given.has, hvalue]
    rfl

variable {specs : List OptionSpec} {commands : List String} {spec : OptionSpec}

theorem addValue_ok {value : String} {given after : Given}
    (h : addValue spec value given = .ok after) :
    spec.Takes value ∧ Adds given [(spec.name, value)] after := by
  rw [addValue] at h
  split at h
  · cases h
  · rename_i accepts haccepts
    split at h
    · cases h
    · rename_i hfresh
      split at h
      · rename_i haccepted
        obtain rfl := Except.ok.inj h
        exact ⟨⟨accepts, haccepts, haccepted⟩, .cons hfresh⟩
      · cases h

theorem addFlag_ok {given after : Given} (h : addFlag spec given = .ok after) :
    spec.name ≠ OptionSpec.help.name ∧ Adds given [(spec.name, "")] after := by
  rw [addFlag] at h
  split at h
  · cases h
  · rename_i hother
    split at h
    · cases h
    · rename_i hfresh
      obtain rfl := Except.ok.inj h
      exact ⟨hother, .cons hfresh⟩

/-! ## Reading arguments -/

/-- What is waited for after an argument. -/
def awaitedOf : Option OptionSpec → Awaited
  | none => .option none
  | some spec => .value spec

/-- Reading an argument has added options and has met an option that waits for its value. -/
structure Progress.Follows (progress : Progress) (given more : Given)
    (waiting : Option OptionSpec) : Prop where
  adds : Adds given more progress.given
  awaited : progress.awaited = awaitedOf waiting

theorem find_letter {c : Char} (h : specs.find? (fun spec => spec.letter == some c) = some spec) :
    spec ∈ specs ∧ spec.letter = some c :=
  ⟨List.mem_of_find?_eq_some h, beq_iff_eq.mp (List.find?_eq_some_iff_append.mp h).1⟩

theorem find_name {name : String} (h : specs.find? (fun spec => spec.name == name) = some spec) :
    spec ∈ specs ∧ spec.name = name :=
  ⟨List.mem_of_find?_eq_some h, beq_iff_eq.mp (List.find?_eq_some_iff_append.mp h).1⟩

theorem map_complete_ok {added : Except Halt Given} {progress : Progress}
    (h : added.map .complete = .ok progress) :
    ∃ after, added = .ok after ∧ progress = .complete after := by
  cases added with
  | error halt => cases h
  | ok after => exact ⟨after, rfl, (Except.ok.inj h).symm⟩

theorem bind_ok {α β : Type} {work : Except Halt α} {next : α → Except Halt β} {made : β}
    (h : work >>= next = .ok made) : ∃ answer, work = .ok answer ∧ next answer = .ok made := by
  cases work with
  | error halt => cases h
  | ok answer => exact ⟨answer, rfl, h⟩

theorem follows_of_readLetters {progress : Progress} : ∀ {cs : List Char} {given : Given},
    readLetters specs cs given = .ok progress →
      ∃ more waiting, Letters specs cs more waiting ∧ progress.Follows given more waiting := by
  intro cs
  induction cs with
  | nil =>
    intro given h
    obtain rfl := Except.ok.inj h
    exact ⟨[], none, .nil, .nil given, rfl⟩
  | cons c rest ih =>
    intro given h
    rw [readLetters] at h
    split at h
    · cases h
    · rename_i spec hfind
      obtain ⟨hmem, hletter⟩ := find_letter hfind
      split at h
      · rename_i hflag
        obtain ⟨after, hadded, h⟩ := bind_ok h
        obtain ⟨hother, hfirst⟩ := addFlag_ok hadded
        obtain ⟨more, waiting, hletters, hadds, hawaited⟩ := ih h
        have hisFlag : spec.IsFlag := ⟨Option.isNone_iff_eq_none.mp hflag, hother⟩
        exact ⟨_, waiting, .flag hmem hletter hisFlag hletters, hfirst.trans hadds, hawaited⟩
      · rename_i hvalued
        split at h
        · obtain rfl := Except.ok.inj h
          exact ⟨[], some spec, .waiting hmem hletter (mt Option.isNone_iff_eq_none.mpr hvalued),
            .nil given, rfl⟩
        · rename_i value
          obtain ⟨after, hadded, rfl⟩ := map_complete_ok h
          obtain ⟨htakes, hadds⟩ := addValue_ok hadded
          have hletters := Letters.equals hmem hletter htakes
          rw [String.toList_ofList] at hletters
          exact ⟨_, none, hletters, hadds, rfl⟩
        · rename_i hne hplain
          obtain ⟨after, hadded, rfl⟩ := map_complete_ok h
          obtain ⟨htakes, hadds⟩ := addValue_ok hadded
          have htext : (String.ofList rest).toList = rest := String.toList_ofList
          have hnonempty : String.ofList rest ≠ "" := by
            intro hempty
            rw [hempty] at htext
            exact hne htext.symm
          have hhead : (String.ofList rest).toList.head? ≠ some '=' := by
            intro hhead
            rw [htext] at hhead
            obtain ⟨tail, htail⟩ := List.head?_eq_some_iff.mp hhead
            exact hplain tail htail
          have hletters := Letters.joined hmem hletter htakes hnonempty hhead
          rw [htext] at hletters
          exact ⟨_, none, hletters, hadds, rfl⟩

theorem follows_of_readName {cs : List Char} {given : Given} {progress : Progress}
    (h : readName specs cs given = .ok progress) :
    ∃ more waiting, Word specs ('-' :: '-' :: cs) more waiting ∧
      progress.Follows given more waiting := by
  rw [readName] at h
  have hsplit : cs.takeWhile (· != '=') ++ cs.dropWhile (· != '=') = cs :=
    List.takeWhile_append_dropWhile
  have hstop : ∀ c rest, cs.dropWhile (· != '=') = c :: rest → c = '=' := by
    intro c rest hrest
    have hhead := List.head?_dropWhile_not (· != '=') cs
    rw [hrest] at hhead
    simpa using hhead
  split at h
  · cases h
  · rename_i spec hfind
    obtain ⟨hmem, hname⟩ := find_name hfind
    have hchars : spec.name.toList = cs.takeWhile (· != '=') := by
      rw [hname, String.toList_ofList]
    split at h
    · rename_i c value hrest
      obtain ⟨after, hadded, rfl⟩ := map_complete_ok h
      obtain ⟨htakes, hadds⟩ := addValue_ok hadded
      obtain rfl := hstop c value hrest
      have hword := Word.equals hmem htakes
      rw [String.toList_ofList, hchars, ← hrest, hsplit] at hword
      exact ⟨_, none, hword, hadds, rfl⟩
    · rename_i hrest hflag
      obtain ⟨after, hadded, rfl⟩ := map_complete_ok h
      obtain ⟨hother, hadds⟩ := addFlag_ok hadded
      have hword := Word.flag hmem ⟨hflag, hother⟩
      rw [hrest, List.append_nil] at hsplit
      rw [hchars, hsplit] at hword
      exact ⟨_, none, hword, hadds, rfl⟩
    · rename_i accepts hrest hvalued
      obtain rfl := Except.ok.inj h
      have hword := Word.waiting hmem (by rw [hvalued]; exact Option.some_ne_none accepts)
      rw [hrest, List.append_nil] at hsplit
      rw [hchars, hsplit] at hword
      exact ⟨_, some spec, hword, .nil given, rfl⟩

theorem follows_of_readArgument {arg : String} {given : Given} {progress : Progress}
    (h : readArgument specs arg given = .ok progress) :
    ∃ more waiting, Word specs arg.toList more waiting ∧ progress.Follows given more waiting := by
  rw [readArgument] at h
  split at h
  · rename_i hchars
    rw [hchars]
    exact follows_of_readName h
  · rename_i hchars
    obtain ⟨more, waiting, hletters, hfollows⟩ := follows_of_readLetters h
    rw [hchars]
    exact ⟨more, waiting, .letters hletters, hfollows⟩
  · cases h

/-! ## Reading to the end -/

/-- From options that are complete, arguments lead to all options of a reading. -/
def Concludes (specs : List OptionSpec) (commands : List String) (reading : Reading)
    (final given : Given) (args : List String) : Prop :=
  ∃ front rest more, args = front ++ rest ∧ Gives specs front more ∧
    Closes commands rest reading.command ∧ Adds given more final

/-- The same from what has been read, which may wait for a value or still hold one. -/
inductive Continues (specs : List OptionSpec) (commands : List String) (reading : Reading)
    (final : Given) : Progress → List String → Prop
  | option {given settled : Given} {held : Option HeldValue} {args : List String}
    (settles : settleHeld held given = .ok settled)
    (concludes : Concludes specs commands reading final settled args) :
    Continues specs commands reading final ⟨given, .option held⟩ args
  | value {given settled : Given} {spec : OptionSpec} {value : String} {args : List String}
    (apart : startsOption value = false) (adds : addValue spec value given = .ok settled)
    (concludes : Concludes specs commands reading final settled args) :
    Continues specs commands reading final ⟨given, .value spec⟩ (value :: args)

theorem concludes_closed {reading : Reading} {final : Given} {args : List String}
    (h : Closes commands args reading.command) :
    Concludes specs commands reading final final args :=
  ⟨[], args, [], rfl, .nil, h, .nil final⟩

/-- An argument goes before what continues from the options it gives. -/
theorem Continues.concludes {reading : Reading} {final given more : Given} {progress : Progress}
    {arg : String} {args : List String} {waiting : Option OptionSpec}
    (continues : Continues specs commands reading final progress args)
    (word : Word specs arg.toList more waiting) (follows : progress.Follows given more waiting) :
    Concludes specs commands reading final given (arg :: args) := by
  obtain ⟨hadds, hawaited⟩ := follows
  cases continues with
  | option settles concludes =>
    obtain ⟨front, rest, others, rfl, hgives, hcloses, hothers⟩ := concludes
    cases waiting with
    | some spec => cases hawaited
    | none =>
      cases hawaited
      obtain rfl := Except.ok.inj settles
      exact ⟨arg :: front, rest, more ++ others, rfl, .word word hgives, hcloses,
        hadds.trans hothers⟩
  | value apart adds concludes =>
    obtain ⟨front, rest, others, rfl, hgives, hcloses, hothers⟩ := concludes
    cases waiting with
    | none => cases hawaited
    | some spec =>
      cases hawaited
      obtain ⟨htakes, hvalue⟩ := addValue_ok adds
      exact ⟨arg :: _ :: front, rest, more ++ _ :: others, rfl,
        .wordAndValue word apart htakes hgives, hcloses, hadds.trans (hvalue.trans hothers)⟩

/-- Arguments that are understood give the options of their reading. -/
theorem continues_of_readOptions {reading : Reading} {final : Given}
    (hfinal : reading.settled = .ok final) {args : List String} : ∀ {progress : Progress},
    readOptions specs commands progress args = .ok reading →
      Continues specs commands reading final progress args := by
  induction args with
  | nil =>
    rintro ⟨given, held | spec⟩ h
    · obtain rfl := Except.ok.inj h
      exact .option hfinal (concludes_closed .arguments)
    · cases h
  | cons arg rest ih =>
    rintro ⟨given, held | spec⟩ h
    · rw [readOptions] at h
      split at h
      · rename_i hcommand
        obtain rfl := Except.ok.inj h
        exact .option hfinal (concludes_closed (.command hcommand))
      · split at h
        · rename_i hhyphens
          split at h
          · rename_i hrest
            obtain rfl := Except.ok.inj h
            rw [hhyphens, hrest]
            exact .option hfinal (concludes_closed .hyphens)
          · cases h
        · obtain ⟨settled, hsettled, h⟩ := bind_ok h
          obtain ⟨progress, hprogress, h⟩ := bind_ok h
          obtain ⟨more, waiting, hword, hfollows⟩ := follows_of_readArgument hprogress
          exact .option hsettled ((ih h).concludes hword hfollows)
    · -- The value is held from here on, and what continues from there settles it.
      rw [readOptions] at h
      split at h
      · cases h
      · rename_i hapart
        cases ih h with
        | option settles concludes =>
          exact .value (Bool.eq_false_iff.mpr hapart) settles concludes

/-- The options of a reading are those that the arguments up to its end give, and a search finds
each of them. -/
theorem gives_of_readOptions {args : List String} {reading : Reading} {final : Given}
    (h : readOptions specs commands .start args = .ok reading)
    (hfinal : reading.settled = .ok final) :
    ∃ front rest given, args = front ++ rest ∧ Gives specs front given ∧
      Closes commands rest reading.command ∧ (given.map Prod.fst).Nodup ∧
      ∀ name value, final.lookup name = some value ↔ (name, value) ∈ given := by
  cases continues_of_readOptions hfinal h with
  | option settles concludes =>
    obtain rfl := Except.ok.inj settles
    obtain ⟨front, rest, given, hargs, hgives, hcloses, hadds⟩ := concludes
    have hnodup := hadds.distinct List.nodup_nil
    have hmem : ∀ entry, entry ∈ final ↔ entry ∈ given := by
      intro entry
      rw [hadds.eq, List.append_nil, List.mem_reverse]
    refine ⟨front, rest, given, hargs, hgives, hcloses, ?_, fun name value => ?_⟩
    · rw [hadds.eq, List.append_nil, List.map_reverse] at hnodup
      exact List.nodup_reverse.mp hnodup
    · rw [lookup_eq_some_iff_mem hnodup, hmem]

/-! ## Flags among the arguments -/

/-- The long names and the letters of options cannot be taken for something else. -/
structure Unambiguous (specs : List OptionSpec) : Prop where
  names : (specs.map OptionSpec.name).Nodup
  noEquals : ∀ spec ∈ specs, '=' ∉ spec.name.toList
  noHyphen : ∀ spec ∈ specs, spec.letter ≠ some '-'

theorem Letters.exists_letter {cs : List Char} {given : Given} {waiting : Option OptionSpec}
    (letters : Letters specs cs given waiting) :
    ∀ c rest, cs = c :: rest → ∃ spec ∈ specs, spec.letter = some c := by
  rintro c rest rfl
  cases letters with
  | flag mem letter flag rest => exact ⟨_, mem, letter⟩
  | waiting mem letter valued => exact ⟨_, mem, letter⟩
  | equals mem letter takes => exact ⟨_, mem, letter⟩
  | joined mem letter takes nonempty plain => exact ⟨_, mem, letter⟩

theorem Letters.exists_of_mem {cs : List Char} {given : Given} {waiting : Option OptionSpec}
    (letters : Letters specs cs given waiting) {entry : String × String} (h : entry ∈ given) :
    ∃ spec ∈ specs, spec.name = entry.1 ∧ spec.letter ≠ none ∧ spec.Allows entry.2 := by
  induction letters with
  | nil => cases h
  | waiting => cases h
  | flag mem letter flag rest ih =>
    rcases List.mem_cons.mp h with rfl | h
    · exact ⟨_, mem, rfl, letter ▸ Option.some_ne_none _, .inl ⟨flag.1, rfl⟩⟩
    · exact ih h
  | equals mem letter takes =>
    obtain rfl := List.mem_singleton.mp h
    exact ⟨_, mem, rfl, letter ▸ Option.some_ne_none _, .inr takes⟩
  | joined mem letter takes nonempty plain =>
    obtain rfl := List.mem_singleton.mp h
    exact ⟨_, mem, rfl, letter ▸ Option.some_ne_none _, .inr takes⟩

theorem Letters.mem_of_waiting {cs : List Char} {given : Given}
    (letters : Letters specs cs given (some spec)) : spec ∈ specs := by
  generalize hwaiting : some spec = waiting at letters
  induction letters with
  | nil => cases hwaiting
  | equals => cases hwaiting
  | joined => cases hwaiting
  | flag mem letter flag rest ih => exact ih hwaiting
  | waiting mem letter valued =>
    obtain rfl := Option.some.inj hwaiting
    exact mem

theorem Word.exists_of_mem {cs : List Char} {given : Given} {waiting : Option OptionSpec}
    (word : Word specs cs given waiting) {entry : String × String} (h : entry ∈ given) :
    ∃ spec ∈ specs, spec.name = entry.1 ∧ spec.Allows entry.2 := by
  cases word with
  | waiting => cases h
  | flag mem flag =>
    obtain rfl := List.mem_singleton.mp h
    exact ⟨_, mem, rfl, .inl ⟨flag.1, rfl⟩⟩
  | equals mem takes =>
    obtain rfl := List.mem_singleton.mp h
    exact ⟨_, mem, rfl, .inr takes⟩
  | letters letters =>
    obtain ⟨spec, mem, name, -, allows⟩ := letters.exists_of_mem h
    exact ⟨spec, mem, name, allows⟩

theorem Word.mem_of_waiting {cs : List Char} {given : Given}
    (word : Word specs cs given (some spec)) : spec ∈ specs := by
  cases word with
  | waiting mem valued => exact mem
  | letters letters => exact letters.mem_of_waiting

/-- Only the options of a command are given, and with values that they allow. -/
theorem Gives.exists_of_mem {args : List String} {given : Given} (gives : Gives specs args given)
    {entry : String × String} (h : entry ∈ given) :
    ∃ spec ∈ specs, spec.name = entry.1 ∧ spec.Allows entry.2 := by
  induction gives with
  | nil => cases h
  | word word rest ih =>
    rcases List.mem_append.mp h with h | h
    · exact word.exists_of_mem h
    · exact ih h
  | wordAndValue word apart takes rest ih =>
    rcases List.mem_append.mp h with h | h
    · exact word.exists_of_mem h
    · rcases List.mem_cons.mp h with rfl | h
      · exact ⟨_, word.mem_of_waiting, rfl, .inr takes⟩
      · exact ih h

theorem toList_hyphens (name : String) : ("--" ++ name).toList = '-' :: '-' :: name.toList := by
  rw [String.toList_append]
  rfl

section
variable (unambiguous : Unambiguous specs) (mem : spec ∈ specs) (flag : spec.accepts = none)
  (unlettered : spec.letter = none)
include unambiguous mem

theorem eq_of_name_eq {other : OptionSpec} (hother : other ∈ specs)
    (h : other.name = spec.name) : other = spec :=
  List.inj_on_of_nodup_map unambiguous.names hother mem h

theorem allows_of_mem {args : List String} {given : Given} (gives : Gives specs args given)
    {value : String} (h : (spec.name, value) ∈ given) : spec.Allows value := by
  obtain ⟨other, hmem, hname, hallows⟩ := gives.exists_of_mem h
  obtain rfl := eq_of_name_eq unambiguous mem hmem hname
  exact hallows

include flag

theorem value_eq_empty {args : List String} {given : Given} (gives : Gives specs args given)
    {value : String} (h : (spec.name, value) ∈ given) : value = "" := by
  rcases allows_of_mem unambiguous mem gives h with ⟨-, hempty⟩ | ⟨accepts, haccepts, -⟩
  · exact hempty
  · cases flag.symm.trans haccepts

include unlettered

/-- Only the argument with its name gives a flag that has no letter, and that argument gives
nothing else. -/
theorem Word.flag_mem_iff {arg : String} {given : Given} {waiting : Option OptionSpec}
    (word : Word specs arg.toList given waiting) :
    ((spec.name, "") ∈ given ↔ "--" ++ spec.name = arg) ∧
      ("--" ++ spec.name = arg → waiting = none) := by
  have hother : ∀ other ∈ specs, other.name = spec.name → other = spec :=
    fun other hmem => eq_of_name_eq unambiguous mem hmem
  generalize hchars : arg.toList = cs at word
  have harg : "--" ++ spec.name = arg ↔ '-' :: '-' :: spec.name.toList = cs := by
    rw [← String.toList_inj, toList_hyphens, hchars]
  rw [harg]
  cases word with
  | @flag other hmem hflag =>
    simp only [List.mem_singleton, Prod.mk.injEq, and_true, List.cons.injEq, true_and,
      String.toList_inj, implies_true]
  | @waiting other hmem hvalued =>
    have hne : ¬ '-' :: '-' :: spec.name.toList = '-' :: '-' :: other.name.toList := by
      intro h
      simp only [List.cons.injEq, true_and, String.toList_inj] at h
      obtain rfl := hother other hmem h.symm
      exact hvalued flag
    exact ⟨⟨nofun, fun h => absurd h hne⟩, fun h => absurd h hne⟩
  | @equals other value hmem htakes =>
    have hne : ¬ '-' :: '-' :: spec.name.toList =
        '-' :: '-' :: (other.name.toList ++ '=' :: value.toList) := by
      intro h
      simp only [List.cons.injEq, true_and] at h
      apply unambiguous.noEquals spec mem
      rw [h]
      exact List.mem_append_right _ List.mem_cons_self
    refine ⟨⟨fun h => ?_, fun h => absurd h hne⟩, fun h => absurd h hne⟩
    have hname := congrArg Prod.fst (List.mem_singleton.mp h)
    obtain rfl := hother other hmem hname.symm
    obtain ⟨accepts, haccepts, -⟩ := htakes
    cases flag.symm.trans haccepts
  | @letters c cs given waiting letters =>
    have hne : ¬ '-' :: '-' :: spec.name.toList = '-' :: c :: cs := by
      intro h
      simp only [List.cons.injEq, true_and] at h
      obtain ⟨other, hmem, hletter⟩ := letters.exists_letter c cs rfl
      exact unambiguous.noHyphen other hmem (h.1 ▸ hletter)
    refine ⟨⟨fun h => ?_, fun h => absurd h hne⟩, fun h => absurd h hne⟩
    obtain ⟨other, hmem, hname, hletter, -⟩ := letters.exists_of_mem h
    obtain rfl := hother other hmem hname
    exact absurd unlettered hletter

theorem Gives.flag_mem_iff {args : List String} {given : Given} (gives : Gives specs args given) :
    (spec.name, "") ∈ given ↔ "--" ++ spec.name ∈ args := by
  induction gives with
  | nil => exact ⟨nofun, nofun⟩
  | word word rest ih =>
    obtain ⟨hword, -⟩ := word.flag_mem_iff unambiguous mem flag unlettered
    rw [List.mem_append, List.mem_cons, hword, ih]
  | @wordAndValue arg value args given more other word apart takes rest ih =>
    obtain ⟨hword, hwaiting⟩ := word.flag_mem_iff unambiguous mem flag unlettered
    have hentry : (spec.name, "") ≠ (other.name, value) := by
      intro h
      obtain rfl := eq_of_name_eq unambiguous mem word.mem_of_waiting (congrArg Prod.fst h).symm
      obtain ⟨accepts, haccepts, -⟩ := takes
      cases flag.symm.trans haccepts
    have hvalue : "--" ++ spec.name ≠ value := by
      rintro rfl
      rw [startsOption, toList_hyphens] at apart
      cases apart
    rw [List.mem_append, List.mem_cons, List.mem_cons, List.mem_cons, hword, ih,
      or_iff_right hentry, or_iff_right hvalue]

end

/-! ## What is asked for -/

/-- The arguments after a command ask for a task. -/
inductive AsksTask (args : List String) : String → Task → Prop
  | glyphs (closes : Closes [] args none) : AsksTask args "glyphs" .glyphs
  | validate {front rest : List String} {given : Given} {text : String}
    (split : args = front ++ rest) (closes : Closes [] rest none)
    (gives : Gives validateOptions front given) (distinct : (given.map Prod.fst).Nodup)
    (input : ("input", text) ∈ given) :
    AsksTask args "validate" (.validate text)
  | compile {front rest : List String} {given : Given} {request : CompileRequest}
    {target : Option String} (split : args = front ++ rest) (closes : Closes [] rest none)
    (gives : Gives compileOptions front given) (distinct : (given.map Prod.fst).Nodup)
    (input : ("input", request.text) ∈ given)
    (still : request.options.animated = false ↔ "--static" ∈ args)
    (uncaptioned : request.options.showCaption = false ↔ "--no-caption" ∈ args)
    (seed : ∀ seed, request.seed = some seed ↔
      ∃ digits, ("seed", digits) ∈ given ∧ seedOf? digits = some seed)
    (unseeded : request.seed = none ↔ ∀ digits, ("seed", digits) ∉ given)
    (output : ∀ path, target = some path ↔ ("output", path) ∈ given) :
    AsksTask args "compile" (.compile request target)

/-- Arguments ask for an invocation: options for files, a command, and a task. -/
inductive AsksFor (args : List String) (invocation : Invocation) : Prop
  | intro {front rest : List String} {command : String} {given : Given}
    (split : args = front ++ command :: rest) (gives : Gives leadingOptions front given)
    (distinct : (given.map Prod.fst).Nodup)
    (dictionary : ∀ path, invocation.dictionary = some path ↔ ("glyphs", path) ∈ given)
    (settings : ∀ path, invocation.settings = some path ↔ ("config", path) ∈ given)
    (verbose : invocation.verbose = true ↔ ("verbose", "") ∈ given)
    (task : AsksTask rest command invocation.task)

theorem unambiguous_leadingOptions : Unambiguous leadingOptions :=
  ⟨by decide, by decide +kernel, by decide⟩

theorem unambiguous_compileOptions : Unambiguous compileOptions :=
  ⟨by decide, by decide +kernel, by decide⟩

/-- A search finds a flag exactly if it was given. -/
theorem has_iff {args : List String} {given final : Given} (unambiguous : Unambiguous specs)
    (mem : spec ∈ specs) (flag : spec.accepts = none) (gives : Gives specs args given)
    (hfinal : ∀ name value, final.lookup name = some value ↔ (name, value) ∈ given) :
    Given.has final spec.name = true ↔ (spec.name, "") ∈ given := by
  rw [Given.has, Option.isSome_iff_exists]
  constructor
  · rintro ⟨value, hvalue⟩
    have hmem := (hfinal _ _).mp hvalue
    obtain rfl := value_eq_empty unambiguous mem flag gives hmem
    exact hmem
  · intro h
    exact ⟨"", (hfinal _ _).mpr h⟩

theorem gives_of_readTrailing {args : List String} {final : Given}
    (h : readTrailing specs args = .ok final) :
    ∃ front rest given, args = front ++ rest ∧ Gives specs front given ∧ Closes [] rest none ∧
      (given.map Prod.fst).Nodup ∧
      ∀ name value, final.lookup name = some value ↔ (name, value) ∈ given := by
  obtain ⟨reading, hreading, hfinal⟩ := bind_ok h
  obtain ⟨front, rest, given, hargs, hgives, hcloses, hfound⟩ :=
    gives_of_readOptions hreading hfinal
  generalize reading.command = command at hcloses
  cases hcloses with
  | arguments => exact ⟨front, _, given, hargs, hgives, .arguments, hfound⟩
  | hyphens => exact ⟨front, _, given, hargs, hgives, .hyphens, hfound⟩
  | command mem => cases mem

theorem lookup_of_demand {given : Given} {name value : String}
    (h : demand given name = .ok value) : given.lookup name = some value := by
  rw [demand] at h
  split at h
  · rename_i hfound
    rw [hfound, Except.ok.inj h]
  · cases h

theorem mem_append_closing {front rest : List String} {arg : String}
    (closes : Closes [] rest none) (h : arg ≠ "--") : arg ∈ front ++ rest ↔ arg ∈ front := by
  rw [List.mem_append]
  refine or_iff_left fun hmem => ?_
  cases closes with
  | arguments => cases hmem
  | hyphens => exact h (List.mem_singleton.mp hmem)

/-- An argument with hyphens in front names an option that is not the one for help. -/
theorem Word.exists_other {cs : List Char} {given : Given} {waiting : Option OptionSpec}
    (word : Word specs cs given waiting) : ∃ spec ∈ specs, spec.IsFlag ∨ spec.accepts ≠ none := by
  have hvalued : ∀ {spec : OptionSpec} {value : String}, spec.Takes value →
      spec.accepts ≠ none := by
    rintro spec value ⟨accepts, haccepts, -⟩
    exact haccepts ▸ Option.some_ne_none accepts
  cases word with
  | flag mem flag => exact ⟨_, mem, .inl flag⟩
  | waiting mem valued => exact ⟨_, mem, .inr valued⟩
  | equals mem takes => exact ⟨_, mem, .inr (hvalued takes)⟩
  | letters letters =>
    cases letters with
    | flag mem letter flag rest => exact ⟨_, mem, .inl flag⟩
    | waiting mem letter valued => exact ⟨_, mem, .inr valued⟩
    | equals mem letter takes => exact ⟨_, mem, .inr (hvalued takes)⟩
    | joined mem letter takes nonempty plain => exact ⟨_, mem, .inr (hvalued takes)⟩

theorem eq_nil_of_gives_help {args : List String} {given : Given}
    (gives : Gives [.help] args given) : args = [] := by
  have hnone : ∀ {cs more waiting}, ¬Word [.help] cs more waiting := by
    intro cs more waiting word
    obtain ⟨spec, hmem, hother⟩ := word.exists_other
    obtain rfl := List.mem_singleton.mp hmem
    rcases hother with ⟨-, hother⟩ | hother
    · exact hother rfl
    · exact hother rfl
  cases gives with
  | nil => rfl
  | word word rest => exact absurd word hnone
  | wordAndValue word apart takes rest => exact absurd word hnone

theorem asksTask_validate {args : List String} {final : Given} {text : String}
    (htrailing : readTrailing validateOptions args = .ok final)
    (htext : demand final "input" = .ok text) : AsksTask args "validate" (.validate text) := by
  obtain ⟨front, rest, given, hargs, hgives, hcloses, hdistinct, hfound⟩ :=
    gives_of_readTrailing htrailing
  exact .validate hargs hcloses hgives hdistinct ((hfound _ _).mp (lookup_of_demand htext))

theorem isSome_seedOf? {args : List String} {given : Given}
    (gives : Gives compileOptions args given) {digits : String} (h : ("seed", digits) ∈ given) :
    (seedOf? digits).isSome = true := by
  have hspec : .valued none "seed" isSeed ∈ compileOptions := by simp [compileOptions]
  rcases allows_of_mem unambiguous_compileOptions hspec gives h with
    ⟨hnone, -⟩ | ⟨accepts, haccepts, haccepted⟩
  · cases hnone
  · cases haccepts
    exact haccepted

theorem asksTask_compile {args : List String} {final : Given} {text : String}
    (htrailing : readTrailing compileOptions args = .ok final)
    (htext : demand final "input" = .ok text) :
    AsksTask args "compile" (.compile (requestOf final text) (final.lookup "output")) := by
  obtain ⟨front, rest, given, rfl, hgives, hcloses, hdistinct, hfound⟩ :=
    gives_of_readTrailing htrailing
  have hflag : ∀ spec ∈ compileOptions, spec.accepts = none → spec.letter = none →
      "--" ++ spec.name ≠ "--" →
      ((!Given.has final spec.name) = false ↔ "--" ++ spec.name ∈ front ++ rest) := by
    intro spec mem flag unlettered hne
    rw [mem_append_closing hcloses hne, Bool.not_eq_false',
      has_iff unambiguous_compileOptions mem flag hgives hfound,
      hgives.flag_mem_iff unambiguous_compileOptions mem flag unlettered]
  refine .compile rfl hcloses hgives hdistinct ((hfound _ _).mp (lookup_of_demand htext))
    (hflag (.flag none "static") (by simp [compileOptions]) rfl rfl (by decide))
    (hflag (.flag none "no-caption") (by simp [compileOptions]) rfl rfl (by decide)) ?_ ?_
    fun path => hfound _ _
  · intro seed
    show (final.lookup "seed").bind seedOf? = some seed ↔ _
    simp only [Option.bind_eq_some_iff, hfound]
  · show (final.lookup "seed").bind seedOf? = none ↔ _
    rw [Option.bind_eq_none_iff]
    constructor
    · intro h digits hmem
      have hsome := isSome_seedOf? hgives hmem
      rw [h digits ((hfound _ _).mpr hmem)] at hsome
      cases hsome
    · intro h digits hdigits
      exact absurd ((hfound _ _).mp hdigits) (h digits)

theorem asksTask_of_readTask {name : String} {args : List String} {task : Task}
    (h : readTask name args = .ok task) : AsksTask args name task := by
  unfold readTask at h
  split at h
  · rename_i hname
    obtain ⟨final, htrailing, h⟩ := bind_ok h
    obtain rfl := Except.ok.inj h
    obtain ⟨front, rest, given, rfl, hgives, hcloses, -⟩ := gives_of_readTrailing htrailing
    rw [hname, eq_nil_of_gives_help hgives]
    exact .glyphs hcloses
  · split at h
    · rename_i hname
      obtain ⟨final, htrailing, h⟩ := bind_ok h
      obtain ⟨text, htext, h⟩ := bind_ok h
      obtain rfl := Except.ok.inj h
      rw [hname]
      exact asksTask_validate htrailing htext
    · split at h
      · rename_i hname
        obtain ⟨final, htrailing, h⟩ := bind_ok h
        obtain ⟨text, htext, h⟩ := bind_ok h
        obtain rfl := Except.ok.inj h
        rw [hname]
        exact asksTask_compile htrailing htext
      · -- What is left is help, and commands that there are not.
        split at h
        · cases h
        · split at h <;> cases h
        · cases h

/-- Arguments that are understood ask for the invocation that reading makes of them. -/
theorem asksFor_of_parse {args : List String} {invocation : Invocation}
    (h : Invocation.parse args = .ok invocation) : AsksFor args invocation := by
  rw [Invocation.parse] at h
  obtain ⟨reading, hreading, h⟩ := bind_ok h
  split at h
  · cases h
  · rename_i name rest hcommand
    obtain ⟨task, htask, h⟩ := bind_ok h
    obtain ⟨final, hfinal, h⟩ := bind_ok h
    obtain rfl := Except.ok.inj h
    obtain ⟨front, tail, given, hargs, hgives, hcloses, hdistinct, hfound⟩ :=
      gives_of_readOptions hreading hfinal
    rw [hcommand] at hcloses
    cases hcloses with
    | command mem =>
      refine .intro hargs hgives hdistinct (fun path => hfound _ _) (fun path => hfound _ _) ?_
        (asksTask_of_readTask htask)
      have hmem : .flag (some 'v') "verbose" ∈ leadingOptions := by simp [leadingOptions]
      exact has_iff unambiguous_leadingOptions hmem rfl hgives hfound

end Command
end AnimatedGlyph
