import LayeredConfig.CommandLine.Arguments
import Mathlib.Data.List.Basic

/-!
# What a line of arguments asks for

A line is read into flags and words, and what it leaves open is taken from the environment. A flag
that was given keeps its value; one that was not has that of its variable, if there is one. Reading
fails only over a variable whose value its flag does not accept, or over a word that is missing.

A line that prints an artifact follows one that compiles when both name the same settings file and
the same directory, or leave them to the same environment. If the first is understood, so is the
second.
-/

namespace LayeredConfig.CommandLine

variable {environment : Environment} {given next : Given} {flag : Flag} {flags : List Flag}

/-! ### Flags from the environment -/

namespace Given

private theorem add_of_absent {value : String} (h : given.value? flag = none) :
    given.add flag value
      = if flag.accepts value then .ok { given with values := given.values ++ [(flag, value)] }
        else .error (.misuse (.badValue flag value)) := by
  have habsent : given.has flag = false := by rw [has, h]; rfl
  rw [add, habsent]
  cases flag.accepts value <;> rfl

private theorem value?_append (given : Given) (flag other : Flag) (value : String) :
    value? { given with values := given.values ++ [(flag, value)] } other
      = (given.value? other).or (if other = flag then some value else none) := by
  rw [value?, value?, List.lookup_append, List.lookup_cons, List.lookup_nil]
  by_cases hother : other = flag
  · simp [hother]
  · simp [hother, beq_false_of_ne hother]

end Given

/-- The value of the environment variable that stands in for a flag. -/
def standIn? (environment : Environment) (flag : Flag) : Option String :=
  flag.environmentName?.bind fun name ↦ List.lookup name environment

/-- Flags that were not given have the values of their variables. All else is as it was given. -/
structure Completed (environment : Environment) (flags : List Flag) (given next : Given) :
    Prop where
  words : next.words = given.words
  value? : ∀ flag, next.value? flag
    = (given.value? flag).or (if flag ∈ flags then standIn? environment flag else none)

/-- The flags that were not given accept the values of their variables. -/
def Acceptable (environment : Environment) (given : Given) (flags : List Flag) : Prop :=
  ∀ flag ∈ flags, given.value? flag = none →
    ∀ value, standIn? environment flag = some value → flag.accepts value = true

private theorem addVariable_of_none (h : standIn? environment flag = none) :
    addVariable environment given flag = .ok given := by
  rw [standIn?] at h
  simp only [addVariable, h]

private theorem addVariable_of_some {value : String} (h : standIn? environment flag = some value) :
    addVariable environment given flag
      = if given.has flag then .ok given else given.add flag value := by
  rw [standIn?] at h
  simp only [addVariable, h]

private theorem addVariable_cases (environment : Environment) (given : Given) (flag : Flag) :
    (∃ next, addVariable environment given flag = .ok next ∧
        Acceptable environment given [flag] ∧ Completed environment [flag] given next) ∨
      ¬ Acceptable environment given [flag] ∧ ∃ misuse,
        addVariable environment given flag = .error (.misuse misuse) := by
  simp only [Acceptable, List.mem_singleton, forall_eq]
  cases hstand : standIn? environment flag with
  | none =>
    refine .inl ⟨given, addVariable_of_none hstand, by simp, rfl, fun other ↦ ?_⟩
    by_cases hother : other = flag <;> simp [hother, hstand]
  | some value =>
    rw [addVariable_of_some hstand]
    cases hvalue : given.value? flag with
    | some old =>
      have hhas : given.has flag = true := by rw [Given.has, hvalue]; rfl
      refine .inl ⟨given, by simp [hhas], by simp, rfl, fun other ↦ ?_⟩
      by_cases hother : other = flag <;> simp [hother, hvalue]
    | none =>
      have hhas : given.has flag = false := by rw [Given.has, hvalue]; rfl
      simp only [hhas, Bool.false_eq_true, if_false, Given.add_of_absent hvalue]
      by_cases haccepts : flag.accepts value = true
      · refine .inl ⟨_, if_pos haccepts, by simpa using haccepts, rfl, fun other ↦ ?_⟩
        rw [Given.value?_append]
        by_cases hother : other = flag <;> simp [hother, hstand]
      · exact .inr ⟨by simpa using haccepts, _, if_neg haccepts⟩

private theorem Completed.acceptable_iff (h : Completed environment [flag] given next)
    (haccepted : Acceptable environment given [flag]) :
    Acceptable environment next flags ↔ Acceptable environment given (flag :: flags) := by
  have hvalue (other : Flag) (hne : other ≠ flag) : next.value? other = given.value? other := by
    simp [h.value? other, hne]
  constructor
  · intro hrest other hmem habsent
    by_cases hother : other = flag
    · exact haccepted other (by simp [hother]) habsent
    · exact hrest other ((List.mem_cons.mp hmem).resolve_left hother)
        ((hvalue other hother).trans habsent)
  · intro hall other hmem habsent
    have hbefore : given.value? other = none := by
      rw [h.value? other, Option.or_eq_none_iff] at habsent
      exact habsent.1
    exact hall other (List.mem_cons_of_mem _ hmem) hbefore

/-- Flags are completed one after the other. -/
theorem Completed.cons {last : Given} (h : Completed environment [flag] given next)
    (hrest : Completed environment flags next last) :
    Completed environment (flag :: flags) given last := by
  refine ⟨hrest.words.trans h.words, fun other ↦ ?_⟩
  rw [hrest.value? other, h.value? other, Option.or_assoc]
  by_cases hother : other = flag
  · cases hs : standIn? environment flag <;> simp [hother, hs]
  · simp [hother]

/-- Flags are completed, or the variable of one has a value that it does not accept. -/
theorem addVariables_cases (environment : Environment) (given : Given) (flags : List Flag) :
    (∃ next, addVariables environment given flags = .ok next ∧
        Acceptable environment given flags ∧ Completed environment flags given next) ∨
      ¬ Acceptable environment given flags ∧ ∃ misuse,
        addVariables environment given flags = .error (.misuse misuse) := by
  induction flags generalizing given with
  | nil => exact .inl ⟨given, rfl, by simp [Acceptable], rfl, by simp⟩
  | cons flag rest ih =>
    rcases addVariable_cases environment given flag with
      ⟨next, hadd, haccepted, hcompleted⟩ | ⟨hrefused, misuse, hadd⟩
    · simp only [addVariables, hadd, ← hcompleted.acceptable_iff haccepted]
      refine (ih next).imp_left ?_
      rintro ⟨last, hlast, hacceptable, hrest⟩
      exact ⟨last, hlast, hacceptable, hcompleted.cons hrest⟩
    · refine .inr ⟨fun hall ↦ hrefused ?_, misuse, by simp only [addVariables, hadd]⟩
      exact fun other hmem ↦ hall other (by simp_all)

/-! ### Lines -/

/-- A line consists of shared flags, a verb, and what is given behind the verb. -/
def Asks (arguments : List String) (verb : Verb) (lead given : Given) : Prop :=
  ∃ rest, readLead {} none arguments = .ok (lead, verb.name, rest) ∧
    readRest verb {} none rest = .ok given

/-- The settings file that a line names. Behind the verb it counts first. -/
def settingsNamed (lead given : Given) : Option Path :=
  (given.path? .settingsFile).or (lead.path? .settingsFile)

/-- The directory of artifacts that a line names or its environment holds. -/
def directoryNamed (environment : Environment) (given : Given) : Option Path :=
  ((given.value? .cacheDirectory).or (standIn? environment .cacheDirectory)).map Path.mk

private theorem Verb.ofName?_name (verb : Verb) : Verb.ofName? verb.name = some verb := by
  cases verb <;> rfl

variable {arguments : List String} {verb : Verb} {lead : Given}

/-- A line is completed from the environment before its verb makes a command of it. -/
theorem Asks.parse_eq (h : Asks arguments verb lead given) (environment : Environment) :
    parse environment arguments
      = match addVariables environment given verb.flags with
        | .error stop => .error stop
        | .ok next => (verb.command next).map fun command ↦
            { settingsFile := settingsNamed lead next, command := command } := by
  obtain ⟨rest, hlead, hrest⟩ := h
  simp only [parse, hlead, Verb.ofName?_name, Verb.invocation, hrest]
  rfl

/-- What a line names is not changed by completing it. -/
theorem Completed.settingsNamed_eq (h : Completed environment flags given next) (lead : Given) :
    settingsNamed lead next = settingsNamed lead given := by
  have hstand : standIn? environment .settingsFile = none := rfl
  simp [settingsNamed, Given.path?, h.value?, hstand]

/-- The directory of a completed line. -/
theorem Completed.path?_cacheDirectory (h : Completed environment flags given next)
    (hmem : .cacheDirectory ∈ flags) :
    next.path? .cacheDirectory = directoryNamed environment given := by
  rw [Given.path?, h.value?, if_pos hmem, directoryNamed]

private theorem Asks.parse_compile (h : Asks arguments .compile lead given)
    (environment : Environment) :
    (∃ misuse, parse environment arguments = .error (.misuse misuse)) ∨
      Acceptable environment given Verb.compile.flags ∧ ∃ identifiers options root signContent,
        options.cacheDirectory = directoryNamed environment given ∧
          parse environment arguments = .ok
            ⟨settingsNamed lead given, .compile identifiers options root signContent⟩ := by
  rw [h.parse_eq]
  rcases addVariables_cases environment given Verb.compile.flags with
    ⟨next, hadd, hacceptable, hcompleted⟩ | ⟨-, misuse, hadd⟩
  · simp only [hadd]
    cases hwords : next.words with
    | nil => exact .inl ⟨.missingWord .compile, by simp only [Verb.command, hwords]; rfl⟩
    | cons word rest =>
      refine .inr ⟨hacceptable, word :: rest, next.options, next.path? .root,
        next.has .contentSignature, hcompleted.path?_cacheDirectory (by decide), ?_⟩
      simp only [Verb.command, hwords, ← hcompleted.settingsNamed_eq lead]
      rfl
  · exact .inl ⟨misuse, by simp only [hadd]⟩

private theorem Asks.parse_display {word : String} (h : Asks arguments .display lead given)
    (hacceptable : Acceptable environment given Verb.display.flags) (hword : given.words = [word]) :
    parse environment arguments = .ok
      ⟨settingsNamed lead given, .display word (directoryNamed environment given)⟩ := by
  rw [h.parse_eq]
  rcases addVariables_cases environment given Verb.display.flags with
    ⟨next, hadd, -, hcompleted⟩ | ⟨hrefused, -⟩
  · simp only [hadd, Verb.command, hcompleted.words.trans hword,
      ← hcompleted.settingsNamed_eq lead,
      ← hcompleted.path?_cacheDirectory (show .cacheDirectory ∈ Verb.display.flags by decide)]
    rfl
  · exact absurd hacceptable hrefused

/-! ### Lines that belong together -/

/-- A line prints the artifact that a word names, and names the same settings file and directory as
a line that compiles. -/
def Follows (compiling displaying : List String) (word : String) : Prop :=
  ∃ lead given lead' given', Asks compiling .compile lead given ∧
    Asks displaying .display lead' given' ∧ given'.words = [word] ∧
    settingsNamed lead' given' = settingsNamed lead given ∧
    given'.value? .cacheDirectory = given.value? .cacheDirectory

private theorem acceptable_display_iff :
    Acceptable environment given Verb.display.flags ↔
      Acceptable environment given [.cacheDirectory] := by
  have hstand (flag : Flag) (hmem : flag ∈ sharedFlags) : standIn? environment flag = none := by
    revert flag
    simp [sharedFlags, standIn?, Flag.environmentName?]
  constructor
  · exact fun h flag hmem ↦ h flag (List.mem_append_right _ hmem)
  · intro h flag hmem habsent value hvalue
    rcases List.mem_append.mp hmem with hmem | hmem
    · rw [hstand flag hmem] at hvalue
      cases hvalue
    · exact h flag hmem habsent value hvalue

/-- If a line that compiles is understood, a line that follows it is too, with the same settings
file and the same directory. -/
theorem Follows.parse {compiling displaying : List String} {word : String}
    (h : Follows compiling displaying word) (environment : Environment) :
    (∃ misuse, CommandLine.parse environment compiling = .error (.misuse misuse)) ∨
      ∃ settingsFile identifiers options root signContent,
        CommandLine.parse environment compiling
          = .ok ⟨settingsFile, .compile identifiers options root signContent⟩ ∧
        CommandLine.parse environment displaying
          = .ok ⟨settingsFile, .display word options.cacheDirectory⟩ := by
  obtain ⟨lead, given, lead', given', hcompile, hdisplay, hword, hsettings, hdirectory⟩ := h
  refine (hcompile.parse_compile environment).imp_right ?_
  rintro ⟨hacceptable, identifiers, options, root, signContent, hoptions, hparse⟩
  refine ⟨_, identifiers, options, root, signContent, hparse, ?_⟩
  have hsame : Acceptable environment given' [.cacheDirectory] := by
    intro flag hmem habsent
    obtain rfl := List.mem_singleton.mp hmem
    exact hacceptable .cacheDirectory (by decide) (hdirectory.symm.trans habsent)
  rw [hdisplay.parse_display (acceptable_display_iff.mpr hsame) hword, hsettings, hoptions,
    directoryNamed, hdirectory]
  rfl

end LayeredConfig.CommandLine
