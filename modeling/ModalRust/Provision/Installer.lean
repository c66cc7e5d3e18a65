import ModalRust.Provision.Planned
import ModalRust.Shell

/-!
# What the installers of image steps receive

The packages of an image step are joined with spaces into a `RUN` line, without quotes. A POSIX
shell passes them on as they are declared exactly when no character of them means anything to it.
-/

namespace ModalRust.Provision

open ModalRust.Sdk ModalRust.Shell

/-- A line of a Dockerfile that is one instruction. -/
def OneInstruction (line : Text) : Prop := '\n' ∉ line

/-- A line that runs a command whose tokens are the given ones. -/
def RunsTokens (line : Text) (toks : List Token) : Prop :=
  ∃ command, line = "RUN ".toList ++ command ∧ tokens command = some toks

/-- Words that are passed on as they are. -/
def literal (words : List Text) : List Token := words.map fun w => .word w false

/-- The command that updates the lists of system packages. -/
def aptUpdateWords : List Text := ["apt-get".toList, "update".toList]

/-- The installer of system packages. -/
def aptInstallWords : List Text :=
  ["apt-get".toList, "install".toList, "-y".toList, "--no-install-recommends".toList]

/-- The command that removes files. -/
def removeWords : List Text := ["rm".toList, "-rf".toList]

/-- The installer of Python packages. -/
def pipInstallWords : List Text :=
  ["python3".toList, "-m".toList, "pip".toList, "install".toList, "--no-cache-dir".toList]

/-- `pip install` receives the packages, one argument each and in order. -/
def pipTokens (packages : List Text) : List Token := literal (pipInstallWords ++ packages)

/-- `apt-get install` receives the packages, between an update and the removal of the lists. -/
def aptTokens (packages : List Text) : List Token :=
  literal aptUpdateWords ++ .andIf :: (literal (aptInstallWords ++ packages) ++
    .andIf :: (literal removeWords ++ [.word "/var/lib/apt/lists/*".toList true]))

/-- The lines of one step. -/
def ImageStep.lines (step : ImageStep) : List Text := stepLines [step]

/-- The declared strings of a step reach the installer: each line is one instruction, a list of
packages is installed by one line, and a command is a line of its own. -/
def ImageStep.Reaches (step : ImageStep) : Prop :=
  (∀ line ∈ step.lines, OneInstruction line) ∧
    match step with
    | .apt packages =>
      if packages = [] then step.lines = []
      else ∃ line, step.lines = [line] ∧ RunsTokens line (aptTokens packages)
    | .pip packages =>
      if packages = [] then step.lines = []
      else ∃ line, step.lines = [line] ∧ RunsTokens line (pipTokens packages)
    | .run commands => step.lines = commands.map ("RUN ".toList ++ ·)

/-- The lines of the steps stand in the Dockerfile in the order of the steps, and each step's
strings reach the installer. -/
def StepsReach (spec : ImageSpec) (steps : List ImageStep) : Prop :=
  (∃ before after, dockerfileCommands spec = before ++ after ∧
    dockerfileCommands (applyImageSteps spec steps) =
      before ++ steps.flatMap ImageStep.lines ++ after) ∧
  ∀ step ∈ steps, step.Reaches

/-- No declared string of the step means anything to the shell or ends the line. -/
def ImageStep.Unchanged : ImageStep → Prop
  | .apt packages => ∀ package ∈ packages, Plain package
  | .pip packages => ∀ package ∈ packages, Plain package
  | .run commands => ∀ command ∈ commands, '\n' ∉ command

/-- The lines of steps are those of each step. -/
theorem stepLines_eq_flatMap (steps : List ImageStep) :
    stepLines steps = steps.flatMap ImageStep.lines := by
  induction steps with
  | nil => rfl
  | cons step steps ih =>
    rw [List.flatMap_cons, ← ih, ImageStep.lines, ← stepLines_append]
    rfl

/-- The lines of the steps stand in order, after the lines for Python and Rust and before the
wrappers. -/
theorem dockerfileCommands_applyImageSteps (spec : ImageSpec) (steps : List ImageStep) :
    ∃ before after, dockerfileCommands spec = before ++ after ∧
      dockerfileCommands (applyImageSteps spec steps) =
        before ++ steps.flatMap ImageStep.lines ++ after := by
  refine ⟨[fromLine spec] ++ (spec.addPython.map addPythonLines).getD [] ++
    (if spec.installRust then rustLines else []) ++ spec.builderSteps,
    (spec.wrapperModules.map fun m => bakeCommand m.1 m.2) ++ spec.extraCommands, ?_, ?_⟩
  · simp only [dockerfileCommands, List.append_assoc]
  · rw [applyImageSteps_eq, stepLines_eq_flatMap]
    change [fromLine spec] ++ (spec.addPython.map addPythonLines).getD [] ++
      (if spec.installRust then rustLines else []) ++
      (spec.builderSteps ++ steps.flatMap ImageStep.lines) ++
      (spec.wrapperModules.map fun m => bakeCommand m.1 m.2) ++ spec.extraCommands = _
    simp only [List.append_assoc]

/-- The line of a list of system packages. -/
theorem lines_apt {packages : List Text} (hpackages : packages ≠ []) :
    (ImageStep.apt packages).lines =
      ["RUN apt-get update && apt-get install -y --no-install-recommends ".toList ++
        [' '].intercalate packages ++ " && rm -rf /var/lib/apt/lists/*".toList] := by
  cases packages with
  | nil => exact absurd rfl hpackages
  | cons package packages => rfl

/-- The line of a list of Python packages. -/
theorem lines_pip {packages : List Text} (hpackages : packages ≠ []) :
    (ImageStep.pip packages).lines =
      ["RUN python3 -m pip install --no-cache-dir ".toList ++ [' '].intercalate packages] := by
  cases packages with
  | nil => exact absurd rfl hpackages
  | cons package packages => rfl

/-- The lines of commands. -/
theorem lines_run (commands : List Text) :
    (ImageStep.run commands).lines = commands.map ("RUN ".toList ++ ·) := by
  rw [ImageStep.lines, stepLines]
  simp [applyImageSteps, ImageStep.apply, ImageSpec.withRunCommands, ImageSpec.fromRegistry]

/-! ### Plain strings pass unchanged -/

/-- Plain strings are read as themselves. -/
theorem forall₂_literal {words : List Text} (hwords : ∀ w ∈ words, Plain w) :
    List.Forall₂ LexesTo words (literal words) := by
  induction words with
  | nil => exact .nil
  | cons w words ih =>
    exact .cons (lexesTo_literal (hwords w (by simp))) (ih fun v hv => hwords v (by simp [hv]))

/-- The words around the packages are plain. -/
theorem plain_of_mem_words {w : Text}
    (hw : w ∈ aptUpdateWords ++ aptInstallWords ++ removeWords ++ pipInstallWords) : Plain w := by
  refine plain_of_all ?_
  revert hw w
  decide

/-- The pattern at the end of the line for system packages. -/
theorem lexesTo_lists : LexesTo "/var/lib/apt/lists/*".toList
    (.word "/var/lib/apt/lists/*".toList true) := by
  have hall : "/var/lib/apt/lists/*".toList.all isOrdinary = true := by decide
  have hhead : "/var/lib/apt/lists/*".toList.head? = some '/' := rfl
  refine lexesTo_word (w := "/var/lib/apt/lists/*".toList) ⟨nofun, List.all_eq_true.mp hall, ?_⟩
  intro c hc
  rw [hhead] at hc
  cases hc
  decide

/-- The chunks of the line for system packages. -/
def aptChunks (packages : List Text) : List Text :=
  aptUpdateWords ++ "&&".toList :: (aptInstallWords ++ packages ++
    "&&".toList :: (removeWords ++ ["/var/lib/apt/lists/*".toList]))

/-- The line for system packages, chunk by chunk. -/
theorem lines_apt_eq {packages : List Text} (hpackages : packages ≠ []) :
    (ImageStep.apt packages).lines =
      ["RUN ".toList ++ [' '].intercalate (aptChunks packages)] := by
  have hrest : removeWords ++ ["/var/lib/apt/lists/*".toList] ≠ [] := by decide
  rw [lines_apt hpackages, aptChunks, List.append_assoc aptInstallWords,
    intercalate_append (by decide) (by simp),
    List.intercalate_cons_of_ne_nil (by simp [aptInstallWords]),
    intercalate_append (by decide) (by simp), intercalate_append hpackages (by simp),
    List.intercalate_cons_of_ne_nil hrest]
  simp only [List.append_assoc]
  rfl

/-- The line for Python packages, chunk by chunk. -/
theorem lines_pip_eq {packages : List Text} (hpackages : packages ≠ []) :
    (ImageStep.pip packages).lines =
      ["RUN ".toList ++ [' '].intercalate (pipInstallWords ++ packages)] := by
  rw [lines_pip hpackages, intercalate_append (by decide) hpackages]
  simp only [List.append_assoc]
  rfl

/-- Plain packages reach `apt-get install`. -/
theorem tokens_apt {packages : List Text} (hpackages : ∀ package ∈ packages, Plain package) :
    tokens ([' '].intercalate (aptChunks packages)) = some (aptTokens packages) := by
  refine tokens_intercalate (List.rel_append (forall₂_literal fun w hw => ?_) (.cons lexesTo_andIf
    (List.rel_append (forall₂_literal fun w hw => ?_) (.cons lexesTo_andIf
      (List.rel_append (forall₂_literal fun w hw => ?_) (.cons lexesTo_lists .nil))))))
  · exact plain_of_mem_words (by simp [hw])
  · rcases List.mem_append.mp hw with hw | hw
    · exact plain_of_mem_words (by simp [hw])
    · exact hpackages w hw
  · exact plain_of_mem_words (by simp [hw])

/-- Plain packages reach `pip install`. -/
theorem tokens_pip {packages : List Text} (hpackages : ∀ package ∈ packages, Plain package) :
    tokens ([' '].intercalate (pipInstallWords ++ packages)) = some (pipTokens packages) := by
  refine tokens_intercalate (forall₂_literal fun w hw => ?_)
  rcases List.mem_append.mp hw with hw | hw
  · exact plain_of_mem_words (by simp [hw])
  · exact hpackages w hw

/-! ### No other strings pass unchanged -/

/-- The weight of literal words. -/
theorem weight_literal (words : List Text) : weight (literal words) = (words.map solid).sum := by
  simp [weight, literal, Token.weight, Function.comp_def]

/-- Tokens one after the other. -/
theorem weight_append (left right : List Token) :
    weight (left ++ right) = weight left + weight right := by
  simp [weight]

/-- A clean literal word is plain. -/
theorem plain_of_clean {w : Text} (hw : (Token.word w false).Clean) : Plain w := by
  obtain ⟨hbare, hpattern⟩ := hw
  exact ⟨hbare, hpattern.symm⟩

/-- Packages that reach `apt-get install` are plain. -/
theorem plain_of_tokens_apt {packages : List Text}
    (h : tokens ([' '].intercalate (aptChunks packages)) = some (aptTokens packages)) :
    ∀ package ∈ packages, Plain package := by
  have hweight : weight (aptTokens packages) = ((aptChunks packages).map solid).sum := by
    have hand : ∀ toks : List Token, weight (.andIf :: toks) = solid "&&".toList + weight toks :=
      fun toks => by simp [weight, Token.weight]; rfl
    have hlists : weight [.word "/var/lib/apt/lists/*".toList true] =
        solid "/var/lib/apt/lists/*".toList := by simp [weight, Token.weight]
    simp only [aptTokens, aptChunks, weight_append, weight_literal, hand, hlists, List.map_append,
      List.map_cons, List.sum_append, List.sum_cons, List.map_nil, List.sum_nil, Nat.add_zero]
  intro package hpackage
  refine plain_of_clean (clean_of_tokens_intercalate h hweight _ ?_)
  simp [aptTokens, literal, hpackage]

/-- Packages that reach `pip install` are plain. -/
theorem plain_of_tokens_pip {packages : List Text}
    (h : tokens ([' '].intercalate (pipInstallWords ++ packages)) = some (pipTokens packages)) :
    ∀ package ∈ packages, Plain package := by
  intro package hpackage
  refine plain_of_clean (clean_of_tokens_intercalate h (weight_literal _) _ ?_)
  simp [pipTokens, literal, hpackage]

/-! ### Steps -/

/-- A character of a joined text is one of a part or of the separator. -/
theorem mem_intercalate {c : Char} {separator : Text} {parts : List Text}
    (hc : c ∈ separator.intercalate parts) : c ∈ separator ∨ ∃ part ∈ parts, c ∈ part := by
  induction parts with
  | nil => cases hc
  | cons part parts ih =>
    by_cases hparts : parts = []
    · subst hparts
      rw [List.intercalate_singleton] at hc
      exact .inr ⟨part, by simp, hc⟩
    · rw [List.intercalate_cons_of_ne_nil hparts, List.mem_append, List.mem_append] at hc
      rcases hc with (hc | hc) | hc
      · exact .inr ⟨part, by simp, hc⟩
      · exact .inl hc
      · rcases ih hc with hc | ⟨other, hother, hc⟩
        · exact .inl hc
        · exact .inr ⟨other, by simp [hother], hc⟩

/-- A plain word does not end the line. -/
theorem newline_not_mem {w : Text} (hw : Plain w) : '\n' ∉ w := by
  intro hmem
  exact absurd (hw.ordinary _ hmem) (by decide)

/-- A line of words that do not end it is one instruction. -/
theorem oneInstruction_of_chunks {chunks : List Text} (hchunks : ∀ chunk ∈ chunks, '\n' ∉ chunk) :
    OneInstruction ("RUN ".toList ++ [' '].intercalate chunks) := by
  intro hmem
  rcases List.mem_append.mp hmem with hmem | hmem
  · exact absurd hmem (by decide)
  · rcases mem_intercalate hmem with hblank | ⟨chunk, hchunk, hmem⟩
    · exact absurd hblank (by decide)
    · exact hchunks chunk hchunk hmem

/-- What the `RUN` line of a command runs. -/
theorem runsTokens_run_iff {command : Text} {toks : List Token} :
    RunsTokens ("RUN ".toList ++ command) toks ↔ tokens command = some toks := by
  constructor
  · rintro ⟨command', heq, htokens⟩
    rwa [List.append_cancel_left heq]
  · exact fun htokens => ⟨command, rfl, htokens⟩

/-- A line that must be the only one. -/
theorem exists_line_iff {lines : List Text} {line : Text} {p : Text → Prop}
    (hlines : lines = [line]) : (∃ line', lines = [line'] ∧ p line') ↔ p line := by
  subst hlines
  constructor
  · rintro ⟨line', heq, hp⟩
    rwa [List.singleton_inj.mp heq]
  · exact fun hp => ⟨line, rfl, hp⟩

/-- A step without packages has no line. -/
theorem lines_nil : (ImageStep.apt []).lines = [] ∧ (ImageStep.pip []).lines = [] := ⟨rfl, rfl⟩

/-- System packages reach `apt-get install` exactly when they are plain. -/
theorem ImageStep.reaches_apt_iff (packages : List Text) :
    (ImageStep.apt packages).Reaches ↔ ∀ package ∈ packages, Plain package := by
  unfold ImageStep.Reaches
  by_cases hpackages : packages = []
  · subst hpackages
    dsimp only
    rw [if_pos rfl, lines_nil.1]
    simp
  · have hlines := lines_apt_eq hpackages
    dsimp only
    rw [if_neg hpackages, exists_line_iff hlines, runsTokens_run_iff, hlines]
    constructor
    · exact fun h => plain_of_tokens_apt h.2
    · intro hplain
      refine ⟨fun line hline => ?_, tokens_apt hplain⟩
      obtain rfl := List.mem_singleton.mp hline
      refine oneInstruction_of_chunks fun chunk hchunk => ?_
      simp only [aptChunks, List.mem_append, List.mem_cons, List.not_mem_nil, or_false] at hchunk
      rcases hchunk with hw | rfl | (hw | hw) | rfl | hw | rfl
      · exact newline_not_mem (plain_of_mem_words (by simp [hw]))
      · decide
      · exact newline_not_mem (plain_of_mem_words (by simp [hw]))
      · exact newline_not_mem (hplain chunk hw)
      · decide
      · exact newline_not_mem (plain_of_mem_words (by simp [hw]))
      · decide

/-- Python packages reach `pip install` exactly when they are plain. -/
theorem ImageStep.reaches_pip_iff (packages : List Text) :
    (ImageStep.pip packages).Reaches ↔ ∀ package ∈ packages, Plain package := by
  unfold ImageStep.Reaches
  by_cases hpackages : packages = []
  · subst hpackages
    dsimp only
    rw [if_pos rfl, lines_nil.2]
    simp
  · have hlines := lines_pip_eq hpackages
    dsimp only
    rw [if_neg hpackages, exists_line_iff hlines, runsTokens_run_iff, hlines]
    constructor
    · exact fun h => plain_of_tokens_pip h.2
    · intro hplain
      refine ⟨fun line hline => ?_, tokens_pip hplain⟩
      obtain rfl := List.mem_singleton.mp hline
      refine oneInstruction_of_chunks fun chunk hchunk => ?_
      rcases List.mem_append.mp hchunk with hw | hw
      · exact newline_not_mem (plain_of_mem_words (by simp [hw]))
      · exact newline_not_mem (hplain chunk hw)

/-- Commands are one instruction each exactly when none holds a line break. -/
theorem ImageStep.reaches_run_iff (commands : List Text) :
    (ImageStep.run commands).Reaches ↔ ∀ command ∈ commands, '\n' ∉ command := by
  unfold ImageStep.Reaches
  dsimp only
  rw [lines_run commands]
  constructor
  · intro h command hcommand hmem
    exact h.1 ("RUN ".toList ++ command) (List.mem_map_of_mem hcommand)
      (List.mem_append_right _ hmem)
  · intro hcommands
    refine ⟨fun line hline => ?_, rfl⟩
    obtain ⟨command, hcommand, rfl⟩ := List.mem_map.mp hline
    intro hmem
    rcases List.mem_append.mp hmem with hmem | hmem
    · exact absurd hmem (by decide)
    · exact hcommands command hcommand hmem

/-- **The strings of a step reach the installer exactly when none of them means anything to the
shell or ends the line.** -/
theorem ImageStep.reaches_iff (step : ImageStep) : step.Reaches ↔ step.Unchanged := by
  cases step with
  | apt packages => exact reaches_apt_iff packages
  | pip packages => exact reaches_pip_iff packages
  | run commands => exact reaches_run_iff commands

/-- **Declared image steps reach the installers unchanged exactly when no package means anything
to a POSIX shell and no command holds a line break.** -/
theorem image_steps_reach_iff (spec : ImageSpec) (steps : List ImageStep) :
    StepsReach spec steps ↔ ∀ step ∈ steps, step.Unchanged := by
  constructor
  · exact fun h step hstep => step.reaches_iff.mp (h.2 step hstep)
  · exact fun h => ⟨dockerfileCommands_applyImageSteps spec steps,
      fun step hstep => step.reaches_iff.mpr (h step hstep)⟩

/-- A lower bound on a version redirects the installer's output. -/
theorem image_steps_lose_version : tokens
      "python3 -m pip install --no-cache-dir numpy>=1.26".toList = none ∧
    ¬ StepsReach (.fromRegistry "rust:1-slim".toList) [.pip ["numpy>=1.26".toList]] := by
  refine ⟨by decide, fun h => ?_⟩
  have hreaches := h.2 _ (List.mem_singleton_self _)
  have hplain := (ImageStep.reaches_iff _).mp hreaches "numpy>=1.26".toList (by simp)
  exact absurd (hplain.ordinary '>' (by decide)) (by decide)

end ModalRust.Provision
