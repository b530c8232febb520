/-
Chains of stages inside chains of stages.

A chain either passes, every stage answering with as many lines as it was given, or it
is refused by the first stage that fails or that answers with another number of lines.
A chain that passes keeps the number of lines itself, so as a stage of another chain it
is never refused for a miscount, and what is refused inside it is refused with the error
of the stage inside. Hence it does not matter how the stages are grouped.
-/

import CobolAnalysis.Scenario.Stages
import CobolAnalysis.Source.Pipeline

namespace CobolAnalysis.Source.Stage

/-! ### One stage -/

/-- Why the stage cannot be passed: its own error, or its number of lines. -/
inductive Refuses (stage : Stage) (uri : String) (lines : List Line) : PreprocessError → Prop where
  | fails {failure} (failed : stage.transform uri lines = .error failure) :
      Refuses stage uri lines failure
  | miscounts {answer} (answered : stage.transform uri lines = .ok answer)
      (changed : answer.value.length ≠ lines.length) :
      Refuses stage uri lines (.stage stage.name
        ("returned " ++ toString answer.value.length ++ " lines for " ++
          toString lines.length ++ " input lines"))

section

variable {uri : String} {lines : List Line} {answer : Diagnosed (List Line)}
  {failure : PreprocessError}

theorem runChecked_eq_ok_iff (stage : Stage) :
    stage.runChecked uri lines = .ok answer ↔
      stage.transform uri lines = .ok answer ∧ answer.value.length = lines.length := by
  unfold runChecked
  cases stage.transform uri lines with
  | error failed => exact iff_of_false (fun none => nomatch none) fun both => nomatch both.1
  | ok given =>
      change stage.countKept lines given = .ok answer ↔ _
      unfold countKept
      split
      next kept =>
        rw [Except.ok.injEq]
        exact ⟨fun same => ⟨same, same ▸ kept⟩, And.left⟩
      next changed =>
        refine iff_of_false (fun none => nomatch none) ?_
        rintro ⟨same, kept⟩
        cases same
        exact changed kept

theorem runChecked_eq_error_iff (stage : Stage) :
    stage.runChecked uri lines = .error failure ↔ stage.Refuses uri lines failure := by
  constructor
  · intro refused
    unfold runChecked at refused
    split at refused
    next failed => exact Except.error.inj refused ▸ .fails failed
    next answered =>
      unfold countKept at refused
      split at refused
      next => cases refused
      next changed => exact Except.error.inj refused ▸ .miscounts answered changed
  · intro refuses
    unfold runChecked
    cases refuses with
    | fails failed => rw [failed]
    | miscounts answered changed =>
        rw [answered]
        exact if_neg changed

end

/-! ### A chain of stages -/

/-- Each stage answers what the one before has answered, with as many lines as it was given. The
answers' reports follow one another. -/
inductive Passes (uri : String) : List Stage → List Line → Diagnosed (List Line) → Prop where
  | nil {lines : List Line} : Passes uri [] lines (.clean lines)
  | cons {stage : Stage} {rest : List Stage} {lines : List Line}
      {answer last : Diagnosed (List Line)}
      (answered : stage.transform uri lines = .ok answer)
      (kept : answer.value.length = lines.length) (others : Passes uri rest answer.value last) :
      Passes uri (stage :: rest) lines ⟨last.value, answer.diagnostics ++ last.diagnostics⟩

/-- The first stage that cannot be passed, all stages before it being passed. -/
def Blames (uri : String) (stages : List Stage) (lines : List Line)
    (failure : PreprocessError) : Prop :=
  ∃ before stage after reached, stages = before ++ stage :: after ∧
    Passes uri before lines reached ∧ stage.Refuses uri reached.value failure

section

variable {uri : String} {lines : List Line} {answer : Diagnosed (List Line)}
  {failure : PreprocessError}

theorem Passes.length_eq {stages : List Stage} (passes : Passes uri stages lines answer) :
    answer.value.length = lines.length := by
  induction passes with
  | nil => rfl
  | cons answered kept others ih => exact ih.trans kept

theorem Passes.reported {stages : List Stage} (passes : Passes uri stages lines answer)
    (diagnostic : Diagnostic) (member : diagnostic ∈ answer.diagnostics) :
    ∃ stage ∈ stages, ∃ given result, stage.transform uri given = .ok result ∧
      diagnostic ∈ result.diagnostics := by
  induction passes with
  | nil => cases member
  | @cons stage rest lines answer last answered kept others ih =>
      rcases List.mem_append.mp member with here | later
      · exact ⟨stage, List.mem_cons_self, lines, answer, answered, here⟩
      · obtain ⟨other, present, found⟩ := ih later
        exact ⟨other, List.mem_cons_of_mem stage present, found⟩

theorem runAll_eq_ok_iff (stages : List Stage) :
    runAll uri stages lines = .ok answer ↔ Passes uri stages lines answer := by
  induction stages generalizing lines answer with
  | nil =>
      constructor
      · rintro ⟨⟩
        exact .nil
      · rintro ⟨⟩
        rfl
  | cons stage rest ih =>
      constructor
      · intro ran
        unfold runAll at ran
        split at ran
        next => cases ran
        next first checked =>
          split at ran
          next => cases ran
          next last continued =>
            cases ran
            obtain ⟨answered, kept⟩ := stage.runChecked_eq_ok_iff.mp checked
            exact .cons answered kept (ih.mp continued)
      · rintro (_ | ⟨answered, kept, others⟩)
        rw [runAll, stage.runChecked_eq_ok_iff.mpr ⟨answered, kept⟩]
        simp only [ih.mpr others]

theorem runAll_eq_error_iff (stages : List Stage) :
    runAll uri stages lines = .error failure ↔ Blames uri stages lines failure := by
  induction stages generalizing lines with
  | nil =>
      refine iff_of_false (fun none => nomatch none) ?_
      rintro ⟨before, stage, after, _, none, _⟩
      exact List.append_ne_nil_of_right_ne_nil before (List.cons_ne_nil stage after) none.symm
  | cons stage rest ih =>
      constructor
      · intro ran
        unfold runAll at ran
        split at ran
        next failed checked =>
          cases ran
          exact ⟨[], stage, rest, .clean lines, rfl, .nil, stage.runChecked_eq_error_iff.mp checked⟩
        next first checked =>
          split at ran
          next failed continued =>
            cases ran
            obtain ⟨answered, kept⟩ := stage.runChecked_eq_ok_iff.mp checked
            obtain ⟨before, blamed, after, reached, rfl, passed, refuses⟩ := ih.mp continued
            exact ⟨stage :: before, blamed, after, _, rfl, .cons answered kept passed, refuses⟩
          next => cases ran
      · rintro ⟨before, blamed, after, reached, split, passed, refuses⟩
        rw [runAll]
        cases passed with
        | nil =>
            obtain ⟨rfl, rfl⟩ := List.cons.inj split
            have refused : stage.runChecked uri lines = .error failure :=
              stage.runChecked_eq_error_iff.mpr refuses
            rw [refused]
        | cons answered kept others =>
            obtain ⟨rfl, rfl⟩ := List.cons.inj split
            rw [stage.runChecked_eq_ok_iff.mpr ⟨answered, kept⟩]
            simp only [ih.mpr ⟨_, blamed, after, _, rfl, others, refuses⟩]

end

/-! ### Chains in chains -/

/-- What becomes of an answer in the stages that follow it. -/
def thenAll (uri : String) (rest : List Stage) (answer : Diagnosed (List Line)) :
    Except PreprocessError (Diagnosed (List Line)) :=
  (runAll uri rest answer.value).map fun last =>
    ⟨last.value, answer.diagnostics ++ last.diagnostics⟩

theorem runAll_cons (uri : String) (stage : Stage) (rest : List Stage) (lines : List Line) :
    runAll uri (stage :: rest) lines = (stage.runChecked uri lines).bind (thenAll uri rest) := by
  rw [runAll]
  cases stage.runChecked uri lines with
  | error failure => rfl
  | ok answer =>
      dsimp only [Except.bind, thenAll]
      cases runAll uri rest answer.value <;> rfl

theorem thenAll_cons (uri : String) (stage : Stage) (rest : List Stage)
    (answer : Diagnosed (List Line)) :
    thenAll uri (stage :: rest) answer =
      (stage.runChecked uri answer.value).bind fun next =>
        thenAll uri rest ⟨next.value, answer.diagnostics ++ next.diagnostics⟩ := by
  unfold thenAll
  rw [runAll_cons]
  cases stage.runChecked uri answer.value with
  | error failure => rfl
  | ok next =>
      change (thenAll uri rest next).map _ = (runAll uri rest next.value).map _
      unfold thenAll
      cases runAll uri rest next.value with
      | error failure => rfl
      | ok last =>
          have reports := List.append_assoc answer.diagnostics next.diagnostics last.diagnostics
          exact congrArg (fun reports => Except.ok (Diagnosed.mk last.value reports)) reports.symm

theorem thenAll_append (uri : String) (first second : List Stage)
    (answer : Diagnosed (List Line)) :
    thenAll uri (first ++ second) answer =
      (thenAll uri first answer).bind (thenAll uri second) := by
  induction first generalizing answer with
  | nil =>
      change thenAll uri second answer = thenAll uri second ⟨_, answer.diagnostics ++ []⟩
      rw [List.append_nil]
      rfl
  | cons stage rest ih =>
      rw [List.cons_append, thenAll_cons, thenAll_cons]
      cases stage.runChecked uri answer.value with
      | error failure => rfl
      | ok next => exact ih _

theorem thenAll_clean (uri : String) (stages : List Stage) (lines : List Line) :
    thenAll uri stages (.clean lines) = runAll uri stages lines := by
  unfold thenAll
  change (runAll uri stages lines).map _ = _
  cases runAll uri stages lines <;> rfl

theorem runAll_append (uri : String) (first second : List Stage) (lines : List Line) :
    runAll uri (first ++ second) lines =
      (runAll uri first lines).bind (thenAll uri second) := by
  rw [← thenAll_clean, thenAll_append, thenAll_clean]

theorem runChecked_pipeline (uri : String) (stages : List Stage) (lines : List Line) :
    (pipeline stages).runChecked uri lines = runAll uri stages lines := by
  have answers : (pipeline stages).transform uri lines = runAll uri stages lines := rfl
  cases ran : runAll uri stages lines with
  | error failure => exact (runChecked_eq_error_iff _).mpr (.fails (answers.trans ran))
  | ok answer =>
      have passes := (runAll_eq_ok_iff stages).mp ran
      exact (runChecked_eq_ok_iff _).mpr ⟨answers.trans ran, passes.length_eq⟩

/-- The stages of an inner chain may as well stand in the outer one. -/
theorem pipeline_pipeline (before inner after : List Stage) :
    pipeline (before ++ pipeline inner :: after) = pipeline (before ++ inner ++ after) := by
  refine congrArg (Stage.mk "pipeline") (funext fun uri => funext fun lines => ?_)
  have unpacked : thenAll uri (pipeline inner :: after) = thenAll uri (inner ++ after) := by
    funext answer
    unfold thenAll
    rw [runAll_cons, runChecked_pipeline, ← runAll_append]
  rw [List.append_assoc, runAll_append, runAll_append, unpacked]

/-- Chains nest freely. A chain at the beginning or at the end of another one does what its stages
would do there, and the empty chain does nothing. A chain answers exactly if all its stages pass,
and then with as many lines as it was given; it fails exactly with the error of the first stage
that cannot be passed. -/
theorem pipelines_nest (uri : String) (lines : List Line) (stages others : List Stage) :
    (pipeline ([pipeline stages] ++ others)).transform uri lines =
        (pipeline (stages ++ others)).transform uri lines ∧
      (pipeline (others ++ [pipeline stages])).transform uri lines =
        (pipeline (others ++ stages)).transform uri lines ∧
      (pipeline []).transform uri lines = .ok (.clean lines) ∧
      (∀ answer, (pipeline stages).transform uri lines = .ok answer ↔
        Passes uri stages lines answer ∧ answer.value.length = lines.length) ∧
      ∀ failure, (pipeline stages).transform uri lines = .error failure ↔
        Blames uri stages lines failure := by
  have first := pipeline_pipeline [] stages others
  have last := pipeline_pipeline others stages []
  rw [List.append_nil] at last
  refine ⟨congrArg (fun stage => stage.transform uri lines) first,
    congrArg (fun stage => stage.transform uri lines) last, rfl, fun answer => ?_,
    fun failure => runAll_eq_error_iff stages⟩
  exact (runAll_eq_ok_iff stages).trans ⟨fun passes => ⟨passes, passes.length_eq⟩, And.left⟩

/-- The inner stage that drops a line is blamed, not the chain around it. -/
example : (pipeline [pipeline [Scenario.capitals, Scenario.dropLast],
      Scenario.failAlways "late"]).transform "file:///A" [default] =
    .error (.stage "drop-last" "returned 0 lines for 1 input lines") := rfl

end CobolAnalysis.Source.Stage
