/-
Joining continuation lines by looking ahead.

Going through the lines and remembering the last code line comes to the same as giving each code
line at once the contents of all continuation lines that follow it.
-/

import CobolAnalysis.Source.Stage

namespace CobolAnalysis.Source.Stage

/-- The continuation lines that belong to the last code line before `lines`, in order. -/
def continuations : List Line → List Line
  | [] => []
  | line :: rest =>
      if line.isContinuation then line :: continuations rest
      else if isCode line then []
      else continuations rest

/-- The content of a code line with all its continuation lines joined on. -/
def joined (line : Line) (rest : List Line) : List Char :=
  (continuations rest).foldl (fun text next => join text next.content) line.content

def joinLines : List Line → List Line
  | [] => []
  | line :: rest =>
      (if line.isContinuation then line.cleared
        else if isCode line then line.withContent (joined line rest)
        else line) :: joinLines rest

/-- The continuation lines before the first code line. -/
def orphans (lines : List Line) : List Line := continuations lines

theorem length_joinLines (lines : List Line) : (joinLines lines).length = lines.length := by
  induction lines with
  | nil => rfl
  | cons line rest ih => exact congrArg Nat.succ ih

/-! ### The remembered line -/

theorem modify_middle (before after : List Line) (head : Line) (change : Line → Line) :
    (before ++ head :: after).modify before.length change = before ++ change head :: after := by
  induction before with
  | nil => rfl
  | cons first others ih => exact congrArg (first :: ·) ih

section Cases

variable {line : Line} (rest : List Line)

theorem continuations_continuation (continues : line.isContinuation = true) :
    continuations (line :: rest) = line :: continuations rest := if_pos continues

theorem continuations_code (whole : ¬line.isContinuation = true) (code : isCode line = true) :
    continuations (line :: rest) = [] := by
  unfold continuations
  rw [if_neg whole, if_pos code]

theorem continuations_other (whole : ¬line.isContinuation = true) (noCode : ¬isCode line = true) :
    continuations (line :: rest) = continuations rest := by
  rw [continuations, if_neg whole, if_neg noCode]

theorem joinLines_continuation (continues : line.isContinuation = true) :
    joinLines (line :: rest) = line.cleared :: joinLines rest := by
  rw [joinLines, if_pos continues]

theorem joinLines_code (whole : ¬line.isContinuation = true) (code : isCode line = true) :
    joinLines (line :: rest) = line.withContent (joined line rest) :: joinLines rest := by
  rw [joinLines, if_neg whole, if_pos code]

theorem joinLines_other (whole : ¬line.isContinuation = true) (noCode : ¬isCode line = true) :
    joinLines (line :: rest) = line :: joinLines rest := by
  rw [joinLines, if_neg whole, if_neg noCode]

end Cases

theorem joinFrom_code (before after : List Line) (head : Line) (rest : List Line) :
    joinFrom (before ++ head :: after).toArray (some before.length) rest =
      (before ++ head.withContent (joined head rest) :: (after ++ joinLines rest), []) := by
  induction rest generalizing before after head with
  | nil =>
      unfold joinFrom joinLines
      rw [List.append_nil]
      rfl
  | cons line rest ih =>
      by_cases continues : line.isContinuation = true
      · have taken : ((before ++ head :: after).toArray.modify before.length fun head =>
            head.withContent (join head.content line.content)).push line.cleared =
              (before ++ head.withContent (join head.content line.content) ::
                (after ++ [line.cleared])).toArray := by
          apply Array.toList_inj.mp
          rw [Array.toList_push, Array.toList_modify, modify_middle]
          simp
        unfold joinFrom joined
        simp only [if_pos continues]
        rw [taken, ih, continuations_continuation rest continues,
          joinLines_continuation rest continues, List.append_assoc]
        rfl
      · by_cases code : isCode line = true
        · have next := ih (before ++ head :: after) [] line
          unfold joinFrom joined
          simp only [if_neg continues, if_pos code]
          rw [List.push_toArray, List.size_toArray, next, continuations_code rest continues code,
            joinLines_code rest continues code, List.append_assoc]
          rfl
        · have next := ih before (after ++ [line]) head
          unfold joinFrom joined
          simp only [if_neg continues, if_neg code]
          rw [List.push_toArray, List.append_assoc, List.cons_append, next,
            continuations_other rest continues code, joinLines_other rest continues code,
            List.append_assoc]
          rfl

theorem joinFrom_none (settled rest : List Line) :
    joinFrom settled.toArray none rest = (settled ++ joinLines rest, continuations rest) := by
  induction rest generalizing settled with
  | nil =>
      unfold joinFrom joinLines
      rw [List.append_nil]
      rfl
  | cons line rest ih =>
      unfold joinFrom
      by_cases continues : line.isContinuation = true
      · simp only [if_pos continues]
        rw [List.push_toArray, ih, continuations_continuation rest continues,
          joinLines_continuation rest continues, List.append_assoc]
        rfl
      · by_cases code : isCode line = true
        · simp only [if_neg continues, if_pos code]
          rw [List.push_toArray, List.size_toArray, joinFrom_code,
            continuations_code rest continues code, joinLines_code rest continues code]
          rfl
        · simp only [if_neg continues, if_neg code]
          rw [List.push_toArray, ih, continuations_other rest continues code,
            joinLines_other rest continues code, List.append_assoc]
          rfl

/-- Each code line takes up its continuation lines, and those before the first code line are
reported. -/
theorem continuation_transform (uri : String) (lines : List Line) :
    continuation.transform uri lines =
      .ok ⟨joinLines lines, (orphans lines).map (orphan uri)⟩ := by
  have looked : joinFrom #[] none lines = (joinLines lines, orphans lines) :=
    joinFrom_none [] lines
  unfold continuation
  simp only [looked]

end CobolAnalysis.Source.Stage
