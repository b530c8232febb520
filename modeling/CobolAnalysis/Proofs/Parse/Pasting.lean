/-
Copybooks pasted in at the COPY statements that ask for them.

Lines are laid out as stretches of the document's own, with a line between them that is one
complete COPY statement. Walking over the lines with the copybooks pasted in defines what
walking over the lines as they are does, and what each copybook that is asked for defines by
itself. Only sentences that begin with an integer may not be read in two places of which one
lies in the procedure division and the other does not.
-/

import CobolAnalysis.Proofs.Parse.Walk
import CobolAnalysis.Proofs.Source.Stretches

namespace CobolAnalysis.Parse

open Source (Format StartsWhole rendered)

/-! ### The lexemes of lines -/

/-- The lexemes of lines that are preprocessed by themselves, the first of them in the place of
line `number`. -/
def lexemesFrom (format : Format) (asCode : Bool) (number : Nat) (raws : List (List Char)) :
    List Lexeme :=
  Lexeme.scanLines number (rendered format asCode raws)

section Stretches

variable {format : Format} {asCode : Bool} {raws : List (List Char)}

theorem lexemesFrom_append {first second : List (List Char)}
    (whole : StartsWhole format asCode second) (number : Nat) :
    lexemesFrom format asCode number (first ++ second) =
      lexemesFrom format asCode number first ++
        lexemesFrom format asCode (number + first.length) second := by
  unfold lexemesFrom
  rw [Source.rendered_append whole, Lexeme.scanLines_append, Source.length_rendered]

theorem lexemesFrom_unplaced (number other : Nat) :
    (lexemesFrom format asCode number raws).map Lexeme.unplaced =
      (lexemesFrom format asCode other raws).map Lexeme.unplaced :=
  Lexeme.scanLines_unplaced number other _

theorem CopyFree.moved {lexemes others : List Lexeme} (free : CopyFree lexemes)
    (same : lexemes.map Lexeme.unplaced = others.map Lexeme.unplaced) : CopyFree others := by
  intro lexeme member
  have moved : lexeme.unplaced ∈ lexemes.map Lexeme.unplaced :=
    same ▸ List.mem_map_of_mem member
  obtain ⟨twin, present, twins⟩ := List.mem_map.mp moved
  rw [← (Lexeme.answers_of_unplaced twins).2.1 "COPY"]
  exact free twin present

theorem Closed.moved {lexemes others : List Lexeme} (closed : Closed lexemes)
    (same : lexemes.map Lexeme.unplaced = others.map Lexeme.unplaced) : Closed others := by
  have last : ((lexemes.filter Lexeme.isRecognized).getLast?).map Lexeme.unplaced =
      ((others.filter Lexeme.isRecognized).getLast?).map Lexeme.unplaced := by
    have recognized : ∀ list : List Lexeme, (list.filter Lexeme.isRecognized).map Lexeme.unplaced =
        (list.map Lexeme.unplaced).filter Lexeme.isRecognized := by
      intro list
      rw [List.filter_map]
      rfl
    rw [← List.getLast?_map, ← List.getLast?_map, recognized, recognized, same]
  intro lexeme ends
  rw [Option.mem_def.mp ends] at last
  obtain ⟨twin, there, twins⟩ := Option.map_eq_some_iff.mp last
  rw [← (Lexeme.answers_of_unplaced twins).2.2]
  exact closed twin there

theorem CopyStatement.alone?_moved {lexemes others : List Lexeme}
    (same : lexemes.map Lexeme.unplaced = others.map Lexeme.unplaced) :
    alone? lexemes = alone? others := by
  have unplaced : ∀ list : List Lexeme, alone? (list.map Lexeme.unplaced) = alone? list := by
    intro list
    rcases list with _ | ⟨_, _ | ⟨_, _ | ⟨_, _ | _⟩⟩⟩ <;> rfl
  rw [← unplaced lexemes, same, unplaced]

theorem CopyStatement.startsWhole {statement : List Char} {name : LogicalName}
    (asks : alone? (lexemesFrom format asCode 0 [statement]) = some name) :
    StartsWhole format asCode [statement] := by
  unfold StartsWhole
  rw [List.map_singleton, Source.Stage.continuations]
  split
  next continues =>
    have none : lexemesFrom format asCode 0 [statement] = [] := by
      unfold lexemesFrom
      rw [Source.rendered_eq, List.map_singleton, Source.Stage.joinLines, if_pos continues]
      simp [Source.Stage.joinLines, Source.Line.cleared, Source.Line.withContent,
        Source.Line.written, Lexeme.scanLines, Lexeme.scanLine, Lexeme.scanFrom]
    rw [none] at asks
    cases asks
  next => split <;> rfl

/-! ### One stretch -/

/-- The lines by themselves hold no COPY statement, and no sentence goes on beyond them. -/
structure Complete (format : Format) (asCode : Bool) (raws : List (List Char)) : Prop where
  free : CopyFree (lexemesFrom format asCode 0 raws)
  closed : Closed (lexemesFrom format asCode 0 raws)

instance (format : Format) (asCode : Bool) (raws : List (List Char)) :
    Decidable (Complete format asCode raws) :=
  decidable_of_iff (CopyFree (lexemesFrom format asCode 0 raws) ∧
      Closed (lexemesFrom format asCode 0 raws))
    ⟨fun both => ⟨both.1, both.2⟩, fun complete => ⟨complete.free, complete.closed⟩⟩

/-- What the lines define; `begun` says whether the procedure division has begun before them. -/
def definedBy (format : Format) (asCode : Bool) (begun : Bool) (raws : List (List Char)) :
    List SymbolKey :=
  defined (walk (Sentence.plain format) (.resumed begun) (lexemesFrom format asCode 0 raws))

/-- Whether the procedure division has begun after the lines. -/
def begunAfter (format : Format) (asCode : Bool) (begun : Bool) (raws : List (List Char)) : Bool :=
  ((Progress.resumed begun).through (lexemesFrom format asCode 0 raws)).inProcedure

theorem defined_walk_eq_definedBy (free : CopyFree (lexemesFrom format asCode 0 raws))
    (uri : String) (options : Options) {progress : Progress} {begun : Bool}
    (alike : progress.Alike (.resumed begun)) (number : Nat) :
    defined (walk ⟨uri, format, options⟩ progress (lexemesFrom format asCode number raws)) =
      definedBy format asCode begun raws := by
  have moved := @lexemesFrom_unplaced format asCode raws number 0
  have formats : (⟨uri, format, options⟩ : Setting).format = (Sentence.plain format).format := rfl
  exact defined_walk_congr formats (free.moved moved.symm) moved alike

/-- A complete stretch is left at the start of a sentence, with its own definitions made. -/
theorem Complete.walk (complete : Complete format asCode raws) (uri : String) (options : Options)
    {progress : Progress} {begun : Bool} (alike : progress.Alike (.resumed begun)) (number : Nat)
    (rest : List Lexeme) :
    ∃ after : Progress, after.Alike (.resumed (begunAfter format asCode begun raws)) ∧
      defined (Parse.walk ⟨uri, format, options⟩ progress
          (lexemesFrom format asCode number raws ++ rest)) =
        definedBy format asCode begun raws ++
          defined (Parse.walk ⟨uri, format, options⟩ after rest) ∧
      requested (Parse.walk ⟨uri, format, options⟩ progress
          (lexemesFrom format asCode number raws ++ rest)) =
        requested (Parse.walk ⟨uri, format, options⟩ after rest) := by
  have moved := @lexemesFrom_unplaced format asCode raws number 0
  have free := complete.free.moved moved.symm
  have closed := complete.closed.moved moved.symm
  refine ⟨progress.through (lexemesFrom format asCode number raws), ?_, ?_, ?_⟩
  · have flag := (alike.through moved).inProcedure
    have after := alike.closed closed
    rw [flag] at after
    exact after
  · rw [defined_walk_append free closed, defined_walk_eq_definedBy complete.free uri options alike]
  · exact requested_walk_append free _ progress rest

end Stretches

/-! ### Pasting -/

section Pasting

variable (format : Format) (asCode : Bool)

/-- The lines of a copybook that can be pasted in for a COPY statement: they can be read, do not
continue a line before them, and are complete. -/
structure Pasteable (copybook : List (List Char)) : Prop extends
    Complete format asCode copybook where
  readable : ∀ raw ∈ copybook, '\x00' ∉ raw
  whole : StartsWhole format asCode copybook

instance (copybook : List (List Char)) : Decidable (Pasteable format asCode copybook) :=
  decidable_of_iff (Complete format asCode copybook ∧ (∀ raw ∈ copybook, '\x00' ∉ raw) ∧
      StartsWhole format asCode copybook)
    ⟨fun all => ⟨all.1, all.2.1, all.2.2⟩,
      fun pasteable => ⟨pasteable.toComplete, pasteable.readable, pasteable.whole⟩⟩

/-- The lines define the same with either flag for whether the procedure division has begun before
them: if the flags differ, no sentence before the next word DIVISION begins with an integer. -/
def ReadAlike (begun other : Bool) (raws : List (List Char)) : Prop :=
  begun = other ∨ LevelFree true (lexemesFrom format asCode 0 raws)

instance (begun other : Bool) (raws : List (List Char)) :
    Decidable (ReadAlike format asCode begun other raws) :=
  inferInstanceAs (Decidable (_ ∨ _))

/-- The second list of lines is the first with the lines of its copybook in place of each line that
asks for one. Such a line is one complete COPY statement at the start of a sentence, and is not
continued on the next line. `held` has the copybooks at hand.

Every stretch is read in two places: in the lines as they are or, if it is a copybook, by itself, and
in the lines with the copybooks pasted in. The flags say whether the procedure division has begun in
these two places, and `Fits` is what is asked of the stretch besides. -/
inductive Pastes (held : LogicalName → Option (List (List Char)))
    (Fits : Bool → Bool → List (List Char) → Prop) :
    Bool → Bool → List (List Char) → List (List Char) → Prop where
  | own {begun pastedBegun : Bool} {own : List (List Char)}
      (free : CopyFree (lexemesFrom format asCode 0 own)) (fits : Fits begun pastedBegun own) :
      Pastes held Fits begun pastedBegun own own
  | copy {begun pastedBegun : Bool} {own : List (List Char)} {statement : List Char}
      {name : LogicalName} {copybook rest pasted : List (List Char)}
      (complete : Complete format asCode own) (fits : Fits begun pastedBegun own)
      (asks : CopyStatement.alone? (lexemesFrom format asCode 0 [statement]) = some name)
      (found : held name = some copybook) (pasteable : Pasteable format asCode copybook)
      (copybookFits : Fits false (begunAfter format asCode pastedBegun own) copybook)
      (whole : StartsWhole format asCode rest)
      (further : Pastes held Fits (begunAfter format asCode begun own)
        (begunAfter format asCode (begunAfter format asCode pastedBegun own) copybook)
        rest pasted) :
      Pastes held Fits begun pastedBegun (own ++ statement :: rest) (own ++ (copybook ++ pasted))

def broughtIn (held : LogicalName → Option (List (List Char))) (names : List LogicalName) :
    List SymbolKey :=
  names.flatMap fun name => ((held name).map (definedBy format asCode false)).getD []

end Pasting

section Pasting

variable {format : Format} {asCode : Bool} {held : LogicalName → Option (List (List Char))}
  {Fits : Bool → Bool → List (List Char) → Prop} {begun pastedBegun : Bool}
  {raws pasted : List (List Char)}

theorem ReadAlike.definedBy_eq (alike : ReadAlike format asCode begun pastedBegun raws)
    (free : CopyFree (lexemesFrom format asCode 0 raws)) :
    definedBy format asCode begun raws = definedBy format asCode pastedBegun raws := by
  rcases alike with rfl | levelFree
  · rfl
  · have same : definedBy format asCode true raws = definedBy format asCode false raws :=
      defined_walk_levelFree free _ levelFree
    cases begun <;> cases pastedBegun <;> first | rfl | exact same | exact same.symm

theorem Pastes.startsWhole (pastes : Pastes format asCode held Fits begun pastedBegun raws pasted)
    (whole : StartsWhole format asCode raws) : StartsWhole format asCode pasted := by
  induction pastes with
  | own => exact whole
  | copy complete fits asks found pasteable copybookFits wholeRest further ih =>
      exact whole.left.append (pasteable.whole.append (ih wholeRest))

theorem Pastes.readable (pastes : Pastes format asCode held Fits begun pastedBegun raws pasted)
    (clean : ∀ raw ∈ raws, '\x00' ∉ raw) : ∀ raw ∈ pasted, '\x00' ∉ raw := by
  induction pastes with
  | own => exact clean
  | copy complete fits asks found pasteable copybookFits whole further ih =>
      obtain ⟨own, others⟩ := List.forall_mem_append.mp clean
      have rest := ih (List.forall_mem_cons.mp others).2
      exact List.forall_mem_append.mpr ⟨own, List.forall_mem_append.mpr ⟨pasteable.readable, rest⟩⟩

theorem walk_statement {own rest : List (List Char)} (complete : Complete format asCode own)
    {statement : List Char} {name : LogicalName}
    (asks : CopyStatement.alone? (lexemesFrom format asCode 0 [statement]) = some name)
    (whole : StartsWhole format asCode rest) (uri : String) (options : Options)
    {progress : Progress} (alike : progress.Alike (.resumed begun)) (number : Nat) :
    ∃ (after : Progress) (further : Nat),
      after.Alike (.resumed (begunAfter format asCode begun own)) ∧
      defined (walk ⟨uri, format, options⟩ progress
          (lexemesFrom format asCode number (own ++ statement :: rest))) =
        definedBy format asCode begun own ++
          defined (walk ⟨uri, format, options⟩ after (lexemesFrom format asCode further rest)) ∧
      requested (walk ⟨uri, format, options⟩ progress
          (lexemesFrom format asCode number (own ++ statement :: rest))) =
        name :: requested (walk ⟨uri, format, options⟩ after
          (lexemesFrom format asCode further rest)) := by
  have alone := asks
  rw [CopyStatement.alone?_moved (lexemesFrom_unplaced 0 (number + own.length))] at alone
  have apart : lexemesFrom format asCode number (own ++ statement :: rest) =
      lexemesFrom format asCode number own ++
        (lexemesFrom format asCode (number + own.length) [statement] ++
          lexemesFrom format asCode (number + own.length + 1) rest) := by
    have wholeHere := CopyStatement.startsWhole asks
    rw [← List.singleton_append, lexemesFrom_append (wholeHere.append whole),
      lexemesFrom_append whole]
    rfl
  obtain ⟨past, pastAlike, ownDefined, ownRequested⟩ := complete.walk uri options alike number
    (lexemesFrom format asCode (number + own.length) [statement] ++
      lexemesFrom format asCode (number + own.length + 1) rest)
  obtain ⟨after, afterAlike, definesNothing, asked⟩ :=
    walk_alone ⟨uri, format, options⟩ past alone
      (lexemesFrom format asCode (number + own.length + 1) rest)
  rw [pastAlike.inProcedure] at afterAlike
  refine ⟨after, number + own.length + 1, afterAlike, ?_, ?_⟩
  · rw [apart, ownDefined, definesNothing]
  · rw [apart, ownRequested, asked]

theorem Pastes.requested (pastes : Pastes format asCode held Fits begun pastedBegun raws pasted)
    (uri : String) (options : Options) {progress : Progress}
    (alike : progress.Alike (.resumed begun)) (number : Nat) :
    ∀ name ∈ Parse.requested (walk ⟨uri, format, options⟩ progress
        (lexemesFrom format asCode number raws)),
      ∃ copybook, held name = some copybook ∧ Pasteable format asCode copybook := by
  induction pastes generalizing progress number with
  | own free fits =>
      rw [requested_walk (free.moved (lexemesFrom_unplaced 0 number))]
      exact List.forall_mem_nil _
  | copy complete fits asks found pasteable copybookFits whole further ih =>
      obtain ⟨after, onward, afterAlike, _, asked⟩ :=
        walk_statement complete asks whole uri options alike number
      rw [asked]
      exact List.forall_mem_cons.mpr ⟨⟨_, found, pasteable⟩, ih afterAlike onward⟩

theorem walk_pasted {own copybook rest : List (List Char)} (complete : Complete format asCode own)
    (pasteable : Pasteable format asCode copybook) (whole : StartsWhole format asCode rest)
    (uri : String) (options : Options) {progress : Progress}
    (alike : progress.Alike (.resumed begun)) (number : Nat) :
    ∃ (after : Progress) (further : Nat),
      after.Alike (.resumed
        (begunAfter format asCode (begunAfter format asCode begun own) copybook)) ∧
      defined (walk ⟨uri, format, options⟩ progress
          (lexemesFrom format asCode number (own ++ (copybook ++ rest)))) =
        definedBy format asCode begun own ++
          (definedBy format asCode (begunAfter format asCode begun own) copybook ++
            defined (walk ⟨uri, format, options⟩ after
              (lexemesFrom format asCode further rest))) := by
  have apart : lexemesFrom format asCode number (own ++ (copybook ++ rest)) =
      lexemesFrom format asCode number own ++
        (lexemesFrom format asCode (number + own.length) copybook ++
          lexemesFrom format asCode (number + own.length + copybook.length) rest) := by
    rw [lexemesFrom_append (pasteable.whole.append whole), lexemesFrom_append whole]
  obtain ⟨into, intoAlike, ownDefined, _⟩ := complete.walk uri options alike number
    (lexemesFrom format asCode (number + own.length) copybook ++
      lexemesFrom format asCode (number + own.length + copybook.length) rest)
  obtain ⟨after, afterAlike, copybookDefined, _⟩ := pasteable.toComplete.walk uri options
    intoAlike (number + own.length)
    (lexemesFrom format asCode (number + own.length + copybook.length) rest)
  refine ⟨after, number + own.length + copybook.length, afterAlike, ?_⟩
  rw [apart, ownDefined, copybookDefined]

/-- With the copybooks pasted in, the lines define what they define as they are, and what the
copybooks they ask for define by themselves. -/
theorem Pastes.defined
    (pastes : Pastes format asCode held (ReadAlike format asCode) begun pastedBegun raws pasted)
    (uri pastedUri : String) (options : Options) {progress other : Progress}
    (alike : progress.Alike (.resumed begun)) (otherAlike : other.Alike (.resumed pastedBegun))
    (number otherNumber : Nat) :
    (Parse.defined (walk ⟨pastedUri, format, options⟩ other
        (lexemesFrom format asCode otherNumber pasted))).Perm
      (Parse.defined (walk ⟨uri, format, options⟩ progress
          (lexemesFrom format asCode number raws)) ++
        broughtIn format asCode held (Parse.requested (walk ⟨uri, format, options⟩ progress
          (lexemesFrom format asCode number raws)))) := by
  induction pastes generalizing progress other number otherNumber with
  | own free fits =>
      rw [defined_walk_eq_definedBy free pastedUri options otherAlike,
        defined_walk_eq_definedBy free uri options alike, fits.definedBy_eq free,
        requested_walk (free.moved (lexemesFrom_unplaced 0 number))]
      exact List.Perm.of_eq (List.append_nil _).symm
  | @copy _ _ _ _ name copybook rest _ complete fits asks found pasteable copybookFits whole
      further ih =>
      obtain ⟨after, onward, afterAlike, here, asked⟩ :=
        walk_statement complete asks whole uri options alike number
      obtain ⟨past, onwardThere, pastAlike, there⟩ := walk_pasted complete pasteable
        (further.startsWhole whole) pastedUri options otherAlike otherNumber
      have brings : broughtIn format asCode held (name :: Parse.requested
            (walk ⟨uri, format, options⟩ after (lexemesFrom format asCode onward rest))) =
          definedBy format asCode false copybook ++ broughtIn format asCode held (Parse.requested
            (walk ⟨uri, format, options⟩ after (lexemesFrom format asCode onward rest))) := by
        unfold broughtIn
        rw [List.flatMap_cons, found]
        rfl
      rw [here, asked, there, fits.definedBy_eq complete.free, brings,
        ← copybookFits.definedBy_eq pasteable.free, List.append_assoc]
      have inside := (ih afterAlike pastAlike onward onwardThere).append_left
        (definedBy format asCode false copybook)
      exact (inside.trans (List.perm_append_comm_assoc _ _ _)).append_left _

/-! ### Whole documents -/

def findingsIn (setting : Setting) (asCode : Bool) (raws : List (List Char)) : List Finding :=
  walk setting .start (lexemesFrom setting.format asCode 0 raws)

theorem Pastes.requested_document (pastes : Pastes format asCode held Fits false false raws pasted)
    (uri : String) (options : Options) :
    ∀ name ∈ Parse.requested (findingsIn ⟨uri, format, options⟩ asCode raws),
      ∃ copybook, held name = some copybook ∧ Pasteable format asCode copybook :=
  pastes.requested uri options Progress.start_alike_resumed 0

theorem Pastes.defined_document
    (pastes : Pastes format asCode held (ReadAlike format asCode) false false raws pasted)
    (uri pastedUri : String) (options : Options) :
    (Parse.defined (findingsIn ⟨pastedUri, format, options⟩ asCode pasted)).Perm
      (Parse.defined (findingsIn ⟨uri, format, options⟩ asCode raws) ++
        broughtIn format asCode held
          (Parse.requested (findingsIn ⟨uri, format, options⟩ asCode raws))) :=
  pastes.defined uri pastedUri options Progress.start_alike_resumed Progress.start_alike_resumed 0 0

end Pasting

end CobolAnalysis.Parse
