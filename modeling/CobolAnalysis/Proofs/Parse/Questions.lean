/-
What the parser asks of the lexemes it looks at.

Apart from what is recorded of them, lexemes are asked for their kind, for the words they are, for
the blank after them, and for their column. A change of all lexemes that leaves the answers as they
are makes no difference to which of them are taken for names, nor to how far COPY statements reach.
-/

import CobolAnalysis.Parse.Document

namespace CobolAnalysis

/-- After the change, what is asked of a lexeme has the same answers. -/
structure Lexeme.KeepsAnswers (change : Lexeme → Lexeme) : Prop where
  kind : ∀ lexeme, (change lexeme).kind = lexeme.kind
  beforeBlank : ∀ lexeme, (change lexeme).beforeBlank = lexeme.beforeBlank
  column : ∀ lexeme, (change lexeme).column = lexeme.column
  letters : ∀ lexeme other,
    Text.sameLetters (change lexeme).text other = Text.sameLetters lexeme.text other

namespace Lexeme.KeepsAnswers

variable {change : Lexeme → Lexeme} (keeps : KeepsAnswers change)

include keeps

theorem isWord (lexeme : Lexeme) (keyword : String) :
    (change lexeme).isWord keyword = lexeme.isWord keyword := by
  unfold Lexeme.isWord
  rw [keeps.kind, keeps.letters]

theorem isAnyOf (lexeme : Lexeme) (keywords : List String) :
    (change lexeme).isAnyOf keywords = lexeme.isAnyOf keywords :=
  congrArg keywords.any (funext fun keyword => keeps.letters lexeme keyword.toList)

theorem isName (lexeme : Lexeme) : (change lexeme).isName = lexeme.isName := by
  unfold Lexeme.isName
  rw [keeps.kind]

theorem isSeparator (lexeme : Lexeme) : (change lexeme).isSeparator = lexeme.isSeparator := by
  unfold Lexeme.isSeparator
  rw [keeps.kind, keeps.beforeBlank]

theorem isRecognized (lexeme : Lexeme) : (change lexeme).isRecognized = lexeme.isRecognized := by
  unfold Lexeme.isRecognized
  rw [keeps.kind]

theorem any_isWord (lexeme : Option Lexeme) (keyword : String) :
    (lexeme.map change).any (Lexeme.isWord · keyword) = lexeme.any (Lexeme.isWord · keyword) := by
  cases lexeme with
  | none => rfl
  | some lexeme => exact keeps.isWord lexeme keyword

theorem any_isSeparator (lexeme : Option Lexeme) :
    (lexeme.map change).any Lexeme.isSeparator = lexeme.any Lexeme.isSeparator := by
  cases lexeme with
  | none => rfl
  | some lexeme => exact keeps.isSeparator lexeme

theorem filter_isName (lexeme : Option Lexeme) :
    (lexeme.map change).filter Lexeme.isName = (lexeme.filter Lexeme.isName).map change := by
  have same : Lexeme.isName ∘ change = Lexeme.isName := funext keeps.isName
  rw [Option.filter_map, same]

end Lexeme.KeepsAnswers

namespace Parse

variable {change : Lexeme → Lexeme} (keeps : Lexeme.KeepsAnswers change)

include keeps

/-! ### Sentences -/

namespace Sentence

theorem beginsSection_map (first : Lexeme) (rest : List Lexeme) :
    beginsSection (change first) (rest.map change) = beginsSection first rest := by
  unfold beginsSection
  rw [List.getElem?_map, List.getElem?_map, keeps.any_isWord, keeps.any_isSeparator,
    keeps.isAnyOf]

theorem beginsParagraph_map (inProcedure : Bool) (first : Lexeme) (rest : List Lexeme) :
    beginsParagraph inProcedure (change first) (rest.map change) =
      beginsParagraph inProcedure first rest := by
  unfold beginsParagraph
  rw [List.getElem?_map, keeps.any_isSeparator, keeps.isAnyOf, keeps.kind]

theorem inAreaA_map (format : Source.Format) (lexeme : Lexeme) :
    inAreaA format (change lexeme) = inAreaA format lexeme := by
  unfold inAreaA
  rw [keeps.column]

end Sentence

/-! ### Transfers of control -/

namespace Transfer

theorem rangeEnd_map (rest : List Lexeme) :
    rangeEnd (rest.map change) = (rangeEnd rest).map change := by
  have through : ((rest.map change)[0]?).any
      (fun lexeme => lexeme.isWord "THRU" || lexeme.isWord "THROUGH") =
        (rest[0]?).any fun lexeme => lexeme.isWord "THRU" || lexeme.isWord "THROUGH" := by
    rw [List.getElem?_map, Option.any_map]
    refine congrArg (Option.any · _) (funext fun lexeme => ?_)
    rw [keeps.isWord, keeps.isWord]
  unfold rangeEnd
  rw [through, List.getElem?_map, keeps.filter_isName]
  split
  · cases (rest[1]?).filter Lexeme.isName <;> rfl
  · rfl

theorem performed_map (rest : List Lexeme) :
    performed (rest.map change) = (performed rest).map change := by
  cases rest with
  | nil => rfl
  | cons target afterTarget =>
      have repetition : isRepetition (change target) (afterTarget.map change) =
          isRepetition target afterTarget := by
        unfold isRepetition
        rw [List.head?_map, keeps.any_isWord, keeps.kind]
      rw [List.map_cons, performed, performed, repetition, keeps.isName, keeps.isAnyOf,
        rangeEnd_map keeps]
      split <;> rfl

theorem gone_map (rest : List Lexeme) : gone (rest.map change) = (gone rest).map change := by
  unfold gone
  simp only [List.getElem?_map, keeps.any_isWord]
  split
  · rw [keeps.filter_isName]
    cases (rest[1]?).filter Lexeme.isName <;> rfl
  · rw [keeps.filter_isName]
    cases (rest[0]?).filter Lexeme.isName <;> rfl

theorem targets_map (word : Lexeme) (rest : List Lexeme) :
    targets (change word) (rest.map change) = (targets word rest).map change := by
  unfold targets
  rw [keeps.isWord, keeps.isWord, performed_map keeps, gone_map keeps]
  split
  · rfl
  · split <;> rfl

end Transfer

/-! ### COPY statements -/

namespace CopyStatement

theorem operand?_map (rest : List Lexeme) :
    operand? (rest.map change) = (operand? rest).map change := by
  have same : (fun lexeme : Lexeme => lexeme.isName || lexeme.kind == .literal) ∘ change =
      fun lexeme => lexeme.isName || lexeme.kind == .literal := by
    funext lexeme
    change ((change lexeme).isName || (change lexeme).kind == .literal) = _
    rw [keeps.isName, keeps.kind]
  unfold operand?
  rw [List.head?_map, Option.filter_map, same]

theorem pastSeparator_map (rest : List Lexeme) :
    pastSeparator (rest.map change) = pastSeparator rest := by
  induction rest with
  | nil => rfl
  | cons lexeme others ih =>
      rw [List.map_cons, pastSeparator, pastSeparator, ih, keeps.isSeparator]

theorem libraryExtent_map (rest : List Lexeme) :
    libraryExtent (rest.map change) = libraryExtent rest := by
  unfold libraryExtent
  rw [List.head?_map]
  cases rest.head? with
  | none => rfl
  | some lexeme => simp only [Option.map_some, keeps.isWord]

theorem endingExtent_map (rest : List Lexeme) :
    endingExtent (rest.map change) = endingExtent rest := by
  unfold endingExtent
  rw [List.head?_map, pastSeparator_map keeps]
  cases rest.head? with
  | none => rfl
  | some lexeme => simp only [Option.map_some, keeps.isSeparator, keeps.isWord]

theorem extent_map (rest : List Lexeme) : extent (rest.map change) = extent rest := by
  unfold extent
  rw [operand?_map keeps, pastSeparator_map keeps]
  cases operand? rest with
  | none => rfl
  | some operand =>
      simp only [Option.map_some, ← List.map_drop, libraryExtent_map keeps, endingExtent_map keeps]

end CopyStatement

end Parse

end CobolAnalysis
