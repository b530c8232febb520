/-
Preprocessing has no regard to letter case.

Debug lines are told by either letter, and what else the reader and the stages look for are
marks, quotes and blanks. So a text in capitals is preprocessed to what the text is
preprocessed to, in capitals, with the same reports.
-/

import CobolAnalysis.Proofs.Source.Joining
import CobolAnalysis.Proofs.Text.LetterCase
import CobolAnalysis.Source.Pipeline

namespace CobolAnalysis.Source

open Text (upper Caseless)

def Line.capitals (line : Line) : Line :=
  { line with sequence := upper line.sequence, content := upper line.content }

def capitalsAll (read : Diagnosed (List Line)) : Diagnosed (List Line) :=
  ⟨read.value.map Line.capitals, read.diagnostics⟩

/-! ### Reading -/

theorem Indicator.ofChar_eq_normal {character : Char} (star : character.toNat ≠ 42)
    (slash : character.toNat ≠ 47) (hyphen : character.toNat ≠ 45)
    (capital : character.toNat ≠ 68) (small : character.toNat ≠ 100) :
    ofChar character = normal := by
  unfold ofChar
  split
  · exact absurd rfl star
  · exact absurd rfl slash
  · exact absurd rfl hyphen
  · exact absurd rfl capital
  · exact absurd rfl small
  · rfl

theorem Indicator.ofChar_toUpper (character : Char) :
    ofChar character.toUpper = ofChar character := by
  rcases Text.toUpper_cases character with ⟨above, below, moved⟩ | ⟨_, same⟩
  · by_cases debug : character = 'd'
    · rw [debug]
      rfl
    · have apart : character.toNat ≠ 100 := fun same => debug (Char.toNat_inj.mp same)
      rw [ofChar_eq_normal, ofChar_eq_normal] <;> omega
  · rw [same]

theorem programText_upper (format : Format) (raw : List Char) :
    programText format (upper raw) = upper (programText format raw) := by
  unfold programText upper
  split
  · simp only [← List.map_take, ← List.map_drop]
  · simp only [← List.map_drop]

theorem referenceLine_upper (format : Format) (number : Nat) (raw : List Char) :
    referenceLine format number (upper raw) = (referenceLine format number raw).capitals := by
  have indicator : ((upper raw)[indicatorColumn]?).elim Indicator.normal Indicator.ofChar =
      (raw[indicatorColumn]?).elim Indicator.normal Indicator.ofChar := by
    unfold upper
    rw [List.getElem?_map]
    cases raw[indicatorColumn]? with
    | none => rfl
    | some character => exact Indicator.ofChar_toUpper character
  unfold referenceLine
  rw [indicator, programText_upper]
  simp only [Line.capitals, upper, List.map_take]

theorem freeLine_upper (number : Nat) (raw : List Char) :
    freeLine number (upper raw) = (freeLine number raw).capitals := by
  have mark : ['*', '>'].isPrefixOf (Text.trimStart (upper raw)) =
      ['*', '>'].isPrefixOf (Text.trimStart raw) := by
    rw [Text.trimStart_upper]
    rcases Text.trimStart raw with _ | ⟨first, _ | ⟨second, rest⟩⟩
    · rfl
    · exact congrArg (· && false) (Caseless.beq_toUpper (by decide) first)
    · change ('*' == first.toUpper && ('>' == second.toUpper && true)) = _
      rw [Caseless.beq_toUpper (by decide), Caseless.beq_toUpper (by decide)]
      rfl
  unfold freeLine
  rw [mark]
  rfl

theorem readLine_upper (format : Format) (number : Nat) (raw : List Char) :
    readLine format number (upper raw) = (readLine format number raw).capitals := by
  cases format with
  | fixed => exact referenceLine_upper .fixed number raw
  | variableLength => exact referenceLine_upper .variableLength number raw
  | free => exact freeLine_upper number raw

theorem contains_upper {character : Char} (caseless : Caseless character) (text : List Char) :
    (upper text).contains character = text.contains character := by
  induction text with
  | nil => rfl
  | cons first rest ih =>
      change (character == first.toUpper || (upper rest).contains character) = _
      rw [caseless.beq_toUpper, ih]
      rfl

theorem readFrom_upper (uri : String) (format : Format) (number : Nat)
    (raws : List (List Char)) :
    readFrom uri format number (raws.map upper) =
      (readFrom uri format number raws).map capitalsAll := by
  induction raws generalizing number with
  | nil => rfl
  | cons raw rest ih =>
      have tooLong : overlong uri format number (upper raw) = overlong uri format number raw := by
        unfold overlong upper
        rw [List.length_map]
      rw [List.map_cons, readFrom, readFrom, contains_upper (by decide), ih, readLine_upper, tooLong]
      split
      · rfl
      · cases readFrom uri format (number + 1) rest <;> rfl

/-! ### Literals and comments -/

theorem isQuote_toUpper (character : Char) : isQuote character.toUpper = isQuote character := by
  unfold isQuote
  rw [Caseless.toUpper_beq (by decide), Caseless.toUpper_beq (by decide)]

theorem caseless_of_isQuote {character : Char} (quote : isQuote character = true) :
    Caseless character := by
  unfold isQuote at quote
  simp only [Bool.or_eq_true, beq_iff_eq] at quote
  rcases quote with rfl | rfl <;> decide

def Opens (opened : Option Char) : Prop := ∀ quote, opened = some quote → isQuote quote = true

theorem Opens.none : Opens none := nofun

theorem Opens.quoteAfter {opened : Option Char} (opens : Opens opened) (character : Char) :
    Opens (quoteAfter opened character) := by
  intro quote same
  unfold Source.quoteAfter at same
  split at same
  · split at same
    next isQuote => exact Option.some.inj same ▸ isQuote
    next => cases same
  next already =>
    split at same
    · cases same
    · exact opens quote (same ▸ rfl)

theorem quoteAfter_toUpper {opened : Option Char} (opens : Opens opened) (character : Char) :
    quoteAfter opened character.toUpper = quoteAfter opened character := by
  unfold quoteAfter
  cases opened with
  | none =>
      simp only [isQuote_toUpper]
      split
      next quote => rw [(caseless_of_isQuote quote).toUpper]
      next => rfl
  | some quote =>
      have same := (caseless_of_isQuote (opens quote rfl)).toUpper_eq_iff character
      simp only [same]

theorem beforeComment_upper {opened : Option Char} (opens : Opens opened) (content : List Char) :
    beforeComment opened (upper content) = upper (beforeComment opened content) := by
  induction content generalizing opened with
  | nil => rfl
  | cons character rest ih =>
      have next : (upper rest).head? = some '>' ↔ rest.head? = some '>' := by
        cases rest with
        | nil => exact Iff.rfl
        | cons first others =>
            change some first.toUpper = _ ↔ some first = _
            rw [Option.some.injEq, Option.some.injEq]
            exact Caseless.toUpper_eq_iff (by decide) first
      have star : character.toUpper = '*' ↔ character = '*' :=
        Caseless.toUpper_eq_iff (by decide) character
      change beforeComment opened (character.toUpper :: upper rest) = _
      rw [beforeComment, beforeComment]
      simp only [star, next]
      split
      · rfl
      · rw [quoteAfter_toUpper opens, ih (opens.quoteAfter character)]
        rfl

theorem openQuote_upper (text : List Char) : openQuote (upper text) = openQuote text := by
  have folded : ∀ opened, Opens opened →
      (upper text).foldl quoteAfter opened = text.foldl quoteAfter opened := by
    induction text with
    | nil => exact fun _ _ => rfl
    | cons character rest ih =>
        intro opened opens
        change (upper rest).foldl quoteAfter (quoteAfter opened character.toUpper) = _
        rw [quoteAfter_toUpper opens, ih _ (opens.quoteAfter character)]
        rfl
  exact folded none Opens.none

theorem opens_openQuote (text : List Char) : Opens (openQuote text) := by
  have folded : ∀ opened, Opens opened → Opens (text.foldl quoteAfter opened) := by
    induction text with
    | nil => exact fun _ opens => opens
    | cons character rest ih => exact fun opened opens => ih _ (opens.quoteAfter character)
  exact folded none Opens.none

namespace Stage

theorem stripComment_capitals (line : Line) :
    stripComment line.capitals = (stripComment line).capitals := by
  unfold stripComment
  change (if line.isComment then _ else line.capitals.withContent
    (beforeComment none (upper line.content))) = _
  rw [beforeComment_upper Opens.none]
  split <;> rfl

theorem settleDebugLine_capitals (asCode : Bool) (line : Line) :
    settleDebugLine asCode line.capitals = (settleDebugLine asCode line).capitals := by
  unfold settleDebugLine
  change (if line.indicator = .debug then _ else _) = _
  split
  · split <;> rfl
  · rfl

/-! ### Continuation lines -/

theorem upper_append (first second : List Char) :
    upper (first ++ second) = upper first ++ upper second := List.map_append

theorem join_upper (head tail : List Char) :
    join (upper head) (upper tail) = upper (join head tail) := by
  unfold join
  simp only [Text.trimEnd_upper, Text.trim_upper, openQuote_upper]
  cases opened : openQuote (Text.trimEnd head) with
  | none => exact (upper_append _ _).symm
  | some quote =>
      have isQuote := opens_openQuote (Text.trimEnd head) quote opened
      cases Text.trim tail with
      | nil => exact (upper_append _ _).symm
      | cons first others =>
          have same := (caseless_of_isQuote isQuote).toUpper_eq_iff first
          change (if first.toUpper = quote then _ else _) = _
          simp only [same]
          split
          · exact (upper_append _ _).symm
          · exact (upper_append _ (first :: others)).symm

theorem isCode_capitals (line : Line) : isCode line.capitals = isCode line := by
  unfold isCode Line.isBlank
  change (!line.isContinuation && !line.isComment && !Text.isBlankText (upper line.content)) = _
  rw [Text.isBlankText_upper]

theorem continuations_capitals (lines : List Line) :
    continuations (lines.map Line.capitals) = (continuations lines).map Line.capitals := by
  induction lines with
  | nil => rfl
  | cons line rest ih =>
      rw [List.map_cons, continuations, continuations, ih, isCode_capitals]
      change (if line.isContinuation then _ else _) = _
      split
      · rfl
      · split <;> rfl

theorem joined_capitals (line : Line) (rest : List Line) :
    joined line.capitals (rest.map Line.capitals) = upper (joined line rest) := by
  have folded : ∀ (lines : List Line) (text : List Char),
      (lines.map Line.capitals).foldl (fun text next => join text next.content) (upper text) =
        upper (lines.foldl (fun text next => join text next.content) text) := by
    intro lines
    induction lines with
    | nil => exact fun _ => rfl
    | cons next others ih =>
        intro text
        change (others.map Line.capitals).foldl _ (join (upper text) (upper next.content)) = _
        rw [join_upper, ih]
        rfl
  unfold joined
  rw [continuations_capitals]
  exact folded (continuations rest) line.content

theorem joinLines_capitals (lines : List Line) :
    joinLines (lines.map Line.capitals) = (joinLines lines).map Line.capitals := by
  induction lines with
  | nil => rfl
  | cons line rest ih =>
      rw [List.map_cons, joinLines, joinLines, List.map_cons, ih, joined_capitals,
        isCode_capitals]
      refine congrArg (· :: _) ?_
      change (if line.isContinuation then _ else _) = _
      split
      · rfl
      · split <;> rfl

theorem orphan_capitals (uri : String) (line : Line) :
    orphan uri line.capitals = orphan uri line := by
  unfold orphan Line.location
  change Diagnostic.warning ⟨uri, Span.onLine line.number line.offset
    (upper line.content).length⟩ _ _ = _
  unfold upper
  rw [List.length_map]

/-! ### Stages -/

/-- Lines in capitals are transformed as the lines are, with the same reports. -/
def IgnoresCase (stage : Stage) : Prop :=
  ∀ uri lines, stage.transform uri (lines.map Line.capitals) =
    (stage.transform uri lines).map capitalsAll

theorem IgnoresCase.eachLine {name : String} {change : Line → Line}
    (ignores : ∀ line, change line.capitals = (change line).capitals) :
    (eachLine name change).IgnoresCase := by
  intro uri lines
  change Except.ok (Diagnosed.clean ((lines.map Line.capitals).map change)) =
    Except.ok ⟨(lines.map change).map Line.capitals, []⟩
  rw [List.map_map, List.map_map]
  exact congrArg (fun step => Except.ok (Diagnosed.clean (lines.map step))) (funext ignores)

theorem continuation_ignoresCase : continuation.IgnoresCase := by
  intro uri lines
  have same : (orphans (lines.map Line.capitals)).map (orphan uri) =
      (orphans lines).map (orphan uri) := by
    unfold orphans
    rw [continuations_capitals, List.map_map]
    exact congrArg (List.map · _) (funext (orphan_capitals uri))
  rw [continuation_transform, continuation_transform, joinLines_capitals, same]
  rfl

theorem IgnoresCase.runChecked {stage : Stage} (ignores : stage.IgnoresCase) (uri : String)
    (lines : List Line) :
    stage.runChecked uri (lines.map Line.capitals) =
      (stage.runChecked uri lines).map capitalsAll := by
  unfold Stage.runChecked
  rw [ignores]
  cases stage.transform uri lines with
  | error failure => rfl
  | ok answer =>
      change stage.countKept (lines.map Line.capitals) (capitalsAll answer) =
        (stage.countKept lines answer).map capitalsAll
      unfold countKept capitalsAll
      simp only [List.length_map]
      split <;> rfl

theorem IgnoresCase.pipeline {stages : List Stage} (ignore : ∀ stage ∈ stages, stage.IgnoresCase) :
    (Stage.pipeline stages).IgnoresCase := by
  intro uri lines
  change runAll uri stages (lines.map Line.capitals) = (runAll uri stages lines).map capitalsAll
  induction stages generalizing lines with
  | nil => rfl
  | cons stage rest ih =>
      obtain ⟨here, later⟩ := List.forall_mem_cons.mp ignore
      rw [runAll, runAll, here.runChecked]
      cases stage.runChecked uri lines with
      | error failure => rfl
      | ok answer =>
          have others : runAll uri rest (capitalsAll answer).value =
              (runAll uri rest answer.value).map capitalsAll := ih later answer.value
          simp only [show (Except.ok answer).map capitalsAll = .ok (capitalsAll answer) from rfl,
            others]
          cases runAll uri rest answer.value <;> rfl

theorem standard_ignoresCase (asCode : Bool) : (pipeline (standard asCode)).IgnoresCase := by
  refine .pipeline ?_
  unfold standard
  simp only [List.forall_mem_cons]
  exact ⟨.eachLine stripComment_capitals, .eachLine (settleDebugLine_capitals asCode),
    continuation_ignoresCase, List.forall_mem_nil _⟩

end Stage

/-! ### Whole texts -/

theorem Line.written_capitals (line : Line) : line.capitals.written = upper line.written := by
  unfold Line.written
  change (if (upper line.content).isEmpty then [] else
    List.replicate line.offset ' ' ++ Text.trimEnd (upper line.content)) = _
  rw [Text.trimEnd_upper]
  unfold upper
  rw [List.isEmpty_map]
  split
  · rfl
  · rw [List.map_append, List.map_replicate]
    rfl

theorem writeText_capitals (lines : List Line) :
    writeText (lines.map Line.capitals) = upper (writeText lines) := by
  unfold writeText
  rw [← Text.unlines_upper, List.map_map, List.map_map]
  exact congrArg (fun write => Text.unlines (lines.map write)) (funext Line.written_capitals)

def capitalsOf (written : Diagnosed (List Char)) : Diagnosed (List Char) :=
  ⟨upper written.value, written.diagnostics⟩

theorem preprocess_upper {stage : Stage} (ignores : stage.IgnoresCase) (uri : String)
    (format : Format) (text : List Char) :
    preprocess stage uri format (upper text) =
      (preprocess stage uri format text).map capitalsOf := by
  unfold preprocess readLines
  rw [Text.lines_upper, readFrom_upper]
  cases readFrom uri format 0 (Text.lines text) with
  | error failure => rfl
  | ok read =>
      have same : stage.transform uri (capitalsAll read).value =
          (stage.transform uri read.value).map capitalsAll := ignores uri read.value
      simp only [show (Except.ok read).map capitalsAll = .ok (capitalsAll read) from rfl, same]
      cases stage.transform uri read.value with
      | error failure => rfl
      | ok transformed =>
          exact congrArg (fun value => Except.ok (Diagnosed.mk value
            (read.diagnostics ++ transformed.diagnostics))) (writeText_capitals transformed.value)

end CobolAnalysis.Source
