/-
Following the COPY statements of a document.

All copybooks of a document are asked for, in order, before the first answer is
waited for; all answers are taken before the first copybook is read; then each
copybook is read and followed in turn, with everything below it, before the
next. A name on the way from the root document is never asked for again, and
the way never grows longer than the nesting depth that is allowed, so following
comes to an end whatever the answers are.

There is one worker thread. The order in which copybooks are read, and with it
the order of requests and diagnostics, is that of the references.
-/

import CobolAnalysis.Analysis.Config
import CobolAnalysis.Analysis.Inclusion
import CobolAnalysis.Resolution.Exchange

namespace CobolAnalysis

open Parse (Reference)

structure Analyzer (ω τ : Type) where
  reading : Reading
  config : Config
  exchange : Exchange ω τ

/-- A copybook that was asked for, and the copybooks around the reference that asked, outermost
first. -/
structure Request where
  chain : List LogicalName
  name : LogicalName
  deriving DecidableEq

structure Ledger (ω : Type) where
  world : ω
  /-- Names taken up by a reference, in the order in which that happened. -/
  claimed : List LogicalName
  requests : List Request

namespace Ledger

variable {ω : Type}

def start (world : ω) : Ledger ω := ⟨world, [], []⟩

def claim (ledger : Ledger ω) (name : LogicalName) : Ledger ω :=
  { ledger with claimed := ledger.claimed ++ [name] }

def asked (ledger : Ledger ω) (request : Request) (world : ω) : Ledger ω :=
  { ledger with world := world, requests := ledger.requests ++ [request] }

def moved (ledger : Ledger ω) (world : ω) : Ledger ω := { ledger with world := world }

end Ledger

inductive Planned (τ : Type) where
  | refused (reference : Reference) (refusal : Refusal)
  | repeated (reference : Reference)
  | pending (reference : Reference) (ticket : τ)

inductive Settled where
  | refused (reference : Reference) (refusal : Refusal)
  | repeated (reference : Reference)
  | resolved (reference : Reference) (content : List Char) (uri : String)
  deriving DecidableEq

namespace Analyzer

variable {ω τ : Type}

/-! ### Asking -/

/-- Whether the name was taken up before, under a policy by which it is not brought in again. -/
def isRepeated (analyzer : Analyzer ω τ) (ledger : Ledger ω) (name : LogicalName) : Bool :=
  analyzer.config.dedup == .shared && ledger.claimed.contains name

/-- Asks for a copybook that may be asked for, unless the analysis was cancelled. -/
def ask (analyzer : Analyzer ω τ) (chain : List LogicalName) (reference : Reference)
    (ledger : Ledger ω) : Option (Planned τ × Ledger ω) :=
  if analyzer.exchange.cancelled.get ledger.world then
    some (.refused reference .cancelled, ledger)
  else
    (analyzer.exchange.request reference.name ledger.world).map fun answer =>
      (.pending reference answer.1, ledger.asked ⟨chain, reference.name⟩ answer.2)

/-- The checks before a copybook is asked for, on a way that may grow longer. -/
def plan (analyzer : Analyzer ω τ) (chain : List LogicalName) (reference : Reference)
    (ledger : Ledger ω) : Option (Planned τ × Ledger ω) :=
  if chain.contains reference.name then
    some (.refused reference (.circular (chain ++ [reference.name])), ledger)
  else if analyzer.isRepeated ledger reference.name then
    some (.repeated reference, ledger)
  else analyzer.ask chain reference (ledger.claim reference.name)

def planAll (analyzer : Analyzer ω τ) (chain : List LogicalName) :
    List Reference → Ledger ω → Option (List (Planned τ) × Ledger ω)
  | [], ledger => some ([], ledger)
  | reference :: rest, ledger =>
      match analyzer.plan chain reference ledger with
      | none => none
      | some (planned, ledger) =>
          match planAll analyzer chain rest ledger with
          | none => none
          | some (others, ledger) => some (planned :: others, ledger)

/-! ### Waiting -/

def settle (analyzer : Analyzer ω τ) (reference : Reference) : Resolution → Settled
  | .resolved content uri => .resolved reference content (uri.getD reference.name.uri)
  | .notFound => .refused reference .notFound
  | .timedOut => .refused reference (.timedOut analyzer.config.timeout)
  | .cancelled => .refused reference .cancelled

def awaitAll (analyzer : Analyzer ω τ) :
    List (Planned τ) → Ledger ω → List Settled × Ledger ω
  | [], ledger => ([], ledger)
  | .refused reference refusal :: rest, ledger =>
      let others := awaitAll analyzer rest ledger
      (.refused reference refusal :: others.1, others.2)
  | .repeated reference :: rest, ledger =>
      let others := awaitAll analyzer rest ledger
      (.repeated reference :: others.1, others.2)
  | .pending reference ticket :: rest, ledger =>
      let answer := analyzer.exchange.await ticket ledger.world
      let others := awaitAll analyzer rest (ledger.moved answer.2)
      (analyzer.settle reference answer.1 :: others.1, others.2)

/-! ### Reading and following -/

/-- Brings in what was resolved; `follow` follows the references of a copybook that was read. -/
def includeAll (reading : Reading)
    (follow : LogicalName → List Reference → Ledger ω → Option (Inclusions × Ledger ω)) :
    List Settled → Ledger ω → Option (Inclusions × Ledger ω)
  | [], ledger => some (.none, ledger)
  | .refused reference refusal :: rest, ledger =>
      (includeAll reading follow rest ledger).map fun others =>
        (.refused reference refusal others.1, others.2)
  | .repeated reference :: rest, ledger =>
      (includeAll reading follow rest ledger).map fun others =>
        (.repeated reference others.1, others.2)
  | .resolved reference content uri :: rest, ledger =>
      match reading.document uri content with
      | .error error =>
          (includeAll reading follow rest ledger).map fun others =>
            (.refused reference (.broken error) others.1, others.2)
      | .ok document =>
          match follow reference.name document.references ledger with
          | none => none
          | some (below, ledger) =>
              (includeAll reading follow rest ledger).map fun others =>
                (.included reference uri document.context below others.1, others.2)

/-- A reference at the greatest depth. -/
def refusalAtLimit (analyzer : Analyzer ω τ) (chain : List LogicalName) (reference : Reference) :
    Refusal :=
  if chain.contains reference.name then .circular (chain ++ [reference.name])
  else .tooDeep analyzer.config.maxDepth

/-- Follows references found at the end of `chain`, at most `deeper` copybooks further down. -/
def explore (analyzer : Analyzer ω τ) :
    Nat → List LogicalName → List Reference → Ledger ω → Option (Inclusions × Ledger ω)
  | 0, chain, references, ledger =>
      some (references.foldr
        (fun reference rest => .refused reference (analyzer.refusalAtLimit chain reference) rest)
        .none, ledger)
  | deeper + 1, chain, references, ledger =>
      match analyzer.planAll chain references ledger with
      | none => none
      | some (planned, ledger) =>
          let settled := analyzer.awaitAll planned ledger
          includeAll analyzer.reading
            (fun name => explore analyzer deeper (chain ++ [name])) settled.1 settled.2

end Analyzer

end CobolAnalysis
