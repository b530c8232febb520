/-
Copybooks kept in memory.

Every request is counted. Requests for the names that are kept silent stay
without an answer; every other request is answered at once, with the text that
is held at that moment.
-/

import CobolAnalysis.Bus.Procedure
import CobolAnalysis.Table

namespace CobolAnalysis.Provider

structure Memory where
  copybooks : Table LogicalName (List Char)
  silent : List LogicalName
  requests : Nat
  deriving Inhabited

namespace Memory

def empty : Memory := ⟨.empty, [], 0⟩

def insert (memory : Memory) (name : LogicalName) (text : List Char) : Memory :=
  { memory with copybooks := memory.copybooks.insert name text }

def erase (memory : Memory) (name : LogicalName) : Memory :=
  { memory with copybooks := memory.copybooks.erase name }

def fetch (memory : Memory) (name : LogicalName) : FetchResult :=
  match memory.copybooks.get? name with
  | some text => .located name text
  | none => .missing name

def isSilent (memory : Memory) (name : LogicalName) : Bool := memory.silent.contains name

def countRequest (memory : Memory) : Memory := { memory with requests := memory.requests + 1 }

/-- The answer to a request for `name`, if one is given. -/
def answers (memory : Memory) (name : LogicalName) : List Event :=
  if memory.isSilent name then [] else [.fetch (memory.fetch name)]

def respond : Observer Memory := fun _ event =>
  match event with
  | .fetch _ => .done
  | .scan name =>
      .modify countRequest (.read fun memory => .publishAll (memory.answers name))

end Memory

end CobolAnalysis.Provider
