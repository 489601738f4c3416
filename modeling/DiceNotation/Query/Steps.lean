import DiceNotation.Query

/-!
# Steps on a query

A query can be asked for its parts, read, thrown any number of times, and freed of its reason. A
list of steps is done in order on one query and one source.
-/
namespace DiceNotation.Query

inductive Step where
  | text
  | expression
  | reason
  | options
  | dropReason
  | parse
  | solve
deriving DecidableEq, Repr

inductive Answer where
  | text (text : List Char)
  | reason (reason : Option (List Char))
  | options (options : Options)
  | parsed (result : Except RollError Expression)
  | solved (result : Except RollError Outcome)

section

variable {σ : Type} (source : Source σ)

def perform (query : Query) : Step → StateM σ (Answer × Query)
  | .text => return (.text query.text, query)
  | .expression => return (.text query.expression, query)
  | .reason => return (.reason query.reason?, query)
  | .options => return (.options query.options, query)
  | .dropReason => return (.text query.dropReason.text, query.dropReason)
  | .parse => return (.parsed query.parse, query)
  | .solve => do
    let result ← query.solve source
    return (.solved result, query)

def performAll (query : Query) : List Step → StateM σ (List Answer × Query)
  | [] => return ([], query)
  | step :: steps => do
    let (answer, query) ← query.perform source step
    let (answers, query) ← query.performAll steps
    return (answer :: answers, query)

end

end DiceNotation.Query
