import ProcessCensus.Census.Order

/-!
What a caller wants of a list of processes: which of them, in which order, and how many.
-/

namespace ProcessCensus

/-- A choice, a ranking and a limit. Without a ranking the order stays; a limit of 0 is none. -/
structure Query where
  choice : Option Choice
  ranking : Option Ranking
  limit : Nat

namespace Query

/-- Every process. -/
def all : Query := { choice := none, ranking := none, limit := 0 }

/-- The processes that are chosen. -/
def choose (query : Query) (processes : List Snapshot) : List Snapshot :=
  match query.choice with
  | some choice => processes.filter choice
  | none => processes

/-- The processes in the order of the ranking. Those of equal rank keep their order. -/
def rank (query : Query) (processes : List Snapshot) : List Snapshot :=
  match query.ranking with
  | some ranking => processes.mergeSort fun a b => (ranking a b).isLE
  | none => processes

/-- As many of the processes as the limit allows. -/
def cut (query : Query) (processes : List Snapshot) : List Snapshot :=
  if query.limit = 0 then processes else processes.take query.limit

/-- The answer to the query from the given processes: chosen, then ranked, then cut. -/
def apply (query : Query) (processes : List Snapshot) : List Snapshot :=
  query.cut (query.rank (query.choose processes))

/-- The query in words. -/
def describe (query : Query) : String :=
  Text.describeStructure "ProcessQuery"
    [("filtered", Text.describeBool query.choice.isSome),
     ("sorted", Text.describeBool query.ranking.isSome), ("limit", toString query.limit)]

end Query

end ProcessCensus
