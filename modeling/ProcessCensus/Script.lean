/-!
Answers laid down in advance. Each call takes the next one; the last one serves all further calls.
-/

namespace ProcessCensus

/-- The answers that are left. -/
structure Script (α : Type) where
  answers : List α

namespace Script

variable {α : Type}

/-- The same answer to every call. -/
def always (answer : α) : Script α := ⟨[answer]⟩

/-- The answer to the next call, if any answer was laid down. -/
def peek? (script : Script α) : Option α :=
  script.answers.head?

/-- What is left after a call. -/
def advance (script : Script α) : Script α :=
  match script.answers with
  | _ :: next :: rest => ⟨next :: rest⟩
  | _ => script

/-- The answer to a call, and what is left. -/
def next (script : Script α) : Option α × Script α :=
  (script.peek?, script.advance)

end Script

end ProcessCensus
