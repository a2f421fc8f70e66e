import Mathlib.Data.List.Basic

/-! Answers that name no request, matched to the requests in order. -/

namespace Fifo

variable {Request Answer : Type} {requests : List Request} {answers : List Answer}

/-- The requests that have no answer yet, oldest first. -/
def outstanding (requests : List Request) (answers : List Answer) : List Request :=
  requests.drop answers.length

/-- Each answer belongs to the oldest request without one. -/
def matched (requests : List Request) (answers : List Answer) : List (Request × Answer) :=
  requests.zip answers

/-- Every request is answered or outstanding. -/
theorem matched_outstanding (requests : List Request) (answers : List Answer) :
    (matched requests answers).map Prod.fst ++ outstanding requests answers = requests := by
  induction answers generalizing requests with
  | nil => simp [matched, outstanding]
  | cons answer answers ih =>
    cases requests with
    | nil => rfl
    | cons request requests => exact congrArg _ (ih requests)

/-- A request waits behind those that are outstanding. -/
theorem outstanding_request (served : answers.length ≤ requests.length) (request : Request) :
    outstanding (requests ++ [request]) answers = outstanding requests answers ++ [request] :=
  List.drop_append_of_le_length served

theorem matched_request (served : answers.length ≤ requests.length) (request : Request) :
    matched (requests ++ [request]) answers = matched requests answers := by
  induction answers generalizing requests with
  | nil => simp [matched]
  | cons answer answers ih =>
    cases requests with
    | nil => cases served
    | cons first requests => exact congrArg _ (ih (Nat.le_of_succ_le_succ served))

/-- An answer takes the oldest request that is outstanding. -/
theorem outstanding_answer (answer : Answer) :
    outstanding requests (answers ++ [answer]) = (outstanding requests answers).tail := by
  simp [outstanding]

theorem matched_answer {request : Request} {rest : List Request}
    (oldest : outstanding requests answers = request :: rest) (answer : Answer) :
    matched requests (answers ++ [answer]) = matched requests answers ++ [(request, answer)] := by
  induction answers generalizing requests with
  | nil =>
    obtain rfl : requests = request :: rest := oldest
    simp [matched]
  | cons other answers ih =>
    cases requests with
    | nil => cases oldest
    | cons first requests => exact congrArg _ (ih oldest)

theorem served_answer {request : Request} {rest : List Request}
    (oldest : outstanding requests answers = request :: rest) (answer : Answer) :
    (answers ++ [answer]).length ≤ requests.length := by
  have unanswered := congrArg List.length oldest
  simp only [outstanding, List.length_drop, List.length_cons] at unanswered
  rw [List.length_append, List.length_singleton]
  omega

end Fifo
